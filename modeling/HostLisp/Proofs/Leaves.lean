import HostLisp.Proofs.JournalledCalls
import HostLisp.Proofs.Placement
import Mathlib.Data.List.Forall2

/-!
# Leaves

The leaves of the tree of a source are tokens of the source, in the order in which they stand there.

## Main results

`parse_leaves`: the leaves of a tree are among the tokens, in order.

`parse_leaves_distinct`: no two leaves of a tree are equal.

`Node.Has.literal_within`: a string literal of a tree stands between its quotes.

## Proof strategy

Tokens make up a row of nodes, and each leaf of the row is one of them. Tokens stand at different
offsets, so leaves do.
-/

namespace HostLisp

/-! ### The leaves of a tree -/

namespace Node

mutual

/-- The nodes of a tree that are no lists, from left to right. -/
def leaves : Node → List Node
  | .symbol span => [.symbol span]
  | .string span => [.string span]
  | .list _ children => leavesOf children
  | .value v => [.value v]
termination_by structural node => node

def leavesOf : List Node → List Node
  | [] => []
  | node :: rest => leaves node ++ leavesOf rest
termination_by structural nodes => nodes

end

theorem leavesOf_append (nodes nodes' : List Node) :
    leavesOf (nodes ++ nodes') = leavesOf nodes ++ leavesOf nodes' := by
  induction nodes with
  | nil => rfl
  | cons node rest ih => rw [List.cons_append, leavesOf, ih, leavesOf, List.append_assoc]

theorem leaves_subset_leavesOf {node : Node} {nodes : List Node} (member : node ∈ nodes) :
    node.leaves ⊆ leavesOf nodes := by
  induction nodes with
  | nil => simp at member
  | cons first rest ih =>
    rw [leavesOf]
    rcases List.mem_cons.mp member with rfl | later
    · exact List.subset_append_left _ _
    · exact List.subset_append_of_subset_right _ (ih later)

theorem Has.leaves_subset {tree node : Node} (has : tree.Has node) : node.leaves ⊆ tree.leaves := by
  induction has with
  | self node => exact List.Subset.refl _
  | inside member _ ih => exact List.Subset.trans ih (leaves_subset_leavesOf member)

end Node

/-! ### Leaves among tokens -/

/-- A token is a leaf. A closing parenthesis can be a symbol without characters. -/
inductive Token.IsLeaf : Token → Node → Prop
  | symbol (span : Span) : IsLeaf (.symbol span) (.symbol span)
  | string (span : Span) : IsLeaf (.string span) (.string span)
  | closing (offset : Nat) (broken : Bool) : IsLeaf (.closing offset broken) (.symbol ⟨offset, 0⟩)

/-- Leaves are some of the tokens, in order. -/
def Token.Bear (tokens : List Token) (leaves : List Node) : Prop :=
  ∃ picked, picked.Sublist tokens ∧ List.Forall₂ Token.IsLeaf picked leaves

namespace Token

theorem IsLeaf.spanned {token : Token} {leaf : Node} (made : token.IsLeaf leaf) :
    ∃ span, (leaf = .symbol span ∨ leaf = .string span) ∧ span.start = token.offset := by
  cases made with
  | symbol span => exact ⟨span, Or.inl rfl, rfl⟩
  | string span => exact ⟨span, Or.inr rfl, rfl⟩
  | closing offset broken => exact ⟨_, Or.inl rfl, rfl⟩

/-- Leaves whose tokens stand at different offsets are not equal. -/
theorem IsLeaf.equals_eq_false {token token' : Token} {leaf leaf' : Node}
    (made : token.IsLeaf leaf) (made' : token'.IsLeaf leaf')
    (before : token.offset < token'.offset) : leaf.equals leaf' = false := by
  obtain ⟨span, kind, start⟩ := made.spanned
  obtain ⟨span', kind', start'⟩ := made'.spanned
  have other : span ≠ span' := by
    rintro rfl
    omega
  rcases kind with rfl | rfl <;> rcases kind' with rfl | rfl <;> simp [Node.equals, other]

theorem bear_one {token : Token} {leaf : Node} (made : token.IsLeaf leaf) (rest : List Token) :
    Bear (token :: rest) [leaf] :=
  ⟨[token], (List.nil_sublist rest).cons_cons token, .cons made .nil⟩

theorem Bear.append {tokens tokens' : List Token} {leaves leaves' : List Node}
    (first : Bear tokens leaves) (second : Bear tokens' leaves') :
    Bear (tokens ++ tokens') (leaves ++ leaves') := by
  obtain ⟨picked, among, each⟩ := first
  obtain ⟨picked', among', each'⟩ := second
  exact ⟨picked ++ picked', among.append among', List.rel_append each each'⟩

theorem Bear.of_sublist {tokens tokens' : List Token} {leaves : List Node}
    (bear : Bear tokens leaves) (part : tokens.Sublist tokens') : Bear tokens' leaves := by
  obtain ⟨picked, among, each⟩ := bear
  exact ⟨picked, among.trans part, each⟩

/-- Each leaf is one of the tokens. -/
theorem Bear.exists_token {tokens : List Token} {leaves : List Node} {leaf : Node}
    (bear : Bear tokens leaves) (member : leaf ∈ leaves) : ∃ token ∈ tokens, token.IsLeaf leaf := by
  obtain ⟨picked, among, each⟩ := bear
  obtain ⟨index, rfl⟩ := List.get_of_mem member
  have bound : index.val < picked.length := each.length_eq.symm ▸ index.isLt
  exact ⟨picked.get ⟨index, bound⟩, among.subset (List.get_mem picked _),
    each.get bound index.isLt⟩

/-- Leaves among tokens that stand in the order of their offsets are different. -/
theorem Bear.distinct {tokens : List Token} {leaves : List Node} (bear : Bear tokens leaves)
    (ordered : tokens.Pairwise fun first second => first.offset < second.offset) :
    leaves.Pairwise fun first second => first.equals second = false := by
  obtain ⟨picked, among, each⟩ := bear
  -- The tokens that bear leaves keep their order, so a later leaf has a later offset.
  have inOrder := ordered.sublist among
  clear among
  induction each with
  | nil => exact .nil
  | @cons token leaf picked leaves made rest ih =>
    obtain ⟨before, inOrder'⟩ := List.pairwise_cons.mp inOrder
    refine List.pairwise_cons.mpr ⟨fun later member => ?_, ih inOrder'⟩
    obtain ⟨token', inside, made'⟩ := Bear.exists_token ⟨picked, .refl _, rest⟩ member
    exact made.equals_eq_false made' (before token' inside)

theorem bear_ending (stop : Nat) (broken : Bool) :
    Bear [.closing stop broken] (Node.leavesOf (ending stop broken)) := by
  cases broken with
  | false => exact ⟨[], List.nil_sublist _, .nil⟩
  | true => exact bear_one (.closing stop true) []

end Token

/-- The leaves of a row of nodes are among the tokens that make it up. -/
theorem Structure.bear {tokens : List Token} {nodes : List Node} (made : Structure tokens nodes) :
    Token.Bear tokens (Node.leavesOf nodes) := by
  induction made with
  | nil => exact ⟨[], .slnil, .nil⟩
  | symbol span _ ih => exact (Token.bear_one (.symbol span) []).append ih
  | string span _ ih => exact (Token.bear_one (.string span) []).append ih
  | @group inner children tokens nodes start stop broken _ _ ihInside ihRest =>
    -- The items of the group, what its end adds to them, and the nodes after it.
    have whole := (ihInside.append (Token.bear_ending stop broken)).append ihRest
    rw [← Node.leavesOf_append] at whole
    refine whole.of_sublist ?_
    simp

/-! ### Leaves in sources -/

/-- The leaves of the tree of a source are among its tokens. -/
theorem parse_leaves {source : List Char} {root : Node} (parsed : parse source = .ok root) :
    Token.Bear (Token.scan source) root.leaves := by
  have leading := (parse_iff_leading source root).mp parsed
  generalize Token.scan source = tokens at leading
  cases leading with
  | symbol span rest => exact Token.bear_one (.symbol span) rest
  | string span rest => exact Token.bear_one (.string span) rest
  | closing offset broken rest => exact Token.bear_one (.closing offset broken) rest
  | @group inner children start stop broken inside rest =>
    -- A list at the root is a row of one, and what follows it bears no leaf.
    have row : Structure _ [_] := .group start stop broken inside .nil
    have bear := row.bear
    rw [Node.leavesOf, Node.leavesOf, List.append_nil] at bear
    exact bear.of_sublist (by simp)

/-- No two leaves of the tree of a source are equal. -/
theorem parse_leaves_distinct {source : List Char} {root : Node} (parsed : parse source = .ok root) :
    root.leaves.Pairwise fun first second => first.equals second = false :=
  (parse_leaves parsed).distinct (Token.scan_ordered source)

/-- A string literal of a tree stands in the source, between its quotes. -/
theorem Node.Has.literal_within {source : List Char} {root : Node} {span : Span}
    (parsed : parse source = .ok root) (has : root.Has (.string span)) :
    (Token.string span).Within source := by
  have leaf : Node.string span ∈ root.leaves := has.leaves_subset (by simp [Node.leaves])
  obtain ⟨token, member, made⟩ := (parse_leaves parsed).exists_token leaf
  have within := Token.scan_within source token member
  cases made with
  | string _ => exact within

end HostLisp
