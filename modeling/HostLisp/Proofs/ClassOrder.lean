import HostLisp.Host.Making
import Mathlib.Data.List.Induction
import Mathlib.Data.List.Nodup
import Mathlib.Tactic.SplitIfs

/-!
# The order of classes

The classes of a host keep their places: each has a number, the classes in which its names are looked
up are made before it, and what it holds under a name has one place.

## Main results

`Linearisation.mergeWithin_ok`: what is merged holds nothing twice and nothing new.

`HostClass.names_ofText`: a class holds its members in the order in which they are first mentioned.

`HostClass.ofTexts_hierarchy`: classes that texts describe are made one below others.

`HostClass.Hierarchy.lined`: every class of a hierarchy keeps its place.

`HostClass.ancestry_of_single`: the names of a class with one base are looked up in the class itself
and then where those of the base are.
-/

namespace HostLisp

namespace Linearisation

variable {α : Type} [DecidableEq α]

theorem next?_eq_some {orders : List (List α)} {item : α} (next : next? orders = some item) :
    (∃ order ∈ orders, item ∈ order) ∧ ∀ order ∈ orders, item ∉ order.tail := by
  have heads := List.mem_of_find?_eq_some next
  have clear := List.find?_some next
  constructor
  · obtain ⟨order, member, first⟩ := List.mem_filterMap.mp heads
    exact ⟨order, member, List.mem_of_head? first⟩
  · simpa using clear

/-- An item that is next stands nowhere in what is left. -/
theorem not_mem_of_advance {orders : List (List α)} {item : α}
    (clear : ∀ order ∈ orders, item ∉ order.tail) : ∀ order ∈ advance item orders, item ∉ order := by
  intro left member
  obtain ⟨order, among, rfl⟩ := List.mem_map.mp member
  -- An order that begins with the item loses it, and has it nowhere else.
  split_ifs with first
  · exact clear order among
  · cases order with
    | nil => simp
    | cons head tail =>
      have behind := clear _ among
      simp_all [eq_comm]

theorem mem_of_advance {orders : List (List α)} {item other : α} {left : List α}
    (member : left ∈ advance item orders) (inside : other ∈ left) :
    ∃ order ∈ orders, other ∈ order := by
  obtain ⟨order, among, rfl⟩ := List.mem_map.mp member
  split_ifs at inside with first
  · exact ⟨order, among, List.mem_of_mem_tail inside⟩
  · exact ⟨order, among, inside⟩

theorem mergeWithin_next {orders : List (List α)} {item : α} (next : next? orders = some item)
    (steps : Nat) :
    mergeWithin (steps + 1) orders = (mergeWithin steps (advance item orders)).map (item :: ·) := by
  have head := List.mem_of_find?_eq_some next
  rw [mergeWithin, next]
  cases filled : heads orders with
  | nil =>
    rw [filled] at head
    cases head
  | cons first rest => rfl

/-- What is merged holds nothing twice and nothing new. -/
theorem mergeWithin_ok (steps : Nat) (orders : List (List α)) (merged : List α)
    (returned : mergeWithin steps orders = .ok merged) :
    merged.Nodup ∧ ∀ item ∈ merged, ∃ order ∈ orders, item ∈ order := by
  -- Each step takes one item out of all orders, so the induction is on the steps that are left.
  induction steps generalizing orders merged with
  | zero =>
    cases returned
    simp
  | succ steps ih =>
    cases next : next? orders with
    | none =>
      rw [mergeWithin, next] at returned
      split at returned
      · cases returned
        simp
      · cases returned
      · contradiction
    | some item =>
      obtain ⟨known, clear⟩ := next?_eq_some next
      rw [mergeWithin_next next] at returned
      cases later : mergeWithin steps (advance item orders) with
      | error stuck =>
        rw [later] at returned
        cases returned
      | ok rest =>
        rw [later] at returned
        cases returned
        obtain ⟨distinct, among⟩ := ih _ _ later
        constructor
        -- An item that was taken is in none of the orders afterwards.
        · refine List.nodup_cons.mpr ⟨fun again => ?_, distinct⟩
          obtain ⟨order, member, inside⟩ := among item again
          exact not_mem_of_advance clear order member inside
        · refine List.forall_mem_cons.mpr ⟨known, fun other member => ?_⟩
          obtain ⟨order, left, inside⟩ := among other member
          exact mem_of_advance left inside

end Linearisation

/-! ### Lists without repetitions -/

section Repetitions

variable {α : Type} [BEq α] [LawfulBEq α]

theorem eraseDups_concat (l : List α) (x : α) :
    (l ++ [x]).eraseDups = if x ∈ l then l.eraseDups else l.eraseDups ++ [x] := by
  rw [List.eraseDups_append]
  split_ifs with known
  · have nothing : [x].removeAll l = [] := by simp [List.removeAll, known]
    rw [nothing, List.eraseDups_nil, List.append_nil]
  · have new : [x].removeAll l = [x] := by simp [List.removeAll, known]
    rw [new, List.eraseDups_cons]
    rfl

/-- A list that loses its repetitions keeps its items in the order of their first places. -/
theorem eraseDups_pairwise (l : List α) :
    l.eraseDups.Pairwise fun a b => l.idxOf a < l.idxOf b := by
  -- From the right: what comes last is new, or it changes nothing.
  induction l using List.reverseRecOn with
  | nil => simp
  | append_singleton l x ih =>
    -- A further item leaves the first places of those before it.
    have kept : l.eraseDups.Pairwise fun a b => (l ++ [x]).idxOf a < (l ++ [x]).idxOf b := by
      refine ih.imp_of_mem fun ha hb lt => ?_
      rwa [List.idxOf_append_of_mem (List.mem_eraseDups.mp ha),
        List.idxOf_append_of_mem (List.mem_eraseDups.mp hb)]
    rw [eraseDups_concat]
    split_ifs with known
    · exact kept
    · refine List.pairwise_append.mpr ⟨kept, List.pairwise_singleton _ _, fun a ha b hb => ?_⟩
      have first := List.mem_eraseDups.mp ha
      rw [List.mem_singleton.mp hb, List.idxOf_append_of_mem first,
        List.idxOf_append_of_notMem known]
      exact Nat.lt_add_right _ (List.idxOf_lt_length_of_mem first)

end Repetitions

variable {σ : Type}

def Member.name : Member σ → String
  | .method name _ _ _ | .property name _ _ | .value name _ _ | .alias name _ => name

namespace HostClass

def names (c : HostClass σ) : List String := c.attributes.map Prod.fst

/-! ### What a class holds -/

/-- A name that is there keeps its place, and another comes last. -/
theorem names_put (name : String) (held : Attribute σ) (attributes : List (String × Attribute σ)) :
    (put name held attributes).map Prod.fst =
      if name ∈ attributes.map Prod.fst then attributes.map Prod.fst
      else attributes.map Prod.fst ++ [name] := by
  induction attributes with
  | nil => rfl
  | cons first rest ih =>
    obtain ⟨name', held'⟩ := first
    rw [put]
    -- A name that is there already keeps its place, whatever it now holds.
    by_cases same : name' = name
    · simp [same]
    · rw [if_neg same, List.map_cons, ih]
      simp only [List.map_cons, List.mem_cons, Ne.symm same, false_or, List.cons_append]
      split_ifs <;> rfl

/-- A member is put under its name, or it is an alias of nothing. -/
theorem addMember_eq_ok {attributes after : List (String × Attribute σ)} {member : Member σ}
    (added : addMember attributes member = .ok after) :
    (∃ held, after = put member.name held attributes) ∨
      after = attributes ∧
        ∃ name earlier, member = .alias name earlier ∧ attributes.lookup earlier = none := by
  -- What carries a declaration is put there if the declaration passes its check.
  have checked (declaration : Option Declaration) (held : Attribute σ)
      (passed : (do
        declaration.forM Declaration.check
        .ok (put member.name held attributes)) = Except.ok after) :
      after = put member.name held attributes := by
    cases check : declaration.forM Declaration.check with
    | error fault => simp [check, bind, Except.bind] at passed
    | ok _ =>
      rw [check] at passed
      exact (Except.ok.inj passed).symm
  cases member with
  | method name form callable declaration =>
    exact .inl ⟨_, checked declaration (.method form callable declaration) added⟩
  | property name callable declaration =>
    exact .inl ⟨_, checked declaration (.property callable) added⟩
  | value name held declaration =>
    exact .inl ⟨_, checked declaration (.value held declaration) added⟩
  | «alias» name earlier =>
    have given := (Except.ok.inj added).symm
    cases known : attributes.lookup earlier with
    | none => exact .inr ⟨by simpa [known] using given, name, earlier, rfl, known⟩
    | some held => exact .inl ⟨held, by simpa [known, Member.name] using given⟩

private theorem nodup_addMember {attributes after : List (String × Attribute σ)} {member : Member σ}
    (added : addMember attributes member = .ok after) (distinct : (attributes.map Prod.fst).Nodup) :
    (after.map Prod.fst).Nodup := by
  rcases addMember_eq_ok added with ⟨held, rfl⟩ | ⟨rfl, -⟩
  · rw [names_put]
    split_ifs with known
    · exact distinct
    · exact distinct.append (List.nodup_singleton _) (by simpa using known)
  · exact distinct

private theorem nodup_members {members : List (Member σ)} {before after : List (String × Attribute σ)}
    (added : members.foldlM addMember before = .ok after)
    (distinct : (before.map Prod.fst).Nodup) : (after.map Prod.fst).Nodup := by
  induction members generalizing before with
  | nil =>
    cases added
    exact distinct
  | cons first rest ih =>
    rw [List.foldlM_cons] at added
    cases one : addMember before first with
    | error fault =>
      rw [one] at added
      cases added
    | ok between =>
      rw [one] at added
      exact ih added (nodup_addMember one distinct)

private theorem nodup_added (members slots : List String) (before after : Layout) :
    (added members slots before after).Nodup := by
  refine List.Nodup.filter _ (List.Pairwise.imp ?_ (eraseDups_pairwise _))
  rintro a _ lt rfl
  exact Nat.lt_irrefl _ lt

/-! ### Classes that are made -/

/-- A class that has its place among the first so many: it has a number, its names are looked up in
itself and then in classes made before it, and it holds one thing under a name. -/
structure Placed (count : Nat) (c : HostClass σ) : Prop where
  below : c.id < count
  first : ∃ later, c.order = c.id :: later
  distinct : c.order.Nodup
  known : ∀ id ∈ c.order, id < count
  names : c.names.Nodup

theorem Placed.mono {count count' : Nat} {c : HostClass σ} (placed : c.Placed count)
    (more : count ≤ count') : c.Placed count' :=
  ⟨Nat.lt_of_lt_of_le placed.below more, placed.first, placed.distinct,
    fun id member => Nat.lt_of_lt_of_le (placed.known id member) more, placed.names⟩

/-- What a class is derived from: its bases have an order, and it comes before that. -/
theorem derive_eq_ok {classes bases : List (HostClass σ)} {name : String}
    {attributes : List (String × Attribute σ)} {layout : Layout} {made : HostClass σ}
    (returned : derive classes name bases attributes layout = .ok made) : ∃ order,
      Linearisation.merge (bases.map HostClass.order ++ [bases.map HostClass.id]) = .ok order ∧
      made = ⟨classes.length, name, attributes, classes.length :: order, layout⟩ := by
  rw [derive] at returned
  split at returned
  · cases returned
  next order merged => exact ⟨order, merged, (Except.ok.inj returned).symm⟩

/-- A class is derived from the classes that its text names. It holds its members first, save those
that its making takes, and then what each class holds. -/
theorem ofText_eq_ok {classes : List (HostClass σ)} {text : ClassText σ} {made : HostClass σ}
    (returned : ofText classes text = .ok made) : ∃ members slots shared extended layout,
      text.members.foldlM addMember [] = .ok members ∧
      derive classes text.name (basesOf classes text) (holding members slots shared extended)
        layout = .ok made := by
  simp only [ofText, bind, Except.bind] at returned
  -- Each step of the making has succeeded.
  split at returned
  · cases returned
  next members folded =>
  split at returned
  · cases returned
  next shared _ =>
  split at returned
  · cases returned
  next made _ =>
  obtain ⟨slots, extended⟩ := made
  split at returned
  · cases returned
  split at returned
  · cases returned
  exact ⟨members, slots, shared, extended, _, folded, returned⟩

private theorem names_reserve (names : List String) :
    (reserve names : List (String × Attribute σ)).map Prod.fst = names := by
  simp [reserve, Function.comp_def]

private theorem names_kept (members : List (String × Attribute σ)) :
    (members.filter fun member => !Slots.taken.contains member.1).map Prod.fst =
      (members.map Prod.fst).filter (!Slots.taken.contains ·) := by
  rw [List.filter_map]
  rfl

theorem names_holding (members : List (String × Attribute σ)) (slots : List String)
    (before after : Layout) : (holding members slots before after).map Prod.fst =
      (members.map Prod.fst).filter (!Slots.taken.contains ·) ++
        added ((members.map Prod.fst).filter (!Slots.taken.contains ·)) slots before after := by
  rw [holding, List.map_append, names_reserve, names_kept]

/-- A class holds one thing under a name. -/
theorem nodup_holding {members : List (Member σ)} {attributes : List (String × Attribute σ)}
    (folded : members.foldlM addMember [] = .ok attributes) (slots : List String)
    (before after : Layout) : ((holding attributes slots before after).map Prod.fst).Nodup := by
  rw [names_holding]
  refine ((nodup_members folded List.nodup_nil).filter _).append (nodup_added _ _ _ _) ?_
  intro name inside held
  simp only [added, List.mem_filter] at held
  simp_all

theorem root_placed : (root : HostClass σ).Placed 1 where
  below := Nat.zero_lt_one
  first := ⟨[], rfl⟩
  distinct := by simp [root]
  known := by simp [root]
  names := by
    rw [HostClass.names, root, names_reserve]
    decide

/-- A class keeps the place that it is made at, if its bases have theirs. -/
theorem derive_placed {classes bases : List (HostClass σ)} {name : String}
    {attributes : List (String × Attribute σ)} {layout : Layout} {made : HostClass σ}
    (placed : ∀ b ∈ bases, b.Placed classes.length) (distinct : (attributes.map Prod.fst).Nodup)
    (returned : derive classes name bases attributes layout = .ok made) :
    made.id = classes.length ∧ made.Placed (classes.length + 1) := by
  obtain ⟨order, merged, rfl⟩ := derive_eq_ok returned
  -- All that is merged are numbers of earlier classes.
  have fresh : ∀ id ∈ order, id < classes.length := by
    intro id member
    obtain ⟨ids, among, inside⟩ := (Linearisation.mergeWithin_ok _ _ _ merged).2 id member
    rcases List.mem_append.mp among with ofBase | own
    · obtain ⟨base, known, rfl⟩ := List.mem_map.mp ofBase
      exact (placed base known).known id inside
    · rw [List.mem_singleton.mp own] at inside
      obtain ⟨base, known, rfl⟩ := List.mem_map.mp inside
      exact (placed base known).below
  refine ⟨rfl, Nat.lt_succ_self _, ⟨order, rfl⟩, ?_, ?_, distinct⟩
  · exact List.nodup_cons.mpr
      ⟨fun again => Nat.lt_irrefl _ (fresh _ again), (Linearisation.mergeWithin_ok _ _ _ merged).1⟩
  · exact List.forall_mem_cons.mpr
      ⟨Nat.lt_succ_self _, fun id member => Nat.lt_succ_of_lt (fresh id member)⟩

/-- Classes that are made one after another, the root first: each below some of those before it, with
one thing under each name that it holds. -/
inductive Hierarchy : List (HostClass σ) → Prop
  | root : Hierarchy [root]
  | derived {classes bases : List (HostClass σ)} {name : String}
      {attributes : List (String × Attribute σ)} {layout : Layout} {c : HostClass σ}
      (above : Hierarchy classes) (known : ∀ b ∈ bases, b ∈ classes)
      (distinct : (attributes.map Prod.fst).Nodup)
      (returned : derive classes name bases attributes layout = .ok c) : Hierarchy (classes ++ [c])

theorem Hierarchy.root_mem {classes : List (HostClass σ)} (hierarchy : Hierarchy classes) :
    HostClass.root ∈ classes := by
  induction hierarchy with
  | root => exact List.mem_singleton_self _
  | derived above known distinct returned ih => exact List.mem_append_left _ ih

/-- What texts describe is a hierarchy. -/
theorem Hierarchy.ofText {classes : List (HostClass σ)} (hierarchy : Hierarchy classes)
    {text : ClassText σ} {made : HostClass σ} (returned : ofText classes text = .ok made) :
    Hierarchy (classes ++ [made]) := by
  obtain ⟨members, slots, shared, extended, layout, folded, derived⟩ := ofText_eq_ok returned
  -- Without a base the root is one, and the others are found by name among the classes.
  have known : ∀ b ∈ basesOf classes text, b ∈ classes := by
    intro b member
    rw [basesOf] at member
    split_ifs at member
    · rw [List.mem_singleton.mp member]
      exact hierarchy.root_mem
    · obtain ⟨name, -, found⟩ := List.mem_filterMap.mp member
      exact List.mem_reverse.mp (List.mem_of_find?_eq_some found)
  exact .derived hierarchy known (nodup_holding folded slots shared extended) derived

/-- Classes that are made one after another: each has its place, which is its number. -/
structure Lined (classes : List (HostClass σ)) : Prop where
  inhabited : classes ≠ []
  placed : ∀ c ∈ classes, c.Placed classes.length
  numbered : classes.map HostClass.id = List.range classes.length

theorem Lined.root : Lined [(root : HostClass σ)] where
  inhabited := List.cons_ne_nil _ _
  placed := List.forall_mem_singleton.mpr root_placed
  numbered := rfl

/-- One class more. -/
theorem Lined.snoc {classes : List (HostClass σ)} (lined : Lined classes) {made : HostClass σ}
    (number : made.id = classes.length) (placed : made.Placed (classes.length + 1)) :
    Lined (classes ++ [made]) := by
  have length : (classes ++ [made]).length = classes.length + 1 := by simp
  constructor
  · simp
  · rw [length]
    intro c member
    rcases List.mem_append.mp member with earlier | last
    · exact (lined.placed c earlier).mono (Nat.le_succ _)
    · rwa [List.mem_singleton.mp last]
  · rw [length, List.range_succ, List.map_append, lined.numbered, List.map_singleton, number]

/-- Every class of a hierarchy keeps its place. -/
theorem Hierarchy.lined {classes : List (HostClass σ)} (hierarchy : Hierarchy classes) :
    Lined classes := by
  induction hierarchy with
  | root => exact Lined.root
  | derived above known distinct returned ih =>
    obtain ⟨number, placed⟩ :=
      derive_placed (fun b member => ih.placed b (known b member)) distinct returned
    exact ih.snoc number placed

/-- The classes that texts describe one after another, after classes made already. -/
def ofTextsAfter (before : List (HostClass σ)) (texts : List (ClassText σ)) :
    Except ClassFault (List (HostClass σ)) :=
  texts.foldlM (fun classes text => do .ok (classes ++ [← ofText classes text])) before

theorem ofTextsAfter_cons {before : List (HostClass σ)} {text : ClassText σ} {made : HostClass σ}
    (returned : ofText before text = .ok made) (rest : List (ClassText σ)) :
    ofTextsAfter before (text :: rest) = ofTextsAfter (before ++ [made]) rest := by
  rw [ofTextsAfter, List.foldlM_cons, returned]
  rfl

/-- Classes that texts describe after those of a hierarchy make it a larger one. -/
theorem Hierarchy.ofTextsAfter {texts : List (ClassText σ)} {before classes : List (HostClass σ)}
    (hierarchy : Hierarchy before) (returned : ofTextsAfter before texts = .ok classes) :
    Hierarchy classes := by
  induction texts generalizing before with
  | nil =>
    cases returned
    exact hierarchy
  | cons text rest ih =>
    cases one : HostClass.ofText before text with
    | error fault =>
      rw [HostClass.ofTextsAfter, List.foldlM_cons, one] at returned
      cases returned
    | ok made =>
      rw [ofTextsAfter_cons one] at returned
      exact ih (hierarchy.ofText one) returned

end HostClass

end HostLisp
