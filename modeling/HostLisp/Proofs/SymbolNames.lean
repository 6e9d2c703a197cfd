import HostLisp.Proofs.FormEvaluation
import HostLisp.Proofs.JournalledCalls
import HostLisp.Proofs.Substitution

/-!
# The names that sources can call

Anything can be registered under any name, but a source can only call what it can spell. The texts
of the symbols of all trees are those without blanks and parentheses that no quote begins, and so
are the names that can be called. The empty name is among them: a line break in front of a closing
parenthesis spells it, with nothing after it.

## Main results

`Node.Has.symbol_of_parse`: the symbols of a tree have such texts.

`parse_callOf`: each such text is the head of a list that some source spells.

`empty_head_of_parse`: how a list with an empty symbol in front is spelled.

`callable_names`: which registered names can be called.

## Proof strategy

Each node of a tree that is read has a readable form, by induction on where it is in the tree. For
lists with an empty head the induction is on how the tree is spelled. Calls are followed with what
evaluation adds to the journal.
-/

namespace HostLisp

/-! ### Symbols of trees -/

namespace Node

theorem forms?_of_mem {source : List Char} {nodes : List Node} {forms : List (Form Int)}
    {node : Node} (formed : forms? source nodes = some forms) (member : node ∈ nodes) :
    ∃ form ∈ forms, form? source node = some form := by
  induction nodes generalizing forms with
  | nil => simp at member
  | cons first rest ih =>
    obtain ⟨form, others, here, there, rfl⟩ := forms?_cons_eq_some.mp formed
    rcases List.mem_cons.mp member with rfl | later
    · exact ⟨form, List.mem_cons_self, here⟩
    · obtain ⟨form', member', found⟩ := ih there later
      exact ⟨form', .tail _ member', found⟩

/-- The nodes of a tree with a readable form have such forms themselves. -/
theorem Has.readable {source : List Char} {tree node : Node} (has : tree.Has node)
    {form : Form Int} (formed : form? source tree = some form) (readable : form.Readable) :
    ∃ form', form? source node = some form' ∧ form'.Readable := by
  induction has generalizing form with
  | self node => exact ⟨form, formed, readable⟩
  | inside member has ih =>
    obtain ⟨offset, items, rfl, inner, rfl⟩ := form?_list_eq_some formed
    obtain ⟨item, among, here⟩ := forms?_of_mem inner member
    cases readable with
    | list _ _ each => exact ih here (each item among)

/-- A symbol of a tree that is read has a text that symbols can have, and a length unless this text
is empty. -/
theorem Has.symbol_of_parse {source : List Char} {root : Node} {span : Span}
    (parsed : parse source = .ok root) (has : root.Has (.symbol span)) :
    IsSymbolText (symbolText span source).toList ∧
      (symbolText span source = "" → span.length = 0) := by
  obtain ⟨form, formed, readable⟩ := parse_form source root parsed
  obtain ⟨form', found, readable'⟩ := has.readable formed readable
  rcases form?_symbol_eq_some found with ⟨empty, rfl⟩ | ⟨filled, nonempty, rfl⟩
  · -- A symbol without a length has no text, wherever it stands.
    have sliced : span.slice source = [] := by
      simp [Span.slice, Span.stop, empty]
    refine ⟨?_, fun _ => empty⟩
    rw [symbolText, sliced]
    exact ⟨by simp, by simp⟩
  · cases readable' with
    | symbol _ _ whole =>
      refine ⟨by simpa [symbolText] using whole, fun blank => absurd ?_ nonempty⟩
      simpa [symbolText] using congrArg String.toList blank

end Node

/-! ### Lists with an empty symbol in front -/

/-- The parenthesis that opens a list is followed by blanks with a line break among them, and then
by the one that closes it. -/
def Node.IsBrokenPair (source : List Char) (start : Option Int) : Prop :=
  ∃ before gap after, source = before ++ '(' :: (gap ++ ')' :: after) ∧
    start = some (before.length : Int) ∧ (∀ c ∈ gap, Reader.isSpace c = true) ∧
    ∃ c ∈ gap, c = '\r' ∨ c = '\n'

theorem Reader.lineBreak_of_isSpace {c : Char} (space : isSpace c = true)
    (notGap : isGap c = false) : c = '\r' ∨ c = '\n' := by
  simpa [isSpace, notGap] using space

/-- A row that an empty symbol begins has nothing else in it. -/
private theorem SpellsRow.blank {offset : Nat} {inner : List Char} {mark : Int}
    {others : List (Form Int)} (row : SpellsRow offset inner (.symbol mark [] :: others)) :
    others = [] ∧ (∀ c ∈ inner, Reader.isSpace c = true) ∧ ∃ c ∈ inner, c = '\r' ∨ c = '\n' := by
  generalize whole : Form.symbol mark [] :: others = forms at row
  cases row with
  | gap _ _ => cases whole
  | broken gap spaces breaks =>
    cases whole
    obtain ⟨c, member, notGap⟩ := breaks
    exact ⟨rfl, spaces, c, member, Reader.lineBreak_of_isSpace (spaces c member) notGap⟩
  | leaf gap spaces first ends others =>
    obtain ⟨same, -⟩ := List.cons.inj whole
    subst same
    cases first with
    | symbol _ filled _ => exact absurd rfl filled
  | group gap spaces inside others => cases whole

section

variable {source inner : List Char} {items : List (Form Int)} {start : Option Int} {head : Span}
  {arguments : List Node}

/-- A list with an empty symbol in front is the list itself that is spelled, or is in one of its
items. -/
private theorem group_broken (before after : List Char)
    (split : source = before ++ '(' :: (inner ++ ')' :: after))
    (row : SpellsRow (before.length + 1) inner items) (empty : head.length = 0)
    (within : ∀ item ∈ items, item.node.Has (.list start (.symbol head :: arguments)) →
      arguments = [] ∧ Node.IsBrokenPair source start)
    (has : (Form.list (before.length : Int) items).node.Has
      (.list start (.symbol head :: arguments))) :
    arguments = [] ∧ Node.IsBrokenPair source start := by
  -- The list that is found is this one or stands inside of one of its items.
  generalize whole : (Form.list (before.length : Int) items).node = tree at has
  cases has with
  | inside member has =>
    cases whole
    rw [Form.nodes_eq_map] at member
    obtain ⟨item, among, rfl⟩ := List.mem_map.mp member
    exact within item among has
  | self =>
    rw [Form.node] at whole
    obtain ⟨rfl, children⟩ := Node.list.inj whole
    -- The first item is a symbol whose text is as long as its span, which is not at all.
    cases items with
    | nil => simp [Form.nodes] at children
    | cons first others =>
      rw [Form.nodes] at children
      obtain ⟨leading, rest⟩ := List.cons.inj children
      cases first with
      | string mark body => cases leading
      | list mark items => cases leading
      | symbol mark text =>
        obtain rfl := Node.symbol.inj leading
        obtain rfl : text = [] := by simpa using empty
        obtain ⟨rfl, spaces, breaks⟩ := row.blank
        exact ⟨rest.symm, before, inner, after, split, rfl, spaces, breaks⟩

private theorem SpellsRow.broken_pairs {offset : Nat} (row : SpellsRow offset inner items)
    (before after : List Char) (split : source = before ++ (inner ++ after))
    (place : before.length = offset)
    (empty : head.length = 0) : ∀ item ∈ items,
      item.node.Has (.list start (.symbol head :: arguments)) →
        arguments = [] ∧ Node.IsBrokenPair source start := by
  -- What stands before an item grows by the items that are passed.
  induction row generalizing before after with
  | gap _ _ => simp
  | broken gap spaces breaks =>
    intro item member has
    obtain rfl := List.mem_singleton.mp member
    cases has
  | @leaf offset text rest form forms gap spaces first ends others ih =>
    refine List.forall_mem_cons.mpr ⟨fun has => ?_, ?_⟩
    · cases first with
      | symbol _ _ _ => cases has
      | string _ _ => cases has
    · exact ih (before ++ gap ++ text) after (by simp [split]) (by simp [place, Nat.add_assoc])
  | @group offset inside rest items forms gap spaces row others ihInside ihOthers =>
    refine List.forall_mem_cons.mpr ⟨?_, ?_⟩
    · have length : (before ++ gap).length = offset + gap.length := by simp [place]
      rw [← length] at row ⊢
      refine group_broken (before ++ gap) (rest ++ after) (by simp [split]) row empty ?_
      exact ihInside (before ++ gap ++ ['(']) (')' :: (rest ++ after)) (by simp [split])
        (by simp [place, Nat.add_assoc])
    · exact ihOthers (before ++ gap ++ '(' :: (inside ++ [')'])) after (by simp [split])
        (by simp [place, Nat.add_assoc])

end

/-- A list with an empty symbol in front has no arguments, and is a pair of parentheses with blanks
and a line break between them. -/
theorem empty_head_of_parse {source : List Char} {root : Node} (parsed : parse source = .ok root)
    {start : Option Int} {head : Span} {arguments : List Node}
    (has : root.Has (.list start (.symbol head :: arguments)))
    (empty : Node.symbolText head source = "") :
    arguments = [] ∧ Node.IsBrokenPair source start := by
  -- An empty text is cut by an empty span, as spans of a tree lie in the source.
  have none : head.length = 0 :=
    (Node.Has.symbol_of_parse parsed (has.trans (.inside List.mem_cons_self (.self _)))).2 empty
  rcases parse_begins parsed with ⟨form, rfl, gap, text, after, split, -, spelled, -⟩ |
    ⟨gap, after, -, -, rfl⟩
  · cases spelled with
    | leaf spelled =>
      cases spelled with
      | symbol _ _ _ => cases has
      | string _ _ => cases has
    | @group inner items inside =>
      refine group_broken gap after (by simpa using split) inside none ?_ has
      exact inside.broken_pairs (gap ++ ['(']) (')' :: after) (by simp [split]) (by simp) none
  · cases has

/-! ### Calls that spell a name -/

/-- A call of a name without arguments. The empty name needs a line break. -/
def callOf (name : List Char) : List Char :=
  '(' :: (name ++ if name = [] then ['\n', ')'] else [')'])

/-- A name that symbols can have is the head of the call. -/
theorem parse_callOf {name : List Char} (whole : IsSymbolText name) : ∃ head,
    parse (callOf name) = .ok (.list (some 0) [.symbol head]) ∧
      Node.symbolText head (callOf name) = String.ofList name := by
  -- A name without characters needs a line break between the parentheses, any other needs nothing.
  have begins : ∃ mark, BeginsWith (callOf name) (.list 0 [.symbol mark name]) := by
    by_cases filled : name = []
    · subst filled
      have row : SpellsRow 1 ['\n'] [.symbol (1 + ['\n'].length : Nat) []] :=
        .broken ['\n'] (List.forall_mem_singleton.mpr (by decide)) ⟨'\n', by simp, by decide⟩
      exact ⟨_, [], _, [], by simp [callOf], by simp, .group row, trivial⟩
    · have row : SpellsRow 1 ([] ++ (name ++ []))
          [.symbol (1 + ([] : List Char).length : Nat) name] :=
        .leaf [] (by simp) (.symbol name filled whole) (by simp [Form.EndsBefore, Stops])
          (.gap [] (by simp))
      exact ⟨_, [], _, [], by simp [callOf, filled], by simp, .group row, trivial⟩
  obtain ⟨mark, begins⟩ := begins
  refine ⟨⟨mark, name.length⟩, begins.parse, ?_⟩
  -- The text of the head is what the form of the tree says.
  obtain ⟨children, shape, inner⟩ := Node.form?_eq_list begins.form?
  obtain ⟨-, rfl⟩ := Node.list.inj shape
  obtain ⟨form, others, here, -, same⟩ := Node.forms?_cons_eq_some.mp inner
  obtain ⟨rfl, -⟩ := List.cons.inj same
  obtain ⟨span, spanned, -, sliced, -⟩ := Node.form?_eq_symbol here
  obtain rfl := Node.symbol.inj spanned
  rw [Node.symbolText, sliced]

namespace Eval

variable {σ : Type} {reenter : String → Eval σ Value} {machine : Machine σ}

/-- A head that is no symbol of the registry, letter by letter, fails before the arguments are
looked at. -/
theorem node_run_unknown {source : List Char} {start : Option Int} {head : Span}
    {arguments : List Node} (absent : Node.symbolText head source ∉ machine.registry.symbols) :
    (node reenter source (.list start (.symbol head :: arguments))).run machine =
      (.error (.evaluation (.unknownFunction (Node.symbolText head source)) (some head.start)),
        machine) := by
  have none : machine.registry.lookup (Node.symbolText head source) = none := by
    simpa [Registry.lookup, Registry.symbols] using absent
  rw [node, run_bind_ok get_run, none]
  rfl

/-- A list without arguments enters the one operation of its head, if that takes none, and from
there on the journal only grows. -/
theorem node_enters {source : List Char} {start : Option Int} {head : Span} {name : String}
    {label : Option String} {run : List Value → Action σ}
    (reentry : ∀ source, Logs (fun _ => True) (reenter source))
    (named : Node.symbolText head source = name)
    (found : machine.registry.lookup name = some ⟨name, [.fixed label [] run]⟩) :
    ∃ added, ((node reenter source (.list start [.symbol head])).run machine).2.journal =
      machine.journal ++ added ∧ .entered name 0 [] ∈ added := by
  have chosen : (⟨name, [.fixed label [] run]⟩ : Overloads σ).choose? [] =
      some (0, .fixed label [] run) := rfl
  -- Whatever the operation does, and also what comes after it, only adds to the journal.
  have logs : Logs (fun _ => True) (do
      let value ← (do
        let value ← perform reenter ((Operation.fixed label [] run).run [])
        record (.returned name 0 (Operation.fixed label [] run).inspect)
        pure value)
      pop
      pure value : Eval σ Value) := by
    apply logs_of
    intro base
    have acts : (logging σ (fun _ => True) base).Performs reenter reenter fun _ => True :=
      performs_logging fun source => (reentry source).holds
    apply ((acts.perform _ trivial).bind fun value => ?_).bind
    · intro value
      exact logging_stacked.pop.bind fun _ => .pure value
    · exact (logging_record trivial).bind fun _ => .pure value
  have found' : machine.registry.lookup (Node.symbolText head source) =
      some ⟨name, [.fixed label [] run]⟩ := by
    rw [named, found]
  rw [node_run found' rfl, run_bind_congr (call_run chosen _)]
  obtain ⟨added, written, -⟩ := logs _
  rw [written]
  exact ⟨.call name 0 1 :: .entered name 0 [] :: added, by simp, by simp⟩

end Eval

/-! ### Names -/

/-- The texts of the symbols of all trees are those that symbols can have. -/
theorem exists_symbol_iff (text : String) :
    (∃ source root span, parse source = .ok root ∧ root.Has (.symbol span) ∧
      Node.symbolText span source = text) ↔ IsSymbolText text.toList := by
  constructor
  · rintro ⟨source, root, span, parsed, has, rfl⟩
    exact (has.symbol_of_parse parsed).1
  · intro whole
    obtain ⟨head, parsed, named⟩ := parse_callOf whole
    exact ⟨_, _, head, parsed, .inside List.mem_cons_self (.self _), by simpa using named⟩

/-- What evaluations add to the journal is about names that symbols can have. -/
theorem Called.isSymbolText {name : String} {argumentCount : Nat}
    (called : Called name argumentCount) : IsSymbolText name.toList := by
  obtain ⟨source, root, start, head, arguments, parsed, has, rfl, -⟩ := called
  have inside : root.Has (.symbol head) := has.trans (.inside List.mem_cons_self (.self _))
  exact (inside.symbol_of_parse parsed).1

/-- The empty name is called without arguments only. -/
theorem Called.argumentCount_eq_zero {argumentCount : Nat} (called : Called "" argumentCount) :
    argumentCount = 0 := by
  obtain ⟨source, root, start, head, arguments, parsed, has, empty, rfl⟩ := called
  obtain ⟨rfl, -⟩ := empty_head_of_parse parsed has empty
  rfl

/-- An operation that takes no arguments, and is the only one of its name, can be called by a source
exactly if symbols can have that name. These are the names that the symbols of trees have. What a
source calls is named, letter by letter, by the head of a list that stands in a source, with as many
arguments as the list has, and a head that is not registered letter by letter calls nothing. Where
the head is empty there are no arguments, and blanks with a line break stand between the
parentheses. -/
theorem callable_names {σ : Type} (machine : Machine σ) {name : String} {label : Option String}
    {run : List Value → Action σ}
    (registered : machine.registry.lookup name = some ⟨name, [.fixed label [] run]⟩) :
    ((∃ source, machine.Writes source (.entered name 0 [])) ↔ IsSymbolText name.toList) ∧
    (∀ text : String, (∃ source root span, parse source = .ok root ∧ root.Has (.symbol span) ∧
      Node.symbolText span source = text) ↔ IsSymbolText text.toList) ∧
    (∀ source called place args, machine.Writes source (.entered called place args) →
      Called called args.length ∧ (called = "" → args = [])) ∧
    (∀ (reenter : String → Eval σ Value) (current : Machine σ) source start head arguments,
      Node.symbolText head source ∉ current.registry.symbols →
        (Eval.node reenter source (.list start (.symbol head :: arguments))).run current =
          (.error (.evaluation (.unknownFunction (Node.symbolText head source)) (some head.start)),
            current)) ∧
    ∀ source root start head arguments, parse source = .ok root →
      root.Has (.list start (.symbol head :: arguments)) → Node.symbolText head source = "" →
        arguments = [] ∧ Node.IsBrokenPair source start := by
  -- The names that calls enter are those that symbols spell; each half is shown on its own.
  refine ⟨⟨?_, ?_⟩, exists_symbol_iff, ?_, ?_, ?_⟩
  · rintro ⟨source, writes⟩
    exact Called.isSymbolText (machine.evaluate_logs writes)
  · intro whole
    obtain ⟨head, parsed, named⟩ := parse_callOf whole
    rw [String.ofList_toList] at named
    refine ⟨String.ofList (callOf name.toList), ?_⟩
    have parsed' : parse (String.ofList (callOf name.toList)).toList =
        .ok (.list (some 0) [.symbol head]) := by
      rw [String.toList_ofList, parsed]
    rw [Machine.Writes, machine.evaluate_of_parse parsed', String.toList_ofList]
    have reentry (source : String) : Eval.Logs (fun _ => True)
        (Eval.sourceWithin (Eval.nestingDepth - 1) source : Eval σ Value) :=
      (Eval.sourceWithin_logs _ source).imp fun _ _ => trivial
    exact Eval.node_enters reentry named registered
  · intro source called place args writes
    have here : Called called args.length := machine.evaluate_logs writes
    exact ⟨here, by rintro rfl; exact List.length_eq_zero_iff.mp here.argumentCount_eq_zero⟩
  · exact fun _ _ _ _ _ _ absent => Eval.node_run_unknown absent
  · exact fun _ _ _ _ _ parsed has empty => empty_head_of_parse parsed has empty

/-- A machine with one operation, which takes no arguments. -/
def Machine.namesake (name : String) : Machine Unit :=
  (Machine.fresh .empty ()).register name (.fixed none [] fun _ => .give .null)

/-- An operation without a name can be called, and one with a space in its name cannot. -/
theorem callable_names_namesake :
    (∀ name, (Machine.namesake name).registry.lookup name =
      some ⟨name, [.fixed none [] fun _ => .give .null]⟩) ∧
    (∃ source, (Machine.namesake "").Writes source (.entered "" 0 [])) ∧
    ¬ ∃ source, (Machine.namesake "a b").Writes source (.entered "a b" 0 []) := by
  have registered (name : String) : (Machine.namesake name).registry.lookup name =
      some ⟨name, [.fixed none [] fun _ => .give .null]⟩ := by
    simp [Machine.namesake, Machine.fresh, Machine.register, Registry.empty, Registry.register,
      Registry.insert, Registry.lookup]
  refine ⟨registered, ?_, ?_⟩
  · exact (callable_names _ (registered "")).1.mpr ⟨by simp, by simp⟩
  · intro called
    have whole := (callable_names _ (registered "a b")).1.mp called
    exact absurd (whole.inside ' ' (by decide)) (by decide)

end HostLisp
