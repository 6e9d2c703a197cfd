import HostLisp.Proofs.Spelling
import HostLisp.Proofs.StandardMeaning

/-!
# Substitution in sources

With the standard operations alone, a part of a source can be replaced by the text of its value: the
source keeps its value.

## Main results

`BeginsWith.splice`: where a text spells a form inside a source, the text of another form between
spaces can stand in its place, and nothing else of the tree changes.

`evaluate_spliced`: replacing a part by the text of its value.

## Proof strategy

A row is taken apart at the item that a path goes through. The text before it stays where it is, and
what follows it is moved. That the value stays is an induction on the path.
-/

namespace HostLisp

variable {σ α : Type}

/-! ### Parts of trees -/

namespace Node

/-- The node at the end of a path, a sequence of places among the children. -/
def at? : List Nat → Node → Option Node
  | [], node => some node
  | place :: path, .list _ children => children[place]?.bind (at? path)
  | _ :: _, _ => none

/-- The offsets at which the full text of a node begins and ends, with its quotes or parentheses.
The text of a list ends where reading it ends. -/
def extent? (source : List Char) : Node → Option (Nat × Nat)
  | .symbol span => some (span.start.toNat, span.stop.toNat)
  | .string span => some ((span.start - 1).toNat, (span.stop + 1).toNat)
  | .list (some start) _ =>
    match Reader.form ⟨start.toNat, source.drop start.toNat⟩ with
    | .ok (_, next) => some (start.toNat, next.offset)
    | .error _ => none
  | .list none _ | .value _ => none

end Node

namespace Form

/-- The form at the end of a path. -/
def at? : List Nat → Form α → Option (Form α)
  | [], form => some form
  | place :: path, .list _ items => items[place]?.bind (at? path)
  | _ :: _, _ => none

/-- A form with another one at the end of a path. -/
def put : Form α → List Nat → Form α → Form α
  | _, [], new => new
  | .list mark items, place :: path, new =>
    .list mark (items.modify place fun item => put item path new)
  | form, _ :: _, _ => form

theorem nodes_eq_map (forms : List (Form Int)) : nodes forms = forms.map node := by
  induction forms with
  | nil => rfl
  | cons form rest ih => rw [nodes, ih, List.map_cons]

theorem mapAll_eq_map {β : Type} (change : α → β) (forms : List (Form α)) :
    mapAll change forms = forms.map (map change) := by
  induction forms with
  | nil => rfl
  | cons form rest ih => rw [mapAll, ih, List.map_cons]

/-- The parts of the node of a form are the nodes of its parts. -/
theorem at?_node (path : List Nat) (form : Form Int) :
    form.node.at? path = (form.at? path).map node := by
  induction path generalizing form with
  | nil => rfl
  | cons place path ih =>
    cases form with
    | symbol mark text => rfl
    | string mark body => rfl
    | list mark items =>
      rw [node, Node.at?, at?, nodes_eq_map, List.getElem?_map]
      cases items[place]? with
      | none => rfl
      | some item => exact ih item

/-- Only a list has parts other than itself. -/
theorem at?_cons_eq_some {place : Nat} {path : List Nat} {form target : Form α} :
    form.at? (place :: path) = some target ↔ ∃ mark items item, form = .list mark items ∧
      items[place]? = some item ∧ item.at? path = some target := by
  cases form with
  | symbol mark text => simp [at?]
  | string mark body => simp [at?]
  | list mark items => simp [at?, Option.bind_eq_some_iff]

theorem isEmpty_of_at? {path : List Nat} {form target : Form α} (there : form.at? path = some target)
    (filled : target.isEmpty = false) : form.isEmpty = false := by
  cases path with
  | nil =>
    obtain rfl := Option.some.inj there
    exact filled
  | cons place path =>
    obtain ⟨mark, items, -, rfl, -, -⟩ := at?_cons_eq_some.mp there
    rfl

end Form

/-! ### Texts in the place of others -/

private theorem spaces_space {gap : List Char} (spaces : ∀ c ∈ gap, Reader.isSpace c = true) :
    ∀ c ∈ gap ++ [' '], Reader.isSpace c = true :=
  List.forall_mem_append.mpr ⟨spaces, by simp [Reader.isSpace, Reader.isGap]⟩

/-- A text can stand in the place of any form: it spells a list, or any form between spaces. -/
inductive Fits (offset : Nat) : List Char → Form Int → Prop
  | spaced {text : List Char} {form : Form Int} (spelled : Spells (offset + 1) text form) :
      Fits offset (' ' :: (text ++ [' '])) form
  | group {inner : List Char} {items : List (Form Int)} (inside : SpellsRow (offset + 1) inner items) :
      Fits offset ('(' :: (inner ++ [')'])) (.list offset items)

namespace Fits

variable {offset : Nat} {text : List Char} {form : Form Int}

/-- The text ends a symbol that stands before it. -/
theorem stops (fits : Fits offset text form) (after : List Char) : Stops (text ++ after) := by
  cases fits with
  | spaced spelled => exact space_stops _
  | group inside => exact opening_stops _

theorem item {earlier : Nat} {gap rest : List Char} {forms : List (Form Int)}
    (spaces : ∀ c ∈ gap, Reader.isSpace c = true) (fits : Fits (earlier + gap.length) text form)
    (others : SpellsRow (earlier + gap.length + text.length) rest forms) :
    SpellsRow earlier (gap ++ (text ++ rest)) (form :: forms) := by
  cases fits with
  | group inside => exact .item gap spaces (.group inside) trivial others
  | @spaced text _ spelled =>
    -- The space in front joins the gap, and the one behind ends the form.
    have shape : gap ++ (' ' :: (text ++ [' ']) ++ rest) = gap ++ [' '] ++ (text ++ ' ' :: rest) := by
      simp
    have place : earlier + (gap ++ [' ']).length = earlier + gap.length + 1 := by
      simp [Nat.add_assoc]
    rw [shape]
    refine .item _ (spaces_space spaces) (place ▸ spelled)
      (Form.endsBefore_of_stops form (space_stops rest)) ?_
    have plain : ∀ c ∈ [' '], Reader.isGap c = true := by simp [Reader.isGap]
    apply others.gap_append plain
    simp only [List.length_cons, List.length_append, List.length_nil]
    omega

end Fits

/-- A row is its gap, or a form and a row after it. -/
theorem SpellsRow.byItems {motive : ∀ offset inner forms, SpellsRow offset inner forms → Prop}
    (gap : ∀ offset gap plain, motive offset gap [] (.gap gap plain))
    (broken : ∀ offset gap spaces breaks, motive offset gap _ (.broken gap spaces breaks))
    (item : ∀ offset gap text rest form forms spaces
      (first : Spells (offset + gap.length) text form) (ends : form.EndsBefore rest)
      (others : SpellsRow (offset + gap.length + text.length) rest forms),
      motive _ rest forms others →
      motive offset (gap ++ (text ++ rest)) (form :: forms) (.item gap spaces first ends others))
    {offset : Nat} {inner : List Char} {forms : List (Form Int)}
    (row : SpellsRow offset inner forms) : motive offset inner forms row := by
  induction row with
  | gap blanks plain => exact gap _ blanks plain
  | broken blanks spaces breaks => exact broken _ blanks spaces breaks
  | leaf blanks spaces first ends others ih =>
    exact item _ blanks _ _ _ _ spaces (.leaf first) ends others ih
  | @group offset inner rest items forms blanks spaces inside others _ ih =>
    have length : offset + blanks.length + ('(' :: (inner ++ [')'])).length =
        offset + blanks.length + (inner.length + 2) := by simp
    exact item _ blanks _ _ _ _ spaces (.group inside) trivial (length ▸ others) (by
      simpa only [length] using ih)

/-- Where an item of a row is spelled, another text can stand in its place. -/
theorem SpellsRow.fill {offset : Nat} {inner : List Char} {forms : List (Form Int)}
    (row : SpellsRow offset inner forms) (place : Nat) (item : Form Int)
    (here : forms[place]? = some item) (filled : item.isEmpty = false) :
    ∃ before text after, inner = before ++ (text ++ after) ∧
      Spells (offset + before.length) text item ∧
      ∀ text' item', Fits (offset + before.length) text' item' → ∃ forms',
        SpellsRow offset (before ++ (text' ++ after)) forms' ∧
        Form.mapAll (fun _ => ()) forms' = Form.mapAll (fun _ => ()) (forms.set place item') := by
  induction row using SpellsRow.byItems generalizing place with
  | gap offset gap plain => cases here
  | broken offset gap spaces breaks =>
    -- The only item is a symbol without characters.
    cases place with
    | zero =>
      obtain rfl := Option.some.inj here
      cases filled
    | succ place => cases here
  | item offset gap text rest form forms spaces first ends others ih =>
    cases place with
    | zero =>
      obtain rfl : form = item := Option.some.inj here
      -- What follows moves with the length of the new text, and spells the same up to offsets.
      refine ⟨gap, text, rest, rfl, first, fun text' item' fits => ?_⟩
      obtain ⟨forms', moved, same⟩ := others.move (offset + gap.length + text'.length)
      exact ⟨item' :: forms', fits.item spaces moved, congrArg (item'.map (fun _ => ()) :: ·) same⟩
    | succ place =>
      obtain ⟨before, text₁, after, rfl, spelled, refill⟩ := ih place here
      have length : offset + (gap ++ (text ++ before)).length =
          offset + gap.length + text.length + before.length := by
        simp [Nat.add_assoc]
      refine ⟨gap ++ (text ++ before), text₁, after, by simp, length ▸ spelled, ?_⟩
      intro text' item' fits
      rw [length] at fits
      obtain ⟨forms', filled', same⟩ := refill text' item' fits
      -- What follows the first form still ends it, since the new text does if nothing is between.
      have ends' := Form.endsBefore_append (Form.endsBefore_of_append ends) (fits.stops after)
      refine ⟨form :: forms', ?_, congrArg (form.map (fun _ => ()) :: ·) same⟩
      simpa using SpellsRow.item gap spaces first ends' filled'

namespace Form

theorem put_of_list {mark : α} {items : List (Form α)} {place : Nat} {item : Form α}
    (here : items[place]? = some item) (path : List Nat) (new : Form α) :
    (list mark items).put (place :: path) new = .list mark (items.set place (item.put path new)) := by
  rw [put, List.modify_eq_set_getElem?, here]
  rfl

theorem mapAll_set {β : Type} (change : α → β) (forms : List (Form α)) (place : Nat)
    (new : Form α) :
    mapAll change (forms.set place new) = (mapAll change forms).set place (new.map change) := by
  rw [mapAll_eq_map, mapAll_eq_map, List.map_set]

end Form

private theorem Spells.fill_item {offset : Nat} {text : List Char} {mark : Int}
    {items : List (Form Int)} (spelled : Spells offset text (.list mark items)) {place : Nat}
    {item : Form Int} (here : items[place]? = some item) (filled : item.isEmpty = false) :
    ∃ before text₁ after, text = before ++ (text₁ ++ after) ∧
      Spells (offset + before.length) text₁ item ∧
      ∀ text' item', Fits (offset + before.length) text' item' → ∃ inner items',
        before ++ (text' ++ after) = '(' :: (inner ++ [')']) ∧ SpellsRow (offset + 1) inner items' ∧
        Form.mapAll (fun _ => ()) items' = Form.mapAll (fun _ => ()) (items.set place item') := by
  cases spelled with
  | leaf spelled => cases spelled
  | group inside =>
    obtain ⟨before, text₁, after, rfl, within, refill⟩ := inside.fill place item here filled
    have length : offset + ('(' :: before).length = offset + 1 + before.length := by
      rw [List.length_cons]
      omega
    -- The parentheses go to what stands before and after.
    refine ⟨'(' :: before, text₁, after ++ [')'], by simp, length ▸ within, ?_⟩
    intro text' item' fits
    obtain ⟨items', row, same⟩ := refill text' item' (length ▸ fits)
    exact ⟨_, items', by simp, row, same⟩

/-- Where a part of a form is spelled, another text can stand in its place. The induction is on the
path to the part; around it a list stands in the place of a list. -/
theorem Spells.fill {offset : Nat} {text : List Char} {form target : Form Int} {place : Nat}
    {path : List Nat} (spelled : Spells offset text form)
    (there : form.at? (place :: path) = some target) (filled : target.isEmpty = false) :
    ∃ before text₁ after, text = before ++ (text₁ ++ after) ∧
      Spells (offset + before.length) text₁ target ∧
      ∀ text' form', Fits (offset + before.length) text' form' → ∃ inner items,
        before ++ (text' ++ after) = '(' :: (inner ++ [')']) ∧ SpellsRow (offset + 1) inner items ∧
        (Form.list (offset : Int) items).erase = (form.put (place :: path) form').erase := by
  induction path generalizing offset text form place with
  | nil =>
    obtain ⟨mark, items, item, rfl, here, last⟩ := Form.at?_cons_eq_some.mp there
    obtain rfl := Option.some.inj last
    obtain ⟨before, text₁, after, rfl, within, refill⟩ := spelled.fill_item here filled
    refine ⟨before, text₁, after, rfl, within, fun text' form' fits => ?_⟩
    obtain ⟨inner, items', shape, row, same⟩ := refill text' form' fits
    rw [Form.put_of_list here]
    exact ⟨inner, items', shape, row, congrArg (Form.list ()) same⟩
  | cons next path ih =>
    obtain ⟨mark, items, item, rfl, here, later⟩ := Form.at?_cons_eq_some.mp there
    obtain ⟨before, text₁, after, rfl, within, refill⟩ :=
      spelled.fill_item here (Form.isEmpty_of_at? later filled)
    obtain ⟨before', text₂, after', rfl, within', refill'⟩ := ih within later
    have length : offset + (before ++ before').length = offset + before.length + before'.length := by
      rw [List.length_append, Nat.add_assoc]
    refine ⟨before ++ before', text₂, after' ++ after, by simp, length ▸ within', ?_⟩
    intro text' form' fits
    obtain ⟨inner, items₁, shape, row, same⟩ := refill' text' form' (length ▸ fits)
    -- The list that was refilled inside is itself what is put into the list around it.
    obtain ⟨inner', items', shape', row', same'⟩ := refill _ _ (.group row)
    refine ⟨inner', items', ?_, row', ?_⟩
    · rw [← shape', ← shape]
      simp
    · rw [Form.put_of_list here]
      apply congrArg (Form.list ())
      rw [same', Form.mapAll_set, Form.mapAll_set]
      exact congrArg ((Form.mapAll (fun _ => ()) items).set place) same

/-- Where a part of the form that a source begins with is spelled, the text of another form between
spaces can stand in its place. -/
theorem BeginsWith.splice {source : List Char} {form target : Form Int} {path : List Nat}
    (begins : BeginsWith source form) (there : form.at? path = some target)
    (filled : target.isEmpty = false) :
    ∃ before text after, source = before ++ (text ++ after) ∧ Spells before.length text target ∧
      ∀ text' form', Spells (before.length + 1) text' form' → ∃ whole,
        BeginsWith (before ++ ' ' :: (text' ++ ' ' :: after)) whole ∧
        whole.erase = (form.put path form').erase := by
  obtain ⟨gap, text, after, rfl, spaces, spelled, ends⟩ := begins
  cases path with
  | nil =>
    obtain rfl := Option.some.inj there
    refine ⟨gap, text, after, rfl, spelled, fun text' form' spelled' => ⟨form', ?_, rfl⟩⟩
    exact ⟨gap ++ [' '], text', ' ' :: after, by simp, spaces_space spaces,
      by simpa using spelled', Form.endsBefore_of_stops form' (space_stops after)⟩
  | cons place path =>
    obtain ⟨before, text₁, after', rfl, within, refill⟩ := spelled.fill there filled
    have length : (gap ++ before).length = gap.length + before.length := List.length_append
    refine ⟨gap ++ before, text₁, after' ++ after, by simp, length ▸ within, ?_⟩
    intro text' form' spelled'
    obtain ⟨inner, items, shape, row, same⟩ := refill _ form' (.spaced (length ▸ spelled'))
    refine ⟨.list gap.length items, ?_, same⟩
    refine ⟨gap, _, after, ?_, spaces, .group row, trivial⟩
    rw [← shape]
    simp

/-! ### Meanings of parts -/

namespace Form

theorem meanings_set {forms : List (Form α)} {place : Nat} {form new : Form α}
    (here : forms[place]? = some form) (same : new.meaning σ = form.meaning σ) :
    meanings σ (forms.set place new) = meanings σ forms := by
  induction forms generalizing place with
  | nil => rfl
  | cons first rest ih =>
    cases place with
    | zero =>
      obtain rfl := Option.some.inj here
      rw [List.set_cons_zero, meanings_cons, meanings_cons, same]
    | succ place => rw [List.set_cons_succ, meanings_cons, meanings_cons, ih here]

theorem meaning_of_meanings {forms : List (Form α)} {values : List Value} {place : Nat}
    {form : Form α} (mean : meanings σ forms = some values) (here : forms[place]? = some form) :
    ∃ value, form.meaning σ = some value := by
  induction forms generalizing place values with
  | nil => cases here
  | cons first rest ih =>
    rw [meanings_cons, Option.bind_eq_some_iff] at mean
    obtain ⟨value, means, others⟩ := mean
    obtain ⟨values', mean', -⟩ := Option.bind_eq_some_iff.mp others
    cases place with
    | zero =>
      obtain rfl := Option.some.inj here
      exact ⟨value, means⟩
    | succ place => exact ih mean' here

private theorem not_head_tail {place : Nat} {path : List Nat}
    (notHead : (place :: path).getLast? ≠ some 0) : path.getLast? ≠ some 0 := by
  cases path with
  | nil => simp
  | cons next path => rwa [List.getLast?_cons_cons] at notHead

/-- Each part of a form that means something means something, but for the heads of calls. -/
theorem meaning_of_part {path : List Nat} {form part : Form α} {value : Value}
    (means : form.meaning σ = some value) (there : form.at? path = some part)
    (notHead : path.getLast? ≠ some 0) : ∃ value', part.meaning σ = some value' := by
  induction path generalizing form value with
  | nil =>
    obtain rfl := Option.some.inj there
    exact ⟨value, means⟩
  | cons place path ih =>
    obtain ⟨mark, items, item, rfl, here, later⟩ := at?_cons_eq_some.mp there
    rcases items with - | ⟨⟨head, name⟩ | ⟨inside, body⟩ | ⟨inside, others⟩, arguments⟩
    · cases means
    · rw [meaning, Option.bind_eq_some_iff] at means
      -- A call has a meaning only if all of its arguments have one.
      obtain ⟨args, mean, -⟩ := means
      cases place with
      | zero =>
        -- The head has no parts of its own, so the path ends there.
        obtain rfl := Option.some.inj here
        cases path with
        | nil => exact absurd rfl notHead
        | cons next path => cases later
      | succ place =>
        obtain ⟨value', means'⟩ := meaning_of_meanings mean here
        exact ih means' later (not_head_tail notHead)
    · cases means
    · cases means

theorem isEmpty_of_meaning {form : Form α} {value : Value} (means : form.meaning σ = some value) :
    form.isEmpty = false := by
  cases form with
  | symbol mark text =>
    cases text with
    | nil => cases means
    | cons c rest => rfl
  | string mark body => rfl
  | list mark items => rfl

/-- A form keeps its meaning if a part that is no head of a call gives way to one that means the
same. -/
theorem meaning_put {path : List Nat} {form part new : Form α}
    (there : form.at? path = some part) (notHead : path.getLast? ≠ some 0)
    (same : new.meaning σ = part.meaning σ) : (form.put path new).meaning σ = form.meaning σ := by
  induction path generalizing form with
  | nil =>
    obtain rfl := Option.some.inj there
    rw [put, same]
  | cons place path ih =>
    obtain ⟨mark, items, item, rfl, here, later⟩ := at?_cons_eq_some.mp there
    have kept := ih later (not_head_tail notHead)
    rw [put_of_list here]
    cases items with
    | nil => cases here
    | cons first arguments =>
      cases place with
      | zero =>
        -- The head is a list before and after, so neither form means anything.
        obtain rfl := Option.some.inj here
        cases path with
        | nil => exact absurd rfl notHead
        | cons next path =>
          obtain ⟨inside, others, inner, rfl, here', -⟩ := at?_cons_eq_some.mp later
          rw [put_of_list here']
          rfl
      | succ place =>
        cases first with
        | symbol head name =>
          have arguments' : meanings σ (arguments.set place (item.put path new)) =
              meanings σ arguments := meanings_set here kept
          rw [List.set_cons_succ, meaning, meaning, arguments']
        | string inside body => rfl
        | list inside others => rfl

end Form

/-! ### Sources -/

/-- The full text of a form is the text that spells it. -/
theorem Spells.extent? {before text : List Char} {form : Form Int}
    (spelled : Spells before.length text form) (after : List Char) :
    form.node.extent? (before ++ (text ++ after)) =
      some (before.length, before.length + text.length) := by
  cases spelled with
  | leaf spelled =>
    cases spelled with
    | symbol text filled whole => rfl
    | string body closed =>
      simp only [Form.node, Node.extent?, Span.stop, List.length_cons, List.length_append,
        List.length_nil, Option.some.injEq, Prod.mk.injEq]
      omega
  | @group inner items inside =>
    -- A list has no length of its own, so its end is found by reading it again.
    have returned : Reader.form ⟨before.length, '(' :: (inner ++ [')']) ++ after⟩ =
        .ok ((Form.list (before.length : Int) items).node, _) := (Spells.group inside).read trivial
    rw [Form.node] at returned
    rw [Form.node, Node.extent?, Int.toNat_natCast, List.drop_left, returned]
    rfl

theorem Form.Writes.spells {form : Form α} {value : Value} (writes : form.Writes value)
    (readable : form.Readable) (offset : Nat) : Spells offset form.chars (form.place offset) := by
  cases writes with
  | atom mark filled spelled =>
    cases readable with
    | symbol mark chars whole => exact .leaf (.symbol _ filled whole)
  | text mark body =>
    cases readable with
    | string mark body closed => exact .leaf (.string body closed)

theorem Value.HasKind.isLiteral {value : Value} {kind : Kind} (has : value.HasKind kind)
    (within : ∀ n, value = .int n → n.natAbs < 10 ^ Number.digitLimit) : value.IsLiteral := by
  cases has with
  | int n => exact .int n (within n rfl)
  | bool b => exact .bool b
  | text s => exact .text s
  | null => exact .null

/-- A source that has a value begins with a form that means it. -/
theorem Machine.begins_of_evaluate (machine : Machine σ)
    (loaded : machine.registry = Standard.registry) {text : String} {root : Node}
    (parsed : parse text.toList = .ok root) {result : Value} {after : Machine σ}
    (evaluated : machine.evaluate text = (.ok result, after)) : ∃ form : Form Int,
    root = form.node ∧ BeginsWith text.toList form ∧ form.meaning σ = some result := by
  rcases parse_begins parsed with ⟨form, rfl, begins⟩ | ⟨gap, rest, -, -, rfl⟩
  · obtain ⟨outcome, after', ran, same⟩ :=
      machine.evaluate_means loaded begins.parse begins.form?
    rw [evaluated] at ran
    cases ran
    exact ⟨form, rfl, begins, same.symm⟩
  · -- A closing parenthesis in the place of a form has no value.
    rw [machine.evaluate_of_parse parsed, Eval.node, Atom.ofSpan, if_pos rfl] at evaluated
    cases evaluated

/-- With the standard operations alone, let a source have a value. Each part of its tree but the
heads of calls has a value too, and if that is no number with too many digits, its text can stand in
the place of the full text of the part, between spaces: the source keeps its value. -/
theorem evaluate_spliced (machine : Machine σ) (loaded : machine.registry = Standard.registry)
    (text : String) (root : Node) (parsed : parse text.toList = .ok root) (result : Value)
    (after : Machine σ) (evaluated : machine.evaluate text = (.ok result, after))
    (path : List Nat) (part : Node) (there : root.at? path = some part)
    (notHead : path.getLast? ≠ some 0) :
    ∃ first last value, part.extent? text.toList = some (first, last) ∧
      (∀ reenter, ∃ later, (Eval.node reenter text.toList part).run machine = (.ok value, later)) ∧
      ((∀ n, value = .int n → n.natAbs < 10 ^ Number.digitLimit) → ∃ printed later,
        value.print = .ok printed ∧
        machine.evaluate (String.ofList (text.toList.take first) ++ " " ++ printed ++ " " ++
          String.ofList (text.toList.drop last)) = (.ok result, later)) := by
  obtain ⟨form, rfl, begins, means⟩ := machine.begins_of_evaluate loaded parsed evaluated
  rw [Form.at?_node, Option.map_eq_some_iff] at there
  obtain ⟨target, there, rfl⟩ := there
  obtain ⟨value, means'⟩ := Form.meaning_of_part means there notHead
  obtain ⟨before, chars, rest, whole, spelled, splice⟩ :=
    begins.splice there (Form.isEmpty_of_meaning means')
  refine ⟨before.length, before.length + chars.length, value, whole ▸ spelled.extent? rest, ?_, ?_⟩
  · intro reenter
    have formed : target.node.form? text.toList = some target :=
      whole ▸ spelled.form? before rfl rest
    obtain ⟨outcome, later, ran, same, -⟩ := form_means reenter target machine loaded
    rw [means'] at same
    obtain rfl := Except.eq_ok_of_toOption same
    exact ⟨later, by rw [Eval.node_eq_form _ _ _ _ formed, ran]⟩
  · intro within
    obtain ⟨kind, has⟩ := Form.meaning_hasKind target value means'
    -- The value of a part is a literal, so its text reads back as a form for it.
    obtain ⟨written, printed, readable, writes⟩ := (has.isLiteral within).written
    obtain ⟨new, begins', same⟩ := splice _ _ (writes.spells readable (before.length + 1))
    have source : (String.ofList (text.toList.take before.length) ++ " " ++
        String.ofList written.chars ++ " " ++
        String.ofList (text.toList.drop (before.length + chars.length))).toList =
        before ++ ' ' :: (written.chars ++ ' ' :: rest) := by
      simp [whole]
    -- The written value means the value that the part means, so the whole keeps its meaning.
    have meant : new.meaning σ = some result := by
      rw [Form.meaning_of_erase_eq same, Form.meaning_put there notHead, means]
      rw [(writes.place _).meaning_eq, means']
    rw [← source] at begins'
    obtain ⟨outcome, later, ran, gives⟩ :=
      machine.evaluate_means loaded begins'.parse begins'.form?
    obtain rfl := Except.eq_ok_of_toOption (gives.trans meant)
    exact ⟨_, later, printed, ran⟩

/-- A call between a symbol and a parenthesis gives way to its value. -/
theorem evaluate_spliced_tight : (Machine.fresh Standard.registry ()).registry = Standard.registry ∧
    parse "(and true(not\nfalse))".toList = .ok (.list (some 0) [.symbol ⟨1, 3⟩, .symbol ⟨5, 4⟩,
      .list (some 9) [.symbol ⟨10, 3⟩, .symbol ⟨14, 5⟩]]) ∧
    [2].getLast? ≠ some 0 ∧ ∃ after later,
      (Machine.fresh Standard.registry ()).evaluate "(and true(not\nfalse))" =
        (.ok (.bool true), after) ∧
      (Machine.fresh Standard.registry ()).evaluate "(and true true )" =
        (.ok (.bool true), later) := by
  have parsed : parse "(and true(not\nfalse))".toList = .ok (.list (some 0) [.symbol ⟨1, 3⟩,
      .symbol ⟨5, 4⟩, .list (some 9) [.symbol ⟨10, 3⟩, .symbol ⟨14, 5⟩]]) := rfl
  have formed : Node.form? "(and true(not\nfalse))".toList (.list (some 0) [.symbol ⟨1, 3⟩,
      .symbol ⟨5, 4⟩, .list (some 9) [.symbol ⟨10, 3⟩, .symbol ⟨14, 5⟩]]) =
      some (.list 0 [.symbol 1 "and".toList, .symbol 5 "true".toList,
        .list 9 [.symbol 10 "not".toList, .symbol 14 "false".toList]]) := rfl
  have inner : Node.form? "(and true(not\nfalse))".toList
      (.list (some 9) [.symbol ⟨10, 3⟩, .symbol ⟨14, 5⟩]) =
      some (.list 9 [.symbol 10 "not".toList, .symbol 14 "false".toList]) := rfl
  obtain ⟨outcome, after, evaluated, same⟩ :=
    (Machine.fresh Standard.registry ()).evaluate_means rfl parsed formed
  obtain rfl : outcome = .ok (.bool true) := Except.eq_ok_of_toOption same
  obtain ⟨first, last, value, extent, gives, spliced⟩ := evaluate_spliced
    (Machine.fresh Standard.registry ()) rfl _ _ parsed _ after evaluated [2] _ rfl (by decide)
  cases extent
  -- The part gives what its form means.
  obtain ⟨_, given⟩ := gives fun _ => throw .nestingLimit
  obtain ⟨outcome, _, ran, same, -⟩ :=
    form_means (fun _ => throw .nestingLimit) _ (Machine.fresh Standard.registry ()) rfl
  rw [Eval.node_eq_form _ _ _ _ inner, ran] at given
  cases given
  obtain rfl : value = .bool true := Option.some.inj same
  obtain ⟨printed, later, shown, replaced⟩ := spliced nofun
  cases shown
  exact ⟨rfl, parsed, by decide, after, later, evaluated, replaced⟩

end HostLisp
