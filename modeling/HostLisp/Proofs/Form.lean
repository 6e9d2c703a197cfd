import HostLisp.Syntax.Reader

/-!
# Forms

A form is a tree with the text of its leaves in place of their spans, and a mark at each node, such
as the offset at which it stands in a source. Printing and evaluation look at a node only through
its form.

## Main results

`Form.print_eq`: a node prints as the characters of its form.

`Form.erase_prune`, `Form.chars_erase`: leaving out symbols without characters, and printing, do not
depend on the marks.
-/

namespace HostLisp

/-- A tree of texts, with a mark at each node. -/
inductive Form (α : Type)
  | symbol (mark : α) (text : List Char)
  | string (mark : α) (body : List Char)
  | list (mark : α) (items : List (Form α))
  deriving Inhabited

namespace Node

mutual

/-- The form of a node, marked with offsets. A node that is a value, a list that does not say where
it starts and a symbol that lies outside of the source have none. -/
def form? (source : List Char) : Node → Option (Form Int)
  | .symbol span =>
    if span.length = 0 then some (.symbol span.start [])
    else match span.slice source with
      | [] => none
      | text => some (.symbol span.start text)
  | .string span => some (.string span.start (span.slice source))
  | .list (some start) children => (forms? source children).map (.list start)
  | .list none _ => none
  | .value _ => none
termination_by structural node => node

def forms? (source : List Char) : List Node → Option (List (Form Int))
  | [] => some []
  | node :: rest =>
    match form? source node, forms? source rest with
    | some form, some forms => some (form :: forms)
    | _, _ => none
termination_by structural nodes => nodes

end

/-- A row of nodes has forms if each of them has one. -/
theorem forms?_cons_eq_some {source : List Char} {node : Node} {rest : List Node}
    {forms : List (Form Int)} :
    forms? source (node :: rest) = some forms ↔ ∃ form others,
      form? source node = some form ∧ forms? source rest = some others ∧ forms = form :: others := by
  rw [forms?]
  cases form? source node <;> cases forms? source rest <;> simp [eq_comm]

/-- The forms of two rows, one behind the other, are those of the first and then those of the
second. -/
theorem forms?_append {source : List Char} {nodes nodes' : List Node}
    {forms forms' : List (Form Int)} (first : forms? source nodes = some forms)
    (second : forms? source nodes' = some forms') :
    forms? source (nodes ++ nodes') = some (forms ++ forms') := by
  induction nodes generalizing forms with
  | nil =>
    simp only [forms?, Option.some.injEq] at first
    subst first
    exact second
  | cons node rest ih =>
    obtain ⟨form, others, here, there, rfl⟩ := forms?_cons_eq_some.mp first
    exact forms?_cons_eq_some.mpr ⟨form, others ++ forms', here, ih there, rfl⟩

/-- A symbol has a form if it has no length, or if it lies in the source. -/
theorem form?_symbol_eq_some {source : List Char} {span : Span} {form : Form Int}
    (formed : form? source (.symbol span) = some form) :
    (span.length = 0 ∧ form = .symbol span.start []) ∨
      (span.length ≠ 0 ∧ span.slice source ≠ [] ∧ form = .symbol span.start (span.slice source)) := by
  rw [form?] at formed
  split at formed
  next empty => exact Or.inl ⟨empty, (Option.some.inj formed).symm⟩
  next filled =>
    split at formed
    · cases formed
    next text outside => exact Or.inr ⟨filled, outside, (Option.some.inj formed).symm⟩

/-- Of the lists only those that begin at some place have a form. -/
theorem form?_list_eq_some {source : List Char} {start : Option Int} {children : List Node}
    {form : Form Int} (formed : form? source (.list start children) = some form) :
    ∃ offset items, start = some offset ∧ forms? source children = some items ∧
      form = .list offset items := by
  cases start with
  | none => cases formed
  | some offset =>
    obtain ⟨items, inner, rfl⟩ := Option.map_eq_some_iff.mp formed
    exact ⟨offset, items, rfl, inner, rfl⟩

/-- A form that is a symbol is that of a symbol node. -/
theorem form?_eq_symbol {source : List Char} {node : Node} {mark : Int} {text : List Char}
    (formed : form? source node = some (.symbol mark text)) : ∃ span, node = .symbol span ∧
      span.start = mark ∧ span.slice source = text ∧ (text ≠ [] → span.length ≠ 0) := by
  cases node with
  | symbol span =>
    -- A symbol of no length has an empty text, whether or not it lies in the source.
    rcases form?_symbol_eq_some formed with ⟨empty, same⟩ | ⟨filled, -, same⟩
    · cases same
      refine ⟨span, rfl, rfl, ?_, fun filled => absurd rfl filled⟩
      simp [Span.slice, Span.stop, empty]
    · cases same
      exact ⟨span, rfl, rfl, rfl, fun _ => filled⟩
  | string span => cases formed
  | list start children =>
    obtain ⟨_, _, _, _, same⟩ := form?_list_eq_some formed
    cases same
  | value v => cases formed

/-- A form that is a string is that of a string node. -/
theorem form?_eq_string {source : List Char} {node : Node} {mark : Int} {body : List Char}
    (formed : form? source node = some (.string mark body)) : ∃ span, node = .string span ∧
      span.slice source = body := by
  cases node with
  | symbol span =>
    rcases form?_symbol_eq_some formed with ⟨-, same⟩ | ⟨-, -, same⟩
    · cases same
    · cases same
  | string span =>
    cases formed
    exact ⟨span, rfl, rfl⟩
  | list start children =>
    obtain ⟨_, _, _, _, same⟩ := form?_list_eq_some formed
    cases same
  | value v => cases formed

/-- A form that is a list is that of a list node whose children have the items as their forms. -/
theorem form?_eq_list {source : List Char} {node : Node} {mark : Int} {items : List (Form Int)}
    (formed : form? source node = some (.list mark items)) : ∃ children,
      node = .list (some mark) children ∧ forms? source children = some items := by
  cases node with
  | symbol span =>
    rcases form?_symbol_eq_some formed with ⟨-, same⟩ | ⟨-, -, same⟩
    · cases same
    · cases same
  | string span => cases formed
  | list start children =>
    obtain ⟨_, _, rfl, inner, same⟩ := form?_list_eq_some formed
    cases same
    exact ⟨children, rfl, inner⟩
  | value v => cases formed

end Node

namespace Form

variable {α β : Type}

/-- Whether a form is a symbol without characters. -/
def isEmpty : Form α → Bool
  | .symbol _ [] => true
  | _ => false

/-! ### Marks -/

mutual

/-- Changes all marks. -/
def map (change : α → β) : Form α → Form β
  | .symbol mark text => .symbol (change mark) text
  | .string mark body => .string (change mark) body
  | .list mark items => .list (change mark) (mapAll change items)
termination_by structural form => form

def mapAll (change : α → β) : List (Form α) → List (Form β)
  | [] => []
  | form :: rest => map change form :: mapAll change rest
termination_by structural forms => forms

end

/-- A form without marks. -/
def erase (form : Form α) : Form Unit := form.map fun _ => ()

@[simp] theorem isEmpty_map (change : α → β) (form : Form α) :
    (form.map change).isEmpty = form.isEmpty := by
  cases form with
  | symbol mark text => cases text <;> rfl
  | string mark body => rfl
  | list mark items => rfl

/-! ### Symbols without characters -/

mutual

/-- A form without the symbols in its lists that have no characters. -/
def prune : Form α → Form α
  | .symbol mark text => .symbol mark text
  | .string mark body => .string mark body
  | .list mark items => .list mark (pruneAll items)
termination_by structural form => form

def pruneAll : List (Form α) → List (Form α)
  | [] => []
  | form :: rest => if form.isEmpty then pruneAll rest else prune form :: pruneAll rest
termination_by structural forms => forms

end

mutual

/-- Whether each symbol of a form has characters. -/
def isSolid : Form α → Bool
  | .symbol _ text => !text.isEmpty
  | .string _ _ => true
  | .list _ items => areSolid items
termination_by structural form => form

def areSolid : List (Form α) → Bool
  | [] => true
  | form :: rest => isSolid form && areSolid rest
termination_by structural forms => forms

end

theorem isEmpty_eq_false_of_isSolid {form : Form α} (solid : form.isSolid = true) :
    form.isEmpty = false := by
  cases form with
  | symbol mark text => cases text <;> simp_all [isSolid, isEmpty]
  | string mark body => rfl
  | list mark items => rfl

mutual

/-- A form without empty symbols has nothing to lose. -/
theorem prune_of_isSolid : ∀ form : Form α, form.isSolid = true → form.prune = form
  | .symbol _ _, _ => rfl
  | .string _ _, _ => rfl
  | .list mark items, solid => congrArg (Form.list mark) (pruneAll_of_areSolid items solid)

theorem pruneAll_of_areSolid : ∀ forms : List (Form α), areSolid forms = true →
    pruneAll forms = forms
  | [], _ => rfl
  | form :: rest, solid => by
    simp only [areSolid, Bool.and_eq_true] at solid
    have filled := isEmpty_eq_false_of_isSolid solid.1
    -- Nothing is left out here, so both parts stay as they are.
    simp [pruneAll, filled, prune_of_isSolid form solid.1, pruneAll_of_areSolid rest solid.2]

end

mutual

theorem map_prune (change : α → β) : ∀ form : Form α,
    form.prune.map change = (form.map change).prune
  | .symbol _ _ => rfl
  | .string _ _ => rfl
  | .list mark items => congrArg (Form.list (change mark)) (mapAll_pruneAll change items)

theorem mapAll_pruneAll (change : α → β) : ∀ forms : List (Form α),
    mapAll change (pruneAll forms) = pruneAll (mapAll change forms)
  | [] => rfl
  | form :: rest => by
    have others := mapAll_pruneAll change rest
    cases empty : form.isEmpty with
    | true => simp [pruneAll, mapAll, empty, others]
    | false => simp [pruneAll, mapAll, empty, others, map_prune change form]

end

theorem erase_prune (form : Form α) : form.prune.erase = form.erase.prune := map_prune _ form

/-! ### Characters -/

mutual

/-- The characters of a form, with single spaces between the items of a list. -/
def chars : Form α → List Char
  | .symbol _ text => text
  | .string _ body => '"' :: (body ++ ['"'])
  | .list _ [] => ['(', ')']
  | .list _ (first :: rest) => '(' :: (chars first ++ spaced rest ++ [')'])
termination_by structural form => form

/-- The characters of forms, each after a space. -/
def spaced : List (Form α) → List Char
  | [] => []
  | form :: rest => ' ' :: (chars form ++ spaced rest)
termination_by structural forms => forms

end

theorem spaced_eq_flatMap (forms : List (Form α)) :
    spaced forms = (forms.map chars).flatMap fun text => ' ' :: text := by
  induction forms with
  | nil => rfl
  | cons form rest ih => simp [spaced, ih]

mutual

/-- What a form is written as does not depend on its marks. -/
theorem chars_map (change : α → β) : ∀ form : Form α, (form.map change).chars = form.chars
  | .symbol _ _ => rfl
  | .string _ _ => rfl
  | .list _ [] => rfl
  | .list mark (first :: rest) => by
    rw [map, mapAll, chars, chars, chars_map change first, spaced_mapAll change rest]

theorem spaced_mapAll (change : α → β) : ∀ forms : List (Form α),
    spaced (mapAll change forms) = spaced forms
  | [] => rfl
  | form :: rest => by
    rw [mapAll, spaced, spaced, chars_map change form, spaced_mapAll change rest]

end

theorem chars_erase (form : Form α) : form.erase.chars = form.chars := chars_map _ form

theorem chars_of_erase_eq {form : Form α} {form' : Form β} (same : form.erase = form'.erase) :
    form.chars = form'.chars := by
  rw [← chars_erase form, same, chars_erase]

/-- Texts joined with spaces: the first one, and a space before each of the others. -/
theorem toList_joined (first : String) (others : List String) :
    (" ".intercalate (first :: others)).toList =
      first.toList ++ (others.map String.toList).flatMap fun text => ' ' :: text := by
  induction others generalizing first with
  | nil => simp
  | cons second others ih =>
    rw [String.intercalate_cons_cons, String.toList_append, String.toList_append, ih]
    simp

mutual

/-- A node that has a form prints as its characters. -/
theorem print_eq (source : List Char) : ∀ (node : Node) (form : Form Int),
    node.form? source = some form → node.print source = .ok (String.ofList form.chars)
  | .symbol span, form, formed => by
    rcases Node.form?_symbol_eq_some formed with ⟨empty, rfl⟩ | ⟨-, -, rfl⟩
    · -- Without a length a span is empty wherever it starts.
      have sliced : span.slice source = [] := by
        simp [Span.slice, Span.stop, empty]
      simp [Node.print, Node.symbolText, sliced, chars]
    · rfl
  | .string span, form, formed => by
    cases formed
    rfl
  | .value v, form, formed => by cases formed
  | .list start children, form, formed => by
    obtain ⟨offset, items, rfl, inner, rfl⟩ := Node.form?_list_eq_some formed
    obtain ⟨shown, printed, texts⟩ := printChildren_eq source children items inner
    simp only [Node.print, printed, bind, Except.bind, Except.ok.injEq]
    rw [← String.toList_inj]
    -- Joining with spaces treats the first item apart from the others, as the form does.
    cases items with
    | nil =>
      simp only [List.map_nil, List.map_eq_nil_iff] at texts
      subst texts
      rfl
    | cons first rest =>
      cases shown with
      | nil => simp at texts
      | cons head tail =>
        simp only [List.map_cons, List.cons.injEq] at texts
        rw [String.toList_append, String.toList_append, toList_joined, texts.1, texts.2,
          ← spaced_eq_flatMap]
        simp [chars]

/-- The children of a node are printed one by one as the items of its form are written. -/
theorem printChildren_eq (source : List Char) : ∀ (nodes : List Node) (forms : List (Form Int)),
    Node.forms? source nodes = some forms → ∃ shown : List String,
      Node.printChildren source nodes = .ok shown ∧ shown.map String.toList = forms.map chars
  | [], forms, formed => by
    cases formed
    exact ⟨[], rfl, rfl⟩
  | node :: rest, forms, formed => by
    obtain ⟨form, others, here, there, rfl⟩ := Node.forms?_cons_eq_some.mp formed
    obtain ⟨shown, printed, texts⟩ := printChildren_eq source rest others there
    refine ⟨String.ofList form.chars :: shown, ?_, by simp [texts]⟩
    simp [Node.printChildren, print_eq source node form here, printed, bind, Except.bind]

end

end Form

end HostLisp
