import HostLisp.Proofs.ParsedForm
import HostLisp.Proofs.Run

/-!
# Evaluation of forms

What a node gives depends on the source only through the node's form. Evaluation is said here once
more for forms, so that facts about it need no spans.

## Main results

`Eval.node_eq_form`: a node is evaluated as its form.

`Machine.evaluate_of_form`: the run of a source that has a tree is that of the form of the tree.

## Proof strategy

The induction is on the tree. A list is taken apart into its head, which is looked up, its
arguments, and the end of its call.
-/

namespace HostLisp

variable {σ : Type}

/-- The value of a symbol of a text at a position. -/
def Atom.ofText (text : List Char) (position : Int) : Except Fault Value :=
  match text with
  | [] => .error (.evaluation .zeroLengthSymbol (some position))
  | first :: rest => ofChars (first :: rest) position

/-- The constants come first, then what begins with a digit. -/
theorem Atom.ofText_cases (c : Char) (rest : List Char) (position : Int) :
    ofText (c :: rest) position =
      let lowered := (c :: rest).map Char.toLower
      let text := String.ofList (c :: rest)
      if lowered = "true".toList then .ok (.bool true)
      else if lowered = "false".toList then .ok (.bool false)
      else if lowered = "null".toList then .ok .null
      else if !Number.isDigit c then
        .error (.evaluation (.unexpectedSymbol text) (some position))
      else if (c :: rest).all Number.isDigit then readInt (c :: rest)
      else .error (.evaluation (.invalidInteger text) (some position)) := by
  simp only [ofText, ofChars, constant?]
  split_ifs <;> simp_all

/-- Only the position of a fault depends on where a text stands. The fault names the text if it has
characters, unless this is a number with too many digits. -/
theorem Atom.ofText_outcome (text : List Char) :
    (∃ value, ∀ position, ofText text position = .ok value) ∨
    (∃ cause : Cause,
      (text = [] ∧ cause = .zeroLengthSymbol ∨ cause.symbol = some (String.ofList text)) ∧
      ∀ position, ofText text position = .error (.evaluation cause (some position))) ∨
    (Number.digitLimit < text.length ∧
      ∀ position, ofText text position = .error (.tooManyDigitsToRead text.length)) := by
  cases text with
  | nil => exact Or.inr (Or.inl ⟨_, Or.inl ⟨rfl, rfl⟩, fun _ => rfl⟩)
  | cons first rest =>
    simp only [ofText, ofChars.eq_def]
    -- A constant has a value wherever it stands.
    cases constant? (first :: rest) with
    | some value => exact Or.inl ⟨value, fun _ => rfl⟩
    | none =>
      dsimp only
      split_ifs with notDigit digits
      · exact Or.inr (Or.inl ⟨_, Or.inr rfl, fun _ => rfl⟩)
      -- Digits alone are an integer, unless there are too many of them.
      · rw [readInt]
        split_ifs with long
        · exact Or.inr (Or.inr ⟨long, fun _ => rfl⟩)
        · exact Or.inl ⟨_, fun _ => rfl⟩
      · exact Or.inr (Or.inl ⟨_, Or.inr rfl, fun _ => rfl⟩)

namespace Eval

/-- Ends the call that was noted last, once its arguments are known. -/
def conclude (reenter : String → Eval σ Value) (name : String) (known : Overloads σ)
    (position : Option Int) (args : List Value) : Eval σ Value := do
  setArguments args
  let overloads := ((← get).registry.lookup name).getD known
  let value ← call reenter overloads args position
  pop
  pure value

mutual

/-- The value of a form. -/
def form (reenter : String → Eval σ Value) : Form Int → Eval σ Value
  | .string _ body => pure (.text (String.ofList (Span.unescape body)))
  | .symbol mark text =>
    match Atom.ofText text mark with
    | .ok value => pure value
    | .error fault => throw fault
  | .list mark [] => throw (.evaluation .emptyList (some mark))
  | .list mark (.symbol head name :: arguments) => do
    let name := String.ofList name
    match (← get).registry.lookup name with
    | none => throw (.evaluation (.unknownFunction name) (some head))
    | some known =>
      push ⟨name, [], some mark⟩
      let args ← forms reenter arguments
      conclude reenter name known (some head) args
  | .list mark (_ :: _) => throw (.evaluation .headNotSymbol (some mark))
termination_by structural form => form

def forms (reenter : String → Eval σ Value) : List (Form Int) → Eval σ (List Value)
  | [] => pure []
  | first :: rest => do
    let value ← form reenter first
    let values ← forms reenter rest
    pure (value :: values)
termination_by structural forms => forms

end

/-! ### Nodes -/

/-- A symbol is evaluated as its text, if it has characters or no length. -/
private theorem symbol_eq {source : List Char} {span : Span} {found : Form Int}
    (formed : Node.form? source (.symbol span) = some found) (reenter : String → Eval σ Value) :
    node reenter source (.symbol span) = form reenter found := by
  rcases Node.form?_symbol_eq_some formed with ⟨empty, rfl⟩ | ⟨filled, outside, rfl⟩
  · have spelled : Atom.ofSpan span source =
        .error (.evaluation .zeroLengthSymbol (some span.start)) := if_pos empty
    rw [node, spelled, form, Atom.ofText]
  · have spelled : Atom.ofSpan span source = Atom.ofChars (span.slice source) span.start :=
      if_neg filled
    obtain ⟨c, rest, text⟩ := List.exists_cons_of_ne_nil outside
    rw [node, spelled, form, text]
    rfl

/-- The name that a call is looked up under is the text of its head. -/
private theorem symbolText_eq {source : List Char} {span : Span} {mark : Int} {text : List Char}
    (formed : Node.form? source (.symbol span) = some (.symbol mark text)) :
    Node.symbolText span source = String.ofList text ∧ span.start = mark := by
  obtain ⟨span', same, start, slice, -⟩ := Node.form?_eq_symbol formed
  cases same
  exact ⟨congrArg String.ofList slice, start⟩

/-- A symbol node has a symbol for its form. -/
private theorem symbol_form?_cases {source : List Char} {span : Span} {found : Form Int}
    (formed : Node.form? source (.symbol span) = some found) : ∃ mark text,
      found = .symbol mark text := by
  rcases Node.form?_symbol_eq_some formed with ⟨-, rfl⟩ | ⟨-, -, rfl⟩
  · exact ⟨_, _, rfl⟩
  · exact ⟨_, _, rfl⟩

mutual

/-- A node is evaluated as its form. -/
theorem node_eq_form (reenter : String → Eval σ Value) (source : List Char) :
    ∀ (tree : Node) (found : Form Int), tree.form? source = some found →
      node reenter source tree = form reenter found
  | .string span, _, formed => by
    cases formed
    rw [node, form, Node.stringText_eq]
  | .symbol span, _, formed => symbol_eq formed reenter
  | .value _, _, formed => by cases formed
  | .list start [], _, formed => by
    obtain ⟨mark, items, rfl, inner, rfl⟩ := Node.form?_list_eq_some formed
    cases inner
    rfl
  | .list start (.string span :: rest), _, formed => by
    obtain ⟨mark, items, rfl, inner, rfl⟩ := Node.form?_list_eq_some formed
    obtain ⟨_, others, here, -, rfl⟩ := Node.forms?_cons_eq_some.mp inner
    cases here
    rfl
  | .list start (.list inside children :: rest), _, formed => by
    obtain ⟨mark, items, rfl, inner, rfl⟩ := Node.form?_list_eq_some formed
    obtain ⟨_, others, here, -, rfl⟩ := Node.forms?_cons_eq_some.mp inner
    obtain ⟨offset, _, -, -, rfl⟩ := Node.form?_list_eq_some here
    rfl
  | .list start (.value _ :: rest), _, formed => by
    obtain ⟨mark, items, rfl, inner, rfl⟩ := Node.form?_list_eq_some formed
    obtain ⟨_, others, here, -, rfl⟩ := Node.forms?_cons_eq_some.mp inner
    cases here
  | .list start (.symbol span :: arguments), _, formed => by
    obtain ⟨mark, items, rfl, inner, rfl⟩ := Node.form?_list_eq_some formed
    obtain ⟨first, others, here, there, rfl⟩ := Node.forms?_cons_eq_some.mp inner
    obtain ⟨head, name, rfl⟩ := symbol_form?_cases here
    obtain ⟨called, placed⟩ := symbolText_eq here
    have same := nodes_eq_forms reenter source arguments others there
    simp only [node, form, called, placed, same]
    rfl

/-- The arguments of a call are evaluated as their forms. -/
theorem nodes_eq_forms (reenter : String → Eval σ Value) (source : List Char) :
    ∀ (trees : List Node) (found : List (Form Int)), Node.forms? source trees = some found →
      nodes reenter source trees = forms reenter found
  | [], _, formed => by
    cases formed
    rfl
  | first :: rest, _, formed => by
    obtain ⟨here, others, first', rest', rfl⟩ := Node.forms?_cons_eq_some.mp formed
    rw [nodes, forms, node_eq_form reenter source first here first',
      nodes_eq_forms reenter source rest others rest']

end

/-! ### Runs of calls -/

variable {reenter : String → Eval σ Value} {machine : Machine σ} {mark head : Int}
  {name : List Char} {arguments : List (Form Int)}

/-- A list whose head is not known fails before any argument is looked at. -/
theorem form_run_unknown (absent : machine.registry.lookup (String.ofList name) = none) :
    (form reenter (.list mark (.symbol head name :: arguments))).run machine =
      (.error (.evaluation (.unknownFunction (String.ofList name)) (some head)), machine) := by
  rw [form, run_bind_ok get_run, absent]
  rfl

/-- A list whose head is known notes its call, evaluates its arguments and concludes the call. -/
theorem form_run_known {known : Overloads σ}
    (found : machine.registry.lookup (String.ofList name) = some known) :
    (form reenter (.list mark (.symbol head name :: arguments))).run machine =
      (forms reenter arguments >>= conclude reenter (String.ofList name) known (some head)).run
        { machine with stack := ⟨String.ofList name, [], some mark⟩ :: machine.stack } := by
  rw [form, run_bind_ok get_run, found]
  exact run_bind_ok (push_run _)

/-- With a call on top the arguments are noted in it, and the set that is found now is called. -/
theorem conclude_run {symbol : String} {known : Overloads σ} {position : Option Int}
    {frame : Frame} {outer : List Frame} (args : List Value)
    (top : machine.stack = frame :: outer) :
    (conclude reenter symbol known position args).run machine = (do
      let value ← call reenter ((machine.registry.lookup symbol).getD known) args position
      pop
      pure value : Eval σ Value).run { machine with stack := { frame with args } :: outer } := by
  rw [conclude, run_bind_ok (setArguments_run args top), run_bind_ok get_run]

end Eval

/-- A source that has a tree is evaluated as the form of the tree, with no call in progress. -/
theorem Machine.evaluate_of_form (machine : Machine σ) {text : String} {root : Node}
    {form : Form Int} (parsed : parse text.toList = .ok root)
    (formed : root.form? text.toList = some form) :
    machine.evaluate text = (Eval.form (Eval.sourceWithin (Eval.nestingDepth - 1)) form).run
      { machine with stack := [] } := by
  rw [machine.evaluate_of_parse parsed, Eval.node_eq_form _ _ _ _ formed]

end HostLisp
