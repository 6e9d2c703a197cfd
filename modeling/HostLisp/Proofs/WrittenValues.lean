import HostLisp.Proofs.RoundTrip
import HostLisp.Proofs.Run
import Mathlib.Algebra.Group.Nat.Defs
import Mathlib.Data.List.Forall2

/-!
# Values written in sources

The text that writes a constant, a text or a natural number is read as that value again, on its own
and among the arguments of a call.

## Main result

`evaluate_written`: a call with written arguments hands its operation exactly those values, a
written value is the value of its text, and the text of a negative number is no value.

## Proof strategy

A written value is a form with one leaf, so printing and reading forms gives that form back in its
place. It is left to see what the leaf stands for.
-/

namespace HostLisp

variable {σ α : Type}

/-! ### Numbers -/

private theorem isDigit_of_mem_toDigits {n : Nat} {c : Char} (member : c ∈ Nat.toDigits 10 n) :
    Number.isDigit c = true := by
  have digit := Nat.isDigit_of_mem_toDigits (by decide) (by decide) member
  simpa [Number.isDigit, Char.isDigit, Char.le_def] using digit

private theorem toLower_of_isDigit {c : Char} (digit : Number.isDigit c = true) :
    c.toLower = c := by
  -- Digits come before capitals, which alone have another form.
  have small : ¬ (c.val ≥ 'A'.val ∧ c.val ≤ 'Z'.val) := by
    rintro ⟨large, -⟩
    simp only [Number.isDigit, Bool.and_eq_true, decide_eq_true_eq, Char.le_def] at digit
    have gap : '9'.val < 'A'.val := by decide
    exact absurd (UInt32.lt_of_le_of_lt digit.2 gap) (UInt32.not_lt.mpr large)
  exact dif_neg small

namespace Atom

theorem constant?_cons_eq_none {c : Char} {rest : List Char}
    (other : c.toLower ∉ ['t', 'f', 'n']) : constant? (c :: rest) = none := by
  simp only [List.mem_cons, List.not_mem_nil, or_false, not_or] at other
  simp [constant?, other]

/-- The digits of a number within the limit spell the number. -/
theorem ofChars_toDigits (n : Nat) (within : n < 10 ^ Number.digitLimit) (position : Int) :
    ofChars (Nat.toDigits 10 n) position = .ok (.int n) := by
  have digits : ∀ c ∈ Nat.toDigits 10 n, Number.isDigit c = true :=
    fun c member => isDigit_of_mem_toDigits member
  have fits : ¬ Number.digitLimit < (Nat.toDigits 10 n).length :=
    Nat.not_lt.mpr ((Nat.length_toDigits_le_iff (by decide) (by decide)).mpr within)
  have number : Number.ofDigits (Nat.toDigits 10 n) = n := Nat.ofDigitChars_ten_toDigits
  -- The limit is never computed: a number is below a power exactly if its digits are that few.
  cases written : Nat.toDigits 10 n with
  | nil => exact absurd written Nat.toDigits_ne_nil
  | cons c rest =>
    rw [written] at digits fits number
    have digit := digits c List.mem_cons_self
    -- A digit begins no constant.
    have letters : ∀ d ∈ ['t', 'f', 'n'], Number.isDigit d = false := by simp [Number.isDigit]
    have none : constant? (c :: rest) = none := by
      apply constant?_cons_eq_none
      rw [toLower_of_isDigit digit]
      intro member
      rw [letters c member] at digit
      cases digit
    simp only [ofChars, none, digit, List.all_eq_true.mpr digits, Bool.not_true, if_true, readInt,
      if_neg fits, number]
    rfl

/-- A sign is no digit, so the text of a negative number spells nothing. -/
theorem ofChars_minus (digits : List Char) (position : Int) :
    ofChars ('-' :: digits) position =
      .error (.evaluation (.unexpectedSymbol (String.ofList ('-' :: digits))) (some position)) := by
  have none : constant? ('-' :: digits) = none := constant?_cons_eq_none (by decide)
  simp only [ofChars, none]
  rfl

end Atom

/-! ### Texts -/

/-- The characters of a text as the body of a string literal. -/
def escape (chars : List Char) : List Char :=
  chars.flatMap fun c => if c = '\\' || c = '"' then ['\\', c] else [c]

theorem isBody_escape (chars : List Char) : IsBody (escape chars) := by
  induction chars with
  | nil => exact .nil
  | cons c rest ih =>
    -- Only quotes and backslashes are written as two characters.
    by_cases special : c = '\\' ∨ c = '"'
    · have first : escape (c :: rest) = '\\' :: c :: escape rest := by simp [escape, special]
      rw [first]
      exact .escape c ih
    · have first : escape (c :: rest) = c :: escape rest := by simp [escape, special]
      rw [first]
      exact .plain c (fun same => special (Or.inl same)) (fun same => special (Or.inr same)) ih

/-- Each escape stands for the character that it protects, whatever follows. -/
theorem unescape_escape (chars : List Char) : Span.unescape (escape chars) = chars := by
  induction chars with
  | nil => rfl
  | cons c rest ih =>
    by_cases special : c = '\\' ∨ c = '"'
    · have first : escape (c :: rest) = '\\' :: c :: escape rest := by simp [escape, special]
      rw [first, Span.unescape, ih]
    · have first : escape (c :: rest) = c :: escape rest := by simp [escape, special]
      have plain : c ≠ '\\' := fun same => special (Or.inl same)
      rw [first, Span.unescape, ih]
      · intro same
        exact absurd same plain
      · intro _ _ same
        exact absurd same plain

/-! ### Forms of values -/

/-- The values that a source can write: constants, texts and natural numbers within the limit. -/
inductive Value.IsLiteral : Value → Prop
  | null : IsLiteral .null
  | bool (b : Bool) : IsLiteral (.bool b)
  | text (s : String) : IsLiteral (.text s)
  | int (n : Nat) (within : n < 10 ^ Number.digitLimit) : IsLiteral (.int n)

/-- A form is a leaf that stands for a value wherever it is. -/
inductive Form.Writes : Form α → Value → Prop
  | atom {text : List Char} {value : Value} (mark : α) (filled : text ≠ [])
      (spelled : ∀ position, Atom.ofChars text position = .ok value) :
      Writes (.symbol mark text) value
  | text (mark : α) (body : List Char) :
      Writes (.string mark body) (.text (String.ofList (Span.unescape body)))

private theorem endsSymbol_of_isDigit {c : Char} (digit : Number.isDigit c = true) :
    Reader.endsSymbol c = false := by
  rw [Bool.eq_false_iff]
  intro ends
  simp only [Reader.endsSymbol, Reader.isSpace, Reader.isGap, Bool.or_eq_true,
    decide_eq_true_eq] at ends
  rcases ends with ((((rfl | rfl) | rfl) | rfl) | rfl) | rfl
  all_goals cases digit

private theorem isSymbolText_toDigits (n : Nat) : IsSymbolText (Nat.toDigits 10 n) := by
  constructor
  · intro c member
    exact endsSymbol_of_isDigit (isDigit_of_mem_toDigits member)
  · intro quote
    have digit := isDigit_of_mem_toDigits (List.mem_of_head? quote)
    cases digit

private theorem isSymbolText_minus (n : Nat) : IsSymbolText ('-' :: Nat.toDigits 10 n) := by
  constructor
  · intro c member
    rcases List.mem_cons.mp member with rfl | later
    · rfl
    · exact (isSymbolText_toDigits n).inside c later
  · intro quote
    cases quote

/-- For any base and exponent, so that no power is computed. -/
private theorem not_pow_le {base exponent n : Nat} (below : n < base ^ exponent) :
    ¬ Nat.pow base exponent ≤ n :=
  Nat.not_le.mpr below

theorem Number.exceedsDigitLimit_of_lt {n : Int} (within : n.natAbs < 10 ^ digitLimit) :
    exceedsDigitLimit n = false := by
  rw [exceedsDigitLimit, decide_eq_false (not_pow_le within)]

theorem writeInt_of_fits {n : Int} (fits : Number.exceedsDigitLimit n = false) :
    writeInt n = .ok (Number.decimalText n) := by
  rw [writeInt, fits]
  exact if_neg Bool.false_ne_true

theorem writeInt_eq_ok {n : Int} (within : n.natAbs < 10 ^ Number.digitLimit) :
    writeInt n = .ok (Number.decimalText n) :=
  writeInt_of_fits (Number.exceedsDigitLimit_of_lt within)

private theorem isSymbolText_of_all {text : List Char}
    (inside : text.all (!Reader.endsSymbol ·) = true) (unquoted : text.head? ≠ some '"') :
    IsSymbolText text := by
  refine ⟨fun c member => ?_, unquoted⟩
  simpa using List.all_eq_true.mp inside c member

theorem Value.IsLiteral.written {value : Value} (literal : value.IsLiteral) :
    ∃ form : Form Unit, value.print = .ok (String.ofList form.chars) ∧ form.Readable ∧
      form.Writes value := by
  cases literal with
  | null =>
    have whole : IsSymbolText "null".toList := isSymbolText_of_all rfl (by decide)
    exact ⟨.symbol () _, rfl, .symbol _ _ whole, .atom () (by decide) fun _ => rfl⟩
  | bool b =>
    cases b with
    | true =>
      have whole : IsSymbolText "true".toList := isSymbolText_of_all rfl (by decide)
      exact ⟨.symbol () _, rfl, .symbol _ _ whole, .atom () (by decide) fun _ => rfl⟩
    | false =>
      have whole : IsSymbolText "false".toList := isSymbolText_of_all rfl (by decide)
      exact ⟨.symbol () _, rfl, .symbol _ _ whole, .atom () (by decide) fun _ => rfl⟩
  | text s =>
    refine ⟨.string () (escape s.toList), rfl, .string _ _ (isBody_escape s.toList), ?_⟩
    -- The literal stands for what its body is an escape of.
    have writes := Form.Writes.text () (escape s.toList)
    rwa [unescape_escape, String.ofList_toList] at writes
  | int n within =>
    refine ⟨.symbol () (Nat.toDigits 10 n), ?_, .symbol _ _ (isSymbolText_toDigits n), ?_⟩
    · have natural : ¬ (n : Int) < 0 := Int.not_lt.mpr (Int.natCast_nonneg n)
      have fits : (n : Int).natAbs < 10 ^ Number.digitLimit := within
      rw [Value.print, writeInt_eq_ok fits, Number.decimalText, if_neg natural]
      rfl
    · exact .atom () Nat.toDigits_ne_nil (Atom.ofChars_toDigits n within)

namespace Form.Writes

variable {form : Form α} {value : Value}

theorem isEmpty_eq_false (writes : form.Writes value) : form.isEmpty = false := by
  cases writes with
  | text mark body => rfl
  | @atom text _ mark filled spelled =>
    cases text with
    | nil => exact absurd rfl filled
    | cons c rest => rfl

theorem place (writes : form.Writes value) (offset : Nat) : (form.place offset).Writes value := by
  cases writes with
  | atom mark filled spelled => exact .atom _ filled spelled
  | text mark body => exact .text _ body

theorem prune_eq (writes : form.Writes value) : form.prune = form := by
  cases writes <;> rfl

end Form.Writes

/-- Written values stay what they are where they are printed one after another. -/
private theorem placeSpaced_writes {forms : List (Form α)} {values : List Value}
    (writes : List.Forall₂ Form.Writes forms values) (offset : Nat) :
    List.Forall₂ Form.Writes (Form.pruneAll (Form.placeSpaced offset forms)) values := by
  induction writes generalizing offset with
  | nil => exact .nil
  | @cons form value rest values first _ ih =>
    have placed := first.place (offset + 1)
    have others := ih (offset + 1 + form.chars.length)
    simpa [Form.placeSpaced, Form.pruneAll, placed.isEmpty_eq_false, placed.prune_eq]
      using ⟨placed, others⟩

/-! ### Evaluation -/

namespace Eval

variable {reenter : String → Eval σ Value} {source : List Char}

/-- A symbol with characters gives what they spell at its place. -/
theorem node_of_symbol {node : Node} {position : Int} {text : List Char} (filled : text ≠ [])
    (formed : node.form? source = some (.symbol position text)) :
    Eval.node reenter source node = match Atom.ofChars text position with
      | .ok value => pure value
      | .error fault => throw fault := by
  obtain ⟨span, rfl, rfl, rfl, whole⟩ := Node.form?_eq_symbol formed
  have spelled : Atom.ofSpan span source = Atom.ofChars (span.slice source) span.start :=
    if_neg (whole filled)
  cases chars : Atom.ofChars (span.slice source) span.start with
  | ok value => simp only [Eval.node, spelled, chars]
  | error fault => simp only [Eval.node, spelled, chars]

theorem node_of_string {node : Node} {position : Int} {body : List Char}
    (formed : node.form? source = some (.string position body)) :
    Eval.node reenter source node = pure (.text (String.ofList (Span.unescape body))) := by
  obtain ⟨span, rfl, rfl⟩ := Node.form?_eq_string formed
  rw [Eval.node, Node.stringText_eq]

theorem node_of_writes {node : Node} {form : Form Int} {value : Value}
    (formed : node.form? source = some form) (writes : form.Writes value) :
    Eval.node reenter source node = pure value := by
  cases writes with
  | atom position filled spelled => rw [node_of_symbol filled formed, spelled]
  | text position body => exact node_of_string formed

theorem nodes_of_writes {nodes : List Node} {forms : List (Form Int)} {values : List Value}
    (formed : Node.forms? source nodes = some forms)
    (writes : List.Forall₂ Form.Writes forms values) :
    Eval.nodes reenter source nodes = pure values := by
  induction nodes generalizing forms values with
  | nil =>
    cases formed
    cases writes
    rfl
  | cons node rest ih =>
    obtain ⟨form, others, here, there, rfl⟩ := Node.forms?_cons_eq_some.mp formed
    cases writes with
    | cons first second =>
      rw [Eval.nodes, node_of_writes here first, ih there second]
      rfl

end Eval

/-! ### Sources -/

/-- The tree of the text of a form has that form where it stands. -/
theorem parse_chars (form : Form α) (readable : form.Readable) (filled : form.isEmpty = false) :
    ∃ root, parse form.chars = .ok root ∧ root.form? form.chars = some (form.place 0).prune := by
  obtain ⟨root, returned, formed⟩ := read_chars form readable filled
  refine ⟨root, ?_, formed⟩
  rw [parse, returned]

/-- A written value is the value of its text. -/
theorem Machine.evaluate_literal (machine : Machine σ) {value : Value} (literal : value.IsLiteral) :
    ∃ text, value.print = .ok text ∧
      machine.evaluate text = (.ok value, { machine with stack := [] }) := by
  obtain ⟨form, printed, readable, writes⟩ := literal.written
  obtain ⟨root, parsed, formed⟩ := parse_chars form readable writes.isEmpty_eq_false
  rw [(writes.place 0).prune_eq] at formed
  refine ⟨_, printed, ?_⟩
  rw [machine.evaluate_of_parse (by rw [String.toList_ofList, parsed]), String.toList_ofList,
    Eval.node_of_writes formed (writes.place 0)]
  rfl

/-- The text of a negative number is no number, and is reported whole. -/
theorem Machine.evaluate_negative (machine : Machine σ) {n : Int} (negative : n < 0)
    (within : n.natAbs < 10 ^ Number.digitLimit) :
    ∃ text, (Value.int n).print = .ok text ∧ machine.evaluate text =
      (.error (.evaluation (.unexpectedSymbol text) (some 0)), { machine with stack := [] }) := by
  have printed : (Value.int n).print = .ok (String.ofList ('-' :: Nat.toDigits 10 n.natAbs)) := by
    rw [Value.print, writeInt_eq_ok within, Number.decimalText, if_pos negative]
  have whole := isSymbolText_minus n.natAbs
  obtain ⟨root, parsed, formed⟩ : ∃ root, parse ('-' :: Nat.toDigits 10 n.natAbs) = .ok root ∧
      root.form? ('-' :: Nat.toDigits 10 n.natAbs) =
        some (.symbol 0 ('-' :: Nat.toDigits 10 n.natAbs)) :=
    parse_chars (.symbol () _) (.symbol () _ whole) rfl
  refine ⟨_, printed, ?_⟩
  rw [machine.evaluate_of_parse (by rw [String.toList_ofList, parsed]), String.toList_ofList,
    Eval.node_of_symbol (List.cons_ne_nil _ _) formed, Atom.ofChars_minus]
  rfl

/-! ### Calls -/

/-- A node with the form of a call is one. -/
theorem Node.form?_call {source : List Char} {node : Node} {position offset : Int}
    {name : List Char} {items : List (Form Int)}
    (formed : node.form? source = some (.list position (.symbol offset name :: items))) :
    ∃ head arguments, node = .list (some position) (.symbol head :: arguments) ∧
      Node.symbolText head source = String.ofList name ∧
      Node.forms? source arguments = some items := by
  obtain ⟨children, rfl, inner⟩ := Node.form?_eq_list formed
  cases children with
  | nil => cases inner
  | cons first arguments =>
    obtain ⟨form, others, here, there, same⟩ := Node.forms?_cons_eq_some.mp inner
    cases same
    obtain ⟨head, rfl, -, sliced, -⟩ := Node.form?_eq_symbol here
    exact ⟨head, arguments, rfl, congrArg String.ofList sliced, there⟩

/-- The texts of written values are those of forms that write them. -/
theorem forms_of_literals (values : List Value)
    (literals : ∀ value ∈ values, value.IsLiteral) : ∃ forms : List (Form Unit),
      values.mapM Value.print = .ok (forms.map fun form => String.ofList form.chars) ∧
      (∀ form ∈ forms, form.Readable) ∧ List.Forall₂ Form.Writes forms values := by
  induction values with
  | nil => exact ⟨[], rfl, by simp, .nil⟩
  | cons value rest ih =>
    obtain ⟨literal, others⟩ := List.forall_mem_cons.mp literals
    obtain ⟨form, printed, readable, writes⟩ := literal.written
    obtain ⟨forms, texts, allReadable, allWrite⟩ := ih others
    refine ⟨form :: forms, ?_, List.forall_mem_cons.mpr ⟨readable, allReadable⟩,
      .cons writes allWrite⟩
    rw [List.mapM_cons, printed, texts]
    rfl

/-- The text of a call with written arguments has the form of the call. -/
theorem parse_call {name : List Char} (filled : name ≠ []) (whole : IsSymbolText name)
    {forms : List (Form Unit)} (readable : ∀ form ∈ forms, form.Readable) {values : List Value}
    (writes : List.Forall₂ Form.Writes forms values) {source : List Char}
    (text : source = (Form.list () (.symbol () name :: forms)).chars) : ∃ root items,
      parse source = .ok root ∧ root.form? source = some (.list 0 (.symbol 1 name :: items)) ∧
      List.Forall₂ Form.Writes items values := by
  -- The name and the arguments are apart in the text, because each of them is read back alone.
  have readableCall : (Form.list () (.symbol () name :: forms)).Readable :=
    .list _ _ (List.forall_mem_cons.mpr ⟨.symbol _ _ whole, readable⟩)
  obtain ⟨root, parsed, formed⟩ := parse_chars _ readableCall rfl
  rw [← text] at parsed formed
  have named : (Form.symbol (1 : Int) name).isEmpty = false := by
    cases name with
    | nil => exact absurd rfl filled
    | cons c rest => rfl
  -- No argument is left out, and the name keeps its place behind the parenthesis.
  have placed : ((Form.list () (.symbol () name :: forms)).place 0).prune =
      .list 0 (.symbol 1 name :: Form.pruneAll (Form.placeSpaced (1 + name.length) forms)) := by
    simp [Form.place, Form.prune, Form.pruneAll, Form.chars, named]
  rw [placed] at formed
  exact ⟨root, _, parsed, formed, placeSpaced_writes writes _⟩

/-- The tree of a call with written arguments, and their values. -/
private theorem tree_of_call {name : List Char} (filled : name ≠ []) (whole : IsSymbolText name)
    {forms : List (Form Unit)} (readable : ∀ form ∈ forms, form.Readable) {values : List Value}
    (writes : List.Forall₂ Form.Writes forms values) {source : List Char}
    (text : source = (Form.list () (.symbol () name :: forms)).chars) : ∃ head arguments,
      parse source = .ok (.list (some 0) (.symbol head :: arguments)) ∧
      Node.symbolText head source = String.ofList name ∧
      ∀ reenter : String → Eval σ Value, Eval.nodes reenter source arguments = pure values := by
  obtain ⟨root, items, parsed, formed, writes'⟩ := parse_call filled whole readable writes text
  obtain ⟨head, arguments, rfl, called, inner⟩ := Node.form?_call formed
  exact ⟨head, arguments, parsed, called, fun reenter => Eval.nodes_of_writes inner writes'⟩

/-- A machine on which nothing has run, with one operation for any arguments. -/
def Machine.single (name : String) (label : Option String) (run : List Value → Action σ)
    (state : σ) : Machine σ :=
  .fresh (Registry.empty.register name (.variadic label none run)) state

private theorem single_lookup (name : String) (label : Option String)
    (run : List Value → Action σ) (state : σ) :
    (Machine.single name label run state).registry.lookup name =
      some ⟨name, [.variadic label none run]⟩ :=
  List.find?_cons_of_pos (by simp)

/-- A call on that machine performs its operation once, with the call noted. -/
private theorem single_evaluate {name text : String} {head : Span} {arguments : List Node}
    {values : List Value}
    (parsed : parse text.toList = .ok (.list (some 0) (.symbol head :: arguments)))
    (called : Node.symbolText head text.toList = name)
    (evaluated : ∀ reenter : String → Eval σ Value,
      Eval.nodes reenter text.toList arguments = pure values)
    (label : Option String) (run : List Value → Action σ) (state : σ) :
    (Machine.single name label run state).evaluate text = (do
      let value ← Eval.perform (Eval.sourceWithin (Eval.nestingDepth - 1)) (run values)
      Eval.record (.returned name 0 (Operation.variadic label none run).inspect)
      Eval.pop
      pure value : Eval σ Value).run {
        registry := (Machine.single name label run state).registry
        stack := [⟨name, values, some 0⟩]
        state
        journal := [.call name values.length 1, .entered name 0 values] } := by
  subst called
  have found := single_lookup (Node.symbolText head text.toList) label run state
  -- The one operation takes any arguments, so it is the one that is chosen.
  have chosen : Overloads.choose? ⟨Node.symbolText head text.toList, [.variadic label none run]⟩
      values = some (0, .variadic label none run) := rfl
  rw [Machine.evaluate_of_parse _ parsed]
  refine (Eval.node_run found (evaluated _)).trans ?_
  rw [Eval.run_bind_congr (Eval.call_run chosen _)]
  -- The end of the call and the end of the list are one sequence.
  simp only [bind_assoc, pure_bind]
  rfl

/-- Written values as arguments are handed over as they are: the operation is performed once, with
its call noted. On its own a written value is the value of its text, and the text of a negative
number is an unexpected symbol. -/
theorem evaluate_written (name : String) (filled : name ≠ "") (whole : IsSymbolText name.toList)
    (label : Option String) (run : List Value → Action σ) (state : σ) (values : List Value)
    (literals : ∀ value ∈ values, value.IsLiteral) :
    (∃ texts, values.mapM Value.print = .ok texts ∧
      (Machine.single name label run state).evaluate ("(" ++ " ".intercalate (name :: texts) ++ ")") =
        (do
          let value ← Eval.perform (Eval.sourceWithin (Eval.nestingDepth - 1)) (run values)
          Eval.record (.returned name 0 (Operation.variadic label none run).inspect)
          Eval.pop
          pure value : Eval σ Value).run {
            registry := (Machine.single name label run state).registry
            stack := [⟨name, values, some 0⟩]
            state
            journal := [.call name values.length 1, .entered name 0 values] }) ∧
    (∀ (machine : Machine σ) (value : Value), value.IsLiteral → ∃ text, value.print = .ok text ∧
      machine.evaluate text = (.ok value, { machine with stack := [] })) ∧
    ∀ (machine : Machine σ) (n : Int), n < 0 → n.natAbs < 10 ^ Number.digitLimit →
      ∃ text, (Value.int n).print = .ok text ∧ machine.evaluate text =
        (.error (.evaluation (.unexpectedSymbol text) (some 0)), { machine with stack := [] }) := by
  refine ⟨?_, fun machine _ literal => machine.evaluate_literal literal,
    fun machine _ negative within => machine.evaluate_negative negative within⟩
  obtain ⟨forms, printed, readable, writes⟩ := forms_of_literals values literals
  refine ⟨_, printed, ?_⟩
  have text : ("(" ++ " ".intercalate (name :: forms.map fun form => String.ofList form.chars)
      ++ ")").toList = (Form.list () (.symbol () name.toList :: forms)).chars := by
    rw [String.toList_append, String.toList_append, Form.toList_joined]
    simp [Form.chars, Form.spaced_eq_flatMap, Function.comp_def]
  have filled' : name.toList ≠ [] := fun none => filled (String.toList_eq_nil_iff.mp none)
  obtain ⟨head, arguments, parsed, called, evaluated⟩ :=
    tree_of_call (σ := σ) filled' whole readable writes text
  rw [String.ofList_toList] at called
  exact single_evaluate parsed called evaluated label run state

/-- A text that ends in backslashes after a quote, a number and null. -/
theorem evaluate_written_list : "f" ≠ "" ∧ IsSymbolText "f".toList ∧
    (∀ value ∈ [Value.text "\"\\\\", .int (7 : Nat), .null], value.IsLiteral) ∧
    ∃ texts, [Value.text "\"\\\\", .int (7 : Nat), .null].mapM Value.print = .ok texts ∧
      (Machine.single "f" none (fun args => .give (.list args)) ()).evaluate
          ("(" ++ " ".intercalate ("f" :: texts) ++ ")") =
        (.ok (.list [.text "\"\\\\", .int 7, .null]), {
          registry := (Machine.single "f" none (fun args => .give (.list args)) ()).registry
          stack := []
          state := ()
          journal := [.call "f" 3 1, .entered "f" 0 [.text "\"\\\\", .int 7, .null],
            .returned "f" 0 "<VariadicFunction fn(any...)>"] }) := by
  have whole : IsSymbolText "f".toList := isSymbolText_of_all rfl (by decide)
  have small : 7 < 10 ^ Number.digitLimit :=
    calc 7 < 10 ^ 1 := by decide
      _ ≤ 10 ^ Number.digitLimit := Nat.pow_le_pow_right (by decide) (by decide)
  have literals : ∀ value ∈ [Value.text "\"\\\\", .int (7 : Nat), .null], value.IsLiteral := by
    simpa using ⟨.text _, .int 7 small, .null⟩
  exact ⟨by decide, whole, literals,
    (evaluate_written "f" (by decide) whole none (fun args => .give (.list args)) () _ literals).1⟩

end HostLisp
