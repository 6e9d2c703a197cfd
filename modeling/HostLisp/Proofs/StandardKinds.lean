import HostLisp.Environment
import HostLisp.Proofs.FormEvaluation
import HostLisp.Proofs.Registration
import HostLisp.Standard
import Mathlib.Data.List.Forall2

/-!
# Kinds and the standard operations

With the standard operations alone, whether a source has a value, of which kind it is and how a
source without one fails depends on the kinds of its literals only.

## Main result

`run_standard`: a source runs as its kinds foresee.

## Proof strategy

Each set of standard operations is set beside the rule for its kinds. That a form goes as foreseen
is then an induction on the form in which no operation is mentioned.
-/

namespace HostLisp

variable {σ α β : Type}

/-! ### Kinds of values -/

/-- The values of the standard operations, with their kinds. No number among them is negative. -/
inductive Value.HasKind : Value → Kind → Prop
  | int (n : Nat) : HasKind (.int n) .integer
  | bool (b : Bool) : HasKind (.bool b) .boolean
  | text (s : String) : HasKind (.text s) .string
  | null : HasKind .null .null

theorem Value.HasKind.kind_eq {value : Value} {kind : Kind} (has : value.HasKind kind) :
    value.kind = kind := by
  cases has <;> rfl

/-- The kinds of arguments are what a refused call is reported with. -/
theorem Value.kinds_eq {values : List Value} {kinds : List Kind}
    (have' : List.Forall₂ HasKind values kinds) : values.map kind = kinds := by
  induction have' with
  | nil => rfl
  | cons has _ ih => rw [List.map_cons, has.kind_eq, ih]

namespace Standard

/-! ### Kinds of results -/

/-- Numbers add up to a number, and so does nothing at all; texts join to a text. -/
def addition (kinds : List Kind) : Option Kind :=
  if kinds.all (· = .integer) then some .integer
  else if kinds.all (· = .string) then some .string
  else none

/-- Two integers are compared. -/
def comparison : List Kind → Option Kind
  | [.integer, .integer] => some .boolean
  | _ => none

/-- Any two values but nulls are equal or not. -/
def equality : List Kind → Option Kind
  | [a, b] => if a = .null ∨ b = .null then none else some .boolean
  | _ => none

/-- Truth values are joined, however many there are. -/
def connection (kinds : List Kind) : Option Kind :=
  if kinds.all (· = .boolean) then some .boolean else none

/-- Of two truth values one or the other may hold. -/
def exclusion : List Kind → Option Kind
  | [.boolean, .boolean] => some .boolean
  | _ => none

def negation : List Kind → Option Kind
  | [.boolean] => some .boolean
  | _ => none

/-- The kind of the result of each function for the kinds of its arguments, if it takes them. -/
def rules : List (String × (List Kind → Option Kind)) := [
  ("add", addition),
  ("lt", comparison), ("lte", comparison), ("gt", comparison), ("gte", comparison),
  ("eq", equality), ("ne", equality),
  ("and", connection), ("or", connection), ("xor", exclusion), ("not", negation)]

/-- The rule of a name, if it is the name of a standard operation. -/
def rule? (name : String) : Option (List Kind → Option Kind) :=
  (rules.find? (·.1 = name)).map Prod.snd

end Standard

/-! ### Kinds of forms -/

/-- Why a form has no kind, and the offset that this is reported at. -/
structure Complaint where
  cause : Cause
  position : Int
  deriving DecidableEq, Repr

/-- The fault that a complaint is reported as. -/
def Complaint.fault (complaint : Complaint) : Fault :=
  .evaluation complaint.cause (some complaint.position)

/-- What a call comes to if its name goes by a rule. -/
def Standard.ruling (rule : List Kind → Option Kind) (name : String) (head : Int)
    (kinds : List Kind) : Except Complaint Kind :=
  match rule kinds with
  | some kind => .ok kind
  | none => .error ⟨.notApplicable name kinds, head⟩

/-- The kind of what a symbol of a text spells. -/
def Atom.kind (text : List Char) (position : Int) : Except Complaint Kind :=
  let lowered := text.map Char.toLower
  match text with
  | [] => .error ⟨.zeroLengthSymbol, position⟩
  | first :: _ =>
    if lowered = "true".toList ∨ lowered = "false".toList then .ok .boolean
    else if lowered = "null".toList then .ok .null
    else if text.all Number.isDigit then .ok .integer
    else if Number.isDigit first then .error ⟨.invalidInteger (String.ofList text), position⟩
    else .error ⟨.unexpectedSymbol (String.ofList text), position⟩

namespace Form

mutual

/-- The kind of a form, found without evaluating it. -/
def kind : Form Int → Except Complaint Kind
  | .string _ _ => .ok .string
  | .symbol mark text => Atom.kind text mark
  | .list mark [] => .error ⟨.emptyList, mark⟩
  | .list _ (.symbol head name :: arguments) =>
    let name := String.ofList name
    match Standard.rule? name with
    | none => .error ⟨.unknownFunction name, head⟩
    | some rule => do
      let kinds ← kinds arguments
      Standard.ruling rule name head kinds
  | .list mark (_ :: _) => .error ⟨.headNotSymbol, mark⟩
termination_by structural form => form

def kinds : List (Form Int) → Except Complaint (List Kind)
  | [] => .ok []
  | first :: rest => do
    let kind ← kind first
    let kinds ← kinds rest
    .ok (kind :: kinds)
termination_by structural forms => forms

end

mutual

/-- Whether each integer literal of a form is within the limit of digits. The head of a list is no
literal. -/
def literalsFit : Form α → Bool
  | .symbol _ text => !text.all Number.isDigit || text.length ≤ Number.digitLimit
  | .string _ _ => true
  | .list _ [] => true
  | .list _ (_ :: arguments) => allLiteralsFit arguments
termination_by structural form => form

def allLiteralsFit : List (Form α) → Bool
  | [] => true
  | form :: rest => literalsFit form && allLiteralsFit rest
termination_by structural forms => forms

end

end Form

/-! ### What each function takes -/

namespace Standard

/-- Whether the values of a kind belong to a type. -/
def takes (type : TypeName) (kind : Kind) : Bool :=
  match type with
  | .int => kind = .integer
  | .bool => kind = .boolean
  | .text => kind = .string
  | .any => kind ≠ .null
  | .null => kind = .null
  | _ => false

def takeAll : List TypeName → List Kind → Bool
  | [], [] => true
  | type :: types, kind :: kinds => takes type kind && takeAll types kinds
  | _, _ => false

/-- Whether a value is of a type is told by its kind. -/
theorem holds_eq_takes {value : Value} {kind : Kind} (has : value.HasKind kind) (type : TypeName) :
    type.holds value = takes type kind := by
  cases has <;> cases type <;> rfl

theorem all_holds_eq {args : List Value} {kinds : List Kind}
    (have' : List.Forall₂ Value.HasKind args kinds) (type : TypeName) :
    args.all type.holds = kinds.all (takes type) := by
  induction have' with
  | nil => rfl
  | cons has _ ih => rw [List.all_cons, List.all_cons, holds_eq_takes has, ih]

/-- Whether a list of arguments fits a list of types is told by their kinds. -/
theorem allHold_eq {args : List Value} {kinds : List Kind}
    (have' : List.Forall₂ Value.HasKind args kinds) (types : List TypeName) :
    Operation.allHold types args = takeAll types kinds := by
  induction have' generalizing types with
  | nil => cases types <;> rfl
  | cons has _ ih =>
    cases types with
    | nil => rfl
    | cons type types => rw [Operation.allHold, takeAll, holds_eq_takes has, ih]

/-- The choice from a set of one operation. -/
theorem choose?_single (name : String) (operation : Operation σ) (args : List Value) :
    (Overloads.mk name [operation]).choose? args =
      if operation.accepts args then some (0, operation) else none := by
  cases accepted : operation.accepts args with
  | true => simp [Overloads.choose?, accepted, Operation.admits_of_accepts accepted]
  | false => simp [Overloads.choose?, accepted]

/-- The choice from a set of two operations, of which the first goes before the second. -/
theorem choose?_pair (name : String) (first second : Operation σ) (args : List Value) :
    (Overloads.mk name [first, second]).choose? args =
      if first.accepts args then some (0, first)
      else if second.accepts args then some (1, second) else none := by
  cases accepted : first.accepts args with
  | true => simp [Overloads.choose?, accepted, Operation.admits_of_accepts accepted]
  | false =>
    cases accepted' : second.accepts args with
    | true => simp [Overloads.choose?, accepted, accepted', Operation.admits_of_accepts accepted']
    | false => simp [Overloads.choose?, accepted, accepted']

/-! ### Each set goes by its rule -/

/-- A set of operations goes by a rule: arguments of kinds that have a result are given a value of
its kind, and no operation takes others. -/
def GoesBy (overloads : Overloads σ) (rule : List Kind → Option Kind) : Prop :=
  ∀ args kinds, List.Forall₂ Value.HasKind args kinds →
    match rule kinds with
    | some kind => ∃ place operation value, overloads.choose? args = some (place, operation) ∧
        operation.run args = .give value ∧ value.HasKind kind
    | none => overloads.choose? args = none

/-- A set of one operation that gives a truth value goes by the rule that asks for what the
operation takes. -/
private theorem test_goes {name : String} {operation : Operation σ} {result : List Value → Value}
    {rule : List Kind → Option Kind} {fits : List Kind → Bool}
    (accepts : ∀ args kinds, List.Forall₂ Value.HasKind args kinds →
      operation.accepts args = fits kinds)
    (gives : ∀ args, operation.run args = .give (result args))
    (truth : ∀ args, ∃ b, result args = .bool b)
    (ruled : ∀ kinds, rule kinds = if fits kinds then some .boolean else none) :
    GoesBy ⟨name, [operation]⟩ rule := by
  intro args kinds have'
  rw [choose?_single, accepts args kinds have', ruled]
  cases fits kinds with
  | false => rfl
  | true =>
    obtain ⟨b, result⟩ := truth args
    exact ⟨0, operation, _, rfl, gives args, result ▸ .bool b⟩

/-- A test of as many arguments as it has types goes by their kinds. -/
private theorem fixed_goes (name label : String) (types : List TypeName)
    (result : List Value → Value) {rule : List Kind → Option Kind}
    (truth : ∀ args, ∃ b, result args = .bool b)
    (ruled : ∀ kinds, rule kinds = if takeAll types kinds then some .boolean else none) :
    GoesBy ⟨name, [fixed (σ := σ) label types result]⟩ rule :=
  test_goes (fun _ _ have' => allHold_eq have' types) (fun _ => rfl) truth ruled

/-- A connective goes by the rule for truth values, however many it is given. -/
private theorem variadic_goes (name label : String) (result : List Value → Bool) :
    GoesBy ⟨name, [variadic (σ := σ) label .bool fun args => .bool (result args)]⟩ connection :=
  test_goes (fun _ _ have' => all_holds_eq have' .bool) (fun _ => rfl) (fun _ => ⟨_, rfl⟩)
    fun _ => rfl

private theorem compare_truth (relation : Int → Int → Bool) (args : List Value) :
    ∃ b, compare relation args = .bool b := by
  rw [compare]
  split
  · exact ⟨_, rfl⟩
  · exact ⟨false, rfl⟩

private theorem comparison_ruled (kinds : List Kind) :
    comparison kinds = if takeAll [.int, .int] kinds then some .boolean else none := by
  rcases kinds with _ | ⟨a, _ | ⟨b, _ | ⟨c, rest⟩⟩⟩
  · rfl
  · cases a <;> rfl
  · cases a <;> cases b <;> rfl
  · cases a <;> cases b <;> rfl

private theorem equality_ruled (kinds : List Kind) :
    equality kinds = if takeAll [.any, .any] kinds then some .boolean else none := by
  rcases kinds with _ | ⟨a, _ | ⟨b, _ | ⟨c, rest⟩⟩⟩
  · rfl
  · cases a <;> rfl
  · cases a <;> cases b <;> rfl
  · cases a <;> cases b <;> rfl

private theorem exclusion_ruled (kinds : List Kind) :
    exclusion kinds = if takeAll [.bool, .bool] kinds then some .boolean else none := by
  rcases kinds with _ | ⟨a, _ | ⟨b, _ | ⟨c, rest⟩⟩⟩
  · rfl
  · cases a <;> rfl
  · cases a <;> cases b <;> rfl
  · cases a <;> cases b <;> rfl

private theorem negation_ruled (kinds : List Kind) :
    negation kinds = if takeAll [.bool] kinds then some .boolean else none := by
  rcases kinds with _ | ⟨a, _ | ⟨b, rest⟩⟩
  · rfl
  · cases a <;> rfl
  · cases a <;> rfl

/-- Integers in a source are never negative, so neither is their sum. -/
private theorem addNumbers_natural {args : List Value} {kinds : List Kind}
    (have' : List.Forall₂ Value.HasKind args kinds) (numbers' : kinds.all (takes .int) = true)
    (start : Nat) : ∃ total : Nat, (numbers args).foldl (· + ·) (start : Int) = total := by
  induction have' generalizing start with
  | nil => exact ⟨start, rfl⟩
  | cons has _ ih =>
    rw [List.all_cons, Bool.and_eq_true] at numbers'
    cases has with
    | int n =>
      -- The sum is taken from the left, so the induction is on any start that is not negative.
      obtain ⟨total, sum⟩ := ih numbers'.2 (start + n)
      exact ⟨total, by rw [← sum]; rfl⟩
    | _ => cases numbers'.1

/-- Addition is of integers or of texts, and an empty sum is the integer zero because integers come
first. -/
private theorem addition_goes (name : String) : GoesBy (σ := σ) ⟨name,
    [variadic "add_ints" .int addNumbers, variadic "add_strings" .text addTexts]⟩ addition := by
  intro args kinds have'
  have whole : (variadic (σ := σ) "add_ints" .int addNumbers).accepts args =
      kinds.all (takes .int) := all_holds_eq have' .int
  have written : (variadic (σ := σ) "add_strings" .text addTexts).accepts args =
      kinds.all (takes .text) := all_holds_eq have' .text
  -- The rule asks what the operations ask, in their order.
  have ruled : addition kinds = if kinds.all (takes .int) then some .integer
      else if kinds.all (takes .text) then some .string else none := rfl
  rw [choose?_pair, whole, written, ruled]
  cases first : kinds.all (takes .int) with
  | true =>
    obtain ⟨total, sum⟩ := addNumbers_natural have' first 0
    exact ⟨0, _, _, rfl, rfl, by rw [addNumbers]; exact sum ▸ .int total⟩
  | false =>
    cases kinds.all (takes .text) with
    | true => exact ⟨1, _, _, rfl, rfl, .text _⟩
    | false => rfl

/-! ### The registry -/

/-- The standard operations and no others. -/
def registry : Registry σ := Registry.empty.registerAll operations

/-- The standard operations go by the rules, in the order of the table. -/
theorem registry_goes : List.Forall₂ (fun overloads rule =>
    overloads.name = rule.1 ∧ GoesBy overloads rule.2) (registry (σ := σ)).sets rules := by
  -- What is computed as a truth value needs no look at the arguments.
  have logic (result : List Value → Bool) : ∀ args, ∃ b, Value.bool (result args) = .bool b :=
    fun _ => ⟨_, rfl⟩
  refine .cons ⟨rfl, addition_goes _⟩ <|
    .cons ⟨rfl, fixed_goes _ _ _ _ (compare_truth _) comparison_ruled⟩ <|
    .cons ⟨rfl, fixed_goes _ _ _ _ (compare_truth _) comparison_ruled⟩ <|
    .cons ⟨rfl, fixed_goes _ _ _ _ (compare_truth _) comparison_ruled⟩ <|
    .cons ⟨rfl, fixed_goes _ _ _ _ (compare_truth _) comparison_ruled⟩ <|
    .cons ⟨rfl, fixed_goes _ _ _ _ (logic _) equality_ruled⟩ <|
    .cons ⟨rfl, fixed_goes _ _ _ _ (logic _) equality_ruled⟩ <|
    .cons ⟨rfl, variadic_goes _ _ _⟩ <| .cons ⟨rfl, variadic_goes _ _ _⟩ <|
    .cons ⟨rfl, fixed_goes _ _ _ _ (logic _) exclusion_ruled⟩ <|
    .cons ⟨rfl, fixed_goes _ _ _ _ (logic _) negation_ruled⟩ .nil

/-- Two tables that agree row by row agree on what is found under a name. -/
private theorem find_goes {sets : List (Overloads σ)} {rules : List (String × (List Kind → Option Kind))}
    (pairs : List.Forall₂ (fun overloads rule =>
      overloads.name = rule.1 ∧ GoesBy overloads rule.2) sets rules) (name : String) :
    match (rules.find? (·.1 = name)).map Prod.snd with
    | some rule => ∃ overloads, sets.find? (·.name = name) = some overloads ∧
        overloads.name = name ∧ GoesBy overloads rule
    | none => sets.find? (·.name = name) = none := by
  induction pairs with
  | nil => rfl
  | @cons overloads rule _ _ pair _ ih =>
    obtain ⟨named, goes⟩ := pair
    -- Both tables are searched from the front, and their rows have the same names.
    by_cases here : overloads.name = name
    · have here' : rule.1 = name := named ▸ here
      simp only [List.find?_cons, here, here', decide_true, Option.map_some]
      exact ⟨overloads, rfl, here, goes⟩
    · have here' : rule.1 ≠ name := named ▸ here
      simpa only [List.find?_cons, here, here', decide_false] using ih

/-- A name is registered exactly if it has a rule, and then its operations go by the rule. -/
theorem lookup_goes (name : String) :
    match rule? name with
    | some rule => ∃ overloads, (registry (σ := σ)).lookup name = some overloads ∧
        overloads.name = name ∧ GoesBy overloads rule
    | none => (registry (σ := σ)).lookup name = none :=
  find_goes registry_goes name

/-- A standard name has the operations that are listed for it. -/
theorem lookup_listed {name : String} {first : Operation σ} {rest : List (Operation σ)}
    (listed : Registry.under name operations = first :: rest) :
    (registry (σ := σ)).lookup name = some ⟨name, first :: rest⟩ := by
  have filled : Registry.under name (operations (σ := σ)) ≠ [] := by
    rw [listed]
    exact List.cons_ne_nil first rest
  rw [registry, Registry.lookup_registerAll_of_absent rfl filled, listed]

/-- The names of the standard operations are those that symbols can have. -/
theorem isSymbolText_of_lookup {name : String} {known : Overloads σ}
    (found : registry.lookup name = some known) :
    name.toList ≠ [] ∧ IsSymbolText name.toList := by
  have each : ∀ name ∈ ["add", "lt", "lte", "gt", "gte", "eq", "ne", "and", "or", "xor", "not"],
      name.toList ≠ [] ∧ name.toList.all (!Reader.endsSymbol ·) ∧
        name.toList.head? ≠ some '"' := by
    decide
  have named : (registry (σ := σ)).symbols =
      ["add", "lt", "lte", "gt", "gte", "eq", "ne", "and", "or", "xor", "not"] := rfl
  obtain ⟨filled, inside, unquoted⟩ := each name (by
    rw [← named, ← Registry.name_of_lookup found]
    exact List.mem_map_of_mem (Registry.mem_of_lookup found))
  exact ⟨filled, by simpa using inside, unquoted⟩

end Standard

/-! ### Evaluations that go as foreseen -/

/-- A result is one that was foreseen: it is related to the foreseen one, or is the fault that was
complained of. -/
def Meets (Related : β → α → Prop) : Except Complaint α → Except Fault β → Prop
  | .ok expected, result => ∃ value, result = .ok value ∧ Related value expected
  | .error complaint, result => result = .error complaint.fault

/-- On a machine with the standard operations alone an evaluation meets what is foreseen. With a
value it leaves the operations and the calls in progress as they were. -/
def GoesAs (Related : β → α → Prop) (foreseen : Except Complaint α) (evaluation : Eval σ β) : Prop :=
  ∀ machine : Machine σ, machine.registry = Standard.registry → ∃ result after,
    evaluation.run machine = (result, after) ∧ Meets Related foreseen result ∧
    ∀ value, result = .ok value → after.registry = Standard.registry ∧ after.stack = machine.stack

/-- The value of a symbol is of the kind that its text foresees, unless it is a literal beyond the
limit. -/
theorem Atom.ofText_meets (text : List Char) (position : Int)
    (fits : (Form.symbol position text).literalsFit = true) :
    Meets Value.HasKind (Atom.kind text position) (Atom.ofText text position) := by
  cases text with
  | nil => rfl
  | cons c rest =>
    rw [ofText_cases]
    simp only [kind]
    by_cases isTrue : (c :: rest).map Char.toLower = "true".toList
    · rw [if_pos isTrue, if_pos (Or.inl isTrue)]
      exact ⟨_, rfl, .bool true⟩
    by_cases isFalse : (c :: rest).map Char.toLower = "false".toList
    · rw [if_neg isTrue, if_pos isFalse, if_pos (Or.inr isFalse)]
      exact ⟨_, rfl, .bool false⟩
    rw [if_neg isTrue, if_neg isFalse, if_neg (not_or.mpr ⟨isTrue, isFalse⟩)]
    by_cases isNull : (c :: rest).map Char.toLower = "null".toList
    · rw [if_pos isNull, if_pos isNull]
      exact ⟨_, rfl, .null⟩
    rw [if_neg isNull, if_neg isNull]
    cases digit : Number.isDigit c with
    | false =>
      have mixed : (c :: rest).all Number.isDigit = false := by simp [digit]
      rw [mixed]
      rfl
    | true =>
      cases digits : (c :: rest).all Number.isDigit with
      | false => rfl
      | true =>
        -- This is where the limit comes in, and the only place.
        have short : ¬ Number.digitLimit < (c :: rest).length := by
          simpa [Form.literalsFit, digits] using fits
        exact ⟨_, if_neg short, .int _⟩

theorem goes_pure {Related : β → α → Prop} {value : β} {expected : α}
    (related : Related value expected) :
    GoesAs (σ := σ) Related (.ok expected) (pure value) := by
  intro machine loaded
  exact ⟨.ok value, machine, rfl, ⟨value, rfl, related⟩, fun _ _ => ⟨loaded, rfl⟩⟩

theorem goes_throw {Related : β → α → Prop} (complaint : Complaint) :
    GoesAs (σ := σ) Related (.error complaint) (throw complaint.fault) := by
  intro machine _
  exact ⟨.error complaint.fault, machine, rfl, rfl, nofun⟩

/-- An evaluation goes as foreseen step by step. A complaint of the first step is the complaint of
the whole. -/
theorem GoesAs.bind {γ δ : Type} {Related : β → α → Prop} {Related' : δ → γ → Prop}
    {foreseen : Except Complaint α} {evaluation : Eval σ β} {foreseen' : α → Except Complaint γ}
    {next : β → Eval σ δ} (first : GoesAs Related foreseen evaluation)
    (second : ∀ value expected, Related value expected →
      GoesAs Related' (foreseen' expected) (next value)) :
    GoesAs Related' (foreseen >>= foreseen') (evaluation >>= next) := by
  intro machine loaded
  obtain ⟨result, between, ran, meets, kept⟩ := first machine loaded
  cases foreseen with
  | error complaint =>
    obtain rfl : result = .error complaint.fault := meets
    exact ⟨_, between, Eval.run_bind_error ran, rfl, nofun⟩
  | ok expected =>
    obtain ⟨value, rfl, related⟩ := meets
    obtain ⟨loaded', stack⟩ := kept value rfl
    obtain ⟨result', after, ran', meets', kept'⟩ := second value expected related between loaded'
    refine ⟨result', after, ?_, meets', fun value' same => ?_⟩
    · rw [Eval.run_bind_ok ran, ran']
    · obtain ⟨loaded'', stack'⟩ := kept' value' same
      exact ⟨loaded'', stack'.trans stack⟩

namespace Standard

variable {overloads : Overloads σ} {rule : List Kind → Option Kind} {args : List Value}
  {kinds : List Kind}

/-- A call of operations that go by a rule goes as the rule says. -/
theorem call_goes (reenter : String → Eval σ Value) (goes : GoesBy overloads rule)
    (have' : List.Forall₂ Value.HasKind args kinds) (head : Int) :
    GoesAs Value.HasKind (ruling rule overloads.name head kinds)
      (Eval.call reenter overloads args (some head)) := by
  intro machine loaded
  -- The rule decides by the kinds what the operations decide by the arguments.
  have decided := goes args kinds have'
  rw [ruling]
  cases ruled : rule kinds with
  | none =>
    rw [ruled] at decided
    refine ⟨_, _, Eval.call_run_none decided _, ?_, nofun⟩
    rw [Value.kinds_eq have']
    rfl
  | some kind =>
    rw [ruled] at decided
    obtain ⟨place, operation, value, chosen, gives, has⟩ := decided
    exact ⟨.ok value, _, Eval.call_run_give chosen gives _, ⟨value, rfl, has⟩,
      fun _ _ => ⟨loaded, rfl⟩⟩

end Standard

mutual

/-- With the standard operations a form goes as its kind foresees. -/
theorem form_goes (reenter : String → Eval σ Value) : ∀ form : Form Int, form.literalsFit = true →
    GoesAs Value.HasKind form.kind (Eval.form reenter form)
  | .string mark body, _ => goes_pure (.text _)
  | .symbol mark text, fits => by
    have meets := Atom.ofText_meets text mark fits
    rw [Form.kind, Eval.form]
    cases foreseen : Atom.kind text mark with
    | ok kind =>
      rw [foreseen] at meets
      obtain ⟨value, spelled, has⟩ := meets
      rw [spelled]
      exact goes_pure has
    | error complaint =>
      rw [foreseen] at meets
      have spelled : Atom.ofText text mark = .error complaint.fault := meets
      rw [spelled]
      exact goes_throw complaint
  | .list mark [], _ => goes_throw ⟨.emptyList, mark⟩
  | .list mark (.string _ _ :: _), _ => goes_throw ⟨.headNotSymbol, mark⟩
  | .list mark (.list _ _ :: _), _ => goes_throw ⟨.headNotSymbol, mark⟩
  | .list mark (.symbol head name :: arguments), fits => by
    -- The name is looked up first, so an unknown one is complained of before any argument.
    have evaluated := forms_goes reenter arguments fits
    intro machine loaded
    have known := Standard.lookup_goes (σ := σ) (String.ofList name)
    rw [Form.kind]
    cases ruled : Standard.rule? (String.ofList name) with
    | none =>
      rw [ruled, ← loaded] at known
      exact ⟨_, _, Eval.form_run_unknown known, rfl, nofun⟩
    | some rule =>
      rw [ruled, ← loaded] at known
      obtain ⟨overloads, found, named, goes⟩ := known
      rw [Eval.form_run_known found]
      obtain ⟨result, between, ran, meets, kept⟩ :=
        evaluated { machine with stack := ⟨String.ofList name, [], some mark⟩ :: machine.stack }
          loaded
      cases foreseen : Form.kinds arguments with
      | error complaint =>
        rw [foreseen] at meets
        obtain rfl : result = .error complaint.fault := meets
        exact ⟨_, between, Eval.run_bind_error ran, rfl, nofun⟩
      | ok kinds =>
        rw [foreseen] at meets
        obtain ⟨args, rfl, have'⟩ := meets
        obtain ⟨loaded', top⟩ := kept args rfl
        -- The arguments registered nothing, so the call ends with the operations it began with.
        have again : between.registry.lookup (String.ofList name) = some overloads := by
          rw [loaded', ← loaded, found]
        rw [Eval.run_bind_ok ran, Eval.conclude_run args top, again, Option.getD_some, ← named]
        obtain ⟨result', after, called, meets', kept'⟩ :=
          Standard.call_goes reenter goes have' head
            { between with stack := ⟨overloads.name, args, some mark⟩ :: machine.stack } loaded'
        cases result' with
        | error fault => exact ⟨_, after, Eval.run_bind_error called, meets', nofun⟩
        | ok value =>
          obtain ⟨loaded'', stack⟩ := kept' value rfl
          refine ⟨.ok value, { after with stack := after.stack.tail }, ?_, meets', fun _ _ => ?_⟩
          · exact Eval.run_bind_ok called
          · exact ⟨loaded'', congrArg List.tail stack⟩

/-- The arguments of a call go as foreseen, one after the other. -/
theorem forms_goes (reenter : String → Eval σ Value) : ∀ forms : List (Form Int),
    Form.allLiteralsFit forms = true →
    GoesAs (List.Forall₂ Value.HasKind) (Form.kinds forms) (Eval.forms reenter forms)
  | [], _ => goes_pure .nil
  | first :: rest, fits => by
    rw [Form.allLiteralsFit, Bool.and_eq_true] at fits
    rw [Form.kinds, Eval.forms]
    apply (form_goes reenter first fits.1).bind
    intro value kind has
    apply (forms_goes reenter rest fits.2).bind
    intro values kinds have'
    exact goes_pure (.cons has have')

end

/-! ### Runs -/

/-- With the standard operations alone a source that has a tree, none of whose integer literals is
beyond the limit, runs successfully exactly if its form has a kind. The value has that kind.
Otherwise the run fails with what the form is complained of, where it is. -/
theorem run_standard (machine : Machine σ) (loaded : machine.registry = Standard.registry)
    (text : String) (root : Node) (parsed : parse text.toList = .ok root) :
    ∃ form, root.form? text.toList = some form ∧ (form.literalsFit = true →
      ((∃ value, (machine.run text).1 = .success value) ↔ ∃ kind, form.kind = .ok kind) ∧
      (∀ kind, form.kind = .ok kind →
        ∃ value, (machine.run text).1 = .success value ∧ value.HasKind kind) ∧
      ∀ complaint, form.kind = .error complaint → ∃ after,
        machine.evaluate text = (.error complaint.fault, after) ∧
        (machine.run text).1 = .failure (after.failure text complaint.fault) ∧
        (after.failure text complaint.fault).message =
          some ("EvaluationError: " ++ complaint.cause.message) ∧
        (after.failure text complaint.fault).location =
          some (Location.ofOffset text.toList complaint.position)) := by
  -- Every tree that is read has a form, so the kinds can be asked for.
  obtain ⟨form, formed, -⟩ := parse_form text.toList root parsed
  refine ⟨form, formed, fun fits => ?_⟩
  obtain ⟨result, after, ran, meets, -⟩ :=
    form_goes (Eval.sourceWithin (Eval.nestingDepth - 1)) form fits { machine with stack := [] } loaded
  rw [← machine.evaluate_of_form parsed formed] at ran
  cases foreseen : form.kind with
  | ok kind =>
    rw [foreseen] at meets
    obtain ⟨value, rfl, has⟩ := meets
    rw [Machine.run_value ran]
    refine ⟨⟨fun _ => ⟨kind, rfl⟩, fun _ => ⟨value, rfl⟩⟩, ?_, nofun⟩
    rintro _ ⟨⟩
    exact ⟨value, rfl, has⟩
  | error complaint =>
    rw [foreseen] at meets
    obtain rfl : result = .error complaint.fault := meets
    obtain ⟨failed, message⟩ := Machine.run_reported ran rfl
    rw [failed]
    refine ⟨⟨nofun, nofun⟩, nofun, ?_⟩
    rintro _ ⟨⟩
    exact ⟨after, ran, rfl, message, rfl⟩

/-- A list of mixed kinds inside of one that would be in order. -/
theorem run_standard_mixed :
    (Machine.fresh Standard.registry ()).registry = Standard.registry ∧
    parse "(add 1 (and true \"x\"))".toList = .ok (.list (some 0) [.symbol ⟨1, 3⟩, .symbol ⟨5, 1⟩,
      .list (some 7) [.symbol ⟨8, 3⟩, .symbol ⟨12, 4⟩, .string ⟨18, 1⟩]]) ∧
    ∃ after, (Machine.fresh Standard.registry ()).evaluate "(add 1 (and true \"x\"))" =
        (.error (.evaluation (.notApplicable "and" [.boolean, .string]) (some 8)), after) ∧
      (after.failure "(add 1 (and true \"x\"))"
        (.evaluation (.notApplicable "and" [.boolean, .string]) (some 8))).message =
          some "EvaluationError: Failed to invoke function 'and' with arguments (bool, string)" := by
  have parsed : parse "(add 1 (and true \"x\"))".toList = .ok (.list (some 0) [.symbol ⟨1, 3⟩,
      .symbol ⟨5, 1⟩, .list (some 7) [.symbol ⟨8, 3⟩, .symbol ⟨12, 4⟩, .string ⟨18, 1⟩]]) := rfl
  obtain ⟨form, formed, foreseen⟩ := run_standard (Machine.fresh Standard.registry ()) rfl _ _ parsed
  obtain rfl : Form.list 0 [.symbol 1 "add".toList, .symbol 5 "1".toList,
      .list 7 [.symbol 8 "and".toList, .symbol 12 "true".toList, .string 18 "x".toList]] = form :=
    Option.some.inj formed
  have complained : Form.kind (.list 0 [.symbol 1 "add".toList, .symbol 5 "1".toList,
      .list 7 [.symbol 8 "and".toList, .symbol 12 "true".toList, .string 18 "x".toList]]) =
      .error ⟨.notApplicable "and" [.boolean, .string], 8⟩ := by decide
  obtain ⟨after, failed, -, message, -⟩ := (foreseen (by decide)).2.2 _ complained
  exact ⟨rfl, parsed, after, failed, message⟩

end HostLisp
