import HostLisp.Proofs.StandardKinds
import HostLisp.Proofs.WrittenValues

/-!
# Meanings with the standard operations

With the standard operations alone the value of a form is a function of the texts in it. Neither its
marks nor what was evaluated before matter.

## Main results

`form_means`: evaluating a form gives the value that the form means, and fails if it means none.

`Form.meaning_map`, `Form.Writes.meaning_eq`: marks do not matter, and a written value means itself.

`Form.meaning_hasKind`: what a form means can be written, but for numbers with too many digits.

## Proof strategy

Each standard operation just gives a value, so a call needs no more than the values of its
arguments. The inductions are on the form.
-/

namespace HostLisp

variable {σ α β : Type}

/-! ### Operations that give values -/

/-- An operation gives a value, whatever its arguments are. -/
def Operation.Gives (operation : Operation σ) : Prop :=
  ∀ args, ∃ value, operation.run args = .give value

namespace Standard

/-- An operation that computes gives a value, whatever it is given. -/
theorem fixed_gives (label : String) (types : List TypeName) (f : List Value → Value) :
    (fixed (σ := σ) label types f).Gives := fun args => ⟨f args, rfl⟩

theorem variadic_gives (label : String) (type : TypeName) (f : List Value → Value) :
    (variadic (σ := σ) label type f).Gives := fun args => ⟨f args, rfl⟩

/-- None of the standard operations fails once it takes its arguments. -/
theorem operations_give : ∀ pair ∈ operations (σ := σ), pair.2.Gives := by
  simp only [operations, List.forall_mem_cons, fixed_gives, variadic_gives, true_and]
  exact nofun

theorem registry_gives : (registry (σ := σ)).Each Operation.Gives :=
  Registry.Each.registerAll nofun operations_give

/-- What the standard operations of a name make of arguments. -/
def result? (σ : Type) (name : String) (args : List Value) : Option Value := do
  let overloads ← (registry (σ := σ)).lookup name
  let (_, operation) ← overloads.choose? args
  let outcome ← (operation.run args).outcome?
  outcome.toOption

variable {name : String} {overloads : Overloads σ} {args : List Value}

theorem result?_unknown (absent : (registry (σ := σ)).lookup name = none) :
    result? σ name args = none := by
  simp [result?, absent]

theorem result?_refused (found : (registry (σ := σ)).lookup name = some overloads)
    (none : overloads.choose? args = none) : result? σ name args = .none := by
  simp [result?, found, none]

theorem result?_chosen (found : (registry (σ := σ)).lookup name = some overloads) {place : Nat}
    {operation : Operation σ} {value : Value}
    (chosen : overloads.choose? args = some (place, operation))
    (gives : operation.run args = .give value) : result? σ name args = some value := by
  simp [result?, found, chosen, gives, Action.give, Action.outcome?, Except.toOption]

end Standard

/-! ### Meanings -/

namespace Form

mutual

/-- The value of a form with the standard operations alone, if it has one. -/
def meaning (σ : Type) : Form α → Option Value
  | .string _ body => some (.text (String.ofList (Span.unescape body)))
  | .symbol _ text => (Atom.ofText text 0).toOption
  | .list _ (.symbol _ name :: arguments) =>
    (meanings σ arguments).bind (Standard.result? σ (String.ofList name))
  | .list _ _ => none
termination_by structural form => form

def meanings (σ : Type) : List (Form α) → Option (List Value)
  | [] => some []
  | first :: rest => do
    let value ← meaning σ first
    let values ← meanings σ rest
    some (value :: values)
termination_by structural forms => forms

end

theorem meanings_cons (first : Form α) (rest : List (Form α)) : meanings σ (first :: rest) =
    (meaning σ first).bind fun value => (meanings σ rest).bind fun values => some (value :: values) :=
  rfl

mutual

/-- Marks do not matter for what a form means. -/
theorem meaning_map (change : α → β) : ∀ form : Form α,
    (form.map change).meaning σ = form.meaning σ
  | .symbol _ _ => rfl
  | .string _ _ => rfl
  | .list _ [] => rfl
  | .list _ (.symbol _ name :: arguments) => by
    rw [map, mapAll, map, meaning, meaning, meanings_mapAll change arguments]
  | .list _ (.string _ _ :: _) => rfl
  | .list _ (.list _ _ :: _) => rfl

theorem meanings_mapAll (change : α → β) : ∀ forms : List (Form α),
    meanings σ (mapAll change forms) = meanings σ forms
  | [] => rfl
  | first :: rest => by
    rw [mapAll, meanings_cons, meanings_cons, meaning_map change first, meanings_mapAll change rest]

end

/-- Forms that differ in their marks alone mean the same. -/
theorem meaning_of_erase_eq {form : Form α} {form' : Form β} (same : form.erase = form'.erase) :
    form.meaning σ = form'.meaning σ := by
  rw [← meaning_map (fun _ => ()) form, ← meaning_map (fun _ => ()) form']
  exact congrArg (meaning σ) same

/-- A literal means what it writes. -/
theorem Writes.meaning_eq {form : Form α} {value : Value} (writes : form.Writes value) :
    form.meaning σ = some value := by
  cases writes with
  | text mark body => rfl
  | @atom text _ mark filled spelled =>
    obtain ⟨c, rest, rfl⟩ := List.exists_cons_of_ne_nil filled
    rw [meaning, Atom.ofText, spelled]
    rfl

end Form

/-! ### Kinds of meanings -/

/-- A symbol is never a negative integer, so what it means has a kind. -/
private theorem Atom.ofText_hasKind {text : List Char} {position : Int} {value : Value}
    (spelled : ofText text position = .ok value) : ∃ kind, value.HasKind kind := by
  cases text with
  | nil => cases spelled
  | cons first rest =>
    simp only [ofText, ofChars.eq_def] at spelled
    cases constant : constant? (first :: rest) with
    | some given =>
      simp only [constant, Except.ok.injEq] at spelled
      subst spelled
      simp only [constant?] at constant
      -- Each of the three constants has a kind of its own.
      split_ifs at constant
      all_goals obtain rfl := Option.some.inj constant
      · exact ⟨_, .bool true⟩
      · exact ⟨_, .bool false⟩
      · exact ⟨_, .null⟩
    | none =>
      simp only [constant, readInt] at spelled
      split_ifs at spelled
      obtain rfl := Except.ok.inj spelled
      exact ⟨_, .int _⟩

namespace Form

mutual

/-- What a form means can be written, but for numbers with too many digits. -/
theorem meaning_hasKind : ∀ (form : Form α) (value : Value), form.meaning σ = some value →
    ∃ kind, value.HasKind kind
  | .string _ body, _, means => by
    obtain rfl := Option.some.inj means
    exact ⟨_, .text _⟩
  | .symbol _ text, value, means => by
    rw [meaning] at means
    cases spelled : Atom.ofText text 0 with
    | error fault => simp [spelled, Except.toOption] at means
    | ok value' =>
      rw [spelled] at means
      obtain rfl := Option.some.inj means
      exact Atom.ofText_hasKind spelled
  | .list _ [], _, means => by cases means
  | .list _ (.string _ _ :: _), _, means => by cases means
  | .list _ (.list _ _ :: _), _, means => by cases means
  | .list _ (.symbol _ name :: arguments), value, means => by
    rw [meaning, Option.bind_eq_some_iff] at means
    obtain ⟨args, inner, applied⟩ := means
    obtain ⟨kinds, have'⟩ := meanings_haveKinds arguments args inner
    -- The rule of the name says which kind its value has.
    have known := Standard.lookup_goes (σ := σ) (String.ofList name)
    cases ruled : Standard.rule? (String.ofList name) with
    | none =>
      rw [ruled] at known
      rw [Standard.result?_unknown known] at applied
      cases applied
    | some rule =>
      rw [ruled] at known
      obtain ⟨overloads, found, -, goes⟩ := known
      have decided := goes args kinds have'
      cases result : rule kinds with
      | none =>
        rw [result] at decided
        rw [Standard.result?_refused found decided] at applied
        cases applied
      | some kind =>
        rw [result] at decided
        obtain ⟨place, operation, given, chosen, gives, has⟩ := decided
        rw [Standard.result?_chosen found chosen gives] at applied
        obtain rfl := Option.some.inj applied
        exact ⟨kind, has⟩

/-- The values that the arguments of a call mean have kinds. -/
theorem meanings_haveKinds : ∀ (forms : List (Form α)) (values : List Value),
    meanings σ forms = some values → ∃ kinds, List.Forall₂ Value.HasKind values kinds
  | [], _, means => by
    obtain rfl := Option.some.inj means
    exact ⟨[], .nil⟩
  | first :: rest, _, means => by
    rw [meanings_cons, Option.bind_eq_some_iff] at means
    obtain ⟨value, here, later⟩ := means
    obtain ⟨values, there, same⟩ := Option.bind_eq_some_iff.mp later
    obtain rfl := Option.some.inj same
    obtain ⟨kind, has⟩ := meaning_hasKind first value here
    obtain ⟨kinds, have'⟩ := meanings_haveKinds rest values there
    exact ⟨kind :: kinds, .cons has have'⟩

end

end Form

/-! ### Evaluation -/

/-- With the standard operations alone a computation gives what was foreseen, and then leaves the
operations and the calls in progress as they were; where nothing was foreseen it fails. -/
def Eval.Yields (foreseen : Option α) (evaluation : Eval σ α) : Prop :=
  ∀ machine : Machine σ, machine.registry = Standard.registry → ∃ outcome after,
    evaluation.run machine = (outcome, after) ∧ outcome.toOption = foreseen ∧
    (foreseen.isSome = true → after.registry = Standard.registry ∧ after.stack = machine.stack)

namespace Eval

theorem yields_pure (value : α) : Yields (some value) (pure value : Eval σ α) :=
  fun machine loaded => ⟨.ok value, machine, rfl, rfl, fun _ => ⟨loaded, rfl⟩⟩

theorem yields_throw (fault : Fault) : Yields none (throw fault : Eval σ α) :=
  fun machine _ => ⟨.error fault, machine, rfl, rfl, nofun⟩

/-- An evaluation yields step by step, and nothing once a step yields nothing. -/
theorem Yields.bind {foreseen : Option α} {evaluation : Eval σ α} {foreseen' : α → Option β}
    {next : α → Eval σ β} (first : Yields foreseen evaluation)
    (second : ∀ value, Yields (foreseen' value) (next value)) :
    Yields (foreseen.bind foreseen') (evaluation >>= next) := by
  intro machine loaded
  obtain ⟨outcome, between, ran, rfl, kept⟩ := first machine loaded
  cases outcome with
  | error fault => exact ⟨_, between, run_bind_error ran, rfl, nofun⟩
  | ok value =>
    obtain ⟨loaded', stack⟩ := kept rfl
    obtain ⟨outcome', after, ran', same, kept'⟩ := second value between loaded'
    refine ⟨outcome', after, ?_, same, fun given => ?_⟩
    · rw [run_bind_ok ran, ran']
    · obtain ⟨loaded'', stack'⟩ := kept' given
      exact ⟨loaded'', stack'.trans stack⟩

/-- A call of a standard name yields what the name makes of the arguments. -/
theorem call_yields (reenter : String → Eval σ Value) {name : String} {overloads : Overloads σ}
    (found : Standard.registry.lookup name = some overloads) (args : List Value)
    (position : Option Int) :
    Yields (Standard.result? σ name args) (call reenter overloads args position) := by
  intro machine loaded
  cases chosen : overloads.choose? args with
  | none =>
    rw [Standard.result?_refused found chosen]
    exact ⟨_, _, call_run_none chosen position, rfl, nofun⟩
  | some pair =>
    obtain ⟨place, operation⟩ := pair
    obtain ⟨value, gives⟩ := Standard.registry_gives overloads (Registry.mem_of_lookup found)
      operation (Overloads.mem_of_choose? chosen) args
    rw [Standard.result?_chosen found chosen gives]
    exact ⟨_, _, call_run_give chosen gives position, rfl, fun _ => ⟨loaded, rfl⟩⟩

/-- A call whose arguments are known gives what its name makes of them. -/
theorem conclude_yields (reenter : String → Eval σ Value) {name : String} {known : Overloads σ}
    (found : Standard.registry.lookup name = some known) (args : List Value)
    (position : Option Int) {machine : Machine σ} (loaded : machine.registry = Standard.registry)
    {frame : Frame} {outer : List Frame} (top : machine.stack = frame :: outer) :
    ∃ outcome after, (conclude reenter name known position args).run machine = (outcome, after) ∧
      outcome.toOption = Standard.result? σ name args ∧
      ((Standard.result? σ name args).isSome = true →
        after.registry = Standard.registry ∧ after.stack = outer) := by
  -- The arguments registered nothing, so the second look-up finds what the first one found.
  have again : (machine.registry.lookup name).getD known = known := by
    rw [loaded, found, Option.getD_some]
  rw [conclude_run args top, again]
  obtain ⟨outcome, after, called, same, kept⟩ := call_yields reenter found args position
    { machine with stack := { frame with args } :: outer } loaded
  rw [← same] at kept ⊢
  cases outcome with
  | error fault => exact ⟨_, after, run_bind_error called, rfl, nofun⟩
  | ok value =>
    obtain ⟨loaded', stack⟩ := kept rfl
    refine ⟨.ok value, { after with stack := after.stack.tail }, ?_, rfl, fun _ => ?_⟩
    · exact run_bind_ok called
    · exact ⟨loaded', congrArg List.tail stack⟩

end Eval

mutual

/-- Evaluating a form gives the value that the form means, and fails if it means none. -/
theorem form_means (reenter : String → Eval σ Value) : ∀ form : Form Int,
    Eval.Yields (form.meaning σ) (Eval.form reenter form)
  | .string mark body => Eval.yields_pure _
  | .symbol mark text => by
    rw [Form.meaning, Eval.form]
    -- Where the symbol stands matters only to the fault.
    rcases Atom.ofText_outcome text with ⟨value, each⟩ | ⟨cause, -, each⟩ | ⟨-, each⟩
    · rw [each, each]
      exact Eval.yields_pure value
    · rw [each, each]
      exact Eval.yields_throw _
    · rw [each, each]
      exact Eval.yields_throw _
  | .list mark [] => Eval.yields_throw _
  | .list mark (.string _ _ :: _) => Eval.yields_throw _
  | .list mark (.list _ _ :: _) => Eval.yields_throw _
  | .list mark (.symbol head name :: arguments) => by
    intro machine loaded
    rw [Form.meaning]
    cases found : (Standard.registry (σ := σ)).lookup (String.ofList name) with
    | none =>
      have unknown :
          (Form.meanings σ arguments).bind (Standard.result? σ (String.ofList name)) = none :=
        Option.bind_eq_none_iff.mpr fun args _ => Standard.result?_unknown found
      rw [← loaded] at found
      rw [unknown]
      exact ⟨_, machine, Eval.form_run_unknown found, rfl, nofun⟩
    | some known =>
      -- Nothing was registered, so the machine knows what the standard registry does.
      have here : machine.registry.lookup (String.ofList name) = some known := by rwa [loaded]
      rw [Eval.form_run_known here]
      obtain ⟨outcome, between, ran, same, kept⟩ := forms_mean reenter arguments
        { machine with stack := ⟨String.ofList name, [], some mark⟩ :: machine.stack } loaded
      cases outcome with
      | error fault =>
        rw [← same]
        exact ⟨_, between, Eval.run_bind_error ran, rfl, nofun⟩
      | ok args =>
        have values : Form.meanings σ arguments = some args := same.symm
        obtain ⟨loaded', top⟩ := kept (by rw [values]; rfl)
        rw [Eval.run_bind_ok ran, values, Option.bind_some]
        exact Eval.conclude_yields reenter found args (some head) loaded' top

/-- The arguments of a call yield what they mean. -/
theorem forms_mean (reenter : String → Eval σ Value) : ∀ forms : List (Form Int),
    Eval.Yields (Form.meanings σ forms) (Eval.forms reenter forms)
  | [] => Eval.yields_pure []
  | first :: rest =>
    (form_means reenter first).bind fun value =>
      (forms_mean reenter rest).bind fun values => Eval.yields_pure (value :: values)

end

/-! ### Sources -/

/-- What yields a value has succeeded with it. -/
theorem Except.eq_ok_of_toOption {outcome : Except Fault Value} {value : Value}
    (same : outcome.toOption = some value) : outcome = .ok value := by
  cases outcome with
  | error fault => cases same
  | ok value' => exact congrArg Except.ok (Option.some.inj same)

/-- A source that has a tree gives what the form of the tree means. -/
theorem Machine.evaluate_means (machine : Machine σ)
    (loaded : machine.registry = Standard.registry) {text : String} {root : Node}
    {form : Form Int} (parsed : parse text.toList = .ok root)
    (formed : root.form? text.toList = some form) : ∃ outcome after,
    machine.evaluate text = (outcome, after) ∧ outcome.toOption = form.meaning σ := by
  obtain ⟨outcome, after, ran, same, -⟩ :=
    form_means (Eval.sourceWithin (Eval.nestingDepth - 1)) form { machine with stack := [] } loaded
  rw [← machine.evaluate_of_form parsed formed] at ran
  exact ⟨outcome, after, ran, same⟩

end HostLisp
