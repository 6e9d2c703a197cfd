import HostLisp.Proofs.ReachedForms

/-!
# What evaluation leaves of the calls in progress

An operation can evaluate a source on the machine that called it, which forgets the calls in progress.
If all such sources have values, an evaluation leaves the calls that it found, or none.

## Main results

`Eval.perform_settles`: an action leaves the calls in progress alone, or none of them if it evaluates
a source.

`Eval.form_settles`: a form that has a value leaves the calls in progress that there were, or none.

`Eval.sourceWithin_settles`: a source that has a value leaves none.

## Proof strategy

What a source leaves is an induction on how deep sources are nested in it. For one source it is an
induction on its form, and for one operation on its action.
-/

namespace HostLisp

variable {σ : Type}

namespace Machine

variable {machine between after : Machine σ}

/-- The calls in progress are as they were, or there are none. -/
def SettledTo (machine after : Machine σ) : Prop := after.stack = machine.stack ∨ after.stack = []

theorem SettledTo.refl (machine : Machine σ) : machine.SettledTo machine := Or.inl rfl

theorem SettledTo.trans (first : machine.SettledTo between) (second : between.SettledTo after) :
    machine.SettledTo after := by
  rcases second with same | empty
  · rcases first with same' | empty'
    · exact Or.inl (same.trans same')
    · exact Or.inr (same.trans empty')
  · exact Or.inr empty

theorem SettledTo.empty (settled : machine.SettledTo after) (none : machine.stack = []) :
    after.stack = [] := by
  rcases settled with same | empty
  · exact same.trans none
  · exact empty

end Machine

namespace Eval

variable {reenter : String → Eval σ Value} {machine between after last : Machine σ}

/-! ### What is left of the calls in progress -/

/-- A source has a value, and no call is in progress after it. -/
def Clears (reenter : String → Eval σ Value) (machine : Machine σ) (source : String) : Prop :=
  ∃ value after, (reenter source).run machine = (.ok value, after) ∧ after.stack = []

/-- Each source that an action evaluates has a value and leaves no call in progress. -/
def ActsClean (reenter : String → Eval σ Value) (machine : Machine σ) (action : Action σ) : Prop :=
  ∀ last source, Asks reenter machine action last source → Clears reenter last source

/-- An action leaves the calls in progress alone, or none of them if it evaluates a source. -/
structure Settles (reenter : String → Eval σ Value) (machine : Machine σ) (action : Action σ)
    (after : Machine σ) : Prop where
  settled : machine.SettledTo after
  emptied : ∀ last source, Asks reenter machine action last source → after.stack = []

/-- If the sources that it evaluates have values, an action settles, whether it has one or not. -/
theorem perform_settles : ∀ (action : Action σ) (machine : Machine σ),
    ActsClean reenter machine action → ∀ outcome after,
      (perform reenter action).run machine = (outcome, after) →
      Settles reenter machine action after
  | .done (.ok value), machine, _, _, _, ran => by
    cases ran
    exact ⟨.refl machine, nofun⟩
  | .done (.error fault), machine, _, _, _, ran => by
    cases ran
    exact ⟨.refl machine, nofun⟩
  | .frames next, machine, clean, outcome, after, ran => by
    rw [perform, run_bind_ok get_run] at ran
    have settles := perform_settles (next machine.stack) machine
      (fun last source asks => clean last source (.frames asks)) outcome after ran
    constructor
    · exact settles.settled
    · intro last source asks
      cases asks with
      | frames rest => exact settles.emptied last source rest
  | .evaluate source next, machine, clean, outcome, after, ran => by
    -- The source leaves no call in progress, and nothing later brings one back.
    obtain ⟨value, between, answered, none⟩ := clean machine source (.now machine source next)
    rw [perform_evaluate_run answered] at ran
    have settles := perform_settles (next (.ok value)) between
      (fun last source asks => clean last source (.later answered asks)) outcome after ran
    have empty := settles.settled.empty none
    constructor
    · exact Or.inr empty
    · exact fun _ _ _ => empty
  -- No other request touches the stack, so these settle as what they go on with does.
  | .register symbol operation next, machine, clean, outcome, after, ran => by
    rw [perform_register_run] at ran
    have settles := perform_settles _ (machine.register symbol operation)
      (fun last source asks => clean last source (.register asks)) outcome after ran
    constructor
    · exact settles.settled
    · intro last source asks
      cases asks with
      | register rest => exact settles.emptied last source rest
  | .readState next, machine, clean, outcome, after, ran => by
    rw [perform_readState_run] at ran
    have settles := perform_settles (next machine.state) machine
      (fun last source asks => clean last source (.readState asks)) outcome after ran
    constructor
    · exact settles.settled
    · intro last source asks
      cases asks with
      | readState rest => exact settles.emptied last source rest
  | .writeState state next, machine, clean, outcome, after, ran => by
    rw [perform_writeState_run] at ran
    have settles := perform_settles next { machine with state }
      (fun last source asks => clean last source (.writeState asks)) outcome after ran
    constructor
    · exact settles.settled
    · intro last source asks
      cases asks with
      | writeState rest => exact settles.emptied last source rest

/-! ### Forms -/

/-- Each source that the evaluation of a form evaluates within has a value and leaves no call in
progress. -/
def Clean (reenter : String → Eval σ Value) (machine : Machine σ) (form : Form Int) : Prop :=
  ∀ last source, Asked reenter machine form last source → Clears reenter last source

def CleanAll (reenter : String → Eval σ Value) (machine : Machine σ) (items : List (Form Int)) :
    Prop :=
  ∀ before item rest values between, items = before ++ item :: rest →
    (forms reenter before).run machine = (.ok values, between) → Clean reenter between item

theorem Clean.reached {form point : Form Int} (clean : Clean reenter machine form)
    (reaches : Reaches reenter machine form between point) : Clean reenter between point := by
  rintro last source ⟨here, call, action, entered, inner, invokes, asks⟩
  exact clean last source ⟨here, call, action, entered, reaches.trans inner, invokes, asks⟩

theorem Clean.arguments {call : Form.Call} {known : Overloads σ}
    (clean : Clean reenter machine call.form)
    (found : machine.registry.lookup call.symbol = some known) :
    CleanAll reenter (machine.entering call) call.arguments := by
  intro before item rest values between split evaluated
  exact clean.reached (.argument found split evaluated (.here between item))

theorem Clean.acts {call : Form.Call} {action : Action σ} {entered : Machine σ}
    (clean : Clean reenter machine call.form)
    (invokes : Invokes reenter machine call action entered) : ActsClean reenter entered action := by
  intro last source asks
  exact clean last source ⟨machine, call, action, entered, .here machine call.form, invokes, asks⟩

theorem CleanAll.later {before rest : List (Form Int)} {values : List Value}
    (clean : CleanAll reenter machine (before ++ rest))
    (evaluated : (forms reenter before).run machine = (.ok values, between)) :
    CleanAll reenter between rest := by
  rintro before' item rest' values' last rfl evaluated'
  refine clean (before ++ before') item rest' (values ++ values') last (by simp) ?_
  rw [forms_append_run evaluated, run_bind_ok evaluated']
  rfl

theorem forms_singleton_run {item : Form Int} {value : Value}
    (ran : (form reenter item).run machine = (.ok value, after)) :
    (forms reenter [item]).run machine = (.ok [value], after) := by
  rw [forms, run_bind_ok ran]
  rfl

/-- The arguments are noted in the frame that the call has pushed. -/
theorem Invokes.stack {call : Form.Call} {action : Action σ} {entered : Machine σ}
    (invokes : Invokes reenter machine call action entered)
    (settle : ∀ known args between, machine.registry.lookup call.symbol = some known →
      (forms reenter call.arguments).run (machine.entering call) = (.ok args, between) →
        (machine.entering call).SettledTo between) :
    entered.stack.tail = machine.stack := by
  cases invokes with
  | intro found evaluated noted chosen =>
    obtain ⟨frame, outer, top, rfl⟩ := setArguments_ok noted
    -- A frame is on top, so it is not the case that there is none.
    rcases settle _ _ _ found evaluated with same | empty
    · rw [same] at top
      cases top
      rfl
    · rw [top] at empty
      cases empty

mutual

/-- A form that has a value leaves the calls in progress that there were, or none. -/
theorem form_settles : ∀ (item : Form Int) (machine : Machine σ), Clean reenter machine item →
    ∀ value after, (form reenter item).run machine = (.ok value, after) → machine.SettledTo after
  | .string mark body, machine, _, _, _, ran => by
    cases ran
    exact .refl machine
  | .symbol mark text, machine, _, _, _, ran => by
    rw [form] at ran
    cases spelled : Atom.ofText text mark with
    | ok value =>
      rw [spelled] at ran
      cases ran
      exact .refl machine
    | error fault =>
      rw [spelled] at ran
      cases ran
  | .list mark [], _, _, _, _, ran => by cases ran
  | .list mark (.string _ _ :: _), _, _, _, _, ran => by cases ran
  | .list mark (.list _ _ :: _), _, _, _, _, ran => by cases ran
  | .list mark (.symbol head name :: arguments), machine, clean, value, after, ran => by
    -- Only a call can leave the stack otherwise; the forms before it leave it as it is.
    let call : Form.Call := ⟨mark, head, name, arguments⟩
    have called : (form reenter call.form).run machine = (.ok value, after) := ran
    obtain ⟨action, entered, left, invokes, returned, popped⟩ := form_ok_invokes called
    -- When the operation is entered its own frame is on top, whatever the arguments did.
    have outer : entered.stack.tail = machine.stack := by
      apply invokes.stack
      intro known args between found evaluated
      have clean' : Clean reenter machine call.form := clean
      exact forms_settle arguments (machine.entering call) (clean'.arguments found) args between
        evaluated
    have settles := perform_settles action entered (Clean.acts clean invokes) _ _ returned
    -- What the operation leaves is what it was called with, or nothing, and the frame is taken away.
    rcases settles.settled with same | empty
    · exact Or.inl (by rw [popped, same, outer])
    · exact Or.inr (by rw [popped, empty, List.tail_nil])

theorem forms_settle : ∀ (items : List (Form Int)) (machine : Machine σ),
    CleanAll reenter machine items → ∀ values after,
      (forms reenter items).run machine = (.ok values, after) → machine.SettledTo after
  | [], machine, _, _, _, ran => by
    cases ran
    exact .refl machine
  | first :: rest, machine, clean, values, after, ran => by
    rw [forms] at ran
    rcases run_bind_cases ran with ⟨value, between, begun, ended⟩ | ⟨fault, -, failed⟩
    · rcases run_bind_cases ended with ⟨others, last, goes, done⟩ | ⟨fault, -, failed⟩
      · cases done
        -- The first item settles, and the others begin on the machine that it leaves.
        have here := form_settles first machine (clean [] first rest [] machine rfl rfl) _ _ begun
        have clean' : CleanAll reenter machine ([first] ++ rest) := clean
        have later := clean'.later (forms_singleton_run begun)
        exact here.trans (forms_settle rest between later _ _ goes)
      · cases failed
    · cases failed

end

/-! ### Sources -/

/-- The evaluation of a source evaluates another within, itself or in one that it evaluates. A source
is evaluated to some depth of nesting, and what it evaluates to the next lower one. -/
inductive Within : Nat → Machine σ → String → Nat → Machine σ → String → Prop
  | direct {depth : Nat} {machine last : Machine σ} {text source : String} {root : Node}
      {form : Form Int} (parsed : parse text.toList = .ok root)
      (formed : root.form? text.toList = some form)
      (asked : Asked (sourceWithin depth) { machine with stack := [] } form last source) :
      Within (depth + 1) machine text depth last source
  | nested {depth depth' depth'' : Nat} {machine between last : Machine σ}
      {text source source' : String} (outer : Within depth machine text depth' between source)
      (inner : Within depth' between source depth'' last source') :
      Within depth machine text depth'' last source'

def Succeeds (depth : Nat) (machine : Machine σ) (text : String) : Prop :=
  ∃ value after, (sourceWithin depth text).run machine = (.ok value, after)

/-- Each source that is evaluated within another, however deep, has a value. -/
def Flawless (depth : Nat) (machine : Machine σ) (text : String) : Prop :=
  ∀ depth' last source, Within depth machine text depth' last source → Succeeds depth' last source

theorem Flawless.inner {depth depth' : Nat} {text source : String}
    (flawless : Flawless depth machine text) (within : Within depth machine text depth' last source) :
    Flawless depth' last source :=
  fun _ _ _ inner => flawless _ _ _ (.nested within inner)

theorem sourceWithin_form {depth : Nat} {text : String} {root : Node} {item : Form Int}
    (parsed : parse text.toList = .ok root) (formed : root.form? text.toList = some item) :
    (sourceWithin (depth + 1) text).run machine =
      (form (sourceWithin depth) item).run { machine with stack := [] } := by
  rw [sourceWithin_run parsed, node_eq_form _ _ _ _ formed]

theorem Flawless.clean_of {depth : Nat} {text : String} {root : Node} {item : Form Int}
    (flawless : Flawless (depth + 1) machine text) (parsed : parse text.toList = .ok root)
    (formed : root.form? text.toList = some item)
    (settles : ∀ (machine : Machine σ) text, Flawless depth machine text → ∀ value after,
      (sourceWithin depth text).run machine = (.ok value, after) → after.stack = []) :
    Clean (sourceWithin depth) { machine with stack := [] } item := by
  intro last source asked
  -- What the form asks for is evaluated one level further down.
  have within := Within.direct parsed formed asked
  obtain ⟨value, after, ran⟩ := flawless depth last source within
  exact ⟨value, after, ran, settles last source (flawless.inner within) value after ran⟩

/-- A source that has a value leaves no call in progress. -/
theorem sourceWithin_settles (depth : Nat) (machine : Machine σ) (text : String)
    (flawless : Flawless depth machine text) (value : Value) (after : Machine σ)
    (ran : (sourceWithin depth text).run machine = (.ok value, after)) : after.stack = [] := by
  induction depth generalizing machine text value after with
  | zero => cases ran
  | succ depth ih =>
    cases parsed : parse text.toList with
    | error fault =>
      rw [sourceWithin, sourceWith, run_bind_ok clearStack_run, parsed] at ran
      cases ran
    | ok root =>
      obtain ⟨item, formed, -⟩ := parse_form text.toList root parsed
      rw [sourceWithin_form parsed formed] at ran
      have settled := form_settles item _ (flawless.clean_of parsed formed ih) value after ran
      -- The form begins with no call in progress, so both ways to settle are one.
      exact settled.empty rfl

theorem Flawless.clean {depth : Nat} {text : String} {root : Node} {item : Form Int}
    (flawless : Flawless (depth + 1) machine text) (parsed : parse text.toList = .ok root)
    (formed : root.form? text.toList = some item) :
    Clean (sourceWithin depth) { machine with stack := [] } item :=
  flawless.clean_of parsed formed (sourceWithin_settles depth)

end Eval

end HostLisp
