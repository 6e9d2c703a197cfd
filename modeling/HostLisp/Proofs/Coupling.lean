import HostLisp.Proofs.Registration
import HostLisp.Proofs.Run
import Mathlib.Data.List.Forall2

/-!
# Computations side by side

A fact that compares two evaluations, or that follows what one evaluation keeps, is a relation
between two states that every step of two computations keeps. What all such facts have in common is
said here once, for any two monads with faults.

## Main definitions

`Runs`: how the computations of a monad end.

`Coupling`: a relation between the states of two computations, and between the faults that may end
them together.

`Coupling.Holds`: two computations that begin in related states end in related states.

## Main results

`Coupling.Holds.bind`: couplings are put together from those of the parts.

`Coupling.Performs.perform`: an action is carried out side by side if each of its steps is.

`Coupling.Stacked`: a coupling that relates the calls in progress one by one holds of the steps of
the evaluator that push, complete and pop them.
-/

namespace HostLisp

/-- How the computations of a monad end: with an outcome, and in a state. Of a computation that does
not end nothing is said, so what runs are made of is asked for in one direction only. -/
structure Runs (M : Type → Type) [Monad M] [MonadExceptOf Fault M] (ς : Type) where
  Ends {α : Type} : M α → ς → Except Fault α → ς → Prop
  ends_pure {α : Type} (value : α) (state : ς) : Ends (pure value) state (.ok value) state
  ends_throw {α : Type} (fault : Fault) (state : ς) :
    Ends (throw fault : M α) state (.error fault) state
  ends_bind {α β : Type} {computation : M α} {next : α → M β} {state between after : ς} {value : α}
    {outcome : Except Fault β} : Ends computation state (.ok value) between →
      Ends (next value) between outcome after → Ends (computation >>= next) state outcome after
  ends_bind_error {α β : Type} {computation : M α} {next : α → M β} {state after : ς}
    {fault : Fault} : Ends computation state (.error fault) after →
      Ends (computation >>= next) state (.error fault) after

/-- A computation with a state ends as it is run. -/
def Runs.state (ς : Type) : Runs (ExceptT Fault (StateM ς)) ς where
  Ends computation state outcome after := computation.run state = (outcome, after)
  ends_pure _ _ := rfl
  ends_throw _ _ := rfl
  ends_bind ran ended := (Eval.run_bind_ok ran).trans ended
  ends_bind_error ran := Eval.run_bind_error ran

section

variable {M N : Type → Type} [Monad M] [MonadExceptOf Fault M] [Monad N] [MonadExceptOf Fault N]
  {ς τ : Type}

/-- What two computations that run side by side keep. -/
structure Coupling (first : Runs M ς) (second : Runs N τ) where
  /-- What holds of the two states at the beginning, and as long as no fault has arisen. -/
  Kept : ς → τ → Prop
  /-- What is left of that once a fault has arisen on both sides. -/
  Left : ς → τ → Prop := Kept
  /-- The faults that may arise on both sides at once. -/
  Fails : Fault → Fault → Prop := fun fault fault' => fault' = fault
  /-- The faults of the first side after which nothing is asked of the second. -/
  Pardoned : Fault → Prop := fun _ => False
  left {state : ς} {state' : τ} : Kept state state' → Left state state' := by exact fun kept => kept

namespace Coupling

variable {first : Runs M ς} {second : Runs N τ} (C : Coupling first second) {α β : Type}

/-- How two computations may end that begin in two states. -/
inductive Ends (computation : M α) (computation' : N α) (state : ς) (state' : τ) : Prop
  | value {value : α} {after : ς} {after' : τ}
      (ran : first.Ends computation state (.ok value) after)
      (ran' : second.Ends computation' state' (.ok value) after') (kept : C.Kept after after')
  | fault {fault fault' : Fault} {after : ς} {after' : τ}
      (ran : first.Ends computation state (.error fault) after)
      (ran' : second.Ends computation' state' (.error fault') after')
      (fails : C.Fails fault fault') (left : C.Left after after')
  | pardoned {fault : Fault} {after : ς} (ran : first.Ends computation state (.error fault) after)
      (pardoned : C.Pardoned fault)

/-- Whatever related states two computations begin in, they end alike. -/
def Holds (computation : M α) (computation' : N α) : Prop :=
  ∀ state state', C.Kept state state' → C.Ends computation computation' state state'

variable {C} {computation : M α} {computation' : N α}

/-! ### Computations made of parts -/

/-- A part that gives a value on either side, not the same one if it only looks at the state, is done
before the rest. -/
theorem Ends.after {γ δ : Type} {part : M γ} {part' : N δ} {next : γ → M α} {next' : δ → N α}
    {state between : ς} {state' between' : τ} {seen : γ} {seen' : δ}
    (ran : first.Ends part state (.ok seen) between)
    (ran' : second.Ends part' state' (.ok seen') between')
    (rest : C.Ends (next seen) (next' seen') between between') :
    C.Ends (part >>= next) (part' >>= next') state state' := by
  -- Both parts are done, so what the rest leads to is what the whole leads to.
  cases rest with
  | value ended ended' kept =>
    exact .value (first.ends_bind ran ended) (second.ends_bind ran' ended') kept
  | fault failed failed' fails left =>
    exact .fault (first.ends_bind ran failed) (second.ends_bind ran' failed') fails left
  | pardoned failed pardoned => exact .pardoned (first.ends_bind ran failed) pardoned

/-- Computations end alike if they end as others do that end alike. -/
theorem Ends.imp {part : M α} {part' : N α} {state before : ς} {state' before' : τ}
    (ends : C.Ends part part' before before')
    (back : ∀ outcome after, first.Ends part before outcome after →
      first.Ends computation state outcome after)
    (back' : ∀ outcome after, second.Ends part' before' outcome after →
      second.Ends computation' state' outcome after) :
    C.Ends computation computation' state state' := by
  cases ends with
  | value ran ran' kept => exact .value (back _ _ ran) (back' _ _ ran') kept
  | fault ran ran' fails left => exact .fault (back _ _ ran) (back' _ _ ran') fails left
  | pardoned ran pardoned => exact .pardoned (back _ _ ran) pardoned

namespace Holds

/-- A value that is given at once on both sides changes neither state. -/
theorem pure (value : α) : C.Holds (pure value) (pure value) :=
  fun state state' kept => .value (first.ends_pure value state) (second.ends_pure value state') kept

/-- Faults that may arise together are raised side by side. -/
theorem throw {fault fault' : Fault} (fails : C.Fails fault fault') :
    C.Holds (throw fault : M α) (throw fault') :=
  fun state state' kept =>
    .fault (first.ends_throw fault state) (second.ends_throw fault' state') fails (C.left kept)

/-- After a pardoned fault the second computation may do anything. -/
theorem pardoned {fault : Fault} (pardoned : C.Pardoned fault) :
    C.Holds (MonadExcept.throw fault) computation' :=
  fun state _ _ => .pardoned (first.ends_throw fault state) pardoned

/-- What comes second is asked for only after values that the first computation can give. -/
theorem bind_given {next : α → M β} {next' : α → N β} (begins : C.Holds computation computation')
    (ends : ∀ state value between, first.Ends computation state (.ok value) between →
      C.Holds (next value) (next' value)) :
    C.Holds (computation >>= next) (computation' >>= next') := by
  intro state state' kept
  -- The rest is begun only after a value, in states that are related again.
  cases begins state state' kept with
  | value ran ran' kept' => exact (ends _ _ _ ran _ _ kept').after ran ran'
  | fault ran ran' fails left =>
    exact .fault (first.ends_bind_error ran) (second.ends_bind_error ran') fails left
  | pardoned ran pardoned => exact .pardoned (first.ends_bind_error ran) pardoned

/-- Computations done one after the other are done side by side if their parts are. -/
theorem bind {next : α → M β} {next' : α → N β} (begins : C.Holds computation computation')
    (ends : ∀ value, C.Holds (next value) (next' value)) :
    C.Holds (computation >>= next) (computation' >>= next') :=
  begins.bind_given fun _ value _ _ => ends value

/-- The values of a list are computed side by side if those of its head and its tail are. -/
theorem cons {rest : M (List α)} {rest' : N (List α)} (here : C.Holds computation computation')
    (there : C.Holds rest rest') :
    C.Holds (do
      let value ← computation
      let values ← rest
      Pure.pure (value :: values)) (do
      let value ← computation'
      let values ← rest'
      Pure.pure (value :: values)) :=
  here.bind fun value => there.bind fun values => .pure (value :: values)

end Holds

end Coupling

end

namespace Coupling

/-! ### States that are read and changed -/

section

variable {ς τ α : Type} {C : Coupling (Runs.state ς) (Runs.state τ)}

/-- What each side does with the state that it sees is done side by side. -/
theorem Holds.get {next : ς → ExceptT Fault (StateM ς) α} {next' : τ → ExceptT Fault (StateM τ) α}
    (each : ∀ state state', C.Kept state state' → C.Holds (next state) (next' state')) :
    C.Holds (get >>= next) (get >>= next') :=
  fun state state' kept => (each state state' kept state state' kept).after rfl rfl

/-- Changes that lead related states to related states are made side by side. -/
theorem Holds.modify {change : ς → ς} {change' : τ → τ}
    (keeps : ∀ state state', C.Kept state state' → C.Kept (change state) (change' state')) :
    C.Holds (modify change) (modify change') :=
  fun state state' kept => .value rfl rfl (keeps state state' kept)

/-- A coupling of computations that end in the same way. -/
structure Exact (C : Coupling (Runs.state ς) (Runs.state τ)) : Prop where
  fails {fault fault' : Fault} : C.Fails fault fault' → fault' = fault
  kept {state : ς} {state' : τ} : C.Left state state' → C.Kept state state'
  unpardoned (fault : Fault) : ¬ C.Pardoned fault

/-- An exact coupling gives one outcome for both computations. -/
theorem Exact.run (same : C.Exact) {computation : ExceptT Fault (StateM ς) α}
    {computation' : ExceptT Fault (StateM τ) α} (holds : C.Holds computation computation')
    {state : ς} {state' : τ} (kept : C.Kept state state') : ∃ outcome after after',
      computation.run state = (outcome, after) ∧ computation'.run state' = (outcome, after') ∧
      C.Kept after after' := by
  cases holds state state' kept with
  | value ran ran' kept' => exact ⟨_, _, _, ran, ran', kept'⟩
  | fault ran ran' fails left =>
    obtain rfl := same.fails fails
    exact ⟨_, _, _, ran, ran', same.kept left⟩
  | pardoned _ pardoned => exact absurd pardoned (same.unpardoned _)

/-- What one computation keeps is a coupling of the computation with itself. -/
def alone (Kept : ς → Prop) (Raised : Fault → Prop) : Coupling (Runs.state ς) (Runs.state ς) where
  Kept state state' := state = state' ∧ Kept state
  Fails fault fault' := fault = fault' ∧ Raised fault

/-- What a computation keeps when run beside itself holds after any run of it, and of the fault that
ends the run. -/
theorem alone_run {Kept : ς → Prop} {Raised : Fault → Prop}
    {computation : ExceptT Fault (StateM ς) α} {state after : ς} {outcome : Except Fault α}
    (holds : (alone Kept Raised).Holds computation computation) (kept : Kept state)
    (ran : computation.run state = (outcome, after)) :
    Kept after ∧ ∀ fault, outcome = .error fault → Raised fault := by
  cases holds state state ⟨rfl, kept⟩ with
  | value ended _ kept' =>
    cases ran.symm.trans ended
    exact ⟨kept'.2, nofun⟩
  | fault failed _ raised kept' =>
    cases ran.symm.trans failed
    exact ⟨kept'.2, fun _ same => Except.error.inj same ▸ raised.2⟩
  | pardoned _ never => exact never.elim

end

/-! ### The calls in progress -/

section

open Eval (push pop clearStack setArguments record perform attempt)

variable {σ τ α : Type} {C : Coupling (Runs.state (Machine σ)) (Runs.state (Machine τ))}

/-- A coupling relates the calls in progress one by one, and nothing else to them. -/
structure Stacked (C : Coupling (Runs.state (Machine σ)) (Runs.state (Machine τ)))
    (Framed : Frame → Frame → Prop) : Prop where
  stack {machine : Machine σ} {machine' : Machine τ} : C.Kept machine machine' →
    List.Forall₂ Framed machine.stack machine'.stack
  with_stack {machine : Machine σ} {machine' : Machine τ} {stack stack' : List Frame} :
    C.Kept machine machine' → List.Forall₂ Framed stack stack' →
      C.Kept { machine with stack } { machine' with stack := stack' }
  with_args {frame frame' : Frame} (args : List Value) : Framed frame frame' →
    Framed { frame with args } { frame' with args }
  listIndex : C.Fails .listIndex .listIndex

namespace Stacked

variable {Framed : Frame → Frame → Prop} (stacked : C.Stacked Framed)
include stacked

theorem push {frame frame' : Frame} (framed : Framed frame frame') :
    C.Holds (push frame) (push frame') :=
  .modify fun _ _ kept => stacked.with_stack kept (.cons framed (stacked.stack kept))

/-- The calls that are innermost end side by side. -/
theorem pop : C.Holds pop pop := by
  apply Holds.modify
  intro machine machine' kept
  -- Without their heads the two stacks are still related one by one.
  have framed := List.forall₂_drop 1 (stacked.stack kept)
  rw [List.drop_one, List.drop_one] at framed
  exact stacked.with_stack kept framed

theorem clearStack : C.Holds clearStack clearStack :=
  .modify fun _ _ kept => stacked.with_stack kept .nil

/-- The innermost calls on both sides are given their arguments. -/
theorem setArguments (args : List Value) : C.Holds (setArguments args) (setArguments args) := by
  apply Holds.get
  intro machine machine' kept
  have framed := stacked.stack kept
  generalize machine.stack = stack, machine'.stack = stack' at framed
  -- A call is in progress on both sides or on neither.
  cases framed with
  | nil => exact .throw stacked.listIndex
  | cons here outer =>
    apply Holds.modify
    intro later later' kept'
    exact stacked.with_stack kept' (.cons (stacked.with_args args here) outer)

end Stacked

/-- Frames are related one by one by what is seen of them if the same is seen of both lists. -/
theorem forall₂_seen {β : Type} {seen seen' : Frame → β} {stack stack' : List Frame} :
    List.Forall₂ (fun frame frame' => seen frame = seen' frame') stack stack' ↔
      stack.map seen = stack'.map seen' := by
  rw [← List.forall₂_eq_eq_eq, List.forall₂_map_left_iff, List.forall₂_map_right_iff]

/-- A coupling of machines that have the same calls in progress. -/
theorem Stacked.same
    (equal : ∀ machine machine', C.Kept machine machine' → machine'.stack = machine.stack)
    (with_stack : ∀ machine machine', C.Kept machine machine' → ∀ stack,
      C.Kept { machine with stack } { machine' with stack })
    (listIndex : C.Fails .listIndex .listIndex) : C.Stacked Eq where
  stack kept := by
    rw [equal _ _ kept]
    exact List.forall₂_refl _
  with_stack kept same := by
    rw [List.forall₂_eq_eq_eq] at same
    exact same ▸ with_stack _ _ kept _
  with_args _ same := by rw [same]
  listIndex := listIndex

/-! ### Actions -/

/-- An operation is told how a source ended that it evaluates, so both sides must end the same way. -/
theorem Exact.attempt (same : C.Exact) {computation : Eval σ α} {computation' : Eval τ α}
    (holds : C.Holds computation computation') :
    C.Holds (attempt computation) (attempt computation') := by
  intro machine machine' kept
  obtain ⟨outcome, after, after', ran, ran', kept'⟩ := same.run holds kept
  exact .value (Eval.attempt_run ran) (Eval.attempt_run ran') kept'

/-- What actions of a kind ask of the evaluator is answered alike on both sides, and leads to actions
of the kind. -/
structure Performs (C : Coupling (Runs.state (Machine σ)) (Runs.state (Machine σ)))
    (reenter reenter' : String → Eval σ Value) (Allowed : Action σ → Prop) : Prop where
  raise {fault : Fault} : Allowed (.done (.error fault)) → C.Fails fault fault
  frames {next : List Frame → Action σ} : Allowed (.frames next) → ∀ machine machine',
    C.Kept machine machine' → next machine'.stack = next machine.stack ∧ Allowed (next machine.stack)
  evaluate {source : String} {next : Except Fault Value → Action σ} :
    Allowed (.evaluate source next) → C.Holds (attempt (reenter source)) (attempt (reenter' source)) ∧
      ∀ outcome, Allowed (next outcome)
  register {symbol : String} {operation : Operation σ} {next : Nat → Action σ} :
    Allowed (.register symbol operation next) →
      (∀ machine machine', C.Kept machine machine' → machine'.registry = machine.registry ∧
        C.Kept (machine.register symbol operation) (machine'.register symbol operation)) ∧
      ∀ size, Allowed (next size)
  readState {next : σ → Action σ} : Allowed (.readState next) → ∀ machine machine',
    C.Kept machine machine' → machine'.state = machine.state ∧ Allowed (next machine.state)
  writeState {state : σ} {next : Action σ} : Allowed (.writeState state next) →
    (∀ machine machine', C.Kept machine machine' →
      C.Kept { machine with state } { machine' with state }) ∧ Allowed next

/-- An action is carried out side by side if each of its steps is. -/
theorem Performs.perform {C : Coupling (Runs.state (Machine σ)) (Runs.state (Machine σ))}
    {reenter reenter' : String → Eval σ Value} {Allowed : Action σ → Prop}
    (performs : C.Performs reenter reenter' Allowed) : ∀ action, Allowed action →
      C.Holds (perform reenter action) (perform reenter' action)
  | .done (.ok value), _ => .pure value
  | .done (.error fault), allowed => .throw (performs.raise allowed)
  | .frames next, allowed => by
    apply Holds.get
    intro machine machine' kept
    obtain ⟨same, allowed'⟩ := performs.frames allowed machine machine' kept
    -- Both sides see the same calls, so they go on with one action.
    rw [same]
    exact performs.perform _ allowed'
  | .evaluate source next, allowed => by
    obtain ⟨evaluates, later⟩ := performs.evaluate allowed
    -- The action is told how the source ended, a fault included.
    exact evaluates.bind fun outcome => performs.perform _ (later outcome)
  | .register symbol operation next, allowed => by
    obtain ⟨registers, later⟩ := performs.register allowed
    apply (Holds.modify fun machine machine' kept => (registers machine machine' kept).2).bind
    intro _
    apply Holds.get
    intro machine machine' kept
    -- Both sides are told the size of the set that they have now.
    rw [(registers machine machine' kept).1]
    exact performs.perform _ (later _)
  | .readState next, allowed => by
    apply Holds.get
    intro machine machine' kept
    obtain ⟨same, allowed'⟩ := performs.readState allowed machine machine' kept
    rw [same]
    exact performs.perform _ allowed'
  | .writeState state next, allowed => by
    obtain ⟨writes, later⟩ := performs.writeState allowed
    exact (Holds.modify writes).bind fun _ => performs.perform next later

end

/-! ### Calls -/

section

open Eval (record perform call)

variable {σ τ ς ς' : Type} {first : Runs (Eval σ) ς} {second : Runs (Eval τ) ς'}

/-- The lines that a call writes in the journal are written side by side. The sets that it chooses
from may differ in size. -/
structure Writes (C : Coupling first second) (name : String) (args : List Value)
    (size size' : Nat) : Prop where
  begun : C.Holds (record (.call name args.length size)) (record (.call name args.length size'))
  entered (place : Nat) :
    C.Holds (record (.entered name place args)) (record (.entered name place args))
  returned (place : Nat) (shown : String) :
    C.Holds (record (.returned name place shown)) (record (.returned name place shown))

variable {C : Coupling first second} {reenter : String → Eval σ Value}
  {reenter' : String → Eval τ Value} {overloads : Overloads σ} {overloads' : Overloads τ}
  {args : List Value} {position position' : Option Int}

/-- Two sets of one name are called side by side if they choose operations at one place, or none. -/
theorem Writes.calls (writes : C.Writes overloads.name args overloads.operations.length
      overloads'.operations.length) (named : overloads'.name = overloads.name)
    (taken : ∀ place operation, overloads.choose? args = some (place, operation) → ∃ operation',
      overloads'.choose? args = some (place, operation') ∧ operation'.inspect = operation.inspect ∧
      C.Holds (perform reenter (operation.run args)) (perform reenter' (operation'.run args)))
    (refused : overloads.choose? args = none →
      let cause := .notApplicable overloads.name (args.map Value.kind)
      overloads'.choose? args = none ∧
          C.Fails (.evaluation cause position) (.evaluation cause position') ∨
        C.Pardoned (.evaluation cause position)) :
    C.Holds (call reenter overloads args position) (call reenter' overloads' args position') := by
  -- A call is three steps: it is announced, an operation is chosen and carried out, its value is
  -- noted.
  rw [call, call, named]
  apply writes.begun.bind
  intro _
  cases chosen : overloads.choose? args with
  | none =>
    rcases refused chosen with ⟨none, fails⟩ | pardoned
    · rw [none]
      exact .throw fails
    · exact .pardoned pardoned
  | some pair =>
    obtain ⟨place, operation⟩ := pair
    obtain ⟨operation', chosen', shown, acts⟩ := taken place operation chosen
    rw [chosen']
    apply (writes.entered place).bind
    intro _
    apply acts.bind
    intro value
    -- The line that a call ends with names the operation, so the two must look the same.
    rw [shown]
    exact (writes.returned place _).bind fun _ => .pure value

end

/-- A set is called side by side with itself if what its operations do is done side by side. -/
theorem Writes.calls_same {σ ς ς' : Type} {first : Runs (Eval σ) ς} {second : Runs (Eval σ) ς'}
    {C : Coupling first second} {reenter reenter' : String → Eval σ Value} {overloads : Overloads σ}
    {args : List Value} {position position' : Option Int}
    (writes : C.Writes overloads.name args overloads.operations.length overloads.operations.length)
    (acts : ∀ operation ∈ overloads.operations,
      C.Holds (Eval.perform reenter (operation.run args)) (Eval.perform reenter' (operation.run args)))
    (fails : ∀ cause, C.Fails (.evaluation cause position) (.evaluation cause position')) :
    C.Holds (Eval.call reenter overloads args position)
      (Eval.call reenter' overloads args position') := by
  apply writes.calls rfl
  · intro place operation chosen
    exact ⟨operation, chosen, rfl, acts operation (Overloads.mem_of_choose? chosen)⟩
  · exact fun none => Or.inl ⟨none, fails _⟩

end Coupling

end HostLisp
