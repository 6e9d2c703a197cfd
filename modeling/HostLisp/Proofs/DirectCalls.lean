import HostLisp.Proofs.Coupling

/-!
# Operations that do not call back

An operation that evaluates no source of its own can look at the calls in progress but cannot change
them.

## Main results

`Eval.call_steady`: a call of such an operation ends with the calls in progress that it began with,
whether it gives a value or fails.
-/

namespace HostLisp

variable {σ α : Type}

mutual

/-- An action evaluates no source, whatever it is told. -/
def Action.Direct : Action σ → Prop
  | .done _ => True
  | .frames next => ∀ stack, (next stack).Direct
  | .evaluate _ _ => False
  | .register _ operation next => operation.Direct ∧ ∀ size, (next size).Direct
  | .readState next => ∀ state, (next state).Direct
  | .writeState _ next => next.Direct
termination_by structural action => action

/-- An operation evaluates no source, whatever it is given. -/
def Operation.Direct : Operation σ → Prop
  | .fixed _ _ run => ∀ args, (run args).Direct
  | .variadic _ _ run => ∀ args, (run args).Direct
termination_by structural operation => operation

end

theorem Operation.Direct.run {operation : Operation σ} (direct : operation.Direct)
    (args : List Value) : (operation.run args).Direct := by
  cases operation with
  | fixed label types run => exact direct args
  | variadic label type run => exact direct args

def Registry.Direct (registry : Registry σ) : Prop := registry.Each Operation.Direct

namespace Eval

/-- One evaluation, during which no operation calls back and the calls in progress are as given. -/
def steadily (stack : List Frame) : Coupling (Runs.state (Machine σ)) (Runs.state (Machine σ)) :=
  .alone (fun machine => machine.registry.Direct ∧ machine.stack = stack) fun _ => True

/-- A computation leaves the calls in progress and keeps operations from calling back. -/
def Steady (evaluation : Eval σ α) : Prop :=
  ∀ machine, machine.registry.Direct → ∀ outcome after,
    evaluation.run machine = (outcome, after) →
      after.registry.Direct ∧ after.stack = machine.stack

/-- An evaluation is steady if it keeps the calls in progress, whichever they are. -/
theorem steady_of {evaluation : Eval σ α}
    (holds : ∀ stack, (steadily stack).Holds evaluation evaluation) : Steady evaluation :=
  fun machine direct _ _ ran => (Coupling.alone_run (holds machine.stack) ⟨direct, rfl⟩ ran).1

variable {stack : List Frame} {reenter : String → Eval σ Value}

/-- Direct actions leave the calls in progress, and what they register is direct. -/
theorem performs_steadily : (steadily stack).Performs reenter reenter Action.Direct where
  raise _ := ⟨rfl, trivial⟩
  frames direct machine _ kept := ⟨kept.1 ▸ rfl, direct machine.stack⟩
  evaluate direct := direct.elim
  register {symbol operation next} direct := by
    refine ⟨?_, direct.2⟩
    rintro machine _ ⟨rfl, known, top⟩
    exact ⟨rfl, rfl, Registry.Each.register known symbol direct.1, top⟩
  readState direct machine _ kept := ⟨kept.1 ▸ rfl, direct machine.state⟩
  writeState direct := by
    refine ⟨?_, direct⟩
    rintro machine _ ⟨rfl, kept⟩
    exact ⟨rfl, kept⟩

theorem record_steadily (event : Event) :
    (steadily (σ := σ) stack).Holds (record event) (record event) := by
  apply Coupling.Holds.modify
  rintro machine _ ⟨rfl, kept⟩
  exact ⟨rfl, kept⟩

/-- A call of an operation that does not call back leaves the calls in progress. -/
theorem call_steady (reenter : String → Eval σ Value) {overloads : Overloads σ}
    (direct : ∀ operation ∈ overloads.operations, operation.Direct) (args : List Value)
    (position : Option Int) : Steady (call reenter overloads args position) := by
  -- A call writes its lines and performs one operation of the set, and neither touches the stack.
  apply steady_of
  intro stack
  have writes : (steadily (σ := σ) stack).Writes overloads.name args overloads.operations.length
      overloads.operations.length :=
    ⟨record_steadily _, fun _ => record_steadily _, fun _ _ => record_steadily _⟩
  apply writes.calls_same
  · exact fun operation member => performs_steadily.perform _ ((direct operation member).run args)
  · exact fun _ => ⟨rfl, trivial⟩

end Eval

end HostLisp
