import HostLisp.Environment

/-!
# Runs

How evaluations run on a machine, one step after another.

## Main results

`Eval.call_run`: the run of a call once its operation is chosen.

`Eval.node_run`: the run of a list once its arguments are known.

`Machine.evaluate_of_parse`: the run of a source once its tree is known.

`Machine.run_reported`, `Machine.run_raised`: what a run comes to after a fault that can be told, and
after one that cannot.
-/

namespace HostLisp

namespace Eval

/-! ### Computations with a state -/

section

variable {ς α β : Type} {state between : ς} {computation : ExceptT Fault (StateM ς) α}
  {next : α → ExceptT Fault (StateM ς) β}

theorem run_bind_ok {value : α} (ran : computation.run state = (.ok value, between)) :
    (computation >>= next).run state = (next value).run between := by
  change ExceptT.bindCont next (computation.run state).1 (computation.run state).2 = _
  rw [ran]
  rfl

theorem run_bind_error {fault : Fault} (ran : computation.run state = (.error fault, between)) :
    (computation >>= next).run state = (.error fault, between) := by
  change ExceptT.bindCont next (computation.run state).1 (computation.run state).2 = _
  rw [ran]
  rfl

/-- A run of two computations fails in the first, or goes on in the second where the first ended. -/
theorem run_bind_cases {outcome : Except Fault β} {after : ς}
    (ran : (computation >>= next).run state = (outcome, after)) :
    (∃ value between, computation.run state = (.ok value, between) ∧
      (next value).run between = (outcome, after)) ∨
    ∃ fault, computation.run state = (.error fault, after) ∧ outcome = .error fault := by
  cases first : computation.run state with
  | mk result between =>
    cases result with
    | ok value =>
      rw [run_bind_ok first] at ran
      exact Or.inl ⟨value, between, rfl, ran⟩
    | error fault =>
      rw [run_bind_error first] at ran
      cases ran
      exact Or.inr ⟨fault, rfl, rfl⟩

theorem run_bind_congr {computation' : ExceptT Fault (StateM ς) α}
    (same : computation.run state = computation'.run between) :
    (computation >>= next).run state = (computation' >>= next).run between := by
  change ExceptT.bindCont next (computation.run state).1 (computation.run state).2 = _
  rw [same]
  rfl

theorem get_run : (get : ExceptT Fault (StateM ς) ς).run state = (.ok state, state) := rfl

end

/-! ### Steps of the evaluator -/

variable {σ : Type} {machine : Machine σ}

theorem record_run (event : Event) : (record event).run machine =
    (.ok (), { machine with journal := machine.journal ++ [event] }) := rfl

theorem push_run (frame : Frame) : (push frame).run machine =
    (.ok (), { machine with stack := frame :: machine.stack }) := rfl

theorem clearStack_run : clearStack.run machine = (.ok (), { machine with stack := [] }) := rfl

theorem setArguments_run {frame : Frame} {outer : List Frame} (args : List Value)
    (top : machine.stack = frame :: outer) : (setArguments args).run machine =
      (.ok (), { machine with stack := { frame with args } :: outer }) := by
  rw [setArguments, run_bind_ok get_run, top]
  rfl

theorem attempt_run {α : Type} {computation : Eval σ α} {outcome : Except Fault α} {after : Machine σ}
    (ran : computation.run machine = (outcome, after)) :
    (attempt computation).run machine = (.ok outcome, after) :=
  congrArg (fun pair : Except Fault α × Machine σ =>
    ((.ok pair.1 : Except Fault (Except Fault α)), pair.2)) ran

/-! ### Calls -/

variable {reenter : String → Eval σ Value}

/-- An action that evaluates a source goes on with its outcome. -/
theorem perform_evaluate_run {source : String} {next : Except Fault Value → Action σ}
    {outcome : Except Fault Value} {after : Machine σ}
    (ran : (reenter source).run machine = (outcome, after)) :
    (perform reenter (.evaluate source next)).run machine =
      (perform reenter (next outcome)).run after :=
  run_bind_ok (attempt_run ran)

/-- How many operations a symbol has, which is what an action is told that registers one. -/
def operationCount (registry : Registry σ) (symbol : String) : Nat :=
  match registry.lookup symbol with
  | some overloads => overloads.operations.length
  | none => 0

theorem perform_readState_run {next : σ → Action σ} :
    (perform reenter (.readState next)).run machine =
      (perform reenter (next machine.state)).run machine :=
  run_bind_ok get_run

theorem perform_writeState_run {state : σ} {next : Action σ} :
    (perform reenter (.writeState state next)).run machine =
      (perform reenter next).run { machine with state } :=
  run_bind_ok rfl

theorem perform_register_run {symbol : String} {operation : Operation σ}
    {next : Nat → Action σ} :
    (perform reenter (.register symbol operation next)).run machine =
      (perform reenter (next (operationCount (machine.register symbol operation).registry symbol))).run
        (machine.register symbol operation) := by
  have added : (modify (·.register symbol operation) : Eval σ Unit).run machine =
      (.ok (), machine.register symbol operation) := rfl
  rw [perform, run_bind_ok added, run_bind_ok get_run]
  rfl

/-- A call performs the operation that is chosen, after two lines in the journal and before one. -/
theorem call_run {overloads : Overloads σ} {args : List Value} {place : Nat}
    {operation : Operation σ} (chosen : overloads.choose? args = some (place, operation))
    (position : Option Int) :
    (call reenter overloads args position).run machine = (do
      let value ← perform reenter (operation.run args)
      record (.returned overloads.name place operation.inspect)
      pure value : Eval σ Value).run { machine with
        journal := machine.journal ++ [.call overloads.name args.length overloads.operations.length]
          ++ [.entered overloads.name place args] } := by
  rw [call, run_bind_ok (record_run _), chosen]
  -- What is left of the call is what stands on the right, after one more line.
  exact run_bind_ok (record_run _)

/-- A call whose operation only gives a value leaves three lines in the journal. -/
theorem call_run_give {overloads : Overloads σ} {args : List Value} {place : Nat}
    {operation : Operation σ} {value : Value}
    (chosen : overloads.choose? args = some (place, operation))
    (gives : operation.run args = .give value) (position : Option Int) :
    (call reenter overloads args position).run machine = (.ok value, { machine with
      journal := machine.journal ++ [.call overloads.name args.length overloads.operations.length]
        ++ [.entered overloads.name place args]
        ++ [.returned overloads.name place operation.inspect] }) := by
  rw [call_run chosen, gives]
  rfl

/-- A call for which no operation is chosen fails, after one line in the journal. -/
theorem call_run_none {overloads : Overloads σ} {args : List Value}
    (none : overloads.choose? args = none) (position : Option Int) :
    (call reenter overloads args position).run machine =
      (.error (.evaluation (.notApplicable overloads.name (args.map Value.kind)) position),
        { machine with journal := machine.journal ++
          [.call overloads.name args.length overloads.operations.length] }) := by
  rw [call, run_bind_ok (record_run _), none]
  rfl

/-- A list whose arguments have those values calls the set of its head, with the call noted. -/
theorem node_run {source : List Char} {start : Option Int} {head : Span} {arguments : List Node}
    {known : Overloads σ} {values : List Value}
    (found : machine.registry.lookup (Node.symbolText head source) = some known)
    (evaluated : nodes reenter source arguments = pure values) :
    (node reenter source (.list start (.symbol head :: arguments))).run machine = (do
      let value ← call reenter known values (some head.start)
      pop
      pure value : Eval σ Value).run { machine with
        stack := ⟨Node.symbolText head source, values, start⟩ :: machine.stack } := by
  rw [node, run_bind_ok get_run, found]
  dsimp only
  -- The arguments leave the machine alone, so the frame on top is the one just pushed.
  rw [run_bind_ok (push_run _), evaluated, pure_bind, run_bind_ok (setArguments_run _ rfl),
    run_bind_ok get_run, found]
  rfl

/-! ### Sources -/

/-- A source that has a tree is evaluated as the tree, with no call in progress. -/
theorem sourceWithin_run {depth : Nat} {text : String} {root : Node}
    (parsed : parse text.toList = .ok root) : (sourceWithin (depth + 1) text).run machine =
      (node (sourceWithin depth) text.toList root).run { machine with stack := [] } := by
  -- The stack is cleared for the source and once more for its tree.
  rw [sourceWithin, sourceWith, run_bind_ok clearStack_run, parsed]
  exact run_bind_ok clearStack_run

end Eval

/-- A source is evaluated by reading its tree and evaluating that, with no call in progress. -/
theorem Machine.evaluate_of_parse {σ : Type} (machine : Machine σ) {text : String} {root : Node}
    (parsed : parse text.toList = .ok root) :
    machine.evaluate text = (Eval.node (Eval.sourceWithin (Eval.nestingDepth - 1)) text.toList
      root).run { machine with stack := [] } :=
  Eval.sourceWithin_run parsed

/-- A source that has no tree leaves only the calls in progress behind. -/
theorem Machine.evaluate_of_error {σ : Type} (machine : Machine σ) {text : String} {fault : Fault}
    (failed : parse text.toList = .error fault) :
    machine.evaluate text = (.error fault, { machine with stack := [] }) := by
  change (Eval.sourceWith (Eval.sourceWithin (Eval.nestingDepth - 1)) text).run machine = _
  rw [Eval.sourceWith, Eval.run_bind_ok Eval.clearStack_run, failed]
  rfl

namespace Machine

variable {σ : Type} {machine after : Machine σ} {source : String} {fault : Fault}

theorem run_value {value : Value} (evaluated : machine.evaluate source = (.ok value, after)) :
    machine.run source = (.success value, after) := by
  rw [run, evaluated]

/-- A fault for which there are words is reported with them. -/
theorem run_reported {message : String}
    (evaluated : machine.evaluate source = (.error fault, after))
    (worded : fault.runMessage = .ok message) :
    machine.run source = (.failure (after.failure source fault), after) ∧
      (after.failure source fault).message = some message := by
  constructor
  · simp only [run, evaluated, worded]
  · rw [failure, worded]
    rfl

/-- What is raised in the place of the words of a fault leaves the run. -/
theorem run_raised {raised : Fault} (evaluated : machine.evaluate source = (.error fault, after))
    (unworded : fault.runMessage = .error raised) :
    machine.run source = (.raised raised, after) := by
  simp only [run, evaluated, unworded]

/-- A run is reported as failed exactly when there are words for the fault that ended it. -/
theorem run_eq_failure {report : Failure} :
    machine.run source = (.failure report, after) ↔ ∃ fault message,
      machine.evaluate source = (.error fault, after) ∧ fault.runMessage = .ok message ∧
      report = after.failure source fault := by
  constructor
  · intro ran
    rcases evaluated : machine.evaluate source with ⟨_ | _, last⟩
    · cases worded : Fault.runMessage _ with
      | ok message =>
        rw [(run_reported evaluated worded).1] at ran
        cases ran
        exact ⟨_, message, rfl, worded, rfl⟩
      | error raised =>
        rw [run_raised evaluated worded] at ran
        cases ran
    · rw [run_value evaluated] at ran
      cases ran
  · rintro ⟨fault, message, evaluated, worded, rfl⟩
    exact (run_reported evaluated worded).1

/-- A run raises exactly what is raised in the place of the words of the fault that ended it. -/
theorem run_eq_raised {raised : Fault} :
    machine.run source = (.raised raised, after) ↔ ∃ fault,
      machine.evaluate source = (.error fault, after) ∧ fault.runMessage = .error raised := by
  constructor
  · intro ran
    rcases evaluated : machine.evaluate source with ⟨_ | _, last⟩
    · cases worded : Fault.runMessage _ with
      | ok message =>
        rw [(run_reported evaluated worded).1] at ran
        cases ran
      | error raised' =>
        rw [run_raised evaluated worded] at ran
        cases ran
        exact ⟨_, rfl, worded⟩
    · rw [run_value evaluated] at ran
      cases ran
  · rintro ⟨fault, evaluated, unworded⟩
    exact run_raised evaluated unworded

/-- The machine after a run is the one after the evaluation, however that ended. -/
theorem run_after (machine : Machine σ) (source : String) :
    (machine.run source).2 = (machine.evaluate source).2 := by
  cases evaluated : machine.evaluate source with
  | mk outcome after =>
    cases outcome with
    | ok value => rw [run_value evaluated]
    | error fault =>
      cases worded : fault.runMessage with
      | ok message => rw [(run_reported evaluated worded).1]
      | error raised => rw [run_raised evaluated worded]

end Machine

end HostLisp
