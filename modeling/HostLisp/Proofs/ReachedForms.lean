import HostLisp.Proofs.FailurePath

/-!
# What an evaluation comes to

An evaluation comes to forms inside of the one that it began with, to the operations that they call,
and to the sources that these evaluate on the same machine.

## Main results

`Eval.Reaches.fails`: the failure of a form that is reached is the failure of the whole.

`Eval.Invokes.run_ok`, `Eval.Invokes.run_error`: a call ends as the operation that it invokes.

`Eval.form_ok_invokes`: a call that has a value has invoked an operation.

## Proof strategy

`Eval.Reaches` and `Eval.Asks` follow what the evaluator does, one constructor for each step, and the
inductions are on them.
-/

namespace HostLisp

variable {σ : Type}

theorem Form.Call.form_inj {call call' : Call} (same : call.form = call'.form) : call = call' := by
  obtain ⟨mark, head, name, arguments⟩ := call
  obtain ⟨mark', head', name', arguments'⟩ := call'
  cases same
  rfl

/-- The machine on which an operation of a set is handed its arguments. -/
def Machine.handing (machine : Machine σ) (overloads : Overloads σ) (place : Nat)
    (args : List Value) : Machine σ :=
  { machine with
    journal := machine.journal ++
      [.call overloads.name args.length overloads.operations.length] ++
      [.entered overloads.name place args] }

namespace Eval

/-! ### Forms -/

/-- The evaluation of a form comes to a form inside of it, through calls of known symbols and after
the arguments before it. -/
inductive Reaches (reenter : String → Eval σ Value) :
    Machine σ → Form Int → Machine σ → Form Int → Prop
  | here (machine : Machine σ) (form : Form Int) : Reaches reenter machine form machine form
  | argument {machine between last : Machine σ} {call : Form.Call} {known : Overloads σ}
      {before rest : List (Form Int)} {item point : Form Int} {values : List Value}
      (found : machine.registry.lookup call.symbol = some known)
      (split : call.arguments = before ++ item :: rest)
      (evaluated : (forms reenter before).run (machine.entering call) = (.ok values, between))
      (inner : Reaches reenter between item last point) :
      Reaches reenter machine call.form last point

variable {reenter : String → Eval σ Value} {machine between after last : Machine σ}

theorem Reaches.trans {form point inner : Form Int}
    (first : Reaches reenter machine form between point)
    (second : Reaches reenter between point last inner) : Reaches reenter machine form last inner := by
  induction first with
  | here machine form => exact second
  | argument found split evaluated _ ih => exact .argument found split evaluated (ih second)

/-- Forms are evaluated from left to right. -/
theorem forms_append_run {before : List (Form Int)} {values : List Value}
    (evaluated : (forms reenter before).run machine = (.ok values, between))
    (rest : List (Form Int)) : (forms reenter (before ++ rest)).run machine =
      (do let more ← forms reenter rest; pure (values ++ more) : Eval σ (List Value)).run between := by
  induction before generalizing machine values with
  | nil =>
    cases evaluated
    simp only [List.nil_append, bind_pure]
  | cons first others ih =>
    rw [forms] at evaluated
    rcases run_bind_cases evaluated with ⟨value, later, begun, ended⟩ | ⟨fault, -, failed⟩
    · rcases run_bind_cases ended with ⟨values', last, goes, done⟩ | ⟨fault, -, failed⟩
      · cases done
        -- What the first form gives is put before what the others give.
        rw [List.cons_append, forms, run_bind_ok begun]
        cases ran : (forms reenter rest).run between with
        | mk outcome after =>
          have others' := ih goes
          cases outcome with
          | error fault =>
            rw [run_bind_error ran] at others' ⊢
            exact run_bind_error others'
          | ok more =>
            rw [run_bind_ok ran] at others' ⊢
            exact run_bind_ok others'
      · cases failed
    · cases failed

/-- A call of a known symbol evaluates its arguments and concludes. -/
theorem form_run_call {call : Form.Call} {known : Overloads σ}
    (found : machine.registry.lookup call.symbol = some known) :
    (form reenter call.form).run machine =
      (forms reenter call.arguments >>= conclude reenter call.symbol known (some call.head)).run
        (machine.entering call) :=
  form_run_known found

/-- The failure of a form that is reached is the failure of the whole. -/
theorem Reaches.fails {form' point : Form Int}
    (reaches : Reaches reenter machine form' between point) {fault : Fault}
    (failed : (form reenter point).run between = (.error fault, after)) :
    (form reenter form').run machine = (.error fault, after) := by
  induction reaches with
  | here machine form => exact failed
  | argument found split evaluated inner ih =>
    -- The failure ends the arguments that the form stands among, and so the call.
    rw [form_run_call found, split]
    apply run_bind_error
    rw [forms_append_run evaluated, forms]
    exact run_bind_error (run_bind_error (ih failed))

/-! ### Operations -/

/-- A call performs an action: its arguments are evaluated and noted, and the action is what the
first operation makes of them that takes them. -/
inductive Invokes (reenter : String → Eval σ Value) (machine : Machine σ) (call : Form.Call) :
    Action σ → Machine σ → Prop
  | intro {known : Overloads σ} {args : List Value} {between ready : Machine σ} {place : Nat}
      {operation : Operation σ}
      (found : machine.registry.lookup call.symbol = some known)
      (evaluated : (forms reenter call.arguments).run (machine.entering call) = (.ok args, between))
      (noted : (setArguments args).run between = (.ok (), ready))
      (chosen : ((ready.registry.lookup call.symbol).getD known).choose? args =
        some (place, operation)) :
      Invokes reenter machine call (operation.run args)
        (ready.handing ((ready.registry.lookup call.symbol).getD known) place args)

theorem setArguments_run_nil (args : List Value) (empty : machine.stack = []) :
    (setArguments args).run machine = (.error .listIndex, machine) := by
  rw [setArguments, run_bind_ok get_run, empty]
  rfl

theorem setArguments_ok {args : List Value}
    (ran : (setArguments args).run machine = (.ok (), after)) : ∃ frame outer,
      machine.stack = frame :: outer ∧
      after = { machine with stack := { frame with args } :: outer } := by
  -- There is no frame to write to in an empty stack, which is a fault.
  cases stack : machine.stack with
  | nil =>
    rw [setArguments_run_nil args stack] at ran
    cases ran
  | cons frame outer =>
    rw [setArguments_run args stack] at ran
    cases ran
    exact ⟨frame, outer, rfl, rfl⟩

theorem conclude_run_noted {symbol : String} {known : Overloads σ} {position : Option Int}
    {args : List Value} (noted : (setArguments args).run machine = (.ok (), after)) :
    (conclude reenter symbol known position args).run machine = (do
      let value ← call reenter ((after.registry.lookup symbol).getD known) args position
      pop
      pure value : Eval σ Value).run after := by
  rw [conclude, run_bind_ok noted, run_bind_ok get_run]

variable {call : Form.Call} {action : Action σ} {entered left : Machine σ}

/-- A call gives what its operation gives, and then ends. -/
theorem Invokes.run_ok (invokes : Invokes reenter machine call action entered) {value : Value}
    (returned : (perform reenter action).run entered = (.ok value, left)) : ∃ journal,
    (form reenter call.form).run machine =
      (.ok value, { left with stack := left.stack.tail, journal }) := by
  cases invokes with
  | @intro known args between ready place operation found evaluated noted chosen =>
    let overloads := (ready.registry.lookup call.symbol).getD known
    have called : (Eval.call reenter overloads args (some call.head)).run ready = (.ok value, { left with
        journal := left.journal ++ [.returned overloads.name place operation.inspect] }) :=
      (call_run chosen _).trans (run_bind_ok returned)
    rw [form_run_call found, run_bind_ok evaluated, conclude_run_noted noted]
    exact ⟨left.journal ++ [.returned overloads.name place operation.inspect], run_bind_ok called⟩

theorem Invokes.run_error (invokes : Invokes reenter machine call action entered) {fault : Fault}
    (failed : (perform reenter action).run entered = (.error fault, left)) :
    (form reenter call.form).run machine = (.error fault, left) := by
  cases invokes with
  | intro found evaluated noted chosen =>
    rw [form_run_call found, run_bind_ok evaluated, conclude_run_noted noted]
    exact run_bind_error ((call_run chosen _).trans (run_bind_error failed))

/-- A set that is called with success has an operation that takes the arguments and gives the value. -/
theorem call_ok {overloads : Overloads σ} {args : List Value} {position : Option Int} {value : Value}
    (ran : (Eval.call reenter overloads args position).run machine = (.ok value, after)) :
    ∃ place operation left, overloads.choose? args = some (place, operation) ∧
      (perform reenter (operation.run args)).run (machine.handing overloads place args) =
        (.ok value, left) ∧ after.stack = left.stack := by
  cases chosen : overloads.choose? args with
  | none =>
    rw [call_run_none chosen] at ran
    cases ran
  | some pair =>
    obtain ⟨place, operation⟩ := pair
    rw [call_run chosen] at ran
    rcases run_bind_cases ran with ⟨result, left, performed, ended⟩ | ⟨fault, -, failed⟩
    · cases ended
      exact ⟨place, operation, left, rfl, performed, rfl⟩
    · cases failed

/-- A call that has a value has performed an action that has it. -/
theorem form_ok_invokes {value : Value}
    (ran : (form reenter call.form).run machine = (.ok value, after)) : ∃ action entered left,
    Invokes reenter machine call action entered ∧
      (perform reenter action).run entered = (.ok value, left) ∧ after.stack = left.stack.tail := by
  -- A value is only at the end of all steps, so the other ends are ruled out one by one.
  cases found : machine.registry.lookup call.symbol with
  | none =>
    rw [Form.Call.form, form_run_unknown found] at ran
    cases ran
  | some known =>
    rw [form_run_call found] at ran
    rcases run_bind_cases ran with ⟨args, between, evaluated, concluded⟩ | ⟨fault, -, failed⟩
    · cases noted : (setArguments args).run between with
      | mk outcome ready =>
        cases outcome with
        | error fault =>
          rw [conclude, run_bind_error noted] at concluded
          cases concluded
        | ok done =>
          rw [conclude_run_noted noted] at concluded
          rcases run_bind_cases concluded with ⟨result, last, called, ended⟩ | ⟨fault, -, failed⟩
          · cases ended
            obtain ⟨place, operation, left, chosen, returned, same⟩ := call_ok called
            exact ⟨_, _, left, .intro found evaluated noted chosen, returned,
              congrArg List.tail same⟩
          · cases failed
    · cases failed

/-! ### Sources -/

/-- An action evaluates a source on a machine. -/
inductive Asks (reenter : String → Eval σ Value) :
    Machine σ → Action σ → Machine σ → String → Prop
  | now (machine : Machine σ) (source : String) (next : Except Fault Value → Action σ) :
      Asks reenter machine (.evaluate source next) machine source
  | later {machine between last : Machine σ} {source source' : String}
      {next : Except Fault Value → Action σ} {outcome : Except Fault Value}
      (answered : (reenter source).run machine = (outcome, between))
      (rest : Asks reenter between (next outcome) last source') :
      Asks reenter machine (.evaluate source next) last source'
  | frames {machine last : Machine σ} {source : String} {next : List Frame → Action σ}
      (rest : Asks reenter machine (next machine.stack) last source) :
      Asks reenter machine (.frames next) last source
  | register {machine last : Machine σ} {source symbol : String} {operation : Operation σ}
      {next : Nat → Action σ}
      (rest : Asks reenter (machine.register symbol operation)
        (next (match (machine.register symbol operation).registry.lookup symbol with
          | some overloads => overloads.operations.length
          | none => 0)) last source) :
      Asks reenter machine (.register symbol operation next) last source
  | readState {machine last : Machine σ} {source : String} {next : σ → Action σ}
      (rest : Asks reenter machine (next machine.state) last source) :
      Asks reenter machine (.readState next) last source
  | writeState {machine last : Machine σ} {source : String} {state : σ} {next : Action σ}
      (rest : Asks reenter { machine with state } next last source) :
      Asks reenter machine (.writeState state next) last source

/-- The evaluation of a form evaluates a source within, on a machine. -/
def Asked (reenter : String → Eval σ Value) (machine : Machine σ) (form : Form Int)
    (last : Machine σ) (source : String) : Prop :=
  ∃ here call action entered, Reaches reenter machine form here (Form.Call.form call) ∧
    Invokes reenter here call action entered ∧ Asks reenter entered action last source

end Eval

end HostLisp
