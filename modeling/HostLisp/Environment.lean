import HostLisp.Evaluation.Evaluator
import HostLisp.Report.Failure

/-!
# Running sources on a machine

`evaluate` gives the value of a source or the fault that ended it. `run` reports the fault with its
place in the source and the calls in progress, where the fault can be told.
-/

namespace HostLisp.Machine

variable {σ : Type}

/-- The value of the first form of a source, and the machine after it. -/
def evaluate (machine : Machine σ) (source : String) : Except Fault Value × Machine σ :=
  (Eval.source source).run machine

/-- The offset that a fault is reported at: its own, or else where the innermost call in progress
starts. -/
def faultPosition (machine : Machine σ) (fault : Fault) : Option Int :=
  match fault.position with
  | some position => some position
  | none => machine.stack.head?.bind Frame.position

/-- The report of a fault that ended the evaluation of a source. -/
def failure (machine : Machine σ) (source : String) (fault : Fault) : Failure where
  message := fault.runMessage.toOption
  location := (machine.faultPosition fault).map (Location.ofOffset source.toList)
  source := some source
  trace := machine.frames.map Frame.entry

def run (machine : Machine σ) (source : String) : Outcome × Machine σ :=
  match machine.evaluate source with
  | (.ok value, after) => (.success value, after)
  | (.error fault, after) =>
    -- The wording is made where the fault is caught, so that nothing catches what that raises.
    match fault.runMessage with
    | .ok _ => (.failure (after.failure source fault), after)
    | .error raised => (.raised raised, after)

/-- The machine with several more operations. -/
def registerAll (machine : Machine σ) (operations : List (String × Operation σ)) : Machine σ :=
  { machine with registry := machine.registry.registerAll operations }

end HostLisp.Machine

namespace HostLisp.Event

/-- The lines that a journal shows of its events when it is asked to. -/
def trace? : Event → Option String
  | .call name argumentCount operationCount =>
    some s!"[DBG] call {name} argc {argumentCount} operations {operationCount}\n"
  | .entered _ _ _ => none
  | .returned _ _ shown => some s!"[DBG] invoked {shown}\n"

def traceText (journal : List Event) : String := String.join (journal.filterMap trace?)

end HostLisp.Event
