import HostLisp.Registry

/-!
# The machine

What evaluation reads and changes: the registry, the calls in progress, the state of the host, and a
journal of the calls made.
-/

namespace HostLisp

/-- A line of the journal. Operations are named by their symbol and their place in its set. -/
inductive Event
  /-- A form is about to call one of so many operations. -/
  | call (name : String) (argumentCount operationCount : Nat)
  /-- The operation at a place of the set is handed its arguments. -/
  | entered (name : String) (place : Nat) (args : List Value)
  /-- The operation of that text has given a value. -/
  | returned (name : String) (place : Nat) (shown : String)

/-- The state of an evaluation, over a host whose own state is of type `σ`. -/
structure Machine (σ : Type) where
  registry : Registry σ
  /-- The calls in progress, the innermost first. -/
  stack : List Frame
  state : σ
  journal : List Event

/-- A computation on the machine. A fault leaves the machine as it was when the fault arose. -/
abbrev Eval (σ : Type) := ExceptT Fault (StateM (Machine σ))

namespace Machine

variable {σ : Type}

def fresh (registry : Registry σ) (state : σ) : Machine σ := ⟨registry, [], state, []⟩

def register (machine : Machine σ) (symbol : String) (operation : Operation σ) : Machine σ :=
  { machine with registry := machine.registry.register symbol operation }

def frames (machine : Machine σ) : List Frame := machine.stack.reverse

end Machine

namespace Eval

variable {σ α : Type}

def record (event : Event) : Eval σ Unit :=
  modify fun machine => { machine with journal := machine.journal ++ [event] }

def clearStack : Eval σ Unit := modify fun machine => { machine with stack := [] }

def push (frame : Frame) : Eval σ Unit :=
  modify fun machine => { machine with stack := frame :: machine.stack }

def pop : Eval σ Unit := modify fun machine => { machine with stack := machine.stack.tail }

/-- Notes the arguments of the innermost call. There is none if an operation that ran for one of
the arguments has evaluated a source of its own. -/
def setArguments (args : List Value) : Eval σ Unit := do
  match (← get).stack with
  | [] => throw .listIndex
  | frame :: outer => modify fun machine => { machine with stack := { frame with args } :: outer }

def attempt (computation : Eval σ α) : Eval σ (Except Fault α) :=
  ExceptT.lift computation.run

end Eval

end HostLisp
