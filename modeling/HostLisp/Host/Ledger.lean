import HostLisp.Environment
import HostLisp.Value.Arithmetic

/-!
# A host with a ledger

Ready-made operations, among them ones that write to a ledger which their host keeps: a log of
values and a counter.
-/

namespace HostLisp

/-- The state of a host: what was logged, in order, and a running count. -/
structure Ledger where
  log : List Value
  counter : Value

namespace Ledger

def empty : Ledger := ⟨[], .int 0⟩

abbrev Body := List Value → Action Ledger

/-- Goes on with the argument at a place, counted from the end if it is negative. -/
def argumentAt (index : Int) (args : List Value) (next : Value → Action Ledger) : Action Ledger :=
  let place := if index < 0 then index + args.length else index
  if place < 0 then .raise .listIndex
  else
    match args[place.toNat]? with
    | some value => next value
    | none => .raise .listIndex

/-- Goes on with the first two arguments. -/
def firstTwo (args : List Value) (next : Value → Value → Action Ledger) : Action Ledger :=
  argumentAt 0 args fun a => argumentAt 1 args fun b => next a b

/-- Goes on with the arguments as texts, the first of which stands at the given place. -/
def joining (place : Nat) (args : List Value) (next : List String → Action Ledger) :
    Action Ledger :=
  match args with
  | [] => next []
  | value :: rest =>
    match value.text? with
    | some s => joining (place + 1) rest fun texts => next (s :: texts)
    | none =>
      let found := TypeName.nameOf value
      .raise (.typeError s!"sequence item {place}: expected str instance, {found} found")

def constant (value : Value) : Body := fun _ => .give value

def sum : Body := fun args => .done (Value.sum args)

/-- Gives the texts of the arguments with a separator between them. -/
def join (separator : String) : Body := fun args =>
  joining 0 args fun texts => .give (.text (separator.intercalate texts))

def count : Body := fun args => .give (.int args.length)

def collect : Body := fun args => .give (.list args)

def argument (index : Int) : Body := fun args => argumentAt index args .give

/-- Gives the first argument divided by the second, rounded down. -/
def divide : Body := fun args => firstTwo args fun a b => .done (a.floorDivide b)

def subtract : Body := fun args => firstTwo args fun a b => .done (a.subtract b)

/-- Tells whether the first two arguments are one and the same. -/
def identical : Body := fun args => firstTwo args fun a b => .give (.bool (a.identical b))

def record : Body := fun args => argumentAt 0 args fun value =>
  .readState fun ledger => .writeState { ledger with log := ledger.log ++ [value] } (.give value)

/-- Adds the arguments to the counter and gives what it then shows. -/
def countUp : Body := fun args => .readState fun ledger =>
  match Value.sum args with
  | .error fault => .raise fault
  | .ok total =>
    match ledger.counter.add total with
    | .error fault => .raise fault
    | .ok counter => .writeState { ledger with counter } (.give counter)

/-- Gives the names of the calls in progress, the outermost first. -/
def callers : Body := fun _ => .frames fun stack =>
  .give (.text ("/".intercalate (stack.reverse.map Frame.name)))

def fail (fault : Fault) : Body := fun _ => .raise fault

/-- Goes on with the outcome of a source: the given one, or else the first argument. A value that
is no text has no length, which comes out only when the calls in progress are forgotten already, as
they are for every source. -/
def evaluating (source : Option String) (args : List Value)
    (next : Except Fault Value → Action Ledger) : Action Ledger :=
  match source with
  | some source => .evaluate source next
  | none => argumentAt 0 args fun value =>
    match value.text? with
    | some source => .evaluate source next
    | none =>
      let found := TypeName.nameOf value
      .evaluate "" fun _ => next (.error (.typeError s!"object of type '{found}' has no len()"))

/-- Evaluates a source and gives its value or raises its fault. -/
def evaluate (source : Option String) : Body := fun args => evaluating source args .done

/-- Runs a source and gives its value or the message of its failure, or raises what the run does. -/
def run (source : Option String) : Body := fun args =>
  evaluating source args fun
    | .ok value => .give value
    | .error fault => .done (fault.runMessage.map Value.text)

/-- Registers an operation and gives the number that its symbol then has. -/
def enroll (symbol : String) (operation : Operation Ledger) : Body := fun _ =>
  .register symbol operation fun size => .give (.int size)

end Ledger

end HostLisp
