import HostLisp.Evaluation.Atom
import HostLisp.Evaluation.Machine
import HostLisp.Syntax.Reader

/-!
# Evaluation

A string literal gives its text and a symbol its atom. A list calls its head: the head must be
registered before any argument is looked at, the arguments are evaluated from left to right, and
then the first operation that takes them is called.
-/

namespace HostLisp

namespace Eval

variable {σ : Type}

/-- Carries out what an operation does, given how a source is evaluated from within. -/
def perform (reenter : String → Eval σ Value) : Action σ → Eval σ Value
  | .done (.ok value) => pure value
  | .done (.error fault) => throw fault
  | .frames next => do perform reenter (next (← get).stack)
  | .evaluate source next => do
    let outcome ← attempt (reenter source)
    perform reenter (next outcome)
  | .register symbol operation next => do
    modify (·.register symbol operation)
    let size := match (← get).registry.lookup symbol with
      | some overloads => overloads.operations.length
      | none => 0
    perform reenter (next size)
  | .readState next => do perform reenter (next (← get).state)
  | .writeState state next => do
    modify fun machine => { machine with state }
    perform reenter next

/-- Calls the first operation of a set that takes the arguments. -/
def call (reenter : String → Eval σ Value) (overloads : Overloads σ) (args : List Value)
    (position : Option Int) : Eval σ Value := do
  record (.call overloads.name args.length overloads.operations.length)
  match overloads.choose? args with
  | some (place, operation) =>
    record (.entered overloads.name place args)
    let value ← perform reenter (operation.run args)
    record (.returned overloads.name place operation.inspect)
    pure value
  | none => throw (.evaluation (.notApplicable overloads.name (args.map Value.kind)) position)

mutual

/-- The value of a node. The set of a head is looked up once more after the arguments, because
evaluating them can have added to it. -/
def node (reenter : String → Eval σ Value) (source : List Char) : Node → Eval σ Value
  | .string span => pure (.text (Node.stringText span source))
  | .symbol span =>
    match Atom.ofSpan span source with
    | .ok value => pure value
    | .error fault => throw fault
  | .value value =>
    match value.inspect with
    | .ok shown => throw (.evaluation (.notANode shown) none)
    | .error fault => throw fault
  | .list start [] => throw (.evaluation .emptyList start)
  | .list start (.symbol head :: arguments) => do
    let name := Node.symbolText head source
    let position := some head.start
    match (← get).registry.lookup name with
    | none => throw (.evaluation (.unknownFunction name) position)
    | some known =>
      -- A fault from here on leaves the frame, so that the stack shows the path to it.
      push ⟨name, [], start⟩
      let args ← nodes reenter source arguments
      setArguments args
      let overloads := ((← get).registry.lookup name).getD known
      let value ← call reenter overloads args position
      pop
      pure value
  | .list start (_ :: _) => throw (.evaluation .headNotSymbol start)
termination_by structural node => node

/-- The values of nodes from left to right. -/
def nodes (reenter : String → Eval σ Value) (source : List Char) :
    List Node → Eval σ (List Value)
  | [] => pure []
  | first :: rest => do
    let value ← node reenter source first
    let values ← nodes reenter source rest
    pure (value :: values)
termination_by structural nodes => nodes

end

/-- The value of a tree, with no call in progress. -/
def tree (reenter : String → Eval σ Value) (source : List Char) (root : Node) :
    Eval σ Value := do
  clearStack
  node reenter source root

def sourceWith (reenter : String → Eval σ Value) (source : String) : Eval σ Value := do
  clearStack
  match parse source.toList with
  | .ok root => tree reenter source.toList root
  | .error fault => throw fault

/-- The value of the first form of a source, in which operations may evaluate sources of their own,
nested to the given depth. -/
def sourceWithin : (depth : Nat) → String → Eval σ Value
  | 0 => fun _ => throw .nestingLimit
  | depth + 1 => sourceWith (sourceWithin depth)

/-- How deep operations can nest the evaluation of sources. It stands for the limit of the host's
interpreter on calls in progress, which is a resource of the interpreter and no part of the language;
only sources that operations evaluate count, not how deep the forms of one source are nested. -/
def nestingDepth : Nat := 4000

def source (text : String) : Eval σ Value := sourceWithin nestingDepth text

end Eval

end HostLisp
