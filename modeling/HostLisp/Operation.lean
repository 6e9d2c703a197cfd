import HostLisp.Fault
import HostLisp.Value.TypeName

/-!
# Operations

An operation has a signature and something to do. What it does is an `Action`: a result, or one
step that the evaluator carries out and then what to do with its answer. Nothing else reaches the
evaluator, so a claim about every host is a claim about every action.
-/

namespace HostLisp

/-- A call in progress: the function, its arguments once they are known, and where its form
starts. -/
structure Frame where
  name : String
  args : List Value
  position : Option Int
  deriving Inhabited

mutual

/-- What a host operation does, over a host whose own state is of type `σ`. -/
inductive Action (σ : Type)
  | done (outcome : Except Fault Value)
  /-- Looks at the calls in progress, the innermost first. -/
  | frames (next : List Frame → Action σ)
  /-- Evaluates another source on the same machine. -/
  | evaluate (source : String) (next : Except Fault Value → Action σ)
  /-- Adds an operation, and is told how many its symbol then has. -/
  | register (symbol : String) (operation : Operation σ) (next : Nat → Action σ)
  | readState (next : σ → Action σ)
  | writeState (state : σ) (next : Action σ)

/-- Something that can be called under a symbol. The label is shown where the operation is. -/
inductive Operation (σ : Type)
  /-- Takes one argument of each type. -/
  | fixed (label : Option String) (types : List TypeName) (run : List Value → Action σ)
  /-- Takes any number of arguments, each of the type if one is given. -/
  | variadic (label : Option String) (type : Option TypeName) (run : List Value → Action σ)

end

namespace Action

variable {σ : Type}

def give (value : Value) : Action σ := .done (.ok value)

def raise (fault : Fault) : Action σ := .done (.error fault)

/-- The outcome of an action that asks nothing of the evaluator. -/
def outcome? : Action σ → Option (Except Fault Value)
  | .done outcome => some outcome
  | _ => none

/-- Does one thing and then, with the value that it came to, another. -/
def andThen (action : Action σ) (more : Value → Action σ) : Action σ :=
  match action with
  | .done (.ok value) => more value
  | .done (.error fault) => .done (.error fault)
  | .frames next => .frames fun stack => (next stack).andThen more
  | .evaluate source next => .evaluate source fun outcome => (next outcome).andThen more
  | .register symbol operation next =>
    .register symbol operation fun size => (next size).andThen more
  | .readState next => .readState fun state => (next state).andThen more
  | .writeState state next => .writeState state (next.andThen more)
termination_by structural action

end Action

namespace Operation

variable {σ : Type}

def arity : Operation σ → Option Nat
  | .fixed _ types _ => some types.length
  | .variadic _ _ _ => none

def admits (operation : Operation σ) (count : Nat) : Bool :=
  match operation.arity with
  | some arity => arity = count
  | none => true

/-- Whether values belong to types one by one, and are as many. -/
def allHold : List TypeName → List Value → Bool
  | [], [] => true
  | type :: types, value :: values => type.holds value && allHold types values
  | _, _ => false

def accepts (operation : Operation σ) (args : List Value) : Bool :=
  match operation with
  | .fixed _ types _ => allHold types args
  | .variadic _ (some type) _ => args.all type.holds
  | .variadic _ none _ => true

def run : Operation σ → List Value → Action σ
  | .fixed _ _ run | .variadic _ _ run => run

/-- What the operation does with arguments, if it takes them. -/
def invoke? (operation : Operation σ) (args : List Value) : Option (Action σ) :=
  if operation.accepts args then some (operation.run args) else none

/-- The text of an operation: its label and its signature. -/
def inspect : Operation σ → String
  | .fixed label types _ =>
    let shown := ", ".intercalate (types.map TypeName.name)
    let label := label.getD "fn"
    s!"<Function {label}({shown})>"
  | .variadic label type _ =>
    let shown := (type.map TypeName.name).getD "any"
    let label := label.getD "fn"
    s!"<VariadicFunction {label}({shown}...)>"

end Operation

end HostLisp
