import HostLisp.Proofs.Coupling

/-!
# Evaluation without calls in progress

The value of a tree, said without the stack of calls in progress. It is undefined where an operation
looks at that stack or evaluates a source of its own, and at nodes that no source has.

## Main definitions

`Plain.node`: the value of a node, where it is defined.

`Registry.Quiet`: the registries whose operations leave the calls in progress and the evaluator alone.
-/

namespace HostLisp

variable {σ α β : Type}

/-! ### Operations that leave the evaluator alone -/

mutual

/-- An action neither looks at the calls in progress nor evaluates a source, whatever it is told. -/
def Action.Quiet : Action σ → Prop
  | .done _ => True
  | .frames _ => False
  | .evaluate _ _ => False
  | .register _ operation next => operation.Quiet ∧ ∀ size, (next size).Quiet
  | .readState next => ∀ state, (next state).Quiet
  | .writeState _ next => next.Quiet
termination_by structural action => action

/-- An operation does nothing but quiet actions. -/
def Operation.Quiet : Operation σ → Prop
  | .fixed _ _ run => ∀ args, (run args).Quiet
  | .variadic _ _ run => ∀ args, (run args).Quiet
termination_by structural operation => operation

end

theorem Operation.Quiet.run {operation : Operation σ} (quiet : operation.Quiet)
    (args : List Value) : (operation.run args).Quiet := by
  cases operation with
  | fixed label types run => exact quiet args
  | variadic label type run => exact quiet args

def Overloads.Quiet (overloads : Overloads σ) : Prop :=
  ∀ operation ∈ overloads.operations, operation.Quiet

def Registry.Quiet (registry : Registry σ) : Prop :=
  ∀ overloads ∈ registry.sets, overloads.Quiet

namespace Registry

theorem Quiet.lookup {registry : Registry σ} (quiet : registry.Quiet) {symbol : String}
    {overloads : Overloads σ} (found : registry.lookup symbol = some overloads) :
    overloads.Quiet :=
  quiet overloads (mem_of_lookup found)

/-- Registering quiet operations keeps a registry quiet, so that it is quiet during a whole run. -/
theorem Quiet.register {registry : Registry σ} (quiet : registry.Quiet) (symbol : String)
    {operation : Operation σ} (added : operation.Quiet) :
    (registry.register symbol operation).Quiet :=
  Each.register quiet symbol added

end Registry

/-! ### The semantics -/

/-- A machine without the calls in progress. -/
structure World (σ : Type) where
  registry : Registry σ
  state : σ
  journal : List Event

/-- What a machine holds besides the calls in progress. -/
def Machine.world (machine : Machine σ) : World σ :=
  ⟨machine.registry, machine.state, machine.journal⟩

/-- The machine with those calls in progress. -/
def World.machine (world : World σ) (stack : List Frame) : Machine σ :=
  ⟨world.registry, stack, world.state, world.journal⟩

/-- A computation without calls in progress, which need not have an outcome. -/
abbrev Plain (σ : Type) := ExceptT Fault (StateT (World σ) Option)

namespace Plain

/-- No outcome is said. -/
def undefined : Plain σ α := ExceptT.mk fun _ => none

def record (event : Event) : Plain σ Unit :=
  modify fun world => { world with journal := world.journal ++ [event] }

/-- Carries out what an operation does, if that concerns only the registry and the host. -/
def perform : Action σ → Plain σ Value
  | .done (.ok value) => pure value
  | .done (.error fault) => throw fault
  | .frames _ => undefined
  | .evaluate _ _ => undefined
  | .register symbol operation next => do
    modify fun world => { world with registry := world.registry.register symbol operation }
    let size := match (← get).registry.lookup symbol with
      | some overloads => overloads.operations.length
      | none => 0
    perform (next size)
  | .readState next => do perform (next (← get).state)
  | .writeState state next => do
    modify fun world => { world with state }
    perform next

/-- Calls the first operation of a set that takes the arguments. -/
def call (overloads : Overloads σ) (args : List Value) (position : Option Int) :
    Plain σ Value := do
  record (.call overloads.name args.length overloads.operations.length)
  match overloads.choose? args with
  | some (place, operation) =>
    record (.entered overloads.name place args)
    let value ← perform (operation.run args)
    record (.returned overloads.name place operation.inspect)
    pure value
  | none => throw (.evaluation (.notApplicable overloads.name (args.map Value.kind)) position)

/-- Calls the set of a name, which was known before the arguments were evaluated and can have grown
since. -/
def apply (name : String) (known : Overloads σ) (args : List Value) (position : Option Int) :
    Plain σ Value := do
  call (((← get).registry.lookup name).getD known) args position

/-- The value of a symbol. The reader makes none of no characters, and of one that lies outside of
the source nothing is said. -/
def symbol (span : Span) (source : List Char) : Plain σ Value :=
  if span.length = 0 then throw (.evaluation .zeroLengthSymbol (some span.start))
  else match span.slice source with
    | [] => undefined
    | text =>
      match Atom.ofChars text span.start with
      | .ok value => pure value
      | .error fault => throw fault

mutual

/-- The value of a node. The head of a list is checked before any argument is evaluated. -/
def node (source : List Char) : Node → Plain σ Value
  | .string span => pure (.text (Node.stringText span source))
  | .symbol span => symbol span source
  | .value _ => undefined
  | .list start [] => throw (.evaluation .emptyList start)
  | .list _ (.symbol head :: arguments) => do
    -- The name has to be known before any argument is looked at.
    let name := Node.symbolText head source
    match (← get).registry.lookup name with
    | none => throw (.evaluation (.unknownFunction name) (some head.start))
    | some known =>
      let args ← nodes source arguments
      apply name known args (some head.start)
  | .list start (_ :: _) => throw (.evaluation .headNotSymbol start)
termination_by structural node => node

def nodes (source : List Char) : List Node → Plain σ (List Value)
  | [] => pure []
  | first :: rest => do
    let value ← node source first
    let values ← nodes source rest
    pure (value :: values)
termination_by structural nodes => nodes

end

/-! ### Runs -/

theorem run_bind_ok {plain : Plain σ α} {next : α → Plain σ β} {world between : World σ} {value : α}
    (ran : plain.run world = some (.ok value, between)) :
    (plain >>= next).run world = (next value).run between := by
  change Option.bind (plain.run world) _ = _
  rw [ran]
  rfl

theorem run_bind_error {plain : Plain σ α} {next : α → Plain σ β} {world between : World σ}
    {fault : Fault} (ran : plain.run world = some (.error fault, between)) :
    (plain >>= next).run world = some (.error fault, between) := by
  change Option.bind (plain.run world) _ = _
  rw [ran]
  rfl

/-- A computation ends where it has an outcome. -/
def runs (σ : Type) : Runs (Plain σ) (World σ) where
  Ends plain world outcome world' := plain.run world = some (outcome, world')
  ends_pure _ _ := rfl
  ends_throw _ _ := rfl
  ends_bind ran ended := (run_bind_ok ran).trans ended
  ends_bind_error ran := run_bind_error ran

end Plain

end HostLisp
