import HostLisp.Operation
import HostLisp.Text.Quoted

/-!
# Registry

The operations of an environment, in sets of one symbol. Registration only ever adds: a symbol keeps
its place and an operation its place within its set.
-/

namespace HostLisp

/-- The operations of one symbol in the order of their registration. -/
structure Overloads (σ : Type) where
  name : String
  operations : List (Operation σ)

namespace Overloads

variable {σ : Type}

/-- The text of a set: its symbol and its size. -/
def inspect (overloads : Overloads σ) : String :=
  let name := Text.quoted overloads.name
  let size := overloads.operations.length
  s!"<OverloadSet name={name} operations={size}>"

/-- The operation that is called for arguments, and its place: the first that takes them. -/
def choose? (overloads : Overloads σ) (args : List Value) : Option (Nat × Operation σ) :=
  let fits (operation : Operation σ) := operation.admits args.length && operation.accepts args
  (overloads.operations.zipIdx.find? (fits ·.1)).map fun (operation, place) => (place, operation)

end Overloads

/-- The sets of an environment in the order in which their symbols were first registered. -/
structure Registry (σ : Type) where
  sets : List (Overloads σ)

namespace Registry

variable {σ : Type}

def empty : Registry σ := ⟨[]⟩

def lookup (registry : Registry σ) (symbol : String) : Option (Overloads σ) :=
  registry.sets.find? (·.name = symbol)

/-- The sets with an operation added to the one of its symbol, or to a new one at the end. -/
def insert (symbol : String) (operation : Operation σ) :
    List (Overloads σ) → List (Overloads σ)
  | [] => [⟨symbol, [operation]⟩]
  | overloads :: rest =>
    if overloads.name = symbol then ⟨symbol, overloads.operations ++ [operation]⟩ :: rest
    else overloads :: insert symbol operation rest

def register (registry : Registry σ) (symbol : String) (operation : Operation σ) : Registry σ :=
  ⟨insert symbol operation registry.sets⟩

/-- The registry with several more operations. -/
def registerAll (registry : Registry σ) (operations : List (String × Operation σ)) : Registry σ :=
  operations.foldl (fun known (symbol, operation) => known.register symbol operation) registry

/-- The symbols in the order of their first registration. -/
def symbols (registry : Registry σ) : List String := registry.sets.map Overloads.name

def contains (registry : Registry σ) (symbol : String) : Bool := registry.symbols.contains symbol

def size (registry : Registry σ) : Nat := registry.sets.length

/-- The text of a registry: its symbols. -/
def inspect (registry : Registry σ) : String :=
  let shown := ", ".intercalate registry.symbols
  s!"<Registry symbols=[{shown}]>"

end Registry

end HostLisp
