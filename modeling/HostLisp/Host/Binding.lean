import HostLisp.Environment
import HostLisp.Host.Making

/-!
# Binding a host

The operations of a host. There is one for each name for which the class of the host gives something
that carries a declaration; base classes come first, and within a class the order of first mention.
The host is then asked for each of these names in turn, and what it gives is what its operation does.
-/

namespace HostLisp

/-- A host: the classes whose names are looked at, its own first, and what comes of asking its class
and itself for a name. -/
structure Host (σ : Type) where
  ancestry : List (HostClass σ)
  /-- The declaration carried by what the class of the host gives for a name, if there is one. -/
  declares : String → Option Declaration
  /-- What the host does when it is asked for a name. -/
  answer : String → Action σ
  /-- What the host gives for a name, after the value that its answer came to. -/
  given : String → Value → Callable σ

namespace Host

variable {σ : Type}

/-- All names in the classes of the host, base classes first. -/
def names (host : Host σ) : List String :=
  (host.ancestry.reverse.flatMap (·.attributes.map Prod.fst)).eraseDups

/-- The names under which the host has an operation. -/
def bound (host : Host σ) : List String := host.names.filter (host.declares · |>.isSome)

/-- The symbol made from a name: without leading underscores, the others turned into dashes. -/
def symbolOf (name : String) : String :=
  String.ofList ((name.toList.dropWhile (· = '_')).map fun c => if c = '_' then '-' else c)

def symbolFor (declaration : Declaration) (name : String) : String :=
  match declaration.symbol with
  | none | some "" => symbolOf name
  | some symbol => symbol

def operationOf (declaration : Declaration) (callable : Callable σ) : Operation σ :=
  if declaration.variadic then
    .variadic callable.label declaration.types.head? callable.runList
  else .fixed callable.label declaration.types callable.runEach

/-- The operation that is bound under a name, after the value that the host answered with. -/
def operation? (host : Host σ) (name : String) (answered : Value) :
    Option (String × Operation σ) :=
  (host.declares name).map fun declaration =>
    (symbolFor declaration name, operationOf declaration (host.given name answered))

/-- The operations under names, of which the host is asked for one after another. -/
def collect (host : Host σ) : List String → Eval σ (List (String × Operation σ))
  | [] => pure []
  | name :: rest => do
    let answered ← Eval.perform Eval.source (host.answer name)
    let operations ← host.collect rest
    pure ((host.operation? name answered).toList ++ operations)

/-- The operations of the host. There are none if it refuses one of its names. -/
def operations (host : Host σ) : Eval σ (List (String × Operation σ)) := host.collect host.bound

/-- Registers the operations of the host, and gives their symbols. -/
def bind (host : Host σ) : Eval σ (List String) := do
  let operations ← host.operations
  modify (·.registerAll operations)
  pure (operations.map Prod.fst)

end Host

namespace HostClass

variable {σ : Type}

/-- The classes in which a class with these above it, itself first, looks for a name that it is asked
for. -/
def scope (ancestry : List (HostClass σ)) (name : String) : List (HostClass σ) :=
  if Reserved.aboutClasses.contains name then []
  else if Reserved.notInherited.contains name then ancestry.take 1
  else ancestry

/-- The declaration carried by what a class gives for a name. -/
def declares? (ancestry : List (HostClass σ)) (name : String) : Option Declaration :=
  (lookup? (scope ancestry name) name).bind (·.declaration? (Reserved.givenAsHeld.contains name))

/-- What answers in the place of an object of a class when it is asked for a name. -/
def answerer? (ancestry : List (HostClass σ)) (name : String) : Option (Action σ) :=
  (lookup? ancestry Reserved.answerer).bind (·.callOnObject? [.text name])

/-- What an object gives under a name: what it holds itself, the latest under that name, or else what
is held by its class. -/
def given (ancestry : List (HostClass σ)) (own : List (String × Callable σ)) (name : String) :
    Callable σ :=
  let ofClass := (lookup? ancestry name).bind Attribute.callable?
  (own.reverse.lookup name).getD (ofClass.getD (.ofValue .null))

end HostClass

/-- A host as an object of a class, with callables that it holds itself. -/
def Host.ofClasses {σ : Type} (ancestry : List (HostClass σ)) (own : List (String × Callable σ)) :
    Host σ where
  ancestry := ancestry
  declares := HostClass.declares? ancestry
  answer name := (HostClass.answerer? ancestry name).getD (.give .null)
  given name answered :=
    -- A host that answers for itself is not looked into, whatever it holds.
    if (HostClass.answerer? ancestry name).isSome then .ofValue answered
    else HostClass.given ancestry own name

/-! ### Hosts from texts -/

/-- A host as it is written: classes, of which the last is its own, and callables that the object
itself holds. -/
structure HostText (σ : Type) where
  classes : List (ClassText σ)
  own : List (String × Callable σ)

/-- The making of a host, which can carry out actions: what is called while a class or an object is
made is carried out then. -/
abbrev Making (σ : Type) := ExceptT ClassFault (StateM (Machine σ))

namespace Making

variable {σ : Type}

def doing (action : Action σ) : Making σ Value :=
  ExceptT.adapt .raised (Eval.perform Eval.source action)

/-- Makes one class more, of which those above it are told. -/
def addClass (classes : List (HostClass σ)) (text : ClassText σ) :
    Making σ (List (HostClass σ)) := do
  let made ← ofExcept (HostClass.ofText classes text)
  -- The class itself is not told, even if it says what its heirs tell.
  let above := HostClass.ancestry classes made.order.tail
  if let some told := (HostClass.lookup? above Reserved.heir).bind (·.call? []) then
    let _ ← doing told
  pure (classes ++ [made])

/-- Prepares an object. An initialiser has to give null. -/
def initialise (ancestry : List (HostClass σ)) : Making σ Unit := do
  if let some preparing :=
      (HostClass.lookup? ancestry Reserved.initialiser).bind (·.callOnObject? []) then
    match ← doing preparing with
    | .null => pure ()
    | value => throw (.initialiserGives (TypeName.nameOf value))

/-- The object that calling a class gives, with callables that it holds itself. What a maker gives
takes the place of the object and is none of the class. -/
def object (ancestry : List (HostClass σ)) (own : List (String × Callable σ)) :
    Making σ (Host σ) := do
  match (HostClass.lookup? ancestry Reserved.maker).bind (·.call? []) with
  | some making => do
    let _ ← doing making
    pure (.ofClasses [] own)
  | none => do
    initialise ancestry
    match ancestry.head? with
    | some c => if !c.layout.holdsOwn && !own.isEmpty then throw (.noRoom c.name)
    | none => pure ()
    pure (.ofClasses ancestry own)

end Making

/-- The host that a text describes. -/
def Host.ofText {σ : Type} (text : HostText σ) : Making σ (Host σ) := do
  let classes ← text.classes.foldlM Making.addClass [.root]
  let order := (classes.getLast?.map HostClass.order).getD []
  Making.object (HostClass.ancestry classes order) text.own

end HostLisp
