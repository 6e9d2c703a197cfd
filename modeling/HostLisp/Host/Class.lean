import HostLisp.Operation
import HostLisp.Text.Quoted
import HostLisp.Value.Equality

/-!
# Classes of hosts

A host is an object of a class with base classes. Its members that carry a declaration become
operations; members without one, and members of other kinds, hide declared ones of the same name
further up.
-/

namespace HostLisp

/-- How a member is called: the types of its arguments, and the symbol if it is not made from the
member's name. A variadic member takes any number of arguments of at most one type. -/
structure Declaration where
  types : List TypeName
  variadic : Bool
  symbol : Option String
  deriving DecidableEq, Repr

/-- Something of a host that can be called, with the label shown for it. A variadic one is handed
its arguments as one list. -/
structure Callable (σ : Type) where
  label : Option String
  variadic : Bool
  run : List Value → Action σ

namespace Callable

variable {σ : Type}

def notIterable (type : String) : Fault := .typeError s!"'{type}' object is not iterable"

def notCallable (type : String) : Fault := .typeError s!"'{type}' object is not callable"

/-- A callable was handed another number of arguments than the one list that it takes. -/
def wrongCount (label : Option String) (given : Nat) : Fault :=
  let label := label.getD "fn"
  let wanted := "takes 1 positional argument but"
  .typeError s!"{label}() {wanted} {given} were given"

/-- What a callable does when it is handed one list of arguments. -/
def runList (callable : Callable σ) (args : List Value) : Action σ :=
  if callable.variadic then callable.run args else callable.run [.list args]

/-- What a callable does when it is handed arguments one by one. -/
def runEach (callable : Callable σ) (args : List Value) : Action σ :=
  if !callable.variadic then callable.run args
  else match args with
    | [arg] =>
      match arg.items? with
      | some items => callable.run items
      | none => .raise (notIterable (TypeName.nameOf arg))
    | _ => .raise (wrongCount callable.label args.length)

def ofValue (value : Value) : Callable σ :=
  ⟨none, false, fun _ => .raise (notCallable (TypeName.nameOf value))⟩

end Callable

/-- What a callable member is held in, which decides what it is handed besides its arguments. What
wraps a function can carry a declaration of its own. -/
inductive MethodForm
  /-- Held as it is: a function, which is handed the object, or any other callable. -/
  | plain
  /-- Wrapped so that it is handed nothing. -/
  | static (outer : Option Declaration)
  /-- Wrapped so that it is handed the class. -/
  | ofClass (outer : Option Declaration)
  deriving DecidableEq, Repr

/-- What a class holds under a name. -/
inductive Attribute (σ : Type)
  | method (form : MethodForm) (callable : Callable σ) (declaration : Option Declaration)
  /-- Computed anew each time, and never called. -/
  | property (callable : Callable σ)
  /-- A plain value, which cannot be called. An object can carry a declaration all the same. -/
  | value (held : Value) (declaration : Option Declaration)
  /-- Not a member, but held by the class all the same. -/
  | reserved

namespace Attribute

variable {σ : Type}

def typeName : Attribute σ → String
  | .method .plain _ _ => "function"
  | .method (.static _) _ _ => "staticmethod"
  | .method (.ofClass _) _ _ => "classmethod"
  | .property _ => "property"
  | .value held _ => TypeName.nameOf held
  | .reserved => TypeName.any.name

/-- The declaration that is carried by what a class gives for an attribute: by the attribute as it is
held, or else by the function in it. -/
def declaration? (asHeld : Bool) : Attribute σ → Option Declaration
  | .method (.static outer) _ declaration | .method (.ofClass outer) _ declaration =>
    if asHeld then outer else declaration
  | .method .plain _ declaration | .value _ declaration => declaration
  | _ => none

/-- What an object gives for an attribute of its class, if that is a method or a plain value. -/
def callable? : Attribute σ → Option (Callable σ)
  | .method _ callable _ => some callable
  | .value held _ => some (.ofValue held)
  | _ => none

/-- What calling an attribute of a class does. -/
def call? (held : Attribute σ) (args : List Value) : Option (Action σ) :=
  match held with
  | .method _ callable _ => some (callable.runEach args)
  | .reserved => none
  | _ => some (.raise (Callable.notCallable held.typeName))

/-- What calling an attribute of an object of the class does: a property is computed first. -/
def callOnObject? (held : Attribute σ) (args : List Value) : Option (Action σ) :=
  match held with
  | .property callable => some ((callable.runEach []).andThen fun value =>
    .raise (Callable.notCallable (TypeName.nameOf value)))
  | _ => held.call? args

end Attribute

/-- A member as a class writes it. -/
inductive Member (σ : Type)
  | method (name : String) (form : MethodForm) (callable : Callable σ)
    (declaration : Option Declaration)
  | property (name : String) (callable : Callable σ) (declaration : Option Declaration)
  | value (name : String) (held : Value) (declaration : Option Declaration)
  /-- What is held under an earlier name, under one more. -/
  | alias (name earlier : String)

/-- A class as it is given to what makes classes: its name, its base classes, which are written
before it, and its members in order. -/
structure ClassText (σ : Type) where
  name : String
  bases : List String
  members : List (Member σ)

/-- A class as a statement in a module writes it, which puts the names of the module and of the class
in front of the members. -/
def ClassText.ofStatement {σ : Type} (moduleName name : String) (bases : List String)
    (members : List (Member σ)) : ClassText σ where
  name := name
  bases := bases
  members := .value "__module__" (.text moduleName) none ::
    .value "__qualname__" (.text name) none :: members

/-- How the objects of a class are laid out. -/
structure Layout where
  /-- Objects can hold attributes of their own. -/
  holdsOwn : Bool
  /-- Objects can be referred to weakly. -/
  holdsWeak : Bool
  /-- The class, itself or one above it, that last added slots. -/
  slotted : Nat
  deriving DecidableEq, Repr

/-- The layout of the class above all others. -/
def Layout.bare : Layout := ⟨false, false, 0⟩

/-- A class: what it holds under each name in order of first mention, and the classes in which a
name is looked up, itself first. -/
structure HostClass (σ : Type) where
  id : Nat
  name : String
  attributes : List (String × Attribute σ)
  order : List Nat
  layout : Layout

/-- Why a host cannot be made. -/
inductive ClassFault
  | tooManyElementTypes
  | duplicateBase (name : String)
  | noConsistentOrder (names : List String)
  /-- The name of a class holds the character zero. -/
  | zeroInName
  /-- Two base classes add slots apart from each other. -/
  | layoutConflict
  /-- Under the name for the slots of a class there is no sequence. -/
  | slotsNotIterable (type : String)
  | slotNotText (type : String)
  | slotNotIdentifier
  /-- The room that a slot is to make is there already. -/
  | ownRoomThere
  | weakRoomThere
  /-- A slot has the name of a member. -/
  | slotHidden (name : String)
  /-- Under the name for the full name of a class there is no text. -/
  | fullNameNotText (type : String)
  /-- Under the name for the cell of a class there is a member. -/
  | notCell (type : String)
  /-- The initialiser gives a value that is not null. -/
  | initialiserGives (type : String)
  /-- The object has no room for attributes of its own. -/
  | noRoom (type : String)
  /-- Raised while the object is made. -/
  | raised (fault : Fault)
  deriving DecidableEq, Repr

namespace ClassFault

/-- The bytes that a message about the order of classes is kept to. -/
def orderMessageLimit : Nat := 999

/-- The start of a text that has at most so many bytes, if it does not end inside a character. -/
def firstBytes (limit : Nat) (text : String) : Option String :=
  String.fromUTF8? (text.toUTF8.extract 0 limit)

/-- A class fault as a fault. There is none where a long message is cut inside a character. -/
def fault? : ClassFault → Option Fault
  | .tooManyElementTypes =>
    some (.typeError "A variadic api_method takes at most one argument type")
  | .duplicateBase name => some (.typeError s!"duplicate base class {name}")
  | .noConsistentOrder names =>
    let shown := ", ".intercalate names
    (firstBytes orderMessageLimit
      s!"Cannot create a consistent method resolution\norder (MRO) for bases {shown}").map
      .typeError
  | .zeroInName => some (.valueError "type name must not contain null characters")
  | .layoutConflict => some (.typeError "multiple bases have instance lay-out conflict")
  | .slotsNotIterable type => some (Callable.notIterable type)
  | .slotNotText type => some (.typeError s!"__slots__ items must be strings, not '{type}'")
  | .slotNotIdentifier => some (.typeError "__slots__ must be identifiers")
  | .ownRoomThere => some (.typeError "__dict__ slot disallowed: we already got one")
  | .weakRoomThere =>
    let advice := "either we already got one, or __itemsize__ != 0"
    some (.typeError s!"__weakref__ slot disallowed: {advice}")
  | .slotHidden name =>
    let name := Text.quoted name
    some (.valueError s!"{name} in __slots__ conflicts with class variable")
  | .fullNameNotText type => some (.typeError s!"type __qualname__ must be a str, not {type}")
  | .notCell type =>
    some (.typeError s!"__classcell__ must be a nonlocal cell, not <class '{type}'>")
  | .initialiserGives type => some (.typeError s!"__init__() should return None, not '{type}'")
  | .noRoom type =>
    some (.host "AttributeError" s!"'{type}' object has no attribute '__dict__'")
  | .raised fault => some fault

/-- The text of a class fault, where it has one and it can be told. -/
def message (fault : ClassFault) : Option String := fault.fault?.bind (·.message.toOption)

def className (fault : ClassFault) : String :=
  (fault.fault?.map Fault.className).getD undecodableClassName

end ClassFault

/-- A declaration is refused if it is variadic and names more than one type. -/
def Declaration.check (declaration : Declaration) : Except ClassFault Unit :=
  if declaration.variadic && 1 < declaration.types.length then .error .tooManyElementTypes
  else .ok ()

end HostLisp
