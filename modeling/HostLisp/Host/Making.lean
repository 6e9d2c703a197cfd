import HostLisp.Host.Linearisation
import HostLisp.Host.Reserved
import HostLisp.Host.Slots

/-!
# Making classes

A class is made of its text after its base classes: its members come first in what it holds, then
its slots and what every class holds, and the orders of its bases are merged into its own.
-/

namespace HostLisp.HostClass

variable {σ : Type}

/-- The attributes with one more: a name that is there keeps its place. -/
def put (name : String) (held : Attribute σ) :
    List (String × Attribute σ) → List (String × Attribute σ)
  | [] => [(name, held)]
  | (name', held') :: rest =>
    if name' = name then (name, held) :: rest else (name', held') :: put name held rest

def addMember (attributes : List (String × Attribute σ)) :
    Member σ → Except ClassFault (List (String × Attribute σ))
  | .method name form callable declaration => do
    declaration.forM Declaration.check
    .ok (put name (.method form callable declaration) attributes)
  | .property name callable declaration => do
    declaration.forM Declaration.check
    .ok (put name (.property callable) attributes)
  | .value name held declaration => do
    declaration.forM Declaration.check
    .ok (put name (.value held declaration) attributes)
  | .alias name earlier =>
    .ok (match attributes.lookup earlier with
      | some held => put name held attributes
      | none => attributes)

/-- Names with what a class holds under them besides its members. -/
def reserve (names : List String) : List (String × Attribute σ) := names.map (·, .reserved)

/-- The class above all others, which holds no members. -/
def root : HostClass σ := ⟨0, "object", reserve Reserved.heldByRoot, [0], .bare⟩

/-- Members whose names have a meaning to the making of a class have to suit it. -/
def checkNames (name : String) (members : List (String × Attribute σ)) :
    Except ClassFault Unit := do
  if name.toList.contains '\x00' then throw .zeroInName
  match members.lookup "__qualname__" with
  | some (.value held _) =>
    if held.text?.isNone then throw (.fullNameNotText (TypeName.nameOf held))
  | some held => throw (.fullNameNotText held.typeName)
  | none => pure ()
  match members.lookup "__classcell__" with
  | some held => throw (.notCell held.typeName)
  | none => pure ()

/-- The first name that stands twice in a list. -/
def firstRepeated? : List String → Option String
  | [] => none
  | name :: rest => if rest.contains name then some name else firstRepeated? rest

/-- The class of a name, the latest of them. -/
def named? (classes : List (HostClass σ)) (name : String) : Option (HostClass σ) :=
  classes.reverse.find? (·.name = name)

def numbered? (classes : List (HostClass σ)) (id : Nat) : Option (HostClass σ) :=
  classes.find? (·.id = id)

def ancestry (classes : List (HostClass σ)) (order : List Nat) : List (HostClass σ) :=
  order.filterMap (numbered? classes)

/-- What the first of several classes that holds something under a name holds there. -/
def lookup? (classes : List (HostClass σ)) (name : String) : Option (Attribute σ) :=
  classes.findSome? (·.attributes.lookup name)

/-- The classes that a class is made below: those that it names, or else the root. -/
def basesOf (classes : List (HostClass σ)) (text : ClassText σ) : List (HostClass σ) :=
  let named := text.bases.filterMap (named? classes)
  if named.isEmpty then [root] else named

/-- The layout that the objects of a class take from its bases: that with the slots of the others,
if there is one. -/
def sharedLayout (classes : List (HostClass σ)) (shared : Layout) :
    List Layout → Except ClassFault Layout
  | [] => .ok shared
  | layout :: rest =>
    let isBelow (a b : Layout) : Bool :=
      (numbered? classes a.slotted).any (·.order.contains b.slotted)
    if isBelow shared layout then sharedLayout classes shared rest
    else if isBelow layout shared then sharedLayout classes layout rest
    else .error .layoutConflict

/-- What a class holds besides its members and slots: its module, the room that its objects have over
those of its bases, its description, and that its objects are not hashed if it says when they are
equal and not how they are hashed. -/
def added (members slots : List String) (before after : Layout) : List String :=
  let ownRoom := if after.holdsOwn && !before.holdsOwn then [Slots.ownRoom] else []
  let weakRoom := if after.holdsWeak && !before.holdsWeak then [Slots.weakRoom] else []
  let unhashed := if (members ++ slots).contains "__eq__" then ["__hash__"] else []
  ("__module__" :: slots ++ ownRoom ++ weakRoom ++ "__doc__" :: unhashed).eraseDups.filter
    (!members.contains ·)

/-- What a class holds: its members, save those that its making takes, and then the rest. -/
def holding (members : List (String × Attribute σ)) (slots : List String) (before after : Layout) :
    List (String × Attribute σ) :=
  -- What the making takes leaves no entry; a slot takes the place of what a base holds.
  let kept := members.filter fun member => !Slots.taken.contains member.1
  kept ++ reserve (added (kept.map Prod.fst) slots before after)

/-- A class below bases made already, with what it holds: its order ends in the root. -/
def derive (classes : List (HostClass σ)) (name : String) (bases : List (HostClass σ))
    (attributes : List (String × Attribute σ)) (layout : Layout) :
    Except ClassFault (HostClass σ) :=
  let nameOf (id : Nat) : String := ((numbered? classes id).map HostClass.name).getD ""
  match Linearisation.merge (bases.map HostClass.order ++ [bases.map HostClass.id]) with
  | .error stuck => .error (.noConsistentOrder (stuck.map nameOf))
  | .ok order => .ok ⟨classes.length, name, attributes, classes.length :: order, layout⟩

/-- The class that a text describes, after the classes made already, the root first. -/
def ofText (classes : List (HostClass σ)) (text : ClassText σ) :
    Except ClassFault (HostClass σ) := do
  let members ← text.members.foldlM addMember []
  let bases := basesOf classes text
  let layouts := bases.map HostClass.layout
  let shared ← sharedLayout classes (layouts.headD .bare) layouts.tail
  let (slots, extended) ← Slots.ofMembers text.name members shared (layouts.erase shared)
  checkNames text.name members
  match firstRepeated? text.bases with
  | some name => throw (.duplicateBase name)
  | none => pure ()
  -- A class without slots of its own keeps the layout of the base that has them.
  let slotted := if slots.isEmpty then shared.slotted else classes.length
  derive classes text.name bases (holding members slots shared extended)
    { extended with slotted }

end HostLisp.HostClass
