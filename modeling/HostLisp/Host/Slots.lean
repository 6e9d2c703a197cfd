import HostLisp.Host.Class

/-!
# Slots

A class can name slots, which its objects have in the place of attributes of their own. Each slot is
held by the class under its name, like a member, and so hides what the classes above hold there.
-/

namespace HostLisp.Slots

variable {σ : Type}

/-- The name of the member that names the slots. -/
def member : String := "__slots__"

/-- The slot that makes room for attributes of an object's own. -/
def ownRoom : String := "__dict__"

/-- The slot that makes room for weak references. -/
def weakRoom : String := "__weakref__"

/-- The names that the making of a class takes from among its members. -/
def taken : List String := ["__qualname__", "__classcell__"]

/-- Whether a name can start with a character. Beyond ASCII all characters are taken for letters. -/
def startsName (c : Char) : Bool := c.isAlpha || c = '_' || 0x80 ≤ c.toNat

def isIdentifier (name : String) : Bool :=
  match name.toList with
  | [] => false
  | first :: rest => startsName first && rest.all fun c => startsName c || c.isDigit

/-- The name under which a class holds a slot: a private one has the name of the class in front. -/
def nameIn (className slot : String) : String :=
  let owner := className.toList.dropWhile (· = '_')
  let isPrivate := "__".toList.isPrefixOf slot.toList && !"__".toList.isSuffixOf slot.toList &&
    !slot.toList.contains '.'
  if isPrivate && !owner.isEmpty then String.ofList ('_' :: owner) ++ slot else slot

/-- The slots that a member names: a text is the name of one. -/
def items (held : Attribute σ) : Except ClassFault (List Value) :=
  match held with
  | .value named _ =>
    match named.text?, named.items? with
    | some name, _ => .ok [.text name]
    | none, some items => .ok items
    | none, none => .error (.slotsNotIterable held.typeName)
  | _ => .error (.slotsNotIterable held.typeName)

/-- The names of slots but the two that make room, and the layout with the room that these make. -/
def visit (layout : Layout) : List Value → Except ClassFault (List String × Layout)
  | [] => .ok ([], layout)
  | item :: rest =>
    match item.text? with
    | none => .error (.slotNotText (TypeName.nameOf item))
    | some name =>
      if !isIdentifier name then .error .slotNotIdentifier
      else if name = ownRoom then
        if layout.holdsOwn then .error .ownRoomThere
        else visit { layout with holdsOwn := true } rest
      else if name = weakRoom then
        if layout.holdsWeak then .error .weakRoomThere
        else visit { layout with holdsWeak := true } rest
      else do
        let (names, layout) ← visit layout rest
        .ok (name :: names, layout)

/-- Names with one more, in the order of their characters. -/
def insert (name : String) : List String → List String
  | [] => [name]
  | first :: rest => if name ≤ first then name :: first :: rest else first :: insert name rest

/-- The slots of a class with a name and members, above which one layout is extended, in the order in
which the class holds them, and the layout with them. Bases with other layouts make room too. -/
def ofMembers (className : String) (members : List (String × Attribute σ)) (layout : Layout)
    (others : List Layout) : Except ClassFault (List String × Layout) :=
  match members.lookup member with
  | none => .ok ([], { layout with holdsOwn := true, holdsWeak := true })
  | some held => do
    let named ← items held
    let (names, extended) ← visit layout named
    let slots := names.map (nameIn className)
    match slots.find? fun slot => (members.lookup slot).isSome && !taken.contains slot with
    | some slot => .error (.slotHidden slot)
    | none => .ok (slots.foldr insert [], { extended with
        holdsOwn := extended.holdsOwn || others.any Layout.holdsOwn
        holdsWeak := extended.holdsWeak || others.any Layout.holdsWeak })

end HostLisp.Slots
