import HostLisp.Number.Binary64

/-!
# Values

What evaluation works on: the scalars that source text can write, the containers that host
operations can hand in, and objects of the host, which are opaque.
-/

namespace HostLisp

/-- A class of host objects. -/
structure ObjectClass where
  name : String
  /-- The names of the classes above this one. -/
  ancestors : List String
  deriving DecidableEq, Repr

/-- An object of the host, told from others of its class by its name, with the texts that it gives
of itself: how it shows itself inside another value, and how it names itself. -/
structure HostObject where
  cls : ObjectClass
  name : String
  inspect : String
  display : String
  deriving DecidableEq, Repr

/-- A value. Whole numbers and texts may belong to a subtype that the host names. -/
inductive Value
  | null
  | bool (b : Bool)
  | int (n : Int)
  | text (s : String)
  | float (x : Number.Binary64)
  | taggedInt (subtype : String) (n : Int)
  | taggedText (subtype : String) (s : String)
  | list (items : List Value)
  | tuple (items : List Value)
  /-- Entries in order, no two keys the same. -/
  | dict (entries : List (Value × Value))
  | object (o : HostObject)
  deriving Inhabited

/-- The classes of values that failed calls report. -/
inductive Kind
  | integer
  | boolean
  | null
  | string
  | object
  deriving DecidableEq, Repr

def Kind.name : Kind → String
  | .integer => "int"
  | .boolean => "bool"
  | .null => "null"
  | .string => "string"
  | .object => "object"

/-- The kind of a value: a boolean is not an integer, and what is no scalar is an object. -/
def Value.kind : Value → Kind
  | .null => .null
  | .bool _ => .boolean
  | .int _ | .taggedInt _ _ => .integer
  | .text _ | .taggedText _ _ => .string
  | _ => .object

end HostLisp
