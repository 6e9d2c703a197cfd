import HostLisp.Value.Basic

/-!
# Type names

The types that operations declare for their arguments, and the values that belong to them.
-/

namespace HostLisp

/-- A declared type. -/
inductive TypeName
  | int
  | bool
  | text
  /-- Every value but null. -/
  | any
  | null
  | list
  | tuple
  | dict
  | float
  /-- A class of host objects, or a subtype of whole numbers or texts. -/
  | named (name : String)
  deriving DecidableEq, Repr

namespace TypeName

/-- The types that need no host. -/
def builtin : List TypeName := [.int, .bool, .text, .any, .null, .list, .tuple, .dict, .float]

def name : TypeName → String
  | .int => "int"
  | .bool => "bool"
  | .text => "str"
  | .any => "object"
  | .null => "NoneType"
  | .list => "list"
  | .tuple => "tuple"
  | .dict => "dict"
  | .float => "float"
  | .named name => name

/-- The type declared by a name; names that are not known here belong to the host. -/
def ofName (name : String) : TypeName :=
  (builtin.find? (·.name = name)).getD (.named name)

/-- Whether a value belongs to a type. Null belongs to no type but its own, a boolean is no
integer, and a float is none either. -/
def holds (type : TypeName) (value : Value) : Bool :=
  match value, type with
  | .null, type => type = .null
  | _, .any => true
  | .bool _, type => type = .bool
  | .int _, type => type = .int
  | .taggedInt subtype _, type => type = .int || type = .named subtype
  | .text _, type => type = .text
  | .taggedText subtype _, type => type = .text || type = .named subtype
  | .float _, type => type = .float
  | .list _, type => type = .list
  | .tuple _, type => type = .tuple
  | .dict _, type => type = .dict
  | .object o, .named name => name = o.cls.name || o.cls.ancestors.contains name
  | .object _, _ => false

def nameOf : Value → String
  | .taggedInt subtype _ | .taggedText subtype _ => subtype
  | .object o => o.cls.name
  | value => ((builtin.find? fun type => type ≠ .any && type.holds value).map name).getD any.name

end TypeName

end HostLisp
