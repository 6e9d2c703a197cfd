/-!
# Reserved names

Names between double underscores that have a meaning of their own to the classes of hosts. A class
holds some of them besides its members, and some mean the same under every class, whatever a member
of that name is.
-/

namespace HostLisp.Reserved

/-- What the class above all others holds, in order. -/
def heldByRoot : List String := [
  "__new__", "__repr__", "__hash__", "__str__", "__getattribute__", "__setattr__", "__delattr__",
  "__lt__", "__le__", "__eq__", "__ne__", "__gt__", "__ge__", "__init__", "__reduce_ex__",
  "__reduce__", "__getstate__", "__subclasshook__", "__init_subclass__", "__format__",
  "__sizeof__", "__dir__", "__class__", "__doc__"]

/-- The names that say something about a class itself and never name a member. -/
def aboutClasses : List String := [
  "__name__", "__qualname__", "__bases__", "__base__", "__mro__", "__basicsize__",
  "__itemsize__", "__flags__", "__dictoffset__", "__weakrefoffset__", "__text_signature__",
  "__dict__", "__class__"]

/-- The names that a class does not inherit from the classes above it. -/
def notInherited : List String := ["__abstractmethods__", "__annotations__"]

/-- The names under which a class gives what it holds as it is, without turning a static method or
a method of the class into what it wraps. -/
def givenAsHeld : List String := ["__module__", "__abstractmethods__"]

/-- The name of what is told of each class made below its own. -/
def heir : String := "__init_subclass__"

/-- The name of what makes an object when its class is called. -/
def maker : String := "__new__"

/-- The name of what prepares an object when it has been made. -/
def initialiser : String := "__init__"

/-- The name of what answers when an object is asked for a name. -/
def answerer : String := "__getattribute__"

end HostLisp.Reserved
