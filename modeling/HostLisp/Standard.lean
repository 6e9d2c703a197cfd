import HostLisp.Registry
import HostLisp.Value.Equality

/-!
# Standard operations

Addition of numbers and joining of texts, comparison, equality and logic.
-/

namespace HostLisp.Standard

variable {σ : Type}

def numbers (args : List Value) : List Int := args.filterMap Value.wholeNumber?

def texts (args : List Value) : List String := args.filterMap Value.text?

def truths (args : List Value) : List Bool :=
  args.filterMap fun
    | .bool b => some b
    | _ => none

def addNumbers (args : List Value) : Value := .int ((numbers args).foldl (· + ·) 0)

def addTexts (args : List Value) : Value := .text (String.join (texts args))

def compare (relation : Int → Int → Bool) (args : List Value) : Value :=
  match numbers args with
  | [a, b] => .bool (relation a b)
  | _ => .bool false

def isSame (args : List Value) : Bool :=
  match args with
  | [a, b] => Value.sameValue a b
  | _ => false

/-- An operation whose result is a function of its arguments, with a type for each. -/
def fixed (label : String) (types : List TypeName) (f : List Value → Value) : Operation σ :=
  .fixed (some label) types fun args => .give (f args)

/-- An operation whose result is a function of its arguments, any number of one type. -/
def variadic (label : String) (type : TypeName) (f : List Value → Value) : Operation σ :=
  .variadic (some label) (some type) fun args => .give (f args)

def operations : List (String × Operation σ) := [
  ("add", variadic "add_ints" .int addNumbers),
  ("add", variadic "add_strings" .text addTexts),
  ("lt", fixed "lt" [.int, .int] (compare (· < ·))),
  ("lte", fixed "lte" [.int, .int] (compare (· ≤ ·))),
  ("gt", fixed "gt" [.int, .int] (compare (· > ·))),
  ("gte", fixed "gte" [.int, .int] (compare (· ≥ ·))),
  ("eq", fixed "eq" [.any, .any] fun args => .bool (isSame args)),
  ("ne", fixed "ne" [.any, .any] fun args => .bool (!isSame args)),
  ("and", variadic "all_true" .bool fun args => .bool ((truths args).all id)),
  ("or", variadic "any_true" .bool fun args => .bool ((truths args).any id)),
  ("xor", fixed "xor" [.bool, .bool] fun args => .bool ((truths args).foldl xor false)),
  ("not", fixed "negate" [.bool] fun args => .bool (!(truths args).all id))]

end HostLisp.Standard
