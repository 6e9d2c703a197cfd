import HostLisp.Value.Basic

/-!
# Equality of values

Numbers of different types are equal if they have the same value, booleans counting as zero and
one. Containers compare their members. What is not a number equals nothing, itself included.
-/

namespace HostLisp.Value

open Number (Binary64)

/-- The whole number that a boolean or an integer stands for. -/
def wholeNumber? : Value → Option Int
  | .bool b => some (if b then 1 else 0)
  | .int n | .taggedInt _ n => some n
  | _ => none

/-- The characters of a text, of whatever subtype. -/
def text? : Value → Option String
  | .text s | .taggedText _ s => some s
  | _ => none

/-- The members of a value that is a sequence: a text has its characters, a mapping its keys. -/
def items? : Value → Option (List Value)
  | .list items | .tuple items => some items
  | .dict entries => some (entries.map Prod.fst)
  | .text s | .taggedText _ s => some (s.toList.map fun c => .text (String.singleton c))
  | _ => none

/-- Equality of values that hold no others. -/
def scalarEquals (a b : Value) : Bool :=
  match a.wholeNumber?, b.wholeNumber? with
  | some m, some n => m = n
  | some m, none => match b with
    | .float x => x.equalsInt m
    | _ => false
  | none, some n => match a with
    | .float x => x.equalsInt n
    | _ => false
  | none, none => match a.text?, b.text? with
    | some s, some t => s = t
    | some _, none | none, some _ => false
    | none, none => match a, b with
      | .null, .null => true
      | .float x, .float y => x.equals y
      | .object o, .object o' => o = o'
      | _, _ => false

mutual

def equals : Value → Value → Bool
  | .list xs, .list ys => equalItems xs ys
  | .tuple xs, .tuple ys => equalItems xs ys
  | .dict entries, .dict entries' =>
    entries.length = entries'.length && equalEntries entries entries'
  | a, b => scalarEquals a b
termination_by structural a => a

def equalItems : List Value → List Value → Bool
  | [], [] => true
  | x :: xs, y :: ys => equals x y && equalItems xs ys
  | _, _ => false
termination_by structural xs => xs

/-- Whether every entry of the first mapping is one of the second. -/
def equalEntries : List (Value × Value) → List (Value × Value) → Bool
  | [], _ => true
  | (key, value) :: rest, entries =>
    entries.any (fun entry => equals key entry.1 && equals value entry.2) &&
      equalEntries rest entries
termination_by structural entries => entries

end

/-- Whether a value equals itself. A container does: its members are one and the same, and that
counts as equal, whatever they are. -/
def equalsItself : Value → Bool
  | .float x => x.equals x
  | _ => true

/-- Whole numbers of which there is one each: any two that are equal are the same. -/
def isShared (n : Int) : Bool := -5 ≤ n && n ≤ 256

/-- Whether two values that come from different evaluations are one and the same. The constants,
the small whole numbers, the texts of at most one character below U+0100, the empty tuple and the
objects of the host exist once; everything else is made anew each time. -/
def identical : Value → Value → Bool
  | .null, .null => true
  | .bool a, .bool b => a = b
  | .int m, .int n => m = n && isShared m
  | .text s, .text t => s = t && s.length ≤ 1 && s.toList.all (·.toNat < 0x100)
  | .tuple [], .tuple [] => true
  | .object o, .object o' => o = o'
  | _, _ => false

/-- The entries with one more: an old entry of the same key keeps its key and its place and takes
the new value. -/
def insertEntry (key value : Value) : List (Value × Value) → List (Value × Value)
  | [] => [(key, value)]
  | (key', value') :: rest =>
    if equals key' key then (key', value) :: rest
    else (key', value') :: insertEntry key value rest

def ofEntries (entries : List (Value × Value)) : Value :=
  .dict (entries.foldl (fun known entry => insertEntry entry.1 entry.2 known) [])

/-- Equality that tells booleans from numbers, for two values that are not null. -/
def sameValue (a b : Value) : Bool :=
  match a, b with
  | .bool x, .bool y => x = y
  | .bool _, _ | _, .bool _ => false
  | a, b => equals a b

end HostLisp.Value
