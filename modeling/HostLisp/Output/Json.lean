import HostLisp.Output.Document

/-!
# Documents as JSON

One line, or one member to a line with two spaces for each level. Only what JSON demands is escaped.
-/

namespace HostLisp.Json

open Number (Binary64)

def escapeChar (c : Char) : List Char :=
  if c = '"' then ['\\', '"']
  else if c = '\\' then ['\\', '\\']
  else if c = '\n' then ['\\', 'n']
  else if c = '\r' then ['\\', 'r']
  else if c = '\t' then ['\\', 't']
  else if c = '\x08' then ['\\', 'b']
  else if c = '\x0c' then ['\\', 'f']
  else if c < ' ' then '\\' :: 'u' :: Text.hexDigits 'a' 4 c.toNat
  else [c]

def quote (s : String) : List Char := '"' :: s.toList.flatMap escapeChar ++ ['"']

/-- A number as JSON writes it; the three that JSON lacks have names. -/
def number (x : Binary64) : List Char :=
  match x with
  | .finite _ _ => x.render.toList
  | .infinite negative => if negative then "-Infinity".toList else "Infinity".toList
  | .nan => "NaN".toList

/-- How members are laid out. -/
inductive Layout
  | compact
  | indented
  deriving DecidableEq, Repr

/-- What stands before a member at a depth, or before the closing bracket of that depth. -/
def Layout.newline : Layout → (depth : Nat) → List Char
  | .compact, _ => []
  | .indented, depth => '\n' :: List.replicate (2 * depth) ' '

def Layout.separator : Layout → (depth : Nat) → List Char
  | .compact, _ => [',', ' ']
  | .indented, depth => ',' :: Layout.newline .indented depth

def enclose (layout : Layout) (depth : Nat) (first last : Char) (members : List (List Char)) :
    List Char :=
  match members with
  | [] => [first, last]
  | members =>
    first :: layout.newline (depth + 1) ++ (layout.separator (depth + 1)).intercalate members ++
      layout.newline depth ++ [last]

mutual

def write (layout : Layout) (depth : Nat) : Document → Except Fault (List Char)
  | .null => .ok "null".toList
  | .bool b => .ok (if b then "true".toList else "false".toList)
  | .int n | .taggedInt _ n => (writeInt n).map String.toList
  | .text s | .taggedText _ s => .ok (quote s)
  | .float x => .ok (number x)
  | .sequence items => do
    let members ← writeItems layout (depth + 1) items
    .ok (enclose layout depth '[' ']' members)
  | .mapping entries => do
    let members ← writeEntries layout (depth + 1) entries
    .ok (enclose layout depth '\x7b' '\x7d' members)
termination_by structural document => document

def writeItems (layout : Layout) (depth : Nat) :
    List Document → Except Fault (List (List Char))
  | [] => .ok []
  | item :: rest => do
    let written ← write layout depth item
    let more ← writeItems layout depth rest
    .ok (written :: more)
termination_by structural items => items

def writeEntries (layout : Layout) (depth : Nat) :
    List (String × Document) → Except Fault (List (List Char))
  | [] => .ok []
  | (key, item) :: rest => do
    let written ← write layout depth item
    let more ← writeEntries layout depth rest
    .ok ((quote key ++ ':' :: ' ' :: written) :: more)
termination_by structural entries => entries

end

def render (layout : Layout) (document : Document) : Except Fault String :=
  (write layout 0 document).map String.ofList

end HostLisp.Json
