import HostLisp.Output.Document
import HostLisp.Output.Yaml.Fold

/-!
# Documents as YAML

What the assumed serialiser, `safe_dump` of PyYAML 6.0.3, writes of a document when it leaves the
keys of a mapping in their order. Block style with an indentation of two. The items of a
list that is the value of a key stand under the key itself. After a document that is a bare scalar
comes the mark of its end.
-/

namespace HostLisp.Yaml

open Number (Binary64)

/-- A document as YAML sees it: scalars are texts, or words of their own that need no quotes. -/
inductive Node
  | word (chars : List Char)
  | text (chars : List Char)
  | sequence (items : List Node)
  | mapping (entries : List (List Char × Node))
  deriving Inhabited

/-- A number as YAML writes it: an exponent needs a point before it. -/
def number (x : Binary64) : List Char :=
  match x with
  | .finite _ _ =>
    let chars := x.render.toList
    if chars.contains '.' then chars
    else chars.takeWhile (· ≠ 'e') ++ '.' :: '0' :: chars.dropWhile (· ≠ 'e')
  | .infinite negative => if negative then "-.inf".toList else ".inf".toList
  | .nan => ".nan".toList

namespace Node

mutual

/-- The tree of a document. Values of a subtype have none. -/
def ofDocument : Document → Except Fault Node
  | .null => .ok (.word "null".toList)
  | .bool b => .ok (.word (if b then "true".toList else "false".toList))
  | .int n => do
    let digits ← writeInt n
    .ok (.word digits.toList)
  | .text s => .ok (.text s.toList)
  | .float x => .ok (.word (number x))
  | .taggedInt _ n => do
    let shown ← writeInt n
    .error (.unrepresentable shown)
  | .taggedText _ s => .error (.unrepresentable (Text.quoted s))
  | .sequence items => do
    let nodes ← ofItems items
    .ok (.sequence nodes)
  | .mapping entries => do
    let pairs ← ofEntries entries
    .ok (.mapping pairs)
termination_by structural document => document

def ofItems : List Document → Except Fault (List Node)
  | [] => .ok []
  | item :: rest => do
    let node ← ofDocument item
    let nodes ← ofItems rest
    .ok (node :: nodes)
termination_by structural items => items

def ofEntries : List (String × Document) → Except Fault (List (List Char × Node))
  | [] => .ok []
  | (key, item) :: rest => do
    let node ← ofDocument item
    let nodes ← ofEntries rest
    .ok ((key.toList, node) :: nodes)
termination_by structural entries => entries

end

end Node

/-- Blocks of lines one below the other. -/
def stack (indent : Nat) (blocks : List (List Char)) : List Char :=
  (newLine indent).intercalate blocks

mutual

/-- A node after the mark of an item, which stands at an indentation: all on the same line, or
starting there. -/
def afterMark (indent : Nat) : Node → List Char
  | .word chars => ' ' :: chars
  | .text chars => ' ' :: writeText (indent + 2) true (indent + 2) chars
  | .sequence [] => " []".toList
  | .mapping [] => " \x7b\x7d".toList
  | .sequence items => ' ' :: stack (indent + 2) (writeItems (indent + 2) items)
  | .mapping entries => ' ' :: stack (indent + 2) (writeEntries (indent + 2) entries)
termination_by structural node => node

/-- A node after a key and its colon, the key standing at an indentation and the colon before a
column: scalars on the same line, collections below. -/
def afterKey (indent column : Nat) : Node → List Char
  | .word chars => ' ' :: chars
  | .text chars => ' ' :: writeText (indent + 2) true (column + 1) chars
  | .sequence [] => " []".toList
  | .mapping [] => " \x7b\x7d".toList
  -- The items of a list stand no deeper than the key that has them.
  | .sequence items => newLine indent ++ stack indent (writeItems indent items)
  | .mapping entries =>
    newLine (indent + 2) ++ stack (indent + 2) (writeEntries (indent + 2) entries)
termination_by structural node => node

def writeItems (indent : Nat) : List Node → List (List Char)
  | [] => []
  | item :: rest => ('-' :: afterMark indent item) :: writeItems indent rest
termination_by structural items => items

/-- The entries of a mapping. A key that is long, empty or of several lines has a mark of its own,
and so has its value. -/
def writeEntries (indent : Nat) : List (List Char × Node) → List (List Char)
  | [] => []
  | (key, node) :: rest =>
    let entry :=
      if isSimpleKey key then
        let written := writeText (indent + 2) false indent key
        written ++ ':' :: afterKey indent (indent + written.length + 1) node
      else
        '?' :: ' ' :: writeText (indent + 2) true (indent + 2) key ++
          newLine indent ++ ':' :: afterMark indent node
    entry :: writeEntries indent rest
termination_by structural entries => entries

end

def write : Node → List Char
  | .word chars => chars
  | .text chars => writeText 2 true 0 chars
  | .sequence [] => "[]".toList
  | .mapping [] => "\x7b\x7d".toList
  | .sequence items => stack 0 (writeItems 0 items)
  | .mapping entries => stack 0 (writeEntries 0 entries)

def Node.isBare : Node → Bool
  | .word _ => true
  | .text chars => styleOf chars = .plain
  | .sequence _ | .mapping _ => false

def endMarker : List Char := "...\n".toList

/-- A document in a stream: its lines, and after a bare scalar the mark of its end. -/
def stream (node : Node) : List Char :=
  write node ++ '\n' :: (if node.isBare then endMarker else [])

/-- The text that the assumed serialiser gives of a document. -/
def safeDump (document : Document) : Except Fault (List Char) := do
  let node ← Node.ofDocument document
  .ok (stream node)

end HostLisp.Yaml
