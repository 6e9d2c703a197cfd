import HostLisp.Value.Equality
import HostLisp.Value.Text

/-!
# Documents

What a value becomes when it is written out: objects are their texts, every sequence is a list, and
keys are texts, so that entries whose keys have the same text become one.
-/

namespace HostLisp

/-- A value without host objects, whose mappings have texts as keys. -/
inductive Document
  | null
  | bool (b : Bool)
  | int (n : Int)
  | text (s : String)
  | float (x : Number.Binary64)
  | taggedInt (subtype : String) (n : Int)
  | taggedText (subtype : String) (s : String)
  | sequence (items : List Document)
  | mapping (entries : List (String × Document))
  deriving Inhabited

namespace Document

/-- The entries with one more: an old entry of the same key keeps its place and takes the new
document. -/
def insertEntry (key : String) (item : Document) :
    List (String × Document) → List (String × Document)
  | [] => [(key, item)]
  | (key', item') :: rest =>
    if key' = key then (key, item) :: rest else (key', item') :: insertEntry key item rest

def ofEntries (entries : List (String × Document)) : Document :=
  .mapping (entries.foldl (fun known entry => insertEntry entry.1 entry.2 known) [])

mutual

def ofValue : Value → Except Fault Document
  | .null => .ok .null
  | .bool b => .ok (.bool b)
  | .int n => .ok (.int n)
  | .text s => .ok (.text s)
  | .float x => .ok (.float x)
  | .taggedInt subtype n => .ok (.taggedInt subtype n)
  | .taggedText subtype s => .ok (.taggedText subtype s)
  | .list items | .tuple items => do
    let documents ← ofItems items
    .ok (.sequence documents)
  | .dict entries => do
    let pairs ← ofPairs entries
    .ok (ofEntries pairs)
  | .object o => .ok (.text o.display)
termination_by structural value => value

def ofItems : List Value → Except Fault (List Document)
  | [] => .ok []
  | item :: rest => do
    let document ← ofValue item
    let documents ← ofItems rest
    .ok (document :: documents)
termination_by structural items => items

def ofPairs : List (Value × Value) → Except Fault (List (String × Document))
  | [] => .ok []
  | (key, value) :: rest => do
    let shown ← key.display
    let document ← ofValue value
    let documents ← ofPairs rest
    .ok ((shown, document) :: documents)
termination_by structural entries => entries

end

end Document

end HostLisp
