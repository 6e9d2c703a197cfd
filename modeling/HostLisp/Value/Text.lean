import HostLisp.Fault
import HostLisp.Number.Shortest
import HostLisp.Text.Quoted

/-!
# Texts of values

Three texts of a value: how it shows itself inside another (`inspect`), how it names itself when a
text is asked of it (`display`), and how source text writes it (`print`). Each fails only on a whole
number with too many digits.
-/

namespace HostLisp

def writeInt (n : Int) : Except Fault String :=
  if Number.exceedsDigitLimit n then .error .tooManyDigitsToWrite else .ok (Number.decimalText n)

namespace Value

mutual

/-- The text of a value that shows its structure: texts in quotes, containers in brackets. -/
def inspect : Value → Except Fault String
  | .null => .ok "None"
  | .bool b => .ok (if b then "True" else "False")
  | .int n | .taggedInt _ n => writeInt n
  | .text s | .taggedText _ s => .ok (Text.quoted s)
  | .float x => .ok x.render
  | .list items => do
    let shown ← inspectItems items
    let inner := ", ".intercalate shown
    .ok ("[" ++ inner ++ "]")
  | .tuple items => do
    let shown ← inspectItems items
    let inner := ", ".intercalate shown
    .ok (if shown.length = 1 then "(" ++ inner ++ ",)" else "(" ++ inner ++ ")")
  | .dict entries => do
    let shown ← inspectEntries entries
    let inner := ", ".intercalate shown
    .ok ("\x7b" ++ inner ++ "\x7d")
  | .object o => .ok o.inspect
termination_by structural value => value

def inspectItems : List Value → Except Fault (List String)
  | [] => .ok []
  | item :: rest => do
    let shown ← inspect item
    let more ← inspectItems rest
    .ok (shown :: more)
termination_by structural items => items

def inspectEntries : List (Value × Value) → Except Fault (List String)
  | [] => .ok []
  | (key, value) :: rest => do
    let shownKey ← inspect key
    let shownValue ← inspect value
    let more ← inspectEntries rest
    .ok ((shownKey ++ ": " ++ shownValue) :: more)
termination_by structural entries => entries

end

/-- The text that a value gives when a text is asked of it: texts are themselves, and objects
name themselves. -/
def display : Value → Except Fault String
  | .text s | .taggedText _ s => .ok s
  | .object o => .ok o.display
  | value => inspect value

/-- A text as a string literal of the source: backslashes and double quotes are escaped. -/
def printText (s : String) : String :=
  let escaped := s.toList.flatMap fun c => if c = '\\' || c = '"' then ['\\', c] else [c]
  String.ofList ('"' :: escaped ++ ['"'])

/-- The text of a value in a source. What a source cannot write shows its structure. -/
def print : Value → Except Fault String
  | .null => .ok "null"
  | .bool b => .ok (if b then "true" else "false")
  | .int n | .taggedInt _ n => writeInt n
  | .text s | .taggedText _ s => .ok (printText s)
  | value => inspect value

end Value

end HostLisp
