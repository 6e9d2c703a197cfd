import HostLisp.Syntax.Span
import HostLisp.Value.Equality
import HostLisp.Value.Text

/-!
# Nodes

The tree of a source. Nodes refer to the source by offset, so each function that needs their text
takes the source too.
-/

namespace HostLisp

/-- A node of the tree of a source. -/
inductive Node
  | symbol (span : Span)
  /-- A string literal; the span leaves out the quotes. -/
  | string (span : Span)
  /-- A form in parentheses and the offset of the opening one, if it is known. -/
  | list (start : Option Int) (children : List Node)
  /-- A value in the place of a node, which only a tree made by hand has. -/
  | value (value : Value)
  deriving Inhabited

namespace Node

def symbolText (span : Span) (source : List Char) : String :=
  String.ofList (span.slice source)

def stringText (span : Span) (source : List Char) : String :=
  String.ofList (Span.bodyText (span.slice source))

theorem stringText_eq (span : Span) (source : List Char) :
    stringText span source = String.ofList (Span.unescape (span.slice source)) :=
  congrArg String.ofList (Span.bodyText_eq_unescape (span.slice source))

mutual

/-- Whether two nodes are equal: where a list starts does not matter. -/
def equals : Node → Node → Bool
  | .symbol span, .symbol span' => span = span'
  | .string span, .string span' => span = span'
  | .list _ children, .list _ children' => equalChildren children children'
  | .value v, .value w => v.equals w
  | _, _ => false
termination_by structural node => node

def equalChildren : List Node → List Node → Bool
  | [], [] => true
  | node :: rest, node' :: rest' => equals node node' && equalChildren rest rest'
  | _, _ => false
termination_by structural children => children

end

/-- Whether a node equals itself, as all do but a value that does not. -/
def equalsItself : Node → Bool
  | .value v => v.equalsItself
  | _ => true

def inspectSpan (word : String) (span : Span) : String :=
  let start := Number.decimalText span.start
  let length := Number.decimalText span.length
  s!"{word}(start={start}, length={length})"

mutual

def inspect : Node → Except Fault String
  | .symbol span => .ok (inspectSpan "SymbolRef" span)
  | .string span => .ok (inspectSpan "StringRef" span)
  | .list _ children => do
    let shown ← inspectChildren children
    let inner := ", ".intercalate shown
    .ok ("ListNode([" ++ inner ++ "])")
  | .value v => v.inspect
termination_by structural node => node

def inspectChildren : List Node → Except Fault (List String)
  | [] => .ok []
  | node :: rest => do
    let shown ← inspect node
    let more ← inspectChildren rest
    .ok (shown :: more)
termination_by structural children => children

end

mutual

/-- A tree as source text again, with single spaces between the children of a list. -/
def print (source : List Char) : Node → Except Fault String
  | .symbol span => .ok (symbolText span source)
  | .string span => .ok (String.ofList ('"' :: span.slice source ++ ['"']))
  | .list _ children => do
    let shown ← printChildren source children
    let inner := " ".intercalate shown
    .ok ("(" ++ inner ++ ")")
  | .value v => v.inspect
termination_by structural node => node

def printChildren (source : List Char) : List Node → Except Fault (List String)
  | [] => .ok []
  | node :: rest => do
    let shown ← print source node
    let more ← printChildren source rest
    .ok (shown :: more)
termination_by structural children => children

end

end Node

end HostLisp
