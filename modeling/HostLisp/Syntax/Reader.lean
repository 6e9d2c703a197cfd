import HostLisp.Syntax.Node

/-!
# Reading

One form is read from the front of a source; what follows it is left alone. Reading fails only
where the source ends too early, and then with the offset of its end.
-/

namespace HostLisp

namespace Reader

/-- A place in a source: its offset, and the characters from there on. -/
structure Cursor where
  offset : Nat
  rest : List Char
  deriving DecidableEq, Repr

/-- The characters skipped between the items of a list. A line break is none of them: it belongs to
the form that follows. -/
def isGap (c : Char) : Bool := c = ' ' || c = '\t'

def isSpace (c : Char) : Bool := isGap c || c = '\r' || c = '\n'

/-- The characters that end a symbol. A quote is none of them. -/
def endsSymbol (c : Char) : Bool := isSpace c || c = '(' || c = ')'

namespace Cursor

def start (source : List Char) : Cursor := ⟨0, source⟩

/-- The place after the longest run of characters of a kind. -/
def skip (kind : Char → Bool) (cursor : Cursor) : Cursor :=
  ⟨cursor.offset + (cursor.rest.takeWhile kind).length, cursor.rest.dropWhile kind⟩

end Cursor

/-- The place after the quote that closes a string literal, which no backslash protects. -/
def stringEnd (offset : Nat) : List Char → Except Nat Cursor
  | [] => .error offset
  | ['\\'] => .error (offset + 1)
  | '\\' :: _ :: rest => stringEnd (offset + 2) rest
  | '"' :: rest => .ok ⟨offset + 1, rest⟩
  | _ :: rest => stringEnd (offset + 1) rest

def string (cursor : Cursor) : Except Nat (Node × Cursor) := do
  let next ← stringEnd cursor.offset cursor.rest
  .ok (.string ⟨cursor.offset, next.offset - cursor.offset - 1⟩, next)

/-- Reads a symbol, and the one space that may follow it. -/
def symbol (cursor : Cursor) : Node × Cursor :=
  let after := cursor.skip (!endsSymbol ·)
  let node := .symbol ⟨cursor.offset, after.offset - cursor.offset⟩
  match after.rest with
  | ' ' :: rest => (node, ⟨after.offset + 1, rest⟩)
  | _ => (node, after)

/-- Reads a form, given how the items of a list are read. A closing parenthesis in the place of a
form is a symbol without characters. -/
def formWith (items : Cursor → Except Nat (List Node × Cursor)) (cursor : Cursor) :
    Except Nat (Node × Cursor) :=
  let first := cursor.skip isSpace
  match first.rest with
  | [] => .error first.offset
  | '"' :: rest => string ⟨first.offset + 1, rest⟩
  | '(' :: rest => do
    let (children, next) ← items ⟨first.offset + 1, rest⟩
    .ok (.list (some first.offset) children, next)
  | _ => .ok (symbol first)

/-- Reads the items of a list and its closing parenthesis. The first argument bounds the number of
steps; one more than the characters that are left is always enough. -/
def items : (bound : Nat) → Cursor → Except Nat (List Node × Cursor)
  | 0, cursor => .error cursor.offset
  | bound + 1, cursor =>
    let first := cursor.skip isGap
    match first.rest with
    | [] => .error first.offset
    | ')' :: rest => .ok ([], ⟨first.offset + 1, rest⟩)
    | _ => do
      let (node, next) ← formWith (items bound) first
      let (nodes, last) ← items bound next
      .ok (node :: nodes, last)

def form (cursor : Cursor) : Except Nat (Node × Cursor) :=
  formWith (items (cursor.rest.length + 1)) cursor

end Reader

/-- Reads the first form of a source: the tree and the offset after it, or the offset at which the
source ended too early. -/
def read (source : List Char) : Except Nat (Node × Nat) := do
  let (node, next) ← Reader.form (.start source)
  .ok (node, next.offset)

def parse (source : List Char) : Except Fault Node :=
  match read source with
  | .ok (node, _) => .ok node
  | .error offset => .error (.inputEnded offset)

end HostLisp
