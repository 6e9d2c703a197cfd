import HostLisp.Output.Yaml.Plain

/-!
# Styles of scalars

How the assumed serialiser marks a text: without quotes if it is then read as itself, in single quotes
if its characters allow it, and otherwise in double quotes.
-/

namespace HostLisp.Yaml

/-- How a text is marked as a scalar. -/
inductive Style
  | plain
  | single
  | double
  deriving DecidableEq, Repr

def isBreak (c : Char) : Bool := c = '\n' || c = '\u0085' || c = '\u2028' || c = '\u2029'

/-- The characters that only an escape can write: all but line feed and printable ASCII. -/
def isSpecial (c : Char) : Bool := c ≠ '\n' && !(' ' ≤ c && c ≤ '~')

/-- The characters that a mark may not stand next to. -/
def isWhite (c : Char) : Bool := c = '\x00' || c = ' ' || c = '\t' || c = '\r' || isBreak c

/-- Whether a white character comes next, or the end. -/
def startsWhite (text : List Char) : Bool := text.head?.all isWhite

/-- Whether somewhere in a text two neighbours satisfy a relation. -/
def anyNeighbours (related : Char → Char → Bool) : List Char → Bool
  | a :: b :: rest => related a b || anyNeighbours related (b :: rest)
  | _ => false

/-- Whether a space and a break are neighbours. -/
def mixesSpaceAndBreak (text : List Char) : Bool :=
  anyNeighbours (fun a b => (a = ' ' && isBreak b) || (isBreak a && b = ' ')) text

/-- Whether only double quotes can hold a text. -/
def needsDouble (text : List Char) : Bool := text.any isSpecial || mixesSpaceAndBreak text

/-- Whether a text opens with a mark of the format. -/
def startsWithMark (text : List Char) : Bool :=
  text.take 3 = ['-', '-', '-'] || text.take 3 = ['.', '.', '.'] ||
    match text with
    | [] => false
    | c :: rest =>
      "#,[]\x7b\x7d&*!|>'\"%@\x60".toList.contains c ||
        ((c = '?' || c = ':' || c = '-') && startsWhite rest)

/-- Whether a text holds a mark of the format: a colon before white, or a hash after it. -/
def holdsMark (text : List Char) : Bool :=
  text.getLast? = some ':' ||
    anyNeighbours (fun a b => (a = ':' && isWhite b) || (isWhite a && b = '#')) text

/-- Whether a text may stand without quotes. -/
def allowsPlain (text : List Char) : Bool :=
  let edge (c : Char) := c = ' ' || isBreak c
  !(text.isEmpty || readsAsOther text || text.head?.any edge || text.getLast?.any edge ||
    text.any isBreak || startsWithMark text || holdsMark text || needsDouble text)

def styleOf (text : List Char) : Style :=
  if allowsPlain text then .plain else if needsDouble text then .double else .single

/-- Whether a text may be a key on one line with its value. -/
def isSimpleKey (text : List Char) : Bool :=
  !text.isEmpty && text.length < 123 && !text.any isBreak

end HostLisp.Yaml
