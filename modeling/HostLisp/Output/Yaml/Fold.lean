import HostLisp.Output.Yaml.Style
import HostLisp.Text.Hexadecimal

/-!
# Folding of scalars

The characters of a scalar as the assumed serialiser writes them, broken into lines near the width of
the page. Each function is given the column at which it starts to write and the indentation of the
lines that it opens.
-/

namespace HostLisp.Yaml

/-- The column after which a scalar goes on in a new line. -/
def pageWidth : Nat := 80

def newLine (indent : Nat) : List Char := '\n' :: List.replicate indent ' '

/-- A stretch of a text: spaces, breaks, or neither. -/
inductive Run
  | word (chars : List Char)
  | spaces (count : Nat)
  | breaks (chars : List Char)
  deriving DecidableEq, Repr

def runs : List Char → List Run
  | [] => []
  | c :: rest =>
    if c = ' ' then
      match runs rest with
      | .spaces count :: more => .spaces (count + 1) :: more
      | more => .spaces 1 :: more
    else if isBreak c then
      match runs rest with
      | .breaks chars :: more => .breaks (c :: chars) :: more
      | more => .breaks [c] :: more
    else
      match runs rest with
      | .word chars :: more => .word (c :: chars) :: more
      | more => .word [c] :: more

/-- Breaks inside a quoted text: one more than there are, then the indentation. -/
def writeBreaks (indent : Nat) (chars : List Char) : List Char :=
  (if chars.head? = some '\n' then ['\n'] else []) ++ chars ++ List.replicate indent ' '

/-- Stretches one after another. A single space between words becomes a new line beyond the width of
the page. -/
def writeRuns (encode : Char → List Char) (indent : Nat) (split : Bool) (column : Nat)
    (inside : Bool) : List Run → List Char
  | [] => []
  | .word chars :: rest =>
    let written := chars.flatMap encode
    written ++ writeRuns encode indent split (column + written.length) true rest
  | .spaces count :: rest =>
    -- Spaces at the ends of a text, and more than one of them, stay on their line.
    if split && inside && !rest.isEmpty && count = 1 && pageWidth < column then
      newLine indent ++ writeRuns encode indent split indent true rest
    else
      List.replicate count ' ' ++ writeRuns encode indent split (column + count) true rest
  | .breaks chars :: rest =>
    writeBreaks indent chars ++ writeRuns encode indent split indent true rest

def writePlain (indent : Nat) (split : Bool) (column : Nat) (text : List Char) : List Char :=
  writeRuns (fun c => [c]) indent split column false (runs text)

/-- A text in single quotes, in which a quote is written twice. -/
def writeSingle (indent : Nat) (split : Bool) (column : Nat) (text : List Char) : List Char :=
  let encode (c : Char) := if c = '\x27' then ['\x27', '\x27'] else [c]
  '\x27' :: writeRuns encode indent split (column + 1) false (runs text) ++ ['\x27']

def letterEscapes : List (Char × Char) := [
  ('\x00', '0'), ('\x07', 'a'), ('\x08', 'b'), ('\t', 't'), ('\n', 'n'), ('\x0b', 'v'),
  ('\x0c', 'f'), ('\r', 'r'), ('\x1b', 'e'), ('"', '"'), ('\\', '\\'), ('\u0085', 'N'),
  ('\u00a0', '_'), ('\u2028', 'L'), ('\u2029', 'P')]

/-- Whether double quotes hold a character only as an escape. -/
def needsEscape (c : Char) : Bool := c = '"' || c = '\\' || !(' ' ≤ c && c ≤ '~')

def escape (c : Char) : List Char :=
  match letterEscapes.lookup c with
  | some letter => ['\\', letter]
  | none => Text.escapeByCode 'A' c

/-- The characters of a text in double quotes. Beyond the width of the page a line ends with a
backslash before a space or next to an escape, and a space that starts the next line has one too.
`first` says that nothing is written yet, `fresh` that an escape or a new line came last. -/
def writeEscaped (indent : Nat) (split : Bool) (column : Nat) (first fresh : Bool) :
    List Char → List Char
  | [] => []
  | c :: rest =>
    let foldable := split && !first && !rest.isEmpty
    if needsEscape c then
      let written := escape c
      let column := column + written.length
      -- The escape itself may reach one column further than a plain character.
      if foldable && pageWidth + 1 < column then
        let resumed := if rest.head? = some ' ' then ['\\'] else []
        written ++ '\\' :: newLine indent ++ resumed ++
          writeEscaped indent split (indent + resumed.length) false true rest
      else written ++ writeEscaped indent split column false true rest
    else if foldable && (c = ' ' || fresh) && pageWidth < column then
      let resumed := if c = ' ' then ['\\'] else []
      '\\' :: newLine indent ++ resumed ++
        c :: writeEscaped indent split (indent + resumed.length + 1) false false rest
    else c :: writeEscaped indent split (column + 1) false false rest

def writeDouble (indent : Nat) (split : Bool) (column : Nat) (text : List Char) : List Char :=
  '"' :: writeEscaped indent split (column + 1) true true text ++ ['"']

def writeText (indent : Nat) (split : Bool) (column : Nat) (text : List Char) : List Char :=
  match styleOf text with
  | .plain => writePlain indent split column text
  | .single => writeSingle indent split column text
  | .double => writeDouble indent split column text

end HostLisp.Yaml
