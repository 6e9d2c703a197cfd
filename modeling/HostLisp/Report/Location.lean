import HostLisp.Number.Digits
import HostLisp.Text.LineBreak

/-!
# Locations

Offsets of a source as lines and columns, and the excerpt of a source around a location. Both count
lines by the same breaks, from one.
-/

namespace HostLisp

/-- A line of a source and, if it is known, a column in it. -/
structure Location where
  line : Int
  column : Option Int
  deriving DecidableEq, Repr

namespace Location

/-- Line and column of an offset; an offset beyond either end is that end. Directly after a line
break the next line begins. -/
def lineAndColumn (source : List Char) (offset : Int) : Nat × Nat :=
  let lines := Text.lines (source.take offset.toNat)
  match lines.getLast? with
  | none => (1, 1)
  | some last =>
    if last.isEnded then (lines.length + 1, 1) else (lines.length, last.content.length + 1)

def ofOffset (source : List Char) (offset : Int) : Location :=
  let (line, column) := lineAndColumn source offset
  ⟨line, some column⟩

end Location

namespace Excerpt

/-- The lines that excerpts number: a source without lines has one empty line, and a line after the
last exists if the source ends in a line feed or carriage return and that line is asked for. -/
def lines (source : List Char) (line : Int) : List (List Char) :=
  let contents := match Text.lineContents source with
    | [] => [[]]
    | contents => contents
  let reopened := source.getLast? = some '\n' || source.getLast? = some '\r'
  if contents.length < line && reopened then contents ++ [[]] else contents

/-- A line with a mark for the one that is meant, and its number in the given width. -/
def row (width : Nat) (marked : Bool) (number : Nat) (content : List Char) : List Char :=
  let digits := Nat.toDigits 10 number
  (if marked then '>' else ' ') :: ' ' :: List.replicate (width - digits.length) ' ' ++ digits ++
    ' ' :: '|' :: ' ' :: content

/-- The row that points at a column. -/
def caretRow (width : Nat) (column : Int) : List Char :=
  ' ' :: ' ' :: List.replicate width ' ' ++ ' ' :: '|' :: ' ' ::
    List.replicate (column - 1).toNat ' ' ++ ['^']

/-- The rows around a line, up to `radius` on either side; none if there is no such line. -/
def rows (source : List Char) (line : Int) (column : Option Int) (radius : Int) :
    List (List Char) :=
  let contents := lines source line
  if line < 1 || contents.length < line then []
  else
    let first := max 1 (line - radius)
    let last := min (contents.length : Int) (line + radius)
    let width := (Nat.toDigits 10 last.toNat).length
    let numbered := contents.zipIdx 1
    let shown := numbered.filter fun (_, number) => first ≤ number && number ≤ last
    shown.flatMap fun (content, number) =>
      let marked := (number : Int) = line
      let pointed := match column with
        | some column => if marked then [caretRow width column] else []
        | none => []
      row width marked number content :: pointed

def render (source : List Char) (line : Int) (column : Option Int) (radius : Int) : String :=
  "\n".intercalate ((rows source line column radius).map String.ofList)

/-- How many lines are shown on either side if nothing else is asked for. -/
def defaultRadius : Int := 2

end Excerpt

end HostLisp
