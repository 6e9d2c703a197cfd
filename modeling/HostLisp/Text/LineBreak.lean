/-!
# Line breaks

A text is a sequence of lines, each with the characters that end it. Carriage return followed by
line feed is one ending; a text that ends in a break has no further empty line.
-/

namespace HostLisp.Text

/-- The characters that end a line: line feed, carriage return, vertical tab, form feed, the
three information separators above the unit separator, next line, and the line and paragraph
separators. -/
def isLineBreak (c : Char) : Bool :=
  ('\n' ≤ c && c ≤ '\r') || ('\x1c' ≤ c && c ≤ '\x1e') || c = '\u0085' ||
    c = '\u2028' || c = '\u2029'

/-- One line of a text and the break that ends it; only the last line of a text can lack one. -/
structure Line where
  content : List Char
  ending : List Char
  deriving DecidableEq, Repr

namespace Line

def chars (line : Line) : List Char := line.content ++ line.ending

def isEnded (line : Line) : Bool := !line.ending.isEmpty

end Line

def lines : List Char → List Line
  | [] => []
  | '\r' :: '\n' :: rest => ⟨[], ['\r', '\n']⟩ :: lines rest
  | c :: rest =>
    if isLineBreak c then ⟨[], [c]⟩ :: lines rest
    else
      match lines rest with
      | [] => [⟨[c], []⟩]
      | line :: more => ⟨c :: line.content, line.ending⟩ :: more

def lineContents (text : List Char) : List (List Char) :=
  (lines text).map Line.content

/-- The text with each carriage return, alone or before a line feed, turned into a line feed. -/
def unifyNewlines : List Char → List Char
  | [] => []
  | '\r' :: '\n' :: rest => '\n' :: unifyNewlines rest
  | c :: rest => (if c = '\r' then '\n' else c) :: unifyNewlines rest

/-- The lines of a text never lose or add a character. -/
theorem flatMap_chars_lines (text : List Char) :
    (lines text).flatMap Line.chars = text := by
  fun_induction lines text with
  | case1 => rfl
  | case2 rest ih => simp [Line.chars, ih]
  | case3 c rest _ _ ih => simp [Line.chars, ih]
  | case4 c rest _ _ none ih => simp_all [Line.chars]
  | case5 c rest _ _ line more some ih =>
    rw [some] at ih
    simpa [Line.chars] using ih

end HostLisp.Text
