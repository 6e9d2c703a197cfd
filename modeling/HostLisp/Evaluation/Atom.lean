import HostLisp.Fault
import HostLisp.Syntax.Span

/-!
# Atoms

The value of a symbol on its own: the two truth values and null in any ASCII case, and whole
numbers. Nothing that is registered can give another symbol a value.
-/

namespace HostLisp.Atom

/-- The constant that a symbol spells. Only ASCII letters have a second case here. -/
def constant? (chars : List Char) : Option Value :=
  let lowered := chars.map Char.toLower
  if lowered = "true".toList then some (.bool true)
  else if lowered = "false".toList then some (.bool false)
  else if lowered = "null".toList then some .null
  else none

/-- The whole number that decimal digits write, of which leading zeros count against the limit. -/
def readInt (digits : List Char) : Except Fault Value :=
  if Number.digitLimit < digits.length then .error (.tooManyDigitsToRead digits.length)
  else .ok (.int (Number.ofDigits digits))

def ofChars (chars : List Char) (position : Int) : Except Fault Value :=
  match constant? chars, chars with
  | some value, _ => .ok value
  | none, [] => .error .textIndex
  | none, first :: _ =>
    let text := String.ofList chars
    if !Number.isDigit first then .error (.evaluation (.unexpectedSymbol text) (some position))
    else if chars.all Number.isDigit then readInt chars
    else .error (.evaluation (.invalidInteger text) (some position))

def ofSpan (span : Span) (source : List Char) : Except Fault Value :=
  if span.length = 0 then .error (.evaluation .zeroLengthSymbol (some span.start))
  else ofChars (span.slice source) span.start

end HostLisp.Atom
