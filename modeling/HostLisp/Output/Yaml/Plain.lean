import HostLisp.Text.Pattern

/-!
# Plain scalars that are no texts

What the resolver of the assumed serialiser takes for a truth value, null, a number, a date or a key
of its own when it stands without quotes.
-/

namespace HostLisp.Yaml

open Text (Pattern)
open Text.Pattern

def sign : Pattern := optional (anyOf "-+")

def digit : Pattern := .oneOf [('0', '9')]

/-- Decimal digits with underscores between them, possibly none. -/
def digits : Pattern := .many (.oneOf [('0', '9'), ('_', '_')])

/-- Minutes and seconds after a colon each, once or more often. -/
def sixtieths : Pattern := Pattern.some (all [char ':', optional (.oneOf [('0', '5')]), digit])

def truthValue : Pattern :=
  any (["yes", "Yes", "YES", "no", "No", "NO", "true", "True", "TRUE", "false", "False", "FALSE",
    "on", "On", "ON", "off", "Off", "OFF"].map word)

/-- Null, which may be left out. -/
def nothing : Pattern := any [word "~", word "null", word "Null", word "NULL", .empty]

/-- Whole numbers: binary, octal, decimal, hexadecimal and to the base sixty. -/
def wholeNumber : Pattern :=
  all [sign, any [
    all [word "0b", Pattern.some (anyOf "01_")],
    all [char '0', Pattern.some (.oneOf [('0', '7'), ('_', '_')])],
    any [char '0', all [.oneOf [('1', '9')], digits]],
    all [word "0x", Pattern.some (.oneOf [('0', '9'), ('a', 'f'), ('A', 'F'), ('_', '_')])],
    all [.oneOf [('1', '9')], digits, sixtieths]]]

def exponent : Pattern := optional (all [anyOf "eE", anyOf "-+", Pattern.some digit])

/-- Numbers with a point, infinities, and what is not a number. -/
def pointNumber : Pattern :=
  any [
    all [sign, digit, digits, char '.', digits, exponent],
    all [char '.', digit, digits, exponent],
    all [sign, digit, digits, sixtieths, char '.', digits],
    all [sign, char '.', any [word "inf", word "Inf", word "INF"]],
    all [char '.', any [word "nan", word "NaN", word "NAN"]]]

def oneOrTwo : Pattern := all [digit, optional digit]

def date : Pattern :=
  let year := all [digit, digit, digit, digit]
  let zone := any [char 'Z', all [anyOf "-+", oneOrTwo, optional (all [char ':', digit, digit])]]
  any [
    all [year, char '-', digit, digit, char '-', digit, digit],
    all [year, char '-', oneOrTwo, char '-', oneOrTwo,
      any [anyOf "Tt", Pattern.some (anyOf " \t")],
      oneOrTwo, char ':', digit, digit, char ':', digit, digit,
      optional (all [char '.', .many digit]),
      optional (all [.many (anyOf " \t"), zone])]]

/-- Everything that is no text when it stands without quotes. -/
def otherTypes : List Pattern :=
  [truthValue, nothing, word "=", word "<<", wholeNumber, pointNumber, date]

/-- Whether a text would be taken for something else if it stood without quotes. -/
def readsAsOther (text : List Char) : Bool := otherTypes.any (·.isMatch text)

end HostLisp.Yaml
