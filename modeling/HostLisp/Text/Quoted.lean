import HostLisp.Text.Hexadecimal
import HostLisp.Text.Printable

/-!
# Quoted text

A text between quotes, with everything that cannot be printed escaped. The quote is single unless
the text holds a single quote and no double quote.
-/

namespace HostLisp.Text

/-- The quote that a text is written in. -/
def quoteFor (text : List Char) : Char :=
  if text.contains '\x27' && !text.contains '"' then '"' else '\x27'

/-- One character of a text that stands between the given quotes. -/
def quoteChar (quote c : Char) : List Char :=
  if c = '\\' then ['\\', '\\']
  else if c = quote then ['\\', quote]
  else if c = '\n' then ['\\', 'n']
  else if c = '\r' then ['\\', 'r']
  else if c = '\t' then ['\\', 't']
  else if isPrintable c then [c]
  else escapeByCode 'a' c

def quoted (text : String) : String :=
  let quote := quoteFor text.toList
  String.ofList (quote :: text.toList.flatMap (quoteChar quote) ++ [quote])

end HostLisp.Text
