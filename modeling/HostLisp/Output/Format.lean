import HostLisp.Output.Json
import HostLisp.Output.Yaml.Block
import HostLisp.Text.Blank
import HostLisp.Text.LowerCase

/-!
# Formats

A value in a format that is given by name. Names are compared in lower case. The text of YAML is
what the assumed serialiser gives, without the mark that it puts after a bare scalar.
-/

namespace HostLisp

namespace Yaml

/-- A text without the mark of the end of a document, if there is one at its end. -/
def dropMarker (text : List Char) : List Char :=
  if ('\n' :: endMarker).isSuffixOf text then text.take (text.length - endMarker.length) else text

def render (document : Document) : Except Fault String := do
  let text ← safeDump document
  .ok (String.ofList (dropMarker text))

end Yaml

/-- The formats for documents. -/
inductive Format
  | json
  | yaml
  deriving DecidableEq, Repr

def Format.ofName? (name : String) : Option Format :=
  if name = "json" then some .json else if name = "yaml" then some .yaml else none

/-- A document in a format; only JSON has a layout to choose. -/
def Document.render (format : Format) (pretty : Bool) (document : Document) :
    Except Fault String :=
  match format with
  | .json => Json.render (if pretty then .indented else .compact) document
  | .yaml => Yaml.render document

namespace Value

/-- A value in the format of a name. The document is made before the name is looked at, so a value
that has none is reported first. -/
def writeAs (name : Option String) (pretty : Bool) (value : Value) : Except Fault String := do
  let document ← Document.ofValue value
  match Format.ofName? (Text.lower (name.getD "")) with
  | some format => document.render format pretty
  | none => .error (.unsupportedFormat ((name.map Text.quoted).getD "None"))

/-- The name by which results are shown as source text. -/
def sourceFormat : String := "pretty"

/-- A result as it is shown: as source text, or in another format without the line feeds at its
end. -/
def showAs (name : String) (value : Value) : Except Fault String := do
  let lowered := Text.lower name
  if lowered = sourceFormat then value.print
  else
    let text ← value.writeAs (some lowered) true
    .ok (String.ofList (Text.dropTrailing (· = '\n') text.toList))

end Value

end HostLisp
