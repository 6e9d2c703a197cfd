import HostLisp.Operation
import HostLisp.Report.Location
import HostLisp.Value.Text

/-!
# Reports of failures

What is told of a run that failed: its message, where in the source it arose, and the calls that
were in progress.
-/

namespace HostLisp

/-- A call in progress as reports show it. -/
structure TraceEntry where
  name : Option String
  args : List Value
  position : Option Int

def Frame.entry (frame : Frame) : TraceEntry := ⟨some frame.name, frame.args, frame.position⟩

namespace TraceEntry

def render (entry : TraceEntry) : Except Fault String := do
  let args ← entry.args.mapM Value.print
  let shown := " ".intercalate args
  let name := entry.name.getD "None"
  .ok (if shown.isEmpty then "(" ++ name ++ ")" else "(" ++ name ++ " " ++ shown ++ ")")

/-- The line that lists calls in progress, the outermost first; empty if there are none. -/
def renderAll (entries : List TraceEntry) : Except Fault String := do
  if entries.isEmpty then .ok ""
  else
    let shown ← entries.mapM render
    .ok ("MiniLisp stacktrace: " ++ " ".intercalate shown)

end TraceEntry

/-- A run that failed. -/
structure Failure where
  message : Option String
  location : Option Location
  source : Option String
  trace : List TraceEntry

namespace Failure

def messageText (failure : Failure) : String :=
  match failure.message with
  | none | some "" => "Unknown error"
  | some message => message

def locationText (location : Location) : String :=
  let line := Number.decimalText location.line
  match location.column with
  | none => s!"Error on line {line}: "
  | some column =>
    let column := Number.decimalText column
    s!"Error on line {line}, col {column}: "

def excerpt (failure : Failure) (location : Location) : String :=
  match failure.source with
  | none => ""
  | some source =>
    if source.isEmpty then ""
    else Excerpt.render source.toList location.line location.column Excerpt.defaultRadius

/-- The report: location and message, then the excerpt of the source if there is one, then the calls
in progress if there are any. -/
def render (failure : Failure) : Except Fault String := do
  let headed := match failure.location with
    | none => [failure.messageText]
    | some location => [locationText location ++ failure.messageText, failure.excerpt location]
  let trace ← TraceEntry.renderAll failure.trace
  let message := headed.headD ""
  let parts := message :: ((headed.tail ++ [trace]).filter (!·.isEmpty))
  .ok ("\n".intercalate parts)

end Failure

/-- The result of a run. -/
inductive Outcome
  | success (value : Value)
  | failure (report : Failure)
  /-- There is no result: the run itself raised a fault. -/
  | raised (fault : Fault)

def Outcome.report : Outcome → Except Fault String
  | .success _ => .ok ""
  | .failure report => report.render
  | .raised fault => .error fault

end HostLisp
