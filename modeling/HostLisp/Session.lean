import HostLisp.Environment
import HostLisp.FileName
import HostLisp.Output.Format
import HostLisp.Standard

/-!
# Sessions

The program as a function of what it is given: at the prompt it handles one line after another, and
as a script runner it handles one file. Both have the standard operations.
-/

namespace HostLisp.Session

/-- What surrounds a session: the format of results, and whether the calls made are traced. -/
structure Settings where
  format : String
  traced : Bool

/-- The settings of an environment in which a format and a wish for traces may be set; an empty
wish is none. -/
def Settings.ofEnvironment (format debug : Option String) : Settings :=
  ⟨format.getD Value.sourceFormat, debug.any (!·.isEmpty)⟩

/-- What a session prints. -/
structure Printed where
  out : String
  err : String
  deriving DecidableEq, Repr

namespace Printed

/-- Nothing. -/
def nothing : Printed := ⟨"", ""⟩

def outLine (text : String) : Printed := ⟨text ++ "\n", ""⟩

def errLine (text : String) : Printed := ⟨"", text ++ "\n"⟩

def append (a b : Printed) : Printed := ⟨a.out ++ b.out, a.err ++ b.err⟩

instance : Append Printed := ⟨append⟩

end Printed

/-- How a session ends. -/
inductive Ending
  | exit (code : Nat)
  /-- A fault that nothing reports. -/
  | fault (fault : Fault)
  | interrupted
  /-- A script is not text. -/
  | undecodable
  deriving DecidableEq, Repr

/-- What a session prints, and how it ends. -/
structure Transcript where
  printed : Printed
  ending : Ending
  deriving DecidableEq, Repr

/-- A session's machine: the host has no state of its own. -/
abbrev Env := Machine Unit

def initial : Env := (Machine.fresh Registry.empty ()).registerAll Standard.operations

/-- The outcome of a source, the trace that is printed of it, and the machine after it. -/
def run (settings : Settings) (machine : Env) (source : String) : Outcome × Printed × Env :=
  let (outcome, after) := { machine with journal := [] }.run source
  let trace := if settings.traced then Event.traceText after.journal else ""
  (outcome, ⟨"", trace⟩, after)

/-- What is printed of a fault that was caught, if it can be told. -/
def complaint (fault : Fault) : Except Fault Printed := do
  let message ← fault.message
  .ok (.errLine s!"Error: {message}")

/-! ## The prompt -/

def banner : String := "MiniLisp REPL v0.1\nType 'exit' or press Ctrl+D to quit.\n"

def prompt : Printed := ⟨">> ", ""⟩

def farewell : Printed := ⟨"\nExiting.\n", ""⟩

def exitLine : String := "exit"

/-- What a line prints, and the machine after it or the end of the session. -/
def respond (settings : Settings) (machine : Env) (line : String) :
    Printed × Except Ending Env :=
  let source := String.ofList (Text.trim line.toList)
  if source.isEmpty then (.nothing, .ok machine)
  else if source = exitLine then (.nothing, .error (.exit 0))
  else
    let (outcome, trace, after) := run settings machine source
    match outcome with
    | .success value =>
      match value.showAs settings.format with
      | .ok text => (trace ++ .outLine text, .ok after)
      | .error fault =>
        match complaint fault with
        | .ok printed => (trace ++ printed, .ok after)
        | .error raised => (trace, .error (.fault raised))
    | .failure failure =>
      -- A report fails only on a number in the trace that cannot be written; that ends the session.
      match failure.render with
      | .ok text => (trace ++ .errLine text, .ok after)
      | .error fault => (trace, .error (.fault fault))
    | .raised fault => (trace, .error (.fault fault))

/-- What comes where the lines of input are over. -/
inductive InputEnd
  | closed
  | interrupt
  deriving DecidableEq, Repr

/-- The rest of a session at the prompt. -/
def converse (settings : Settings) (last : InputEnd) : Env → List String → Transcript
  | _, [] =>
    match last with
    | .closed => ⟨prompt ++ farewell, .exit 0⟩
    | .interrupt => ⟨prompt, .interrupted⟩
  | machine, line :: lines =>
    match respond settings machine line with
    -- The lines that are left are not read any more.
    | (printed, .error ending) => ⟨prompt ++ printed, ending⟩
    | (printed, .ok after) =>
      let rest := converse settings last after lines
      ⟨prompt ++ printed ++ rest.printed, rest.ending⟩

def interactive (settings : Settings) (lines : List String) (last : InputEnd) : Transcript :=
  let talk := converse settings last initial lines
  ⟨⟨banner, ""⟩ ++ talk.printed, talk.ending⟩

/-- The lines of an input text: one that lacks its line feed counts, an empty one at the end does
not. -/
def inputLines (input : String) : List String :=
  let lines := (Text.unifyNewlines input.toList).splitOn '\n'
  let complete := if lines.getLast? = some [] then lines.dropLast else lines
  complete.map String.ofList

/-! ## Scripts -/

/-- A script that runs: its result, or a diagnostic and failure. -/
def runScript (settings : Settings) (text : String) : Transcript :=
  let source := String.ofList (Text.unifyNewlines text.toList)
  let (outcome, trace, _) := run settings initial source
  match outcome with
  | .success value =>
    match value.showAs settings.format with
    | .ok text => ⟨trace ++ .outLine text, .exit 0⟩
    | .error fault =>
      -- Only a value that cannot be shown is reported here; any other fault is left to the caller.
      if fault.isValueError then
        match complaint fault with
        | .ok printed => ⟨trace ++ printed, .exit 1⟩
        | .error raised => ⟨trace, .fault raised⟩
      else ⟨trace, .fault fault⟩
  | .failure failure =>
    match failure.render with
    | .ok text => ⟨trace ++ .errLine text, .exit 1⟩
    | .error fault => ⟨trace, .fault fault⟩
  | .raised fault => ⟨trace, .fault fault⟩

/-- The fault of asking for a file whose name no file can have. -/
def impossibleName : Fault := .valueError "embedded null byte"

/-- A script file, given its bytes if there is one of that name. -/
def script (settings : Settings) (name : String) (content : Option ByteArray) : Transcript :=
  if !FileName.isPossible name then ⟨.nothing, .fault impossibleName⟩
  else match content with
  | none => ⟨.errLine s!"Error: file not found: {name}", .exit 1⟩
  | some bytes =>
    match String.fromUTF8? bytes with
    | some text => runScript settings text
    | none => ⟨.nothing, .undecodable⟩

/-! ## The command line -/

/-- The script that a command line names: its first argument, unless that starts with a dash. -/
def scriptName? (args : List String) : Option String :=
  args.head?.filter fun name => name.toList.head? ≠ some '-'

/-- A session that an interruption ends like the end of input. -/
def Transcript.settled (transcript : Transcript) : Transcript :=
  if transcript.ending = .interrupted then ⟨transcript.printed ++ farewell, .exit 0⟩
  else transcript

end HostLisp.Session
