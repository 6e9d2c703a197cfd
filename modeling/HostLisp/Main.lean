import HostLisp.Session

/-!
# The command line

Reads the environment, the script or the lines of the standard input, and prints what the session
answers.
-/

namespace HostLisp.Main

open Session

def display (printed : Printed) : IO Unit := do
  (← IO.getStdout).putStr printed.out
  (← IO.getStdout).flush
  (← IO.getStderr).putStr printed.err
  (← IO.getStderr).flush

def finish : Ending → IO UInt32
  | .exit code => pure code.toUInt32
  | .fault fault => do
    let message := fault.message.toOption.getD "<exception str() failed>"
    display (.errLine s!"{fault.className}: {message}")
    pure 1
  | .interrupted => do
    display farewell
    pure 0
  | .undecodable => do
    display (.errLine undecodableClassName)
    pure 1

/-- Handles lines one after another, and ends early if one of them ends the session. -/
def handle (settings : Settings) : Env → List String → IO (Except Ending Env)
  | machine, [] => pure (.ok machine)
  | machine, line :: lines => do
    let (printed, next) := respond settings machine line
    display printed
    match next with
    | .error ending => pure (.error ending)
    | .ok after => do
      unless lines.isEmpty do display prompt
      handle settings after lines

/-- Handles the lines of the standard input as they come. -/
partial def listen (settings : Settings) (machine : Env) : IO UInt32 := do
  display prompt
  let chunk ← (← IO.getStdin).getLine
  if chunk.isEmpty then
    display farewell
    finish (.exit 0)
  else
    match ← handle settings machine (inputLines chunk) with
    | .error ending => finish ending
    | .ok after => listen settings after

def contentOf (name : String) : IO (Option ByteArray) := do
  try
    let bytes ← IO.FS.readBinFile (FileName.normalize name)
    pure (some bytes)
  catch
    | .noFileOrDirectory _ _ _ => pure none
    | error => throw error

end HostLisp.Main

open HostLisp.Session in
/-- Runs the script that the command line names, or the prompt. -/
def main (args : List String) : IO UInt32 := do
  let format ← IO.getEnv "MINILISP_OUTPUT_FORMAT"
  let debug ← IO.getEnv "MINILISP_DEBUG"
  let settings := Settings.ofEnvironment format debug
  match scriptName? args with
  | some name =>
    let content ← HostLisp.Main.contentOf name
    let transcript := script settings name content
    HostLisp.Main.display transcript.printed
    HostLisp.Main.finish transcript.ending
  | none =>
    HostLisp.Main.display ⟨banner, ""⟩
    HostLisp.Main.listen settings initial
