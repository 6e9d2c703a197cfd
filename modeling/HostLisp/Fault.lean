import HostLisp.Value.Basic
import HostLisp.Number.Digits

/-!
# Faults

Everything that can end an evaluation or the writing of a value, as a cause. The wording of each
cause is `Fault.message`, and `Fault.className` is the class that reports name it by.
-/

namespace HostLisp

/-- Why a form cannot be evaluated. -/
inductive Cause
  | emptyList
  | headNotSymbol
  | zeroLengthSymbol
  | unknownFunction (name : String)
  | unexpectedSymbol (text : String)
  | invalidInteger (text : String)
  | notApplicable (name : String) (kinds : List Kind)
  | notANode (shown : String)
  /-- Reported by a host operation in its own words. -/
  | reported (message : String) (symbol : Option String)
  deriving DecidableEq, Repr

namespace Cause

def message : Cause → String
  | .emptyList => "Cannot evaluate an empty list"
  | .headNotSymbol => "First item in list must be a symbol"
  | .zeroLengthSymbol => "Cannot evaluate a zero length symbol"
  | .unknownFunction name => s!"Unknown function '{name}'"
  | .unexpectedSymbol text => s!"Unexpected symbol '{text}'"
  | .invalidInteger text => s!"Invalid integer literal '{text}'"
  | .notApplicable name kinds =>
    let shown := ", ".intercalate (kinds.map Kind.name)
    s!"Failed to invoke function '{name}' with arguments ({shown})"
  | .notANode shown => s!"Cannot evaluate node {shown}"
  | .reported message _ => message

/-- The symbol that a cause names. -/
def symbol : Cause → Option String
  | .unknownFunction name | .notApplicable name _ => some name
  | .unexpectedSymbol text | .invalidInteger text => some text
  | .reported _ symbol => symbol
  | _ => none

end Cause

/-- The class that bytes which are no text are reported as. -/
def undecodableClassName : String := "UnicodeDecodeError"

/-- What ends an evaluation, or the writing of a value. -/
inductive Fault
  /-- The source ends inside a form, or an operation reports that it does. -/
  | endOfInput (message : String) (position : Option Int)
  | evaluation (cause : Cause) (position : Option Int)
  /-- An error of the language of no further class, which only host operations report. -/
  | language (message : String) (position : Option Int)
  /-- Raised by a host operation: an error of any class, in its own words. -/
  | host (className : String) (message : String)
  /-- Raised by a host operation: an error of any class that cannot be told of, because asking it for
  its words or for its place raises an error in turn. -/
  | untold (className : String) (raised : Fault)
  /-- Raised by a host operation that wants the program to end. It is no error, and no run reports
  it. -/
  | interruption (className : String) (message : String)
  | listIndex
  | textIndex
  | divisionByZero
  | tooManyDigitsToRead (digits : Nat)
  | tooManyDigitsToWrite
  /-- Calls of the evaluator from within host operations are nested too deeply. -/
  | nestingLimit
  /-- A value of a subtype has no form in the format. -/
  | unrepresentable (shown : String)
  | unsupportedFormat (shown : String)
  deriving DecidableEq, Repr

namespace Fault

def endOfInputMessage : String := "Data ended unexpectedly."

def inputEnded (position : Nat) : Fault := .endOfInput endOfInputMessage (some position)

def valueErrorName : String := "ValueError"

def endOfFileErrorName : String := "EOFError"

def valueError (message : String) : Fault := .host valueErrorName message

def typeError (message : String) : Fault := .host "TypeError" message

def className : Fault → String
  | .endOfInput _ _ => "UnexpectedEndOfInput"
  | .evaluation _ _ => "EvaluationError"
  | .language _ _ => "MiniLispError"
  | .host className _ | .untold className _ | .interruption className _ => className
  | .listIndex | .textIndex => "IndexError"
  | .divisionByZero => "ZeroDivisionError"
  | .tooManyDigitsToRead _ | .tooManyDigitsToWrite => valueErrorName
  | .nestingLimit => "RecursionError"
  | .unrepresentable _ => "RepresenterError"
  | .unsupportedFormat _ => valueErrorName

def digitLimitExceeded : String :=
  s!"Exceeds the limit ({Number.digitLimit} digits) for integer string conversion"

def digitLimitAdvice : String := "use sys.set_int_max_str_digits() to increase the limit"

/-- The text of a fault, or what is raised where the fault cannot be told. -/
def message : Fault → Except Fault String
  | .endOfInput message _ => .ok message
  | .evaluation cause _ => .ok cause.message
  | .language message _ => .ok message
  | .host _ message | .interruption _ message => .ok message
  | .untold _ raised => .error raised
  | .listIndex => .ok "list index out of range"
  | .textIndex => .ok "string index out of range"
  | .divisionByZero => .ok "integer division or modulo by zero"
  | .tooManyDigitsToRead digits =>
    .ok s!"{digitLimitExceeded}: value has {digits} digits; {digitLimitAdvice}"
  | .tooManyDigitsToWrite => .ok s!"{digitLimitExceeded}; {digitLimitAdvice}"
  | .nestingLimit => .ok "maximum recursion depth exceeded"
  | .unrepresentable shown => .ok s!"('cannot represent an object', {shown})"
  | .unsupportedFormat shown => .ok s!"Unsupported serialization format: {shown}"

/-- Whether a fault is one of the language's own errors, which carry a position. -/
def isOfLanguage : Fault → Bool
  | .endOfInput _ _ | .evaluation _ _ | .language _ _ => true
  | _ => false

/-- Whether a fault is caught where errors about the value of something are. -/
def isValueError (fault : Fault) : Bool := fault.className = valueErrorName

/-- Whether a fault says that input ended, in the source or in what an operation reads. -/
def isEndOfFile : Fault → Bool
  | .endOfInput _ _ => true
  | fault => fault.className = endOfFileErrorName

def position : Fault → Option Int
  | .endOfInput _ position | .evaluation _ position | .language _ position => position
  | _ => none

/-- The symbol that a fault names. -/
def symbol : Fault → Option String
  | .evaluation cause _ => cause.symbol
  | _ => none

/-- The wording of a fault that ended a run, after the stage in which it arose, or what leaves the
run in its place: an interruption, or what is raised where the fault cannot be told. Errors of the
language are reported by the message that they carry and are not asked for their text. -/
def runMessage : Fault → Except Fault String
  | .endOfInput message _ => .ok s!"ParseError: {message}"
  | .evaluation cause _ => .ok s!"EvaluationError: {cause.message}"
  | .interruption className message => .error (.interruption className message)
  | fault => do
    let message ← fault.message
    .ok s!"InternalError: {fault.className}: {message}"

end Fault

end HostLisp
