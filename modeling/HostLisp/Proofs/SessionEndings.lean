import HostLisp.Proofs.PromptReplies
import HostLisp.Proofs.WritableReports

/-!
# How sessions end

A session reports what goes wrong and goes on, or as a script exits. The reports themselves are
written outside of what is guarded, so a report that cannot be written ends a session with a fault.

## Main results

`answered`: a source is answered by its result, by a diagnostic, or not at all if the report of its
failure lists a number with too many digits.

`session_endings`: so a session at the prompt handles its lines up to `exit`, the end of its input or
such a report, and a script prints its result, or a diagnostic, unless it makes such a report.

`overlong_escapes`: there is such a report.

## Proof strategy

All faults of values and reports are of numbers that are too long, or of the name of the format. The
rest is the conversation taken line by line.
-/

namespace HostLisp

namespace Session

/-! ### Answers -/

/-- What comes of a source. -/
inductive Answer
  | result (text : String)
  | diagnostic (text : String)
  /-- The report of a failure is too long to be written, and nothing reports that. -/
  | escaped

namespace Answer

def printed : Answer → Printed
  | .result text => .outLine text
  | .diagnostic text => .errLine text
  | .escaped => .nothing

/-- How a session at the prompt ends with an answer, if it does. -/
def atPrompt : Answer → Option Ending
  | .result _ | .diagnostic _ => none
  | .escaped => some (.fault .tooManyDigitsToWrite)

/-- How a script ends with an answer. -/
def ofScript : Answer → Ending
  | .result _ => .exit 0
  | .diagnostic _ => .exit 1
  | .escaped => .fault .tooManyDigitsToWrite

end Answer

/-- What comes of the outcome of a run. -/
inductive Answers (settings : Settings) : Outcome → Answer → Prop
  | shown {value : Value} {text : String} (shown : value.showAs settings.format = .ok text) :
      Answers settings (.success value) (.result text)
  | refused {value : Value} {fault : Fault} {message : String}
      (refused : value.showAs settings.format = .error fault) (caught : fault.isValueError = true)
      (told : fault.message = .ok message) :
      Answers settings (.success value) (.diagnostic s!"Error: {message}")
  | reported {report : Failure} {text : String} (short : ¬ report.IsLong)
      (written : report.render = .ok text) : Answers settings (.failure report) (.diagnostic text)
  | escaped {report : Failure} (long : report.IsLong)
      (failed : report.render = .error .tooManyDigitsToWrite) :
      Answers settings (.failure report) .escaped

variable (settings : Settings)

/-- Whatever has kinds is answered. -/
theorem exists_answer {outcome : Outcome} (known : outcome.HasKinds) :
    ∃ answer, Answers settings outcome answer := by
  cases outcome with
  | success value =>
    obtain ⟨kind, has⟩ := known
    cases shown : value.showAs settings.format with
    | ok text => exact ⟨_, .shown shown⟩
    | error fault =>
      have writing := has.showAs_writing _ _ shown
      -- A value that cannot be shown is complained of, and the complaint has a message.
      obtain ⟨message, told⟩ := writing.told
      exact ⟨_, .refused shown writing.caught told⟩
  | failure report =>
    have writes := Failure.render_writes known
    cases rendered : report.render with
    | ok text =>
      rw [rendered] at writes
      cases writes with
      | written _ short => exact ⟨_, .reported short rendered⟩
    | error fault =>
      rw [rendered] at writes
      cases writes with
      | tooLong long => exact ⟨_, .escaped long rendered⟩
  | raised fault => cases known

theorem complaint_of_message {fault : Fault} {message : String}
    (told : fault.message = .ok message) : complaint fault = .ok (.errLine s!"Error: {message}") := by
  rw [complaint, told]
  rfl

/-- What a run of the loop gives is what the machine gives once its journal is empty. -/
theorem run_outcome (machine : Env) (source : String) :
    (run settings machine source).1 = ({ machine with journal := [] }.run source).1 := rfl

theorem run_untraced (format : String) (machine : Env) (source : String) :
    (run ⟨format, false⟩ machine source).2.1 = .nothing := rfl

theorem answered (source : String) :
    ∃ answer, Answers settings (run settings initial source).1 answer := by
  rw [run_outcome]
  exact exists_answer settings (Machine.run_kinds { initial with journal := [] } rfl source)

namespace Printed

theorem append_nothing (printed : Printed) : printed ++ nothing = printed :=
  congrArg₂ Printed.mk String.append_empty String.append_empty

end Printed

/-! ### Lines and scripts -/

/-- What of a script is evaluated. -/
def scriptSource (text : String) : String := String.ofList (Text.unifyNewlines text.toList)

/-- What a line is replied to: that it is blank, that it says to exit, or else its answer. -/
inductive Comes (line : String) : Reply → Prop
  | blank (blank : (sourceOf line).isEmpty = true) : Comes line ⟨.nothing, none⟩
  | exit (same : sourceOf line = exitLine) : Comes line ⟨.nothing, some (.exit 0)⟩
  | answered {answer : Answer} (filled : (sourceOf line).isEmpty = false)
      (other : sourceOf line ≠ exitLine)
      (answers : Answers settings (run settings initial (sourceOf line)).1 answer) :
      Comes line ⟨(run settings initial (sourceOf line)).2.1 ++ answer.printed, answer.atPrompt⟩

/-- What is printed for a line that does not end the session. -/
inductive Handled (line : String) : Printed → Prop
  | blank (blank : (sourceOf line).isEmpty = true) : Handled line .nothing
  | answered {answer : Answer} (filled : (sourceOf line).isEmpty = false)
      (other : sourceOf line ≠ exitLine)
      (answers : Answers settings (run settings initial (sourceOf line)).1 answer)
      (caught : answer ≠ .escaped) :
      Handled line ((run settings initial (sourceOf line)).2.1 ++ answer.printed)

/-- What a session at the prompt comes to after the lines that it handles. -/
inductive Finishes : List String → Transcript → Prop
  | closed : Finishes [] ⟨prompt ++ farewell, .exit 0⟩
  | exit {line : String} {rest : List String} (same : sourceOf line = exitLine) :
      Finishes (line :: rest) ⟨prompt, .exit 0⟩
  | escaped {line : String} {rest : List String} (filled : (sourceOf line).isEmpty = false)
      (other : sourceOf line ≠ exitLine)
      (answers : Answers settings (run settings initial (sourceOf line)).1 .escaped) :
      Finishes (line :: rest)
        ⟨prompt ++ (run settings initial (sourceOf line)).2.1, .fault .tooManyDigitsToWrite⟩

variable {settings} {line : String}

/-- The reply to a line is what its run prints and then its answer. -/
theorem reply_of_answers {answer : Answer} (filled : (sourceOf line).isEmpty = false)
    (other : sourceOf line ≠ exitLine)
    (answers : Answers settings (run settings initial (sourceOf line)).1 answer) :
    reply settings line =
      ⟨(run settings initial (sourceOf line)).2.1 ++ answer.printed, answer.atPrompt⟩ := by
  have filled' : ¬ (sourceOf line).isEmpty = true := Bool.not_eq_true _ ▸ filled
  rw [reply, if_neg filled', if_neg other]
  generalize run settings initial (sourceOf line) = result at answers
  obtain ⟨outcome, trace, after⟩ := result
  cases answers with
  | shown shown => simp only [shown, Answer.printed, Answer.atPrompt]
  | refused refused caught told =>
    simp only [refused, complaint_of_message told, Answer.printed, Answer.atPrompt]
  | reported short written => simp only [written, Answer.printed, Answer.atPrompt]
  | escaped long failed =>
    simp only [failed, Answer.printed, Answer.atPrompt, Printed.append_nothing]

/-- Every line comes to one of three things: nothing, the end of the session, or an answer. -/
theorem reply_comes (settings : Settings) (line : String) :
    Comes settings line (reply settings line) := by
  by_cases blank : (sourceOf line).isEmpty = true
  · rw [reply, if_pos blank]
    exact .blank blank
  by_cases same : sourceOf line = exitLine
  · rw [reply, if_neg blank, if_pos same]
    exact .exit same
  · have filled := Bool.not_eq_true _ ▸ blank
    obtain ⟨answer, answers⟩ := answered settings (sourceOf line)
    rw [reply_of_answers filled same answers]
    exact .answered filled same answers

/-- A script prints what its run prints and then its answer. -/
theorem runScript_of_answers {text : String} {answer : Answer}
    (answers : Answers settings
      (run settings initial (scriptSource text)).1 answer) :
    runScript settings text =
      ⟨(run settings initial (scriptSource text)).2.1 ++ answer.printed, answer.ofScript⟩ := by
  rw [runScript, ← scriptSource]
  generalize run settings initial _ = result at answers
  obtain ⟨outcome, trace, after⟩ := result
  cases answers with
  | shown shown => simp only [shown, Answer.printed, Answer.ofScript]
  | refused refused caught told =>
    simp only [refused, caught, if_true, complaint_of_message told, Answer.printed, Answer.ofScript]
  | reported short written => simp only [written, Answer.printed, Answer.ofScript]
  | escaped long failed =>
    simp only [failed, Answer.printed, Answer.ofScript, Printed.append_nothing]

/-- A line after which the session goes on was handled. -/
theorem handled_of_continues (continues : (reply settings line).ending = none) :
    Handled settings line (reply settings line).printed := by
  have comes := reply_comes settings line
  generalize reply settings line = replied at comes continues
  cases comes with
  | blank blank => exact .blank blank
  | exit same => cases continues
  | answered filled other answers =>
    refine .answered filled other answers ?_
    rintro rfl
    cases continues

/-- A session that ends does so at the end of the input, at a line that says so, or with a fault
that nothing catches. -/
theorem finishes_of_ends {rest : List String} {final : Transcript}
    (ends : Ends settings .closed rest final) : Finishes settings rest final := by
  cases rest with
  | nil =>
    obtain rfl : final = leave .closed := ends
    exact .closed
  | cons line rest =>
    obtain ⟨ending, ended, rfl⟩ := ends
    have comes := reply_comes settings line
    rw [turn]
    generalize reply settings line = replied at comes ended
    cases comes with
    | blank blank => cases ended
    | exit same =>
      obtain rfl := Option.some.inj ended
      rw [Printed.append_nothing]
      exact .exit same
    | @answered answer filled other answers =>
      -- Of the answers only one ends a session.
      cases answer with
      | result text => cases ended
      | diagnostic text => cases ended
      | escaped =>
        obtain rfl := Option.some.inj ended
        dsimp only [Answer.printed]
        rw [Printed.append_nothing]
        exact .escaped filled other answers

/-! ### Sessions -/

/-- A session at the prompt handles line after line, each by nothing if it is blank or else by its
result or a diagnostic, until a line says to exit or the input ends. A script prints its result, or a
diagnostic and fails. Neither ends in any other way, except with the fault of writing a report that
lists a number with too many digits. -/
theorem session_endings (settings : Settings) :
    (∀ lines, ∃ handled rest printed final, lines = handled ++ rest ∧
      List.Forall₂ (Handled settings) handled printed ∧ Finishes settings rest final ∧
      interactive settings lines .closed =
        ⟨⟨banner, ""⟩ ++ (Printed.concat (printed.map (prompt ++ ·)) ++ final.printed),
          final.ending⟩) ∧
    ∀ name bytes text, FileName.isPossible name = true → String.fromUTF8? bytes = some text →
      ∃ answer, Answers settings (run settings initial (scriptSource text)).1 answer ∧
        script settings name (some bytes) =
          ⟨(run settings initial (scriptSource text)).2.1 ++ answer.printed, answer.ofScript⟩ := by
  constructor
  · intro lines
    have loaded : initial.registry = Standard.registry := rfl
    -- The session is cut where it stops being handled line by line.
    obtain ⟨handled, rest, final, split, each, ends, talk⟩ :=
      converse_turns settings .closed loaded lines
    refine ⟨handled, rest, handled.map fun line => (reply settings line).printed, final, split, ?_,
      finishes_of_ends ends, ?_⟩
    · rw [List.forall₂_map_right_iff, List.forall₂_same]
      exact fun line member => handled_of_continues (each line member)
    · rw [interactive, talk, List.map_map]
      rfl
  · intro name bytes text possible decoded
    obtain ⟨answer, answers⟩ := answered settings (scriptSource text)
    refine ⟨answer, answers, ?_⟩
    simp only [script, possible, decoded, Bool.not_true, Bool.false_eq_true, if_false]
    exact runScript_of_answers answers

/-- A script that compares two numbers. -/
theorem session_endings_comparison : FileName.isPossible "lt.lisp" = true ∧
    String.fromUTF8? "(lt 1 2)\r\n".toUTF8 = some "(lt 1 2)\r\n" ∧
    script ⟨Value.sourceFormat, false⟩ "lt.lisp" (some "(lt 1 2)\r\n".toUTF8) =
      ⟨.outLine "true", .exit 0⟩ := by
  have possible : FileName.isPossible "lt.lisp" = true := by simp [FileName.isPossible]
  have decoded : String.fromUTF8? "(lt 1 2)\r\n".toUTF8 = some "(lt 1 2)\r\n" := by
    simp only [String.fromUTF8?]
    exact dif_pos (String.isValidUTF8 _)
  -- The line break of the file is read as one.
  have parsed : parse "(lt 1 2)\n".toList =
      .ok (.list (some 0) [.symbol ⟨1, 2⟩, .symbol ⟨4, 1⟩, .symbol ⟨6, 1⟩]) := rfl
  have formed : Node.form? "(lt 1 2)\n".toList
      (.list (some 0) [.symbol ⟨1, 2⟩, .symbol ⟨4, 1⟩, .symbol ⟨6, 1⟩]) =
        some (.list 0 [.symbol 1 "lt".toList, .symbol 4 "1".toList, .symbol 6 "2".toList]) := rfl
  obtain ⟨outcome, after, evaluated, means⟩ :=
    Machine.evaluate_means { initial with journal := [] } rfl parsed formed
  obtain rfl : outcome = .ok (.bool true) := Except.eq_ok_of_toOption means
  have unified : scriptSource "(lt 1 2)\r\n" = "(lt 1 2)\n" := rfl
  have shown : (Value.bool true).showAs Value.sourceFormat = .ok "true" := rfl
  obtain ⟨answer, answers, ended⟩ :=
    (session_endings ⟨Value.sourceFormat, false⟩).2 "lt.lisp" _ _ possible decoded
  have succeeded : (run ⟨Value.sourceFormat, false⟩ initial "(lt 1 2)\n").1 = .success (.bool true) := by
    rw [run_outcome, Machine.run_value evaluated]
  rw [unified, succeeded] at answers
  rw [unified, run_untraced] at ended
  refine ⟨possible, decoded, ended.trans ?_⟩
  cases answers with
  | shown shown' =>
    obtain rfl := Except.ok.inj (shown.symm.trans shown')
    rfl
  | refused refused caught told => cases shown.symm.trans refused

end Session

/-! ### A report that is too long -/

/-- The digits of the greatest number that can be read. -/
def Number.nines : List Char := List.replicate digitLimit '9'

/-- As many nines as the limit allows are one less than the first number beyond it. -/
theorem Number.ofDigits_nines : ofDigits nines + 1 = 10 ^ digitLimit := by
  -- Each nine takes the number to one below the next power of ten, whatever was read before.
  have step : ∀ count value, (List.replicate count '9').foldl
      (fun value digit => 10 * value + (digit.toNat - '0'.toNat)) value + 1 =
        (value + 1) * 10 ^ count := by
    intro count
    induction count with
    | zero => simp
    | succ count ih =>
      intro value
      have next : 10 * value + ('9'.toNat - '0'.toNat) + 1 = (value + 1) * 10 := by
        change 10 * value + 9 + 1 = (value + 1) * 10
        omega
      rw [List.replicate_succ, List.foldl_cons, ih, next, Nat.pow_succ', Nat.mul_assoc]
  simpa [ofDigits, nines] using step digitLimit 0

/-- For any base and exponent, so that no power is computed. -/
private theorem pow_le_double (base exponent n : Nat) (next : n + 1 = base ^ exponent)
    (large : 1 < base) (positive : exponent ≠ 0) : Nat.pow base exponent ≤ n + n := by
  have many := Nat.one_lt_pow positive large
  change base ^ exponent ≤ n + n
  omega

/-- Twice that number is beyond the limit. -/
theorem Number.double_nines_exceeds :
    exceedsDigitLimit ((ofDigits nines : Int) + ofDigits nines) = true := by
  have same : ((ofDigits nines : Int) + ofDigits nines).natAbs = ofDigits nines + ofDigits nines := by
    omega
  have above := pow_le_double 10 digitLimit (ofDigits nines) ofDigits_nines (by decide) (by decide)
  rw [exceedsDigitLimit, same, decide_eq_true above]

/-- The nines themselves are within the limit, so they are read as a number. -/
theorem Atom.ofChars_nines (position : Int) :
    ofChars Number.nines position = .ok (.int (Number.ofDigits Number.nines)) := by
  have first : Number.nines = '9' :: List.replicate (Number.digitLimit - 1) '9' := rfl
  have none : constant? Number.nines = none := by
    rw [first]
    exact constant?_cons_eq_none (by decide)
  have digits : Number.nines.all Number.isDigit = true := by
    simp only [Number.nines, List.all_replicate]
    decide
  have fits : ¬ Number.digitLimit < Number.nines.length := by simp [Number.nines]
  rw [first] at none digits fits ⊢
  have digit : Number.isDigit '9' = true := by decide
  simp only [ofChars, none, digit, digits, Bool.not_true, readInt, if_neg fits, if_true]
  rfl

/-- A comparison of a number with a truth value is reported with both. -/
theorem Eval.mixed_comparison {σ : Type} (reenter : String → Eval σ Value) {machine : Machine σ}
    (loaded : machine.registry = Standard.registry) {mark head place : Int} {item : Form Int} {n : Int}
    (means : item.meaning σ = some (.int n)) : ∃ after,
    (Eval.form reenter (.list mark [.symbol head "lt".toList, item,
      .symbol place "true".toList])).run machine =
        (.error (.evaluation (.notApplicable "lt" [.integer, .boolean]) (some head)), after) ∧
    after.stack = ⟨"lt", [.int n, .bool true], some mark⟩ :: machine.stack := by
  have found : machine.registry.lookup (String.ofList "lt".toList) = some ⟨"lt",
      [Standard.fixed "lt" [.int, .int] (Standard.compare (· < ·))]⟩ := by
    rw [loaded]
    rfl
  have evaluated := forms_mean reenter [item, .symbol place "true".toList]
    { machine with stack := ⟨String.ofList "lt".toList, [], some mark⟩ :: machine.stack } loaded
  obtain ⟨outcome, between, ran, same, kept⟩ := evaluated
  have known : Form.meanings σ [item, .symbol place "true".toList] = some [.int n, .bool true] := by
    rw [Form.meanings_cons, means]
    rfl
  rw [known] at same kept
  obtain ⟨loaded', top⟩ := kept rfl
  cases outcome with
  | error fault => cases same
  | ok args =>
    obtain rfl := Option.some.inj same
    -- The arguments are noted before an operation is looked for, and none is found.
    have again : (between.registry.lookup (String.ofList "lt".toList)).getD ⟨"lt",
        [Standard.fixed "lt" [.int, .int] (Standard.compare (· < ·))]⟩ = ⟨"lt",
        [Standard.fixed "lt" [.int, .int] (Standard.compare (· < ·))]⟩ := by
      rw [loaded', ← loaded, found]
      rfl
    rw [form_run_known found, run_bind_ok ran, conclude_run _ top, again]
    exact ⟨_, run_bind_error (call_run_none rfl _), rfl⟩

/-- A source that compares a number with a truth value fails, and its trace lists the number. -/
theorem Machine.run_mixed_comparison {σ : Type} (machine : Machine σ)
    (loaded : machine.registry = Standard.registry) {text : String} {root : Node}
    {mark head place : Int} {item : Form Int} {n : Int} (parsed : parse text.toList = .ok root)
    (formed : root.form? text.toList =
      some (.list mark [.symbol head "lt".toList, item, .symbol place "true".toList]))
    (means : item.meaning σ = some (.int n)) : ∃ report,
    (machine.run text).1 = .failure report ∧
      report.trace = [⟨some "lt", [.int n, .bool true], some mark⟩] := by
  -- Emptying the stack leaves the registry.
  have cleared : ({ machine with stack := [] } : Machine σ).registry = Standard.registry := loaded
  obtain ⟨after, failed, left⟩ :=
    Eval.mixed_comparison (Eval.sourceWithin (Eval.nestingDepth - 1)) cleared means
  rw [← machine.evaluate_of_form parsed formed] at failed
  refine ⟨_, congrArg Prod.fst (Machine.run_reported failed rfl).1, ?_⟩
  rw [Machine.failure, Machine.frames, left]
  rfl

namespace Session

/-- The greatest number is added to itself, and the sum is compared with a truth value. -/
def overlong : String :=
  "(lt (add " ++ String.ofList Number.nines ++ " " ++ String.ofList Number.nines ++ ") true)"

private def overlongForm : Form Unit :=
  .list () [.symbol () "lt".toList, .list () [.symbol () "add".toList, .symbol () Number.nines,
    .symbol () Number.nines], .symbol () "true".toList]

private theorem overlong_chars : overlong.toList = overlongForm.chars := by
  simp [overlong, overlongForm, Form.chars, Form.spaced]

/-- The source is one that is read back from its form. -/
private theorem overlong_readable : overlongForm.Readable := by
  have nines : IsSymbolText Number.nines := by
    constructor
    · intro c member
      rw [List.eq_of_mem_replicate member]
      decide
    · decide
  have word (text : List Char) (inside : text.all (!Reader.endsSymbol ·) = true)
      (unquoted : text.head? ≠ some '"') : (Form.symbol () text).Readable := by
    refine .symbol () text ⟨fun c member => ?_, unquoted⟩
    simpa using List.all_eq_true.mp inside c member
  have sum : (Form.list () [.symbol () "add".toList, .symbol () Number.nines,
      .symbol () Number.nines]).Readable := by
    refine .list () _ ?_
    simp only [List.forall_mem_cons]
    exact ⟨word _ (by decide) (by decide), .symbol () _ nines, .symbol () _ nines, nofun⟩
  refine .list () _ ?_
  simp only [List.forall_mem_cons]
  exact ⟨word _ (by decide) (by decide), sum, word _ (by decide) (by decide), nofun⟩

/-- Blanks are taken away at the two ends only, and here there are none. -/
private theorem overlong_trimmed : sourceOf overlong = overlong := by
  have ends : ∃ inner, overlong.toList = '(' :: (inner ++ [')']) := ⟨_, overlong_chars⟩
  obtain ⟨inner, ends⟩ := ends
  have opens : Text.isBlank '(' = false := by decide
  have closes : Text.isBlank ')' = false := by decide
  have kept : Text.trim overlong.toList = overlong.toList := by
    simp [Text.trim, Text.dropTrailing, ends, opens, closes]
  rw [sourceOf, kept, String.ofList_toList]

/-- A text without carriage returns has its line breaks as they are. -/
private theorem unifyNewlines_eq (text : List Char) (plain : '\r' ∉ text) :
    Text.unifyNewlines text = text := by
  fun_induction Text.unifyNewlines text with
  | case1 => rfl
  | case2 rest ih => simp at plain
  | case3 c rest _ ih =>
    simp only [List.mem_cons, not_or] at plain
    rw [if_neg (Ne.symm plain.1), ih plain.2]

private theorem overlong_unified : scriptSource overlong = overlong := by
  have plain : '\r' ∉ overlong.toList := by
    simp [overlong, Number.nines, List.mem_replicate]
  rw [scriptSource, unifyNewlines_eq _ plain, String.ofList_toList]

/-- The sum has more digits than either of its terms, and more than can be written. -/
private theorem sum_means : ∃ n : Int, Number.exceedsDigitLimit n = true ∧
    ∀ mark head first second : Int, (Form.list mark [.symbol head "add".toList,
      .symbol first Number.nines, .symbol second Number.nines]).meaning Unit = some (.int n) := by
  refine ⟨_, Number.double_nines_exceeds, fun mark head first second => ?_⟩
  have leaf (place : Int) : (Form.symbol place Number.nines).meaning Unit =
      some (.int (Number.ofDigits Number.nines)) :=
    Form.Writes.meaning_eq (.atom place (by decide) Atom.ofChars_nines)
  have added (n : Int) : Standard.result? Unit "add" [.int n, .int n] = some (.int (0 + n + n)) := rfl
  rw [Form.meaning, Form.meanings_cons, Form.meanings_cons, leaf, leaf]
  have sum := added (Number.ofDigits Number.nines)
  rw [Int.zero_add] at sum
  exact sum

/-- The report of its failure lists the sum, which is too long. -/
theorem overlong_fails (settings : Settings) : ∃ report,
    (run settings initial overlong).1 = .failure report ∧ report.IsLong := by
  obtain ⟨root, parsed, formed⟩ := parse_chars overlongForm overlong_readable rfl
  rw [← overlong_chars] at parsed formed
  -- Only where the parts begin matters, not how long the numbers are.
  have placed : ∃ first second last, (overlongForm.place 0).prune = .list 0 [.symbol 1 "lt".toList,
      .list 4 [.symbol 5 "add".toList, .symbol first Number.nines, .symbol second Number.nines],
      .symbol last "true".toList] := ⟨_, _, _, rfl⟩
  obtain ⟨first, second, last, placed⟩ := placed
  rw [placed] at formed
  obtain ⟨n, long, means⟩ := sum_means
  obtain ⟨report, failed, trace⟩ := Machine.run_mixed_comparison { initial with journal := [] } rfl
    parsed formed (means 4 5 first second)
  have listed : (⟨some "lt", [.int n, .bool true], some 0⟩ : TraceEntry) ∈ report.trace := by
    rw [trace]
    exact List.mem_cons_self
  rw [run_outcome]
  exact ⟨report, failed, _, listed, .int n, List.mem_cons_self, n, rfl, long⟩

/-- So no report of the failure can be written, whatever the settings. -/
private theorem overlong_answers (settings : Settings) :
    Answers settings (run settings initial overlong).1 .escaped := by
  obtain ⟨report, failed, long⟩ := overlong_fails settings
  obtain ⟨answer, answers⟩ := answered settings overlong
  rw [failed] at answers ⊢
  cases answers with
  | reported short written => exact absurd long short
  | escaped _ escapes => exact .escaped long escapes

/-- So nothing catches the fault of writing the report, at the prompt or in a script. -/
theorem overlong_escapes :
    interactive ⟨Value.sourceFormat, false⟩ [overlong] .closed =
      ⟨⟨banner ++ ">> ", ""⟩, .fault .tooManyDigitsToWrite⟩ ∧
    runScript ⟨Value.sourceFormat, false⟩ overlong = ⟨.nothing, .fault .tooManyDigitsToWrite⟩ := by
  have answers := overlong_answers ⟨Value.sourceFormat, false⟩
  have silent := run_untraced Value.sourceFormat initial overlong
  constructor
  · have filled : (sourceOf overlong).isEmpty = false := by
      rw [overlong_trimmed, String.isEmpty_eq_false_iff]
      intro same
      have begins := congrArg (·.toList.head?) same
      simp [overlong] at begins
    have other : sourceOf overlong ≠ exitLine := by
      rw [overlong_trimmed]
      intro same
      have begins := congrArg (·.toList.head?) same
      simp [overlong, exitLine] at begins
    have replied : reply ⟨Value.sourceFormat, false⟩ overlong = _ :=
      reply_of_answers filled other (overlong_trimmed.symm ▸ answers)
    rw [overlong_trimmed, silent] at replied
    rw [interactive_single, turn, replied]
    rfl
  · have answers' : Answers ⟨Value.sourceFormat, false⟩
        (run ⟨Value.sourceFormat, false⟩ initial (scriptSource overlong)).1 .escaped := by
      rw [overlong_unified]
      exact answers
    rw [runScript_of_answers answers', overlong_unified, silent]
    rfl

end Session

end HostLisp
