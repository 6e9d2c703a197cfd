import HostLisp.Proofs.AtomClasses
import HostLisp.Proofs.FailureLocation
import HostLisp.Proofs.Substitution
import HostLisp.Proofs.WritableReports

/-!
# Reproducing refused calls

A call whose arguments no operation takes ends the trace of its run, with the arguments that it had.
What is printed of it is a source of its own, and that source fails in the same way.

## Main results

`Machine.run_refused`: the text of a call with written arguments that no operation takes fails with
that call.

`run_reproduced`: with the standard operations alone the last call of the trace of a refusal, run
again, is refused with the same message.

## Proof strategy

A refusal is the end of the path to the failure, so its arguments are values of forms. Such values
are written as forms that stand for them.
-/

namespace HostLisp

variable {σ : Type}

/-! ### Calls with written arguments -/

theorem Form.Writes.chars_ne_nil {α : Type} {form : Form α} {value : Value}
    (writes : form.Writes value) : form.chars ≠ [] := by
  cases writes with
  | atom mark filled spelled => exact filled
  | text mark body => exact List.cons_ne_nil _ _

namespace Eval

variable {reenter : String → Eval σ Value}

/-- A written value is evaluated without any effect. -/
theorem form_of_writes {form : Form Int} {value : Value} (writes : form.Writes value) :
    Eval.form reenter form = pure value := by
  cases writes with
  | @atom text _ mark filled spelled =>
    obtain ⟨c, rest, rfl⟩ := List.exists_cons_of_ne_nil filled
    simp only [Eval.form, Atom.ofText, spelled]
  | text mark body => rfl

/-- A row of written values is evaluated to these values. -/
theorem forms_of_writes {forms : List (Form Int)} {values : List Value}
    (writes : List.Forall₂ Form.Writes forms values) : Eval.forms reenter forms = pure values := by
  induction writes with
  | nil => rfl
  | cons first _ ih =>
    rw [Eval.forms, form_of_writes first, ih]
    rfl

end Eval

/-- A name and texts between spaces are the text of a call. -/
theorem toList_call (name : String) (forms : List (Form Unit)) :
    ("(" ++ " ".intercalate (name :: forms.map fun form => String.ofList form.chars) ++ ")").toList =
      (Form.list () (.symbol () name.toList :: forms)).chars := by
  rw [String.toList_append, String.toList_append, Form.toList_joined]
  simp [Form.chars, Form.spaced_eq_flatMap, Function.comp_def]

/-- A call is shown as it would be written. -/
theorem TraceEntry.render_eq (name : String) {args : List Value} (position : Option Int)
    {forms : List (Form Unit)}
    (printed : args.mapM Value.print = .ok (forms.map fun form => String.ofList form.chars))
    (filled : ∀ form ∈ forms, form.chars ≠ []) :
    (TraceEntry.mk (some name) args position).render = .ok ("(" ++ " ".intercalate
      (name :: forms.map fun form => String.ofList form.chars) ++ ")") := by
  simp only [render, printed, bind, Except.bind, Option.getD_some]
  cases forms with
  | nil => simp
  | cons first rest =>
    have shown : (" ".intercalate ((first :: rest).map fun form => String.ofList form.chars)).isEmpty =
        false := by
      rw [Bool.eq_false_iff, Ne, String.isEmpty_iff, ← String.toList_eq_nil_iff, List.map_cons,
        Form.toList_joined]
      simp [filled first List.mem_cons_self]
    rw [shown, List.map_cons, String.intercalate_cons_cons]
    simp [String.append_assoc]

/-- The text of a call with written arguments that no operation takes leaves that call in progress. -/
theorem Machine.evaluate_refused (machine : Machine σ) {name : String} {known : Overloads σ}
    (found : machine.registry.lookup name = some known) {source : String} {root : Node}
    {items : List (Form Int)} (parsed : parse source.toList = .ok root)
    (formed : root.form? source.toList = some (.list 0 (.symbol 1 name.toList :: items)))
    {args : List Value} (writes : List.Forall₂ Form.Writes items args)
    (chosen : known.choose? args = none) : ∃ after,
      machine.evaluate source =
        (.error (.evaluation (.notApplicable name (args.map Value.kind)) (some 1)), after) ∧
      after.stack = [⟨name, args, some 0⟩] := by
  -- The arguments register nothing, so the set is still the one that was found.
  have same : (machine.registry.lookup name).getD known = known := by
    rw [found]
    rfl
  rw [machine.evaluate_of_form parsed formed, Eval.form_run_known (by simpa using found),
    String.ofList_toList, Eval.forms_of_writes writes, pure_bind, Eval.conclude_run args rfl, same,
    Eval.run_bind_error (Eval.call_run_none chosen _), Registry.name_of_lookup found]
  exact ⟨_, rfl, rfl⟩

/-- The text of a call with written arguments that no operation takes fails with that call. -/
theorem Machine.run_refused (machine : Machine σ) {name : String} {known : Overloads σ}
    (found : machine.registry.lookup name = some known) (filled : name.toList ≠ [])
    (whole : IsSymbolText name.toList) {args : List Value}
    (literals : ∀ value ∈ args, value.IsLiteral) (chosen : known.choose? args = none) :
    ∃ shown, (∀ position, (TraceEntry.mk (some name) args position).render = .ok shown) ∧
      ∃ report after, machine.run shown = (.failure report, after) ∧
        report.message =
          some ("EvaluationError: " ++ (Cause.notApplicable name (args.map Value.kind)).message) ∧
        report.location = some ⟨1, some 2⟩ ∧ report.trace = [⟨some name, args, some 0⟩] := by
  obtain ⟨forms, printed, readable, writes⟩ := forms_of_literals args literals
  have text := toList_call name forms
  obtain ⟨root, items, parsed, formed, writes'⟩ := parse_call filled whole readable writes text
  refine ⟨_, fun position => TraceEntry.render_eq name position printed ?_, ?_⟩
  · have filled' := writes.imp fun _ _ writes => And.intro writes.chars_ne_nil writes
    exact ((List.forall₂_and_left _ _).mp filled').1
  · obtain ⟨after, failed, left⟩ := machine.evaluate_refused found parsed formed writes' chosen
    obtain ⟨ran, message⟩ := Machine.run_reported failed rfl
    refine ⟨_, after, ran, message, ?_, ?_⟩
    · rw [Machine.failure, text, Form.chars]
      rfl
    · rw [Machine.failure, Machine.frames, left]
      rfl

/-! ### Refusals -/

/-- The beginning of the message of a refusal. -/
def refusalText : String := "EvaluationError: Failed to invoke function"

/-- The message of a fault is that of a refusal. -/
def Fault.IsRefusal (fault : Fault) : Prop := ∃ rest, fault.runMessage = .ok (refusalText ++ rest)

/-- A message that begins otherwise is not that of a refusal. -/
private theorem Fault.not_isRefusal {fault : Fault} (start more : String)
    (worded : fault.runMessage = .ok (start ++ more)) (long : 19 ≤ start.toList.length)
    (differs : start.toList.take 19 ≠ refusalText.toList.take 19) : ¬ fault.IsRefusal := by
  rintro ⟨rest, same⟩
  have first := congrArg (fun text : String => text.toList.take 19)
    (Except.ok.inj (worded.symm.trans same))
  simp only [String.toList_append, List.take_append_of_le_length long] at first
  rw [List.take_append_of_le_length (by decide)] at first
  exact differs first

/-- The beginning of a message can be told apart from the text that it quotes. -/
private theorem spliced (start word text : String) :
    start ++ (word ++ text ++ "'") = start ++ word ++ (text ++ "'") := by
  simp only [String.append_assoc]

/-- The evaluator says something else of a symbol that has no value. -/
private theorem Atom.not_isRefusal {text : List Char} {mark : Int} {fault : Fault}
    (invalid : Atom.ofText text mark = .error fault) : ¬ fault.IsRefusal := by
  cases text with
  | nil =>
    cases invalid
    exact Fault.not_isRefusal ("EvaluationError: " ++ Cause.zeroLengthSymbol.message) ""
      (congrArg _ String.append_empty.symm) (by decide) (by decide)
  | cons c rest =>
    rw [Atom.ofText_eq_iff (List.cons_ne_nil c rest)] at invalid
    cases invalid with
    | longNumber digits long =>
      exact Fault.not_isRefusal "InternalError: ValueError: " _ rfl (by decide) (by decide)
    | invalidNumber begun other =>
      exact Fault.not_isRefusal _ _ (congrArg _ (spliced "EvaluationError: " "Invalid integer literal '" _))
        (by decide) (by decide)
    | unknown unbegun different =>
      exact Fault.not_isRefusal _ _ (congrArg _ (spliced "EvaluationError: " "Unexpected symbol '" _))
        (by decide) (by decide)

namespace Eval

variable {reenter : String → Eval σ Value} {machine after : Machine σ} {form : Form Int}
  {outer : List Form.Call} {fault : Fault}

/-- Of the stops only a call whose arguments no operation takes is a refusal. -/
private theorem Stop.Gives.not_isRefusal {point : Form Int} (gives : (Stop.refused point).Gives fault) :
    ¬ fault.IsRefusal := by
  cases gives with
  | symbol invalid => exact Atom.not_isRefusal invalid
  | empty mark =>
    exact Fault.not_isRefusal ("EvaluationError: " ++ Cause.emptyList.message) ""
      (congrArg _ String.append_empty.symm) (by decide) (by decide)
  | head mark items =>
    exact Fault.not_isRefusal ("EvaluationError: " ++ Cause.headNotSymbol.message) ""
      (congrArg _ String.append_empty.symm) (by decide) (by decide)
  | unknown call =>
    exact Fault.not_isRefusal _ _ (congrArg _ (spliced "EvaluationError: " "Unknown function '" _))
      (by decide) (by decide)

end Eval

/-! ### Running the last call again -/

/-- A run that is refused leaves the refused call at the end of its trace. -/
theorem Machine.run_isRefusal (machine : Machine σ) (loaded : machine.registry = Standard.registry)
    {text : String} {report : Failure} {after : Machine σ}
    (ran : machine.run text = (.failure report, after))
    (refused : ∃ rest, report.message = some (refusalText ++ rest)) :
    ∃ call args, Eval.Refused call args after ∧
      report.message = some ("EvaluationError: " ++
        (Cause.notApplicable call.symbol (args.map Value.kind)).message) ∧
      report.trace.getLast? = some ⟨some call.symbol, args, some call.mark⟩ := by
  obtain ⟨fault, words, evaluated, worded, rfl⟩ := Machine.run_eq_failure.mp ran
  have message : (after.failure text fault).message = some words :=
    (Machine.run_reported evaluated worded).2
  -- The message is that of the fault, so it is the fault that is a refusal.
  have refusal : fault.IsRefusal := by
    obtain ⟨rest, same⟩ := refused
    exact ⟨rest, worded.trans (congrArg _ (Option.some.inj (message.symm.trans same)))⟩
  cases parsed : parse text.toList with
  -- A source that has no tree is told apart by the class of its fault.
  | error ended =>
    rw [machine.evaluate_of_error parsed, parse_error parsed] at evaluated
    cases evaluated
    refine absurd refusal (Fault.not_isRefusal ("ParseError: " ++ Fault.endOfInputMessage) ""
      (congrArg _ String.append_empty.symm) (by decide) (by decide))
  | ok root =>
    obtain ⟨form, formed, -⟩ := parse_form text.toList root parsed
    rw [machine.evaluate_of_form parsed formed] at evaluated
    have direct : machine.registry.Direct := loaded ▸ Standard.registry_direct
    obtain ⟨-, outer, stop, stops, left⟩ :=
      Eval.form_leaves _ form { machine with stack := [] } direct _ _ evaluated
    have gives := stops.gives
    -- With the standard operations no operation fails, so an evaluation stops at a form or at a
    -- call that is refused.
    rcases stops.refused loaded with ⟨point, rfl⟩ | ⟨call, args, rfl, known⟩
    · exact absurd refusal gives.not_isRefusal
    · cases gives
      refine ⟨call, args, known, rfl, ?_⟩
      -- The call that is refused is the innermost one, and so the last in the trace.
      rw [Machine.failure, Machine.frames, left, List.append_nil, List.reverse_reverse,
        Eval.Stop.frames]
      simp [Eval.Stop.frame?, Frame.entry, Form.Call.frame]

/-- With the standard operations alone the last call in the trace of a refusal is a source that
fails alike: it is refused with the same message at its name, and the trace is that call, with the
same arguments. -/
theorem run_reproduced (machine : Machine σ) (loaded : machine.registry = Standard.registry)
    (text : String) (report : Failure) (after : Machine σ)
    (ran : machine.run text = (.failure report, after))
    (refused : ∃ rest, report.message = some ("EvaluationError: Failed to invoke function" ++ rest))
    (short : ∀ entry ∈ report.trace.getLast?, ∀ n, .int n ∈ entry.args →
      n.natAbs < 10 ^ Number.digitLimit) :
    ∃ entry shown, report.trace.getLast? = some entry ∧ entry.render = .ok shown ∧
      TraceEntry.renderAll [entry] = .ok ("MiniLisp stacktrace: " ++ shown) ∧
      ∃ report' later, after.run shown = (.failure report', later) ∧
        report'.message = report.message ∧ report'.location = some ⟨1, some 2⟩ ∧
        ∃ entry', report'.trace = [entry'] ∧ entry'.name = entry.name ∧ entry'.args = entry.args := by
  obtain ⟨call, args, ⟨⟨known, found, chosen⟩, kinds, loaded'⟩, message, last⟩ :=
    machine.run_isRefusal loaded ran refused
  -- All arguments can be written, because numbers that cannot are excluded.
  have literals : ∀ value ∈ args, value.IsLiteral := by
    intro value member
    obtain ⟨kind, has⟩ := kinds value member
    refine has.isLiteral ?_
    rintro n rfl
    exact short _ last n member
  obtain ⟨filled, whole⟩ := Standard.isSymbolText_of_lookup found
  rw [← loaded'] at found
  obtain ⟨shown, rendered, report', later, again, message', location, trace⟩ :=
    after.run_refused found filled whole literals chosen
  refine ⟨_, shown, last, rendered _, ?_, report', later, again, ?_, location, _, trace, rfl, rfl⟩
  · have each := rendered (some call.mark)
    simp [TraceEntry.renderAll, each, bind, Except.bind, pure, Except.pure]
  · rw [message, message']

/-- A number that is computed, and a text with a quote and a backslash. -/
theorem run_reproduced_computed :
    (Machine.fresh Standard.registry ()).registry = Standard.registry ∧
    ∃ report after, (Machine.fresh Standard.registry ()).run "(not (add 1 2) \"a\\\"\\\\\")" =
        (.failure report, after) ∧
      report.message =
        some ("EvaluationError: Failed to invoke function" ++ " 'not' with arguments (int, string)") ∧
      (∀ entry ∈ report.trace.getLast?, ∀ n, .int n ∈ entry.args → n.natAbs < 10 ^ Number.digitLimit) ∧
      ∃ report' later, after.run "(not 3 \"a\\\"\\\\\")" = (.failure report', later) ∧
        report'.message = report.message ∧ report'.location = some ⟨1, some 2⟩ ∧
        ∃ entry, report'.trace = [entry] ∧ entry.name = some "not" ∧
          entry.args = [.int 3, .text "a\"\\"] := by
  have parsed : parse "(not (add 1 2) \"a\\\"\\\\\")".toList = .ok (.list (some 0) [.symbol ⟨1, 3⟩,
      .list (some 5) [.symbol ⟨6, 3⟩, .symbol ⟨10, 1⟩, .symbol ⟨12, 1⟩], .string ⟨16, 5⟩]) := rfl
  have ends (reenter : String → Eval Unit Value) : ∃ after,
      (Eval.node reenter "(not (add 1 2) \"a\\\"\\\\\")".toList (.list (some 0) [.symbol ⟨1, 3⟩,
        .list (some 5) [.symbol ⟨6, 3⟩, .symbol ⟨10, 1⟩, .symbol ⟨12, 1⟩], .string ⟨16, 5⟩])).run
          (Machine.fresh Standard.registry ()) =
        (.error (.evaluation (.notApplicable "not" [.integer, .string]) (some 1)), after) ∧
      after.frames = [⟨"not", [.int 3, .text "a\"\\"], some 0⟩] := ⟨_, rfl, rfl⟩
  obtain ⟨after, failed, left⟩ := ends (Eval.sourceWithin (Eval.nestingDepth - 1))
  have worded : (Fault.evaluation (.notApplicable "not" [.integer, .string]) (some 1)).runMessage =
      .ok ("EvaluationError: Failed to invoke function" ++ " 'not' with arguments (int, string)") := rfl
  obtain ⟨ran, words⟩ := Machine.run_reported
    ((Machine.evaluate_of_parse (.fresh Standard.registry ()) parsed).trans failed) worded
  have small : (3 : Int).natAbs < 10 ^ Number.digitLimit :=
    calc (3 : Int).natAbs < 10 ^ 1 := by decide
      _ ≤ 10 ^ Number.digitLimit := Nat.pow_le_pow_right (by decide) (by decide)
  have last : (after.failure "(not (add 1 2) \"a\\\"\\\\\")"
      (.evaluation (.notApplicable "not" [.integer, .string]) (some 1))).trace.getLast? =
      some ⟨some "not", [.int 3, .text "a\"\\"], some 0⟩ := by
    rw [Machine.failure, left]
    rfl
  have short : ∀ entry ∈ (after.failure "(not (add 1 2) \"a\\\"\\\\\")"
      (.evaluation (.notApplicable "not" [.integer, .string]) (some 1))).trace.getLast?,
      ∀ n, .int n ∈ entry.args → n.natAbs < 10 ^ Number.digitLimit := by
    rw [last]
    rintro _ ⟨⟩ n member
    obtain rfl : n = 3 := by simpa using member
    exact small
  obtain ⟨entry, shown, last', rendered, -, report', later, again, message, location, entry', trace,
    named, args⟩ := run_reproduced _ rfl _ _ after ran ⟨" 'not' with arguments (int, string)", rfl⟩
      short
  obtain rfl := Option.some.inj (last'.symm.trans last)
  have printed : (Value.int 3).print = .ok "3" := writeInt_eq_ok small
  have shown' : (TraceEntry.mk (some "not") [.int 3, .text "a\"\\"] (some 0)).render =
      .ok "(not 3 \"a\\\"\\\\\")" := by
    rw [TraceEntry.render, List.mapM_cons, printed]
    rfl
  obtain rfl := Except.ok.inj (rendered.symm.trans shown')
  exact ⟨rfl, _, after, ran, words, short, report', later, again, message, location, entry', trace,
    named, args⟩

end HostLisp
