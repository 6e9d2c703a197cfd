import HostLisp.Proofs.FailureLocation
import HostLisp.Proofs.StandardMeaning
import HostLisp.Output.Format

/-!
# What can be written

Values and the reports of failures are written out as text, and this can fail as well. With the
standard operations there is one cause: a number with too many digits.

## Main results

`Failure.render_writes`: a report is written unless a number of its trace has too many digits.

`Machine.run_kinds`: with the standard operations a run gives a value that has a kind, or a report
all of whose arguments have kinds. It does not raise.

`Value.HasKind.showAs_writing`: a value that has a kind is shown, or the fault is one that sessions
catch and for which there are words.

## Proof strategy

The calls of a report are those on the path to the failure. Only the last of them has arguments, and
these are values of forms.
-/

namespace HostLisp

variable {σ α β : Type}

/-! ### Writing -/

/-- Something is written, unless it is too long. -/
inductive WritesUnless (long : Prop) : Except Fault α → Prop
  | written (text : α) (short : ¬ long) : WritesUnless long (.ok text)
  | tooLong (holds : long) : WritesUnless long (.error .tooManyDigitsToWrite)

namespace WritesUnless

variable {long long' : Prop}

theorem congr {result : Except Fault α} (writes : WritesUnless long result) (same : long ↔ long') :
    WritesUnless long' result := by
  cases writes with
  | written text short => exact .written text (mt same.mpr short)
  | tooLong holds => exact .tooLong (same.mp holds)

theorem bind {result : Except Fault α} (writes : WritesUnless long result) (next : α → β) :
    WritesUnless long (result >>= fun text => .ok (next text)) := by
  cases writes with
  | written text short => exact .written (next text) short
  | tooLong holds => exact .tooLong holds

/-- Several things are written unless one of them is too long. -/
theorem mapM {write : α → Except Fault β} {isLong : α → Prop} (items : List α)
    (each : ∀ item ∈ items, WritesUnless (isLong item) (write item)) :
    WritesUnless (∃ item ∈ items, isLong item) (items.mapM write) := by
  induction items with
  | nil => exact .written [] (by simp)
  | cons first rest ih =>
    have here := each first List.mem_cons_self
    have there := ih fun item member => each item (List.mem_cons_of_mem first member)
    rw [List.mapM_cons]
    cases begun : write first with
    | error fault =>
      rw [begun] at here
      cases here with
      | tooLong holds => exact .tooLong ⟨first, List.mem_cons_self, holds⟩
    | ok text =>
      rw [begun] at here
      cases here with
      | written _ short =>
        -- The first is written, so it is the rest that decides.
        refine (there.bind (text :: ·)).congr ?_
        simp [short]

end WritesUnless

/-! ### Values -/

/-- A value is a number with too many digits. -/
def Value.IsLong (value : Value) : Prop :=
  ∃ n : Int, value = .int n ∧ Number.exceedsDigitLimit n = true

theorem writeInt_writes (n : Int) : WritesUnless (Value.int n).IsLong (writeInt n) := by
  rw [writeInt]
  cases exceeds : Number.exceedsDigitLimit n with
  | true => exact .tooLong ⟨n, rfl, exceeds⟩
  | false =>
    refine .written _ ?_
    rintro ⟨_, ⟨⟩, long⟩
    rw [exceeds] at long
    cases long

namespace Value.HasKind

variable {value : Value} {kind : Kind}

theorem print_writes (has : value.HasKind kind) : WritesUnless value.IsLong value.print := by
  cases has with
  | int n => exact writeInt_writes n
  | bool b => exact .written _ (by simp [IsLong])
  | text s => exact .written _ (by simp [IsLong])
  | null => exact .written _ (by simp [IsLong])

end Value.HasKind

/-- What can go wrong where a value that has a kind is written in a format. -/
inductive Fault.OfWriting : Fault → Prop
  | tooLong : OfWriting .tooManyDigitsToWrite
  | noFormat (shown : String) : OfWriting (.unsupportedFormat shown)

namespace Fault.OfWriting

variable {fault : Fault}

theorem caught (writing : fault.OfWriting) : fault.isValueError = true := by
  cases writing <;> rfl

theorem told (writing : fault.OfWriting) : ∃ message, fault.message = .ok message := by
  cases writing with
  | tooLong => exact ⟨_, rfl⟩
  | noFormat shown => exact ⟨_, rfl⟩

end Fault.OfWriting

namespace Value.HasKind

variable {value : Value} {kind : Kind}

/-- In a format for documents a number is written as in any other text. -/
private theorem render_writing (has : value.HasKind kind) (format : Format) (fault : Fault)
    (failed : (do let document ← Document.ofValue value; document.render format true) = .error fault) :
    fault.OfWriting := by
  cases has with
  | int n =>
    have writes := writeInt_writes n
    cases written : writeInt n with
    | ok text =>
      cases format <;>
        simp [Document.ofValue, Document.render, Json.render, Json.write, Yaml.render, Yaml.safeDump,
          Yaml.Node.ofDocument, written, bind, Except.bind, Except.map] at failed
    | error cause =>
      rw [written] at writes
      cases writes with
      | tooLong holds =>
        cases format <;>
          simp [Document.ofValue, Document.render, Json.render, Json.write, Yaml.render,
            Yaml.safeDump, Yaml.Node.ofDocument, written, bind, Except.bind, Except.map] at failed
        all_goals
          subst failed
          exact .tooLong
  | bool b => cases format <;> cases failed
  | text s => cases format <;> cases failed
  | null => cases format <;> cases failed

/-- The one fault that is not of the number is that there is no such format. -/
theorem writeAs_writing (has : value.HasKind kind) (name : Option String) (fault : Fault)
    (failed : value.writeAs name true = .error fault) : fault.OfWriting := by
  cases named : Format.ofName? (Text.lower (name.getD "")) with
  | some format =>
    simp only [writeAs, named] at failed
    exact has.render_writing format fault failed
  | none =>
    simp only [writeAs, named] at failed
    cases has <;> cases failed <;> exact .noFormat _

theorem showAs_writing (has : value.HasKind kind) (name : String) (fault : Fault)
    (failed : value.showAs name = .error fault) : fault.OfWriting := by
  simp only [showAs] at failed
  split_ifs at failed with source
  · -- As source text a value is printed.
    have writes := has.print_writes
    rw [failed] at writes
    cases writes with
    | tooLong holds => exact .tooLong
  · cases written : value.writeAs (some (Text.lower name)) true with
    | ok text =>
      rw [written] at failed
      cases failed
    | error cause =>
      rw [written] at failed
      cases failed
      exact has.writeAs_writing _ _ written

end Value.HasKind

/-! ### Reports -/

/-- The arguments of a call as a report shows it have kinds. -/
def TraceEntry.HasKinds (entry : TraceEntry) : Prop := ∀ value ∈ entry.args, ∃ kind, value.HasKind kind

def TraceEntry.IsLong (entry : TraceEntry) : Prop := ∃ value ∈ entry.args, value.IsLong

theorem TraceEntry.render_writes {entry : TraceEntry} (known : entry.HasKinds) :
    WritesUnless entry.IsLong entry.render := by
  have args : WritesUnless entry.IsLong (entry.args.mapM Value.print) := by
    apply WritesUnless.mapM
    intro value member
    obtain ⟨kind, has⟩ := known value member
    exact has.print_writes
  exact args.bind _

namespace Failure

/-- A number in the trace of a report has too many digits. -/
def IsLong (report : Failure) : Prop := ∃ entry ∈ report.trace, entry.IsLong

def HasKinds (report : Failure) : Prop := ∀ entry ∈ report.trace, entry.HasKinds

/-- A report is written unless a number of its trace has too many digits. -/
theorem render_writes {report : Failure} (known : report.HasKinds) :
    WritesUnless report.IsLong report.render := by
  have trace : WritesUnless report.IsLong (TraceEntry.renderAll report.trace) := by
    rw [TraceEntry.renderAll]
    split_ifs with none
    · refine .written "" ?_
      simp [IsLong, List.isEmpty_iff.mp none]
    · have shown : WritesUnless report.IsLong (report.trace.mapM TraceEntry.render) := by
        apply WritesUnless.mapM
        intro entry member
        exact TraceEntry.render_writes (known entry member)
      exact shown.bind _
  exact trace.bind _

end Failure

/-! ### Failures of standard operations -/

theorem Value.kinds_each {values : List Value} {kinds : List Kind}
    (have' : List.Forall₂ HasKind values kinds) : ∀ value ∈ values, ∃ kind, value.HasKind kind := by
  induction have' with
  | nil => exact nofun
  | cons has _ ih => exact List.forall_mem_cons.mpr ⟨⟨_, has⟩, ih⟩

theorem Operation.Gives.direct {operation : Operation σ} (gives : operation.Gives) :
    operation.Direct := by
  have acts : ∀ args, (operation.run args).Direct := by
    intro args
    obtain ⟨value, given⟩ := gives args
    rw [given]
    trivial
  cases operation with
  | fixed label types run => exact acts
  | variadic label type run => exact acts

theorem Standard.registry_direct : (registry (σ := σ)).Direct :=
  fun overloads member operation inside => (registry_gives overloads member operation inside).direct

namespace Eval

variable {reenter : String → Eval σ Value} {machine between after : Machine σ}

/-- The values of forms have kinds, and with the forms nothing is registered. -/
theorem forms_evaluated {items : List (Form Int)} {values : List Value}
    (evaluated : (forms reenter items).run machine = (.ok values, between))
    (loaded : machine.registry = Standard.registry) :
    between.registry = Standard.registry ∧ ∀ value ∈ values, ∃ kind, value.HasKind kind := by
  obtain ⟨outcome, after, ran, same, kept⟩ := forms_mean reenter items machine loaded
  cases evaluated.symm.trans ran
  have means : Form.meanings σ items = some values := same.symm
  obtain ⟨kinds, have'⟩ := Form.meanings_haveKinds items values means
  exact ⟨(kept (by rw [means]; rfl)).1, Value.kinds_each have'⟩

/-- With the standard operations the arguments at the end of a path have kinds. -/
theorem Stops.haveKinds {form : Form Int} {outer : List Form.Call} {stop : Stop} {fault : Fault}
    (stops : Stops reenter machine form outer stop fault after)
    (loaded : machine.registry = Standard.registry) :
    ∀ frame ∈ stop.frames outer, frame.entry.HasKinds := by
  have last : ∀ frame ∈ stop.frame?, frame.entry.HasKinds := by
    induction stops with
    | symbol invalid => exact nofun
    | empty machine mark => exact nofun
    | head machine mark rest other => exact nofun
    | unknown absent => exact nofun
    | argument found split evaluated stops ih =>
      -- The arguments before the one that fails register nothing.
      exact ih (forms_evaluated evaluated loaded).1
    | unapplied found evaluated chosen =>
      rintro frame ⟨⟩
      exact (forms_evaluated evaluated loaded).2
    | raised found evaluated chosen failed =>
      rintro frame ⟨⟩
      exact (forms_evaluated evaluated loaded).2
  intro frame member
  rcases List.mem_append.mp member with path | here
  · -- A call on the way to the failure has no arguments yet.
    obtain ⟨call, -, rfl⟩ := List.mem_map.mp path
    exact nofun
  · exact last frame (Option.mem_toList.mp here)

/-- What is known of a call at which a run with the standard operations ended. -/
structure Refused (call : Form.Call) (args : List Value) (after : Machine σ) : Prop where
  known : ∃ overloads, (Standard.registry (σ := σ)).lookup call.symbol = some overloads ∧
    overloads.choose? args = none
  kinds : ∀ value ∈ args, ∃ kind, value.HasKind kind
  loaded : after.registry = Standard.registry

/-- With the standard operations no operation fails, so a call at the end of a path is one that none
of them takes. -/
theorem Stops.refused {form : Form Int} {outer : List Form.Call} {fault : Fault} {stop : Stop}
    (stops : Stops reenter machine form outer stop fault after)
    (loaded : machine.registry = Standard.registry) :
    (∃ point, stop = .refused point) ∨
      ∃ call args, stop = .unapplied call args ∧ Refused call args after := by
  induction stops with
  | symbol invalid => exact Or.inl ⟨_, rfl⟩
  | empty machine mark => exact Or.inl ⟨_, rfl⟩
  | head machine mark rest other => exact Or.inl ⟨_, rfl⟩
  | unknown absent => exact Or.inl ⟨_, rfl⟩
  | argument found split evaluated stops ih => exact ih (forms_evaluated evaluated loaded).1
  | @unapplied machine between call known args found evaluated chosen =>
    obtain ⟨kept, kinds⟩ := forms_evaluated evaluated loaded
    rw [loaded] at found
    rw [kept, found] at chosen
    exact Or.inr ⟨call, args, rfl, ⟨known, found, chosen⟩, kinds, kept⟩
  | @raised machine between after call known args place operation fault found evaluated chosen
      failed =>
    obtain ⟨kept, -⟩ := forms_evaluated evaluated loaded
    rw [loaded] at found
    rw [kept, found] at chosen
    have gives := Standard.registry_gives known (Registry.mem_of_lookup found) operation
      (Overloads.mem_of_choose? chosen)
    obtain ⟨value, given⟩ := gives args
    rw [given] at failed
    cases failed

/-- With the standard operations a failure has words. -/
theorem Stops.worded {form : Form Int} {outer : List Form.Call} {stop : Stop} {fault : Fault}
    (stops : Stops reenter machine form outer stop fault after)
    (loaded : machine.registry = Standard.registry) : ∃ words, fault.runMessage = .ok words := by
  cases worded : fault.runMessage with
  | ok words => exact ⟨words, rfl⟩
  | error raised =>
    -- What has no words is raised by an operation, and none of these raises.
    obtain ⟨call, args, rfl⟩ :=
      stops.gives.raised_of_escapes ((fault.runMessage_eq_error raised).mp worded)
    rcases stops.refused loaded with ⟨point, ⟨⟩⟩ | ⟨call, args, ⟨⟩, -⟩

end Eval

/-- A run gives a value that has a kind, or a report all of whose arguments have kinds. -/
def Outcome.HasKinds : Outcome → Prop
  | .success value => ∃ kind, value.HasKind kind
  | .failure report => report.HasKinds
  | .raised _ => False

theorem Machine.run_kinds (machine : Machine σ) (loaded : machine.registry = Standard.registry)
    (text : String) : (machine.run text).1.HasKinds := by
  cases parsed : parse text.toList with
  | error fault =>
    obtain rfl := parse_error parsed
    rw [(run_reported (machine.evaluate_of_error parsed) rfl).1]
    -- Without a tree no call has begun, and the trace is empty.
    intro entry member
    exact absurd member List.not_mem_nil
  | ok root =>
    obtain ⟨form, formed, -⟩ := parse_form text.toList root parsed
    obtain ⟨outcome, after, ran, same⟩ := machine.evaluate_means loaded parsed formed
    cases outcome with
    | ok value =>
      rw [run_value ran]
      exact form.meaning_hasKind value same.symm
    | error fault =>
      have evaluated := ran
      rw [machine.evaluate_of_form parsed formed] at ran
      have direct : machine.registry.Direct := loaded ▸ Standard.registry_direct
      obtain ⟨-, outer, stop, stops, left⟩ :=
        Eval.form_leaves _ form { machine with stack := [] } direct _ _ ran
      obtain ⟨words, worded⟩ := stops.worded loaded
      rw [(run_reported evaluated worded).1]
      have each := stops.haveKinds loaded
      intro entry member
      obtain ⟨frame, inside, rfl⟩ := List.mem_map.mp member
      rw [Machine.frames, left, List.append_nil, List.reverse_reverse] at inside
      exact each frame inside

end HostLisp
