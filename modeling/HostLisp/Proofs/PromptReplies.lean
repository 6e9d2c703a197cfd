import HostLisp.Proofs.RepeatedRuns
import HostLisp.Proofs.StandardMeaning
import HostLisp.Session

/-!
# Replies at the prompt

A session at the prompt has one machine for all its lines, but what it prints for a line depends on
that line alone.

## Main results

`respond_eq_reply`: on the machine of a session a line is replied to as in a session that has seen no
other.

`interactive_pointwise`: a session prints the replies to its lines, one after another, up to the first
that ends it.

## Proof strategy

The standard operations change nothing, so each line leaves the operations as they were. What else it
leaves, the next line forgets.
-/

namespace HostLisp

variable {σ : Type}

theorem Operation.Gives.stateless {operation : Operation σ} (gives : operation.Gives) :
    operation.Stateless := by
  intro args
  obtain ⟨value, given⟩ := gives args
  rw [given]
  trivial

theorem Standard.registry_stateless : (registry (σ := σ)).Each Operation.Stateless :=
  fun overloads member operation inside =>
    (registry_gives overloads member operation inside).stateless

/-- A run forgets the calls that are in progress before it. -/
theorem Machine.run_with_stack (machine : Machine σ) (text : String) (stack : List Frame) :
    ({ machine with stack } : Machine σ).run text = machine.run text := by
  -- The frames of an earlier run are dropped before the first form, so they do not matter.
  have same : ({ machine with stack } : Machine σ).evaluate text = machine.evaluate text := by
    cases parsed : parse text.toList with
    | error fault =>
      rw [machine.evaluate_of_error parsed]
      exact Machine.evaluate_of_error _ parsed
    | ok root =>
      rw [machine.evaluate_of_parse parsed]
      exact Machine.evaluate_of_parse _ parsed
  rw [Machine.run, Machine.run, same]

namespace Session

/-! ### Replies -/

/-- What of a line typed at the prompt is evaluated. -/
def sourceOf (line : String) : String := String.ofList (Text.trim line.toList)

/-- What is printed for a line, and how the session ends if the line ends it. -/
structure Reply where
  printed : Printed
  ending : Option Ending

/-- The reply to a line in a session that has seen no other: nothing to a blank line, otherwise the
value, or that it cannot be shown, or the report of the failure, behind the trace if calls are traced.
A report or a complaint that cannot be written ends the session, and so does a run that raises. -/
def reply (settings : Settings) (line : String) : Reply :=
  if (sourceOf line).isEmpty then ⟨.nothing, none⟩
  else if sourceOf line = exitLine then ⟨.nothing, some (.exit 0)⟩
  else
    let (outcome, trace, _) := run settings initial (sourceOf line)
    match outcome with
    | .success value =>
      match value.showAs settings.format with
      | .ok text => ⟨trace ++ .outLine text, none⟩
      | .error fault =>
        match complaint fault with
        | .ok printed => ⟨trace ++ printed, none⟩
        | .error raised => ⟨trace, some (.fault raised)⟩
    | .failure report =>
      match report.render with
      | .ok text => ⟨trace ++ .errLine text, none⟩
      | .error fault => ⟨trace, some (.fault fault)⟩
    | .raised fault => ⟨trace, some (.fault fault)⟩

/-- A session that goes on after a line still has the standard operations and no others. -/
def Reply.Continues (reply : Reply) : Except Ending Env → Prop
  | .ok after => reply.ending = none ∧ after.registry = Standard.registry
  | .error ending => reply.ending = some ending

/-- Sources run alike on machines of one registry. -/
theorem run_eq_of_registry (settings : Settings) {machine other : Env}
    (same : machine.registry = other.registry) (source : String) :
    run settings machine source = run settings other source := by
  obtain ⟨registry, stack, state, journal⟩ := machine
  obtain ⟨registry', stack', state', journal'⟩ := other
  cases same
  -- What is left to differ is the calls in progress.
  have ran := Machine.run_with_stack (⟨registry, stack', state', []⟩ : Env) source stack
  rw [run, run, ← ran]

theorem run_registry (settings : Settings) (source : String) :
    (run settings initial source).2.2.registry = Standard.registry := by
  obtain ⟨outcome, left, ran⟩ := Machine.run_repeats Standard.registry_stateless () source
  obtain ⟨journal, ran⟩ := ran { initial with journal := [] } rfl rfl
  rw [run, ran]

/-- A line is replied to as in a session that has seen no other. -/
theorem respond_eq_reply (settings : Settings) {machine : Env}
    (loaded : machine.registry = Standard.registry) (line : String) :
    (respond settings machine line).1 = (reply settings line).printed ∧
      (reply settings line).Continues (respond settings machine line).2 := by
  -- The registry is all that the machine after a line is asked for by the next one.
  have kept := run_registry settings (sourceOf line)
  have alike : machine.registry = initial.registry := loaded
  rw [respond, reply, ← sourceOf, run_eq_of_registry settings alike]
  split
  · exact ⟨rfl, rfl, loaded⟩
  · split
    · exact ⟨rfl, rfl⟩
    · -- The line is evaluated, and the machine after it is the same in both sessions.
      generalize run settings initial (sourceOf line) = result at kept
      obtain ⟨outcome, trace, after⟩ := result
      cases outcome with
      | success value =>
        dsimp only
        cases value.showAs settings.format with
        | ok text => exact ⟨rfl, rfl, kept⟩
        | error fault =>
          dsimp only
          cases complaint fault with
          | ok printed => exact ⟨rfl, rfl, kept⟩
          | error raised => exact ⟨rfl, rfl⟩
      | failure report =>
        dsimp only
        cases report.render with
        | ok text => exact ⟨rfl, rfl, kept⟩
        | error fault => exact ⟨rfl, rfl⟩
      | raised fault => exact ⟨rfl, rfl⟩

/-! ### Sessions -/

namespace Printed

theorem append_assoc (a b c : Printed) : a ++ b ++ c = a ++ (b ++ c) := by
  have out : a.out ++ b.out ++ c.out = a.out ++ (b.out ++ c.out) := String.append_assoc ..
  have err : a.err ++ b.err ++ c.err = a.err ++ (b.err ++ c.err) := String.append_assoc ..
  exact congrArg₂ Printed.mk out err

theorem nothing_append (printed : Printed) : nothing ++ printed = printed := by
  exact congrArg₂ Printed.mk String.empty_append String.empty_append

/-- Several things printed one after another, each stream for itself. -/
def concat (parts : List Printed) : Printed :=
  ⟨String.join (parts.map out), String.join (parts.map err)⟩

theorem concat_nil : concat [] = nothing := rfl

theorem concat_cons (first : Printed) (rest : List Printed) :
    concat (first :: rest) = first ++ concat rest := by
  simp only [concat, List.map_cons, String.join_cons]
  rfl

end Printed

/-- What a session prints for a line: the prompt and the reply. -/
def turn (settings : Settings) (line : String) : Printed := prompt ++ (reply settings line).printed

/-- What is printed where the lines are over, and how the session ends there. -/
def leave : InputEnd → Transcript
  | .closed => ⟨prompt ++ farewell, .exit 0⟩
  | .interrupt => ⟨prompt, .interrupted⟩

/-- What a session comes to whose lines are handled up to one that ends it, or all of them. -/
def Ends (settings : Settings) (last : InputEnd) (rest : List String) (final : Transcript) : Prop :=
  match rest with
  | [] => final = leave last
  | line :: _ => ∃ ending, (reply settings line).ending = some ending ∧
      final = ⟨turn settings line, ending⟩

theorem converse_nil (settings : Settings) (last : InputEnd) (machine : Env) :
    converse settings last machine [] = leave last := by
  cases last <;> rfl

variable (settings : Settings) (last : InputEnd) {machine : Env}

/-- One step of a conversation: the turn of the line, and then the rest on a machine that has the same
operations unless the line ends the session. -/
theorem converse_cons (loaded : machine.registry = Standard.registry) (line : String)
    (lines : List String) :
    (∃ ending, (reply settings line).ending = some ending ∧
      converse settings last machine (line :: lines) = ⟨turn settings line, ending⟩) ∨
    ∃ after : Env, (reply settings line).ending = none ∧ after.registry = Standard.registry ∧
      converse settings last machine (line :: lines) =
        ⟨turn settings line ++ (converse settings last after lines).printed,
          (converse settings last after lines).ending⟩ := by
  obtain ⟨same, continues⟩ := respond_eq_reply settings loaded line
  generalize responded : respond settings machine line = response at same continues
  obtain ⟨printed, next⟩ := response
  rw [converse, responded, turn, ← same]
  cases next with
  | error ending => exact Or.inl ⟨ending, continues, rfl⟩
  | ok after => exact Or.inr ⟨after, continues.1, continues.2, rfl⟩

/-- A conversation is the turns of its lines up to the first that ends it. -/
theorem converse_turns (loaded : machine.registry = Standard.registry) (lines : List String) :
    ∃ handled rest final, lines = handled ++ rest ∧
      (∀ line ∈ handled, (reply settings line).ending = none) ∧ Ends settings last rest final ∧
      converse settings last machine lines =
        ⟨Printed.concat (handled.map (turn settings)) ++ final.printed, final.ending⟩ := by
  induction lines generalizing machine with
  | nil =>
    refine ⟨[], [], leave last, rfl, nofun, rfl, ?_⟩
    rw [converse_nil, List.map_nil, Printed.concat_nil, Printed.nothing_append]
  | cons line lines ih =>
    -- A line that ends the session is where the lines left over begin.
    rcases converse_cons settings last loaded line lines with
      ⟨ending, ended, talk⟩ | ⟨after, continues, loaded', talk⟩
    · refine ⟨[], line :: lines, ⟨turn settings line, ending⟩, rfl, nofun, ⟨ending, ended, rfl⟩, ?_⟩
      rw [talk, List.map_nil, Printed.concat_nil, Printed.nothing_append]
    · -- The rest of the session is a session of its own, on the machine after the line.
      obtain ⟨handled, rest, final, split, each, ends, later⟩ := ih loaded'
      refine ⟨line :: handled, rest, final, by rw [split]; rfl,
        List.forall_mem_cons.mpr ⟨continues, each⟩, ends, ?_⟩
      rw [talk, later, List.map_cons, Printed.concat_cons, Printed.append_assoc]

/-- A session that is given one line only. -/
theorem interactive_single (line : String) :
    interactive settings [line] last =
      match (reply settings line).ending with
      | some ending => ⟨⟨banner, ""⟩ ++ turn settings line, ending⟩
      | none => ⟨⟨banner, ""⟩ ++ (turn settings line ++ (leave last).printed), (leave last).ending⟩ := by
  have loaded : initial.registry = Standard.registry := rfl
  rcases converse_cons settings last loaded line [] with
    ⟨ending, ended, talk⟩ | ⟨after, continues, -, talk⟩
  · rw [interactive, talk, ended]
  · rw [interactive, talk, continues, converse_nil]

/-- A session prints its banner and then for each line what a session prints that is given this line
only, in order, up to the first line that ends it or the end of its input. -/
theorem interactive_pointwise (lines : List String) :
    ∃ handled rest final, lines = handled ++ rest ∧
      (∀ line ∈ handled, (reply settings line).ending = none ∧
        interactive settings [line] last =
          ⟨⟨banner, ""⟩ ++ (turn settings line ++ (leave last).printed), (leave last).ending⟩) ∧
      Ends settings last rest final ∧
      (∀ line ∈ rest.head?,
        interactive settings [line] last = ⟨⟨banner, ""⟩ ++ final.printed, final.ending⟩) ∧
      interactive settings lines last =
        ⟨⟨banner, ""⟩ ++ (Printed.concat (handled.map (turn settings)) ++ final.printed),
          final.ending⟩ := by
  have loaded : initial.registry = Standard.registry := rfl
  obtain ⟨handled, rest, final, split, each, ends, talk⟩ :=
    converse_turns settings last loaded lines
  refine ⟨handled, rest, final, split, ?_, ends, ?_, ?_⟩
  · intro line member
    have continues := each line member
    rw [interactive_single, continues]
    exact ⟨rfl, rfl⟩
  · intro line first
    cases rest with
    | nil => cases first
    | cons line' later =>
      cases first
      obtain ⟨ending, ended, rfl⟩ := ends
      rw [interactive_single, ended]
  · rw [interactive, talk]

end Session

end HostLisp
