import HostLisp.Proofs.CoupledForms

/-!
# Runs that can be repeated

With operations that change nothing a run depends on its source and on what is registered. The
sources that were evaluated before it, and how they ended, make no difference.

## Main results

`Eval.evaluates_repeating`: the outcome of a form is decided by the registry, the state of the host
and the calls in progress, and the first two stay as they are.

`run_after_requests`: after any requests a source runs as on a machine that has only seen the
registrations among them.

## Proof strategy

What is left of earlier sources is the calls in progress and the journal. The first are cleared when
a source is evaluated, and the second is never read, so evaluations with any two journals go side by
side.
-/

namespace HostLisp

variable {σ : Type}

/-! ### Operations that change nothing -/

/-- An action evaluates and registers nothing and leaves the state of its host alone. It may look at
the calls in progress. -/
def Action.Stateless : Action σ → Prop
  | .done _ => True
  | .frames next => ∀ stack, (next stack).Stateless
  | .evaluate _ _ | .register _ _ _ | .writeState _ _ => False
  | .readState next => ∀ state, (next state).Stateless
termination_by structural action => action

def Operation.Stateless (operation : Operation σ) : Prop := ∀ args, (operation.run args).Stateless

namespace Eval

/-- Two evaluations with one registry and one state of the host, which do not change, and with the
same calls in progress. They differ in their journals. -/
def repeating (registry : Registry σ) (state : σ) :
    Coupling (Runs.state (Machine σ)) (Runs.state (Machine σ)) where
  Kept machine machine' := machine.registry = registry ∧ machine.state = state ∧
    ∃ journal, machine' = { machine with journal }

variable {registry : Registry σ} {state : σ} {reenter : String → Eval σ Value}

theorem repeating_exact : (repeating registry state).Exact :=
  ⟨fun same => same, fun kept => kept, fun _ => not_false⟩

theorem repeating_stacked : (repeating registry state).Stacked Eq := by
  apply Coupling.Stacked.same
  · rintro machine _ ⟨-, -, journal, rfl⟩
    rfl
  · rintro machine _ ⟨loaded, kept, journal, rfl⟩ stack
    exact ⟨loaded, kept, journal, rfl⟩
  · rfl

theorem performs_repeating :
    (repeating registry state).Performs reenter reenter Action.Stateless where
  raise _ := rfl
  frames stateless := by
    rintro machine _ ⟨-, -, journal, rfl⟩
    exact ⟨rfl, stateless machine.stack⟩
  evaluate stateless := stateless.elim
  register stateless := stateless.elim
  readState stateless := by
    rintro machine _ ⟨-, -, journal, rfl⟩
    exact ⟨rfl, stateless machine.state⟩
  writeState stateless := stateless.elim

/-- With operations that change nothing the outcome of a form is decided by the registry, the state of
the host and the calls in progress. -/
theorem evaluates_repeating (stateless : registry.Each Operation.Stateless) :
    (repeating registry state).Evaluates reenter reenter Eq fun _ known known' =>
      known' = known ∧ ∀ operation ∈ known.operations, operation.Stateless := by
  refine .of_each repeating_stacked ?_ ?_ ?_ ?_ ?_ ?_
  · rintro name mark _ rfl
    rfl
  · rintro machine _ ⟨loaded, -, journal, rfl⟩
    exact ⟨rfl, loaded ▸ stateless⟩
  · intro event
    apply Coupling.Holds.modify
    -- Each side writes in its own journal, which neither reads.
    rintro machine _ ⟨loaded, kept, journal, rfl⟩
    exact ⟨loaded, kept, _, rfl⟩
  · exact fun operation args stateless => performs_repeating.perform _ (stateless args)
  · rintro cause mark _ rfl
    rfl
  · exact fun _ => rfl

end Eval

/-! ### Sources -/

/-- A source ends the same way on all machines of one registry and one state of the host, which stay
as they are. -/
theorem Machine.evaluate_repeats {registry : Registry σ}
    (stateless : registry.Each Operation.Stateless) (state : σ) (text : String) :
    ∃ outcome left, ∀ machine : Machine σ, machine.registry = registry → machine.state = state →
      ∃ journal, machine.evaluate text = (outcome, ⟨registry, left, state, journal⟩) := by
  cases parsed : parse text.toList with
  | error fault =>
    refine ⟨.error fault, [], fun machine loaded kept => ⟨machine.journal, ?_⟩⟩
    rw [machine.evaluate_of_error parsed, ← loaded, ← kept]
  | ok root =>
    obtain ⟨form, formed, -⟩ := parse_form text.toList root parsed
    let evaluation : Eval σ Value := Eval.form (Eval.sourceWithin (Eval.nestingDepth - 1)) form
    have holds : (Eval.repeating registry state).Holds evaluation evaluation :=
      (Eval.evaluates_repeating stateless).form form form form.beside_self
    let fresh : Machine σ := ⟨registry, [], state, []⟩
    refine ⟨(evaluation.run fresh).1, (evaluation.run fresh).2.stack, fun machine loaded kept => ?_⟩
    -- Whatever calls an earlier source has left are forgotten before the form is evaluated.
    have start : (Eval.repeating registry state).Kept fresh { machine with stack := [] } :=
      ⟨rfl, rfl, machine.journal, by rw [loaded, kept]⟩
    obtain ⟨outcome, after, _, ran, ran', loaded', kept', journal, rfl⟩ :=
      Eval.repeating_exact.run holds start
    exact ⟨journal, by rw [machine.evaluate_of_form parsed formed, ran', ran, ← loaded', ← kept']⟩

/-- So does a run, with its report. -/
theorem Machine.run_repeats {registry : Registry σ}
    (stateless : registry.Each Operation.Stateless) (state : σ) (text : String) :
    ∃ outcome left, ∀ machine : Machine σ, machine.registry = registry → machine.state = state →
      ∃ journal, machine.run text = (outcome, ⟨registry, left, state, journal⟩) := by
  obtain ⟨outcome, left, evaluated⟩ := Machine.evaluate_repeats stateless state text
  cases outcome with
  | ok value =>
    refine ⟨.success value, left, fun machine loaded kept => ?_⟩
    obtain ⟨journal, ran⟩ := evaluated machine loaded kept
    exact ⟨journal, Machine.run_value ran⟩
  | error fault =>
    cases worded : fault.runMessage with
    | ok message =>
      -- A report is made of the fault and the calls that it left.
      refine ⟨.failure ((⟨registry, left, state, []⟩ : Machine σ).failure text fault), left,
        fun machine loaded kept => ?_⟩
      obtain ⟨journal, ran⟩ := evaluated machine loaded kept
      exact ⟨journal, (Machine.run_reported ran worded).1⟩
    | error raised =>
      refine ⟨.raised raised, left, fun machine loaded kept => ?_⟩
      obtain ⟨journal, ran⟩ := evaluated machine loaded kept
      exact ⟨journal, Machine.run_raised ran worded⟩

/-! ### Requests -/

/-- What is asked of a machine. -/
inductive Request (σ : Type)
  | run (source : String)
  | evaluate (source : String)
  | register (symbol : String) (operation : Operation σ)

/-- What a request registers. -/
def Request.registration? : Request σ → Option (String × Operation σ)
  | .register symbol operation => some (symbol, operation)
  | _ => none

namespace Machine

/-- The machine after a request. -/
def handle (machine : Machine σ) : Request σ → Machine σ
  | .run source => (machine.run source).2
  | .evaluate source => (machine.evaluate source).2
  | .register symbol operation => machine.register symbol operation

def handleAll (machine : Machine σ) (requests : List (Request σ)) : Machine σ :=
  requests.foldl handle machine

/-- A request leaves the state of the host alone, and the registry too unless it registers. -/
theorem handle_kept (machine : Machine σ) (stateless : machine.registry.Each Operation.Stateless)
    (request : Request σ) :
    (machine.handle request).registry =
        machine.registry.registerAll request.registration?.toList ∧
      (machine.handle request).state = machine.state := by
  cases request with
  | run source =>
    obtain ⟨_, _, ran⟩ := run_repeats stateless machine.state source
    obtain ⟨_, ran⟩ := ran machine rfl rfl
    rw [handle, ran]
    exact ⟨rfl, rfl⟩
  | evaluate source =>
    obtain ⟨_, _, ran⟩ := evaluate_repeats stateless machine.state source
    obtain ⟨_, ran⟩ := ran machine rfl rfl
    rw [handle, ran]
    exact ⟨rfl, rfl⟩
  | register symbol operation => exact ⟨rfl, rfl⟩

/-- After several requests the registry holds what they registered, in order. -/
theorem handleAll_kept {machine : Machine σ} (stateless : machine.registry.Each Operation.Stateless)
    (requests : List (Request σ))
    (added : ∀ pair ∈ requests.filterMap Request.registration?, pair.2.Stateless) :
    (machine.handleAll requests).registry =
        machine.registry.registerAll (requests.filterMap Request.registration?) ∧
      (machine.handleAll requests).state = machine.state := by
  induction requests generalizing machine with
  | nil => exact ⟨rfl, rfl⟩
  | cons request rest ih =>
    have split : (request :: rest).filterMap Request.registration? =
        request.registration?.toList ++ rest.filterMap Request.registration? := by
      cases request <;> rfl
    rw [split] at added ⊢
    obtain ⟨here, later⟩ := List.forall_mem_append.mp added
    obtain ⟨registered, kept⟩ := machine.handle_kept stateless request
    -- What the request has registered changes nothing either, so the rest goes on from there.
    have stateless' : (machine.handle request).registry.Each Operation.Stateless :=
      registered ▸ stateless.registerAll here
    obtain ⟨registered', kept'⟩ := ih stateless' later
    constructor
    · rw [handleAll, List.foldl_cons, ← handleAll, registered', registered]
      exact (List.foldl_append ..).symm
    · exact kept'.trans kept

end Machine

/-- Let no operation change anything. After any requests a source runs as on a machine of the same
registrations, in the same order, that has seen no source: with the same value, or the same report.
No request but a registration changes the registry. -/
theorem run_after_requests (state : σ) (requests : List (Request σ))
    (stateless : ∀ pair ∈ requests.filterMap Request.registration?, pair.2.Stateless)
    (source : String) :
    let start : Machine σ := .fresh .empty state
    let fresh := start.registerAll (requests.filterMap Request.registration?)
    ((start.handleAll requests).run source).1 = (fresh.run source).1 ∧
    ((start.handleAll requests).evaluate source).1 = (fresh.evaluate source).1 ∧
    ∀ past request rest, requests = past ++ request :: rest → request.registration? = none →
      ((start.handleAll past).handle request).registry = (start.handleAll past).registry := by
  intro start fresh
  have nothing : start.registry.Each Operation.Stateless := nofun
  have loaded : fresh.registry.Each Operation.Stateless := nothing.registerAll stateless
  obtain ⟨registered, kept⟩ := Machine.handleAll_kept nothing requests stateless
  refine ⟨?_, ?_, ?_⟩
  -- Both machines have this registry and this state, and only their journals differ.
  · obtain ⟨outcome, left, each⟩ := Machine.run_repeats loaded state source
    obtain ⟨_, ran⟩ := each (start.handleAll requests) registered kept
    obtain ⟨_, ran'⟩ := each fresh rfl rfl
    rw [ran, ran']
  · obtain ⟨outcome, left, each⟩ := Machine.evaluate_repeats loaded state source
    obtain ⟨_, ran⟩ := each (start.handleAll requests) registered kept
    obtain ⟨_, ran'⟩ := each fresh rfl rfl
    rw [ran, ran']
  · rintro past request rest rfl unregistered
    -- The requests before this one have registered some of the operations, in the same order.
    have earlier : ∀ pair ∈ past.filterMap Request.registration?, pair.2.Stateless := by
      intro pair member
      apply stateless
      rw [List.filterMap_append]
      exact List.mem_append_left _ member
    obtain ⟨registered', -⟩ := Machine.handleAll_kept nothing past earlier
    have stateless' : (start.handleAll past).registry.Each Operation.Stateless :=
      registered' ▸ nothing.registerAll earlier
    rw [((start.handleAll past).handle_kept stateless' request).1, unregistered]
    rfl

/-- An operation that looks at the calls in progress and fails, and one that gives their number: both
are asked again after failures of each kind. -/
theorem run_after_requests_failing :
    let requests : List (Request Unit) := [
      .register "f" (.variadic none none fun _ => .frames fun stack =>
        .raise (.language "no" (stack.head?.bind Frame.position))),
      .run "(n (f 1))", .evaluate "(f (f",
      .register "n" (.variadic none none fun _ => .frames fun stack => .give (.int stack.length)),
      .run "(n (f 1))", .evaluate "(n", .run "(n ())"]
    let start : Machine Unit := .fresh .empty ()
    (∀ pair ∈ requests.filterMap Request.registration?, pair.2.Stateless) ∧
    ((start.handleAll requests).run "(n (n))").1 =
      ((start.registerAll (requests.filterMap Request.registration?)).run "(n (n))").1 := by
  intro requests start
  have stateless : ∀ pair ∈ requests.filterMap Request.registration?, pair.2.Stateless := by
    change ∀ pair ∈ ([_, _] : List (String × Operation Unit)), pair.2.Stateless
    refine List.forall_mem_cons.mpr ⟨?_, List.forall_mem_singleton.mpr ?_⟩
    · exact fun _ _ => trivial
    · exact fun _ _ => trivial
  exact ⟨stateless, (run_after_requests () requests stateless "(n (n))").1⟩

end HostLisp
