import HostLisp.Proofs.CoupledForms
import HostLisp.Proofs.StandardMeaning

/-!
# Registering more operations

Operations that are registered later stand behind those that were there, so a source whose calls
were all found goes on as before.

## Main result

`evaluate_registerAll`: with more operations a source has the outcome that it had, unless it failed
for want of an operation; with operations that were there already it has that outcome in any case.

## Proof strategy

One source is run on two machines side by side. `Registry.Covers` says what the second registry has
to do for the first, and which failures of the first are pardoned; with it both parts of the result
are one coupling.
-/

namespace HostLisp

variable {σ : Type}

/-! ### Operations that keep to their host -/

/-- An action asks nothing of the evaluator and registers nothing, whatever its host tells it. -/
def Action.Isolated : Action σ → Prop
  | .done _ => True
  | .frames _ | .evaluate _ _ | .register _ _ _ => False
  | .readState next => ∀ state, (next state).Isolated
  | .writeState _ next => next.Isolated
termination_by structural action => action

def Operation.Isolated (operation : Operation σ) : Prop := ∀ args, (operation.run args).Isolated

/-! ### Registries that cover others -/

/-- A fault of a source that lacks an operation: the symbol has none, or none that takes the
arguments. -/
def Fault.isUnresolved : Fault → Bool
  | .evaluation (.unknownFunction _) _ | .evaluation (.notApplicable _ _) _ => true
  | _ => false

/-- A set calls the operations that another one calls, and none where that calls none, unless the
failure is pardoned. -/
structure Overloads.Covers (Pardoned : Fault → Prop) (overloads later : Overloads σ) : Prop where
  name : later.name = overloads.name
  chosen : ∀ args found, overloads.choose? args = some found → later.choose? args = some found
  none : ∀ args, overloads.choose? args = none → later.choose? args = none ∨
    ∀ position, Pardoned (.evaluation (.notApplicable overloads.name (args.map Value.kind)) position)

/-- The sets of a registry cover those of another, and no symbol is known that was not, unless the
failure is pardoned. -/
structure Registry.Covers (Pardoned : Fault → Prop) (registry later : Registry σ) : Prop where
  known : ∀ name overloads, registry.lookup name = some overloads → ∃ overloads',
    later.lookup name = some overloads' ∧ overloads.Covers Pardoned overloads'
  unknown : ∀ name, registry.lookup name = none → later.lookup name = none ∨
    ∀ position, Pardoned (.evaluation (.unknownFunction name) position)

namespace Registry

/-- Operations at the end of the sets change failures for want of an operation only. -/
theorem covers_registerAll (registry : Registry σ) (added : List (String × Operation σ)) :
    registry.Covers (·.isUnresolved = true) (registry.registerAll added) := by
  constructor
  · intro name overloads found
    refine ⟨_, lookup_registerAll_of_some found added, (name_of_lookup found).symm, ?_, ?_⟩
    · intro args first chosen
      exact Overloads.choose?_append chosen _
    · intro args _
      exact Or.inr fun _ => rfl
  · intro name _
    exact Or.inr fun _ => rfl

/-- Operations that their symbols have already change nothing. -/
theorem covers_registerAll_present {registry : Registry σ} {added : List (String × Operation σ)}
    (present : ∀ pair ∈ added, ∃ overloads, registry.lookup pair.1 = some overloads ∧
      pair.2 ∈ overloads.operations) :
    registry.Covers (fun _ => False) (registry.registerAll added) := by
  constructor
  · intro name overloads found
    refine ⟨_, lookup_registerAll_of_some found added, (name_of_lookup found).symm, ?_, ?_⟩
    · intro args first chosen
      exact Overloads.choose?_append chosen _
    · intro args none
      rw [Overloads.choose?_eq_none_iff] at none
      left
      rw [Overloads.choose?_eq_none_iff]
      intro operation member
      rcases List.mem_append.mp member with old | again
      · exact none operation old
      · -- The operation has been asked before, at its first place.
        obtain ⟨_, found', inside⟩ := present _ (mem_under.mp again)
        cases found.symm.trans found'
        exact none operation inside
  · intro name absent
    left
    apply lookup_registerAll_of_none absent
    rw [List.eq_nil_iff_forall_not_mem]
    intro operation member
    obtain ⟨_, found, -⟩ := present _ (mem_under.mp member)
    cases absent.symm.trans found

end Registry

/-! ### Machines side by side -/

/-- A line of the journal without the number of operations that a call chooses from. -/
def Event.unsized : Event → Event
  | .call name argumentCount _ => .call name argumentCount 0
  | event => event

/-- Two machines that differ in their registries and in what their journals say of the sizes of
sets. -/
structure Machine.Beside (registry later : Registry σ) (machine machine' : Machine σ) : Prop where
  registry : machine.registry = registry
  later : machine'.registry = later
  stack : machine'.stack = machine.stack
  state : machine'.state = machine.state
  journal : machine'.journal.map Event.unsized = machine.journal.map Event.unsized

theorem Machine.Beside.with_stack {registry later : Registry σ} {machine machine' : Machine σ}
    (beside : Beside registry later machine machine') (stack : List Frame) :
    Beside registry later { machine with stack } { machine' with stack } :=
  ⟨beside.registry, beside.later, rfl, beside.state, beside.journal⟩

namespace Eval

variable {Pardoned : Fault → Prop} {registry later : Registry σ} {reenter : String → Eval σ Value}

/-- Two evaluations with two registries. They have the same outcome, unless the first has a fault that
is pardoned. -/
def conserving (Pardoned : Fault → Prop) (registry later : Registry σ) :
    Coupling (Runs.state (Machine σ)) (Runs.state (Machine σ)) where
  Kept := Machine.Beside registry later
  Pardoned := Pardoned

theorem conserving_stacked : (conserving Pardoned registry later).Stacked Eq := by
  apply Coupling.Stacked.same
  · exact fun _ _ beside => beside.stack
  · exact fun _ _ beside stack => beside.with_stack stack
  · rfl

/-- Events that differ in the size of a set alone may be noted. -/
theorem record_conserving {event event' : Event} (same : event'.unsized = event.unsized) :
    (conserving Pardoned registry later).Holds (record event) (record event') := by
  apply Coupling.Holds.modify
  intro machine machine' beside
  exact ⟨beside.registry, beside.later, beside.stack, beside.state, by simp [same, beside.journal]⟩

/-- Isolated operations do not look at the registry, so what they do is the same on both sides. -/
theorem performs_conserving :
    (conserving Pardoned registry later).Performs reenter reenter Action.Isolated where
  raise _ := rfl
  frames isolated := isolated.elim
  evaluate isolated := isolated.elim
  register isolated := isolated.elim
  readState isolated machine _ beside := ⟨beside.state, isolated machine.state⟩
  writeState isolated := ⟨fun _ _ beside =>
    ⟨beside.registry, beside.later, beside.stack, rfl, beside.journal⟩, isolated⟩

/-- A covered set is called as the set that covers it, or fails with a pardoned fault. -/
theorem call_conserving {overloads overloads' : Overloads σ}
    (covers : overloads.Covers Pardoned overloads')
    (isolated : ∀ operation ∈ overloads.operations, operation.Isolated) (args : List Value)
    (position : Option Int) : (conserving Pardoned registry later).Holds
      (call reenter overloads args position) (call reenter overloads' args position) := by
  -- The sets may differ in size, which the journal of the first line alone tells.
  have writes : (conserving Pardoned registry later).Writes overloads.name args
      overloads.operations.length overloads'.operations.length :=
    ⟨record_conserving rfl, fun _ => record_conserving rfl, fun _ _ => record_conserving rfl⟩
  apply writes.calls covers.name
  · intro place operation chosen
    have acts := isolated operation (Overloads.mem_of_choose? chosen) args
    exact ⟨operation, covers.chosen args _ chosen, rfl, performs_conserving.perform _ acts⟩
  · intro none
    rcases covers.none args none with none' | pardoned
    · exact Or.inl ⟨none', rfl⟩
    · exact Or.inr (pardoned position)

/-- The sets of a name on either side, of which the first keep to their host. Nothing is registered
on the way, so they are the same ones whenever they are looked up. -/
structure Covered (Pardoned : Fault → Prop) (registry later : Registry σ) (name : String)
    (known known' : Overloads σ) : Prop where
  found : registry.lookup name = some known
  found' : later.lookup name = some known'
  covers : known.Covers Pardoned known'
  isolated : ∀ operation ∈ known.operations, operation.Isolated

/-- On a registry that covers another one a form goes as it went on that. -/
theorem evaluates_conserving (covers : registry.Covers Pardoned later)
    (isolated : registry.Each Operation.Isolated) :
    (conserving Pardoned registry later).Evaluates reenter reenter Eq
      (Covered Pardoned registry later) where
  fails := by
    rintro mark _ cause rfl
    rfl
  digits _ := rfl
  find {name head head' next next'} := by
    rintro rfl each
    apply Coupling.Holds.get
    intro machine machine' beside
    rw [beside.registry, beside.later]
    cases found : registry.lookup name with
    | none =>
      rcases covers.unknown name found with none | pardoned
      · rw [none]
        exact .throw rfl
      · exact .pardoned (pardoned _)
    | some known =>
      obtain ⟨known', found', covers'⟩ := covers.known name known found
      rw [found']
      exact each known known'
        ⟨found, found', covers', isolated known (Registry.mem_of_lookup found)⟩
  findAgain {name known known' next next'} covered each := by
    apply Coupling.Holds.get
    intro machine machine' beside
    rw [beside.registry, beside.later, covered.found, covered.found']
    exact each known known' covered
  push name := by
    rintro rfl
    exact conserving_stacked.push rfl
  setArguments := conserving_stacked.setArguments
  pop := conserving_stacked.pop
  call args covered := by
    rintro rfl
    exact call_conserving covered.covers covered.isolated args _

end Eval

/-! ### Sources -/

/-- Two evaluations end alike: with one outcome and one state of the host, with the same calls made
in the same order and the same calls left in progress. -/
structure EndsAlike (first second : Except Fault Value × Machine σ) : Prop where
  outcome : second.1 = first.1
  stack : second.2.stack = first.2.stack
  state : second.2.state = first.2.state
  journal : second.2.journal.map Event.unsized = first.2.journal.map Event.unsized

/-- A source is evaluated on the covering registry as on the covered one, unless it fails with a
pardoned fault. -/
private theorem evaluate_covers {Pardoned : Fault → Prop} (machine : Machine σ)
    (isolated : machine.registry.Each Operation.Isolated) (added : List (String × Operation σ))
    (covers : machine.registry.Covers Pardoned (machine.registry.registerAll added)) (text : String) :
    (∃ fault, (machine.evaluate text).1 = .error fault ∧ Pardoned fault) ∨
      EndsAlike (machine.evaluate text) ((machine.registerAll added).evaluate text) := by
  cases parsed : parse text.toList with
  | error fault =>
    rw [machine.evaluate_of_error parsed, (machine.registerAll added).evaluate_of_error parsed]
    exact Or.inr ⟨rfl, rfl, rfl, rfl⟩
  | ok root =>
    obtain ⟨form, formed, -⟩ := parse_form text.toList root parsed
    have evaluated := machine.evaluate_of_form parsed formed
    have evaluated' := (machine.registerAll added).evaluate_of_form parsed formed
    have start : Machine.Beside machine.registry (machine.registry.registerAll added)
        { machine with stack := [] } { machine.registerAll added with stack := [] } :=
      ⟨rfl, rfl, rfl, rfl, rfl⟩
    cases (Eval.evaluates_conserving covers isolated).form form form
      form.beside_self _ _ start with
    | value ran ran' beside =>
      rw [evaluated.trans ran, evaluated'.trans ran']
      exact Or.inr ⟨rfl, beside.stack, beside.state, beside.journal⟩
    | fault ran ran' same beside =>
      obtain rfl := same
      rw [evaluated.trans ran, evaluated'.trans ran']
      exact Or.inr ⟨rfl, beside.stack, beside.state, beside.journal⟩
    | pardoned ran pardoned =>
      rw [evaluated.trans ran]
      exact Or.inl ⟨_, rfl, pardoned⟩

/-- Let operations that keep to their host be registered, and any others be added. Each symbol keeps
its operations at their places. A source that has a value, or a fault other than the want of an
operation, ends as before. If the operations that are added were there already, each source does. -/
theorem evaluate_registerAll (machine : Machine σ)
    (isolated : machine.registry.Each Operation.Isolated) (added : List (String × Operation σ))
    (text : String) :
    (∀ name overloads, machine.registry.lookup name = some overloads → ∃ more,
      (machine.registerAll added).registry.lookup name =
        some ⟨name, overloads.operations ++ more⟩) ∧
    ((∀ fault, (machine.evaluate text).1 = .error fault → fault.isUnresolved = false) →
      EndsAlike (machine.evaluate text) ((machine.registerAll added).evaluate text)) ∧
    ((∀ pair ∈ added, ∃ overloads, machine.registry.lookup pair.1 = some overloads ∧
        pair.2 ∈ overloads.operations) →
      EndsAlike (machine.evaluate text) ((machine.registerAll added).evaluate text)) := by
  refine ⟨?_, ?_, ?_⟩
  · intro name overloads found
    exact ⟨_, Registry.lookup_registerAll_of_some found added⟩
  · intro resolved
    rcases evaluate_covers machine isolated added (Registry.covers_registerAll _ added) text with
      ⟨fault, failed, unresolved⟩ | alike
    · rw [resolved fault failed] at unresolved
      cases unresolved
    · exact alike
  · intro present
    rcases evaluate_covers machine isolated added (Registry.covers_registerAll_present present)
      text with ⟨_, -, impossible⟩ | alike
    · exact False.elim impossible
    · exact alike

theorem Operation.Gives.isolated {operation : Operation σ} (gives : operation.Gives) :
    operation.Isolated := by
  intro args
  obtain ⟨value, given⟩ := gives args
  rw [given]
  trivial

/-- An operation that takes anything, behind one that already took it; and the standard operations
once more, under a call that none of them takes. -/
theorem evaluate_registerAll_again :
    (Machine.fresh Standard.registry ()).registry.Each Operation.Isolated ∧
    EndsAlike ((Machine.fresh Standard.registry ()).evaluate "(not false)")
      (((Machine.fresh Standard.registry ()).registerAll
        [("not", .variadic none none fun _ => .give .null)]).evaluate "(not false)") ∧
    EndsAlike ((Machine.fresh Standard.registry ()).evaluate "(not 1)")
      (((Machine.fresh Standard.registry ()).registerAll Standard.operations).evaluate "(not 1)") := by
  have isolated : (Machine.fresh (Standard.registry (σ := Unit)) ()).registry.Each Operation.Isolated :=
    fun overloads member operation inside =>
      (Standard.registry_gives overloads member operation inside).isolated
  refine ⟨isolated, ?_, ?_⟩
  · have parsed : parse "(not false)".toList = .ok (.list (some 0) [.symbol ⟨1, 3⟩, .symbol ⟨5, 5⟩]) :=
      rfl
    have formed : Node.form? "(not false)".toList (.list (some 0) [.symbol ⟨1, 3⟩, .symbol ⟨5, 5⟩]) =
        some (.list 0 [.symbol 1 "not".toList, .symbol 5 "false".toList]) := rfl
    obtain ⟨outcome, after, evaluated, same⟩ :=
      (Machine.fresh Standard.registry ()).evaluate_means rfl parsed formed
    obtain rfl : outcome = .ok (.bool true) := Except.eq_ok_of_toOption same
    exact (evaluate_registerAll _ isolated _ "(not false)").2.1 (by rw [evaluated]; exact nofun)
  · apply (evaluate_registerAll _ isolated _ "(not 1)").2.2
    intro pair member
    exact Registry.lookup_registerAll_of_mem member

end HostLisp
