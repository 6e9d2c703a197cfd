import HostLisp.Proofs.CoupledForms
import HostLisp.Proofs.DirectCalls
import HostLisp.Proofs.FailureLocation

/-!
# Positions inside of the source

With operations that do not call back and whose faults have no positions, no position that
evaluation speaks of lies beyond the source.

## Main result

`Machine.evaluate_position_inside`: a fault is reported inside of the source, or nowhere.

## Proof strategy

Each step of the evaluator keeps the positions of the calls in progress inside of the source. What
the evaluator then does with a form is coupled with itself, and the marks of a form in its place say
where its parts stand.
-/

namespace HostLisp

variable {σ : Type}

/-- A position, if there is one, is an offset of a source of a size or its end. -/
def Inside (size : Nat) (position : Option Int) : Prop := ∀ p ∈ position, 0 ≤ p ∧ p ≤ size

theorem inside_none (size : Nat) : Inside size none := nofun

theorem inside_of_lt {size place : Nat} (below : place < size) :
    Inside size (some (place : Int)) := by
  rintro p ⟨⟩
  omega

/-! ### Operations without positions -/

mutual

/-- An action gives its own faults no position. It may end as a source did that it evaluated. -/
def Action.Unplaced : Action σ → Prop
  | .done (.ok _) => True
  | .done (.error fault) => fault.position = none
  | .frames next => ∀ stack, (next stack).Unplaced
  | .evaluate _ next => ∀ outcome, (next outcome).Unplaced ∨ next outcome = .done outcome
  | .register _ operation next => operation.Unplaced ∧ ∀ size, (next size).Unplaced
  | .readState next => ∀ state, (next state).Unplaced
  | .writeState _ next => next.Unplaced
termination_by structural action => action

def Operation.Unplaced : Operation σ → Prop
  | .fixed _ _ run => ∀ args, (run args).Unplaced
  | .variadic _ _ run => ∀ args, (run args).Unplaced
termination_by structural operation => operation

end

theorem Operation.Unplaced.run {operation : Operation σ} (unplaced : operation.Unplaced)
    (args : List Value) : (operation.run args).Unplaced := by
  cases operation with
  | fixed label types run => exact unplaced args
  | variadic label type run => exact unplaced args

/-- A machine whose operations do not call back and raise faults without positions, and on which
calls are in progress only inside of a source of a size. -/
structure Machine.Confined (size : Nat) (machine : Machine σ) : Prop where
  direct : machine.registry.Direct
  unplaced : machine.registry.Each Operation.Unplaced
  frames : ∀ frame ∈ machine.stack, Inside size frame.position

namespace Eval

variable {size : Nat}

/-- One evaluation, during which positions stay inside of a source of a size. -/
def confined (σ : Type) (size : Nat) : Coupling (Runs.state (Machine σ)) (Runs.state (Machine σ)) :=
  .alone (Machine.Confined size) fun fault => Inside size fault.position

/-- A frame with arguments is where it was without, so the steps that change the calls in progress
move none of them. -/
theorem confined_stacked :
    (confined σ size).Stacked fun frame frame' => frame' = frame ∧ Inside size frame.position where
  stack := by
    rintro machine _ ⟨rfl, kept⟩
    exact List.forall₂_same.mpr fun frame member => ⟨rfl, kept.frames frame member⟩
  with_stack := by
    rintro machine _ stack stack' ⟨rfl, kept⟩ framed
    -- Frames that are related one by one are the same, so the stacks are.
    have same : stack' = stack ∧ ∀ frame ∈ stack, Inside size frame.position := by
      induction framed with
      | nil => exact ⟨rfl, nofun⟩
      | cons here _ ih =>
        obtain ⟨rfl, inside⟩ := here
        exact ⟨by rw [ih.1], List.forall_mem_cons.mpr ⟨inside, ih.2⟩⟩
    obtain ⟨rfl, inside⟩ := same
    exact ⟨rfl, kept.direct, kept.unplaced, inside⟩
  with_args := by
    rintro frame _ args ⟨rfl, inside⟩
    exact ⟨rfl, inside⟩
  listIndex := ⟨rfl, inside_none size⟩

variable {reenter : String → Eval σ Value}

theorem performs_confined : (confined σ size).Performs reenter reenter fun action =>
    action.Direct ∧ action.Unplaced where
  raise := by
    rintro fault ⟨-, unplaced⟩
    -- An operation that knows of no place raises its faults without one.
    have inside : Inside size fault.position := by
      rw [show fault.position = none from unplaced]
      exact inside_none size
    exact ⟨rfl, inside⟩
  frames allowed machine _ kept :=
    ⟨kept.1 ▸ rfl, allowed.1 machine.stack, allowed.2 machine.stack⟩
  evaluate allowed := allowed.1.elim
  register {symbol operation next} allowed := by
    refine ⟨?_, fun count => ⟨allowed.1.2 count, allowed.2.2 count⟩⟩
    rintro machine _ ⟨rfl, kept⟩
    exact ⟨rfl, rfl, Registry.Each.register kept.direct symbol allowed.1.1,
      kept.unplaced.register symbol allowed.2.1, kept.frames⟩
  readState allowed machine _ kept :=
    ⟨kept.1 ▸ rfl, allowed.1 machine.state, allowed.2 machine.state⟩
  writeState allowed := by
    refine ⟨?_, allowed⟩
    rintro machine _ ⟨rfl, kept⟩
    exact ⟨rfl, kept.direct, kept.unplaced, kept.frames⟩

/-- Faults at marks that are inside of a source are reported inside of it. -/
theorem evaluates_confined : (confined σ size).Evaluates reenter reenter
    (fun mark mark' => mark' = mark ∧ Inside size (some mark)) fun _ known known' =>
      known' = known ∧ ∀ operation ∈ known.operations, operation.Direct ∧ operation.Unplaced := by
  refine .of_each confined_stacked ?_ ?_ ?_ ?_ ?_ ?_
  · rintro name mark _ ⟨rfl, inside⟩
    exact ⟨rfl, inside⟩
  · rintro machine _ ⟨rfl, kept⟩
    exact ⟨rfl, fun overloads member operation inside =>
      ⟨kept.direct overloads member operation inside, kept.unplaced overloads member operation inside⟩⟩
  · intro event
    apply Coupling.Holds.modify
    rintro machine _ ⟨rfl, kept⟩
    exact ⟨rfl, kept.direct, kept.unplaced, kept.frames⟩
  · rintro operation args ⟨direct, unplaced⟩
    exact performs_confined.perform _ ⟨direct.run args, unplaced.run args⟩
  · rintro cause mark _ ⟨rfl, inside⟩
    exact ⟨rfl, inside⟩
  · exact fun _ => ⟨rfl, inside_none size⟩

end Eval

/-! ### Forms -/

mutual

/-- The marks of a form that stands in a source are inside of the source. -/
theorem Form.InPlace.beside {source : List Char} : ∀ form : Form Int, form.InPlace source →
    form.Beside (fun mark mark' => mark' = mark ∧ Inside source.length (some mark)) form
  | .string mark body, _ => .string mark mark body
  | .symbol mark text, placed => by
    obtain ⟨place, rfl, below, -, -⟩ := placed.symbol_at
    exact .symbol text ⟨rfl, inside_of_lt below⟩
  | .list mark items, placed => by
    obtain ⟨place, rfl, below, -⟩ := placed.list_at
    refine .list ⟨rfl, inside_of_lt below⟩ (forall₂_inPlace items ?_)
    cases placed with
    | list before after items split later each => exact each

theorem Form.forall₂_inPlace {source : List Char} : ∀ forms : List (Form Int),
    (∀ form ∈ forms, form.InPlace source) → List.Forall₂
      (Form.Beside fun mark mark' => mark' = mark ∧ Inside source.length (some mark)) forms forms
  | [], _ => .nil
  | first :: rest, placed =>
    .cons (Form.InPlace.beside first (placed first List.mem_cons_self))
      (forall₂_inPlace rest fun form member => placed form (List.mem_cons_of_mem _ member))

end

/-! ### Runs -/

/-- If no operation calls back or gives its faults positions, the offset that a fault is reported at
is inside of the source, or there is none. -/
theorem Machine.evaluate_position_inside (machine : Machine σ) (direct : machine.registry.Direct)
    (unplaced : machine.registry.Each Operation.Unplaced) {text : String} {fault : Fault}
    {after : Machine σ} (failed : machine.evaluate text = (.error fault, after)) :
    Inside text.toList.length (after.faultPosition fault) := by
  cases parsed : parse text.toList with
  | error reason =>
    rw [machine.evaluate_of_error parsed] at failed
    cases failed
    obtain rfl := parse_error parsed
    rintro p ⟨⟩
    omega
  | ok root =>
    obtain ⟨form, formed, -⟩ := parse_form text.toList root parsed
    rw [machine.evaluate_of_form parsed formed] at failed
    have beside := Form.InPlace.beside form (parse_inPlace parsed formed)
    have start : ({ machine with stack := [] } : Machine σ).Confined text.toList.length :=
      ⟨direct, unplaced, nofun⟩
    obtain ⟨confined, inside⟩ :=
      Coupling.alone_run (Eval.evaluates_confined.form form form beside) start failed
    cases position : fault.position with
    | some p =>
      have own := inside fault rfl
      rw [position] at own
      rwa [Machine.faultPosition, position]
    | none =>
      -- Without a position of its own it is reported at the innermost call in progress.
      rw [Machine.faultPosition, position]
      cases top : after.stack with
      | nil => exact inside_none _
      | cons frame outer => exact confined.frames frame (top ▸ List.mem_cons_self)

end HostLisp
