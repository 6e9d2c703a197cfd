import HostLisp.Proofs.Dispatch
import HostLisp.Proofs.NotedRegistrations

/-!
# Registrations that come late

The arguments of a call can register operations. Whether the head of the call is known is decided
before, and which operation is called is decided after.

## Main results

`Overloads.chooses_append_iff`: of two lists of operations in a row the second is only reached where
none of the first takes the arguments.

`form_dispatches_late`: an unknown head fails before the arguments are looked at. A known one is
called over its operations on entry and then those that its arguments have registered under it.

## Proof strategy

The registry only grows, so the set on entry is the front of the set that is called. The notes of a
host tell what comes after it.
-/

namespace HostLisp

variable {σ : Type}

/-! ### Longer sets -/

/-- Of two lists of operations in a row, the second is only reached where none of the first takes
the arguments. -/
theorem Overloads.chooses_append_iff {name : String} {old new : List (Operation σ)}
    {args : List Value} {place : Nat} {operation : Operation σ} :
    (Overloads.mk name (old ++ new)).Chooses args place operation ↔
      (Overloads.mk name old).Chooses args place operation ∨
        (∀ earlier ∈ old, ¬ earlier.Takes args) ∧
          ∃ later, place = old.length + later ∧
            (Overloads.mk name new).Chooses args later operation := by
  constructor
  · rintro ⟨before, rest, split, rfl, passed, takes⟩
    rcases List.append_eq_append_iff.mp split with ⟨middle, rfl, split'⟩ | ⟨middle, rfl, split'⟩
    · -- All of the old operations stand before the one that is chosen.
      obtain ⟨passed, passed'⟩ := List.forall_mem_append.mp passed
      exact Or.inr ⟨passed, middle.length, List.length_append, middle, rest, split', rfl, passed',
        takes⟩
    · cases middle with
      | nil =>
        rw [List.append_nil]
        exact Or.inr ⟨passed, 0, rfl, [], rest, split'.symm, rfl, by simp, takes⟩
      | cons first others =>
        cases split'
        exact Or.inl ⟨before, others, rfl, rfl, passed, takes⟩
  · rintro (⟨before, rest, rfl, rfl, passed, takes⟩ | ⟨passed, later, rfl, chooses⟩)
    · exact ⟨before, rest ++ new, by simp, rfl, passed, takes⟩
    · obtain ⟨before, rest, rfl, rfl, passed', takes⟩ := chooses
      refine ⟨old ++ before, rest, by simp, List.length_append, ?_, takes⟩
      exact List.forall_mem_append.mpr ⟨passed, passed'⟩

namespace Eval

variable {reenter : String → Eval σ Value} {machine here last between after : Machine σ}

/-- Where operations do not call back, none does after a part of the evaluation. -/
theorem Reaches.direct {form point : Form Int} (reaches : Reaches reenter machine form last point)
    (direct : machine.registry.Direct) : last.registry.Direct := by
  induction reaches with
  | here machine form => exact direct
  | @argument machine between last call known before rest item point values found split evaluated
      inner ih =>
    have entering : (machine.entering call).registry.Direct := direct
    exact ih (forms_leave reenter before _ entering _ _ evaluated).1

/-- The evaluation of a call of an unknown symbol comes to none of its arguments. -/
theorem Reaches.unknown {call : Form.Call} {point : Form Int}
    (reaches : Reaches reenter machine call.form last point)
    (absent : machine.registry.lookup call.symbol = none) :
    last = machine ∧ point = call.form := by
  -- To reach an argument the name would have to be known.
  generalize same : call.form = form at reaches
  cases reaches with
  | here => exact ⟨rfl, rfl⟩
  | argument found =>
    obtain rfl := Form.Call.form_inj same
    rw [absent] at found
    cases found

/-- Invokes an operation of a set, as the last that a call does. -/
def invoking (reenter : String → Eval σ Value) (overloads : Overloads σ) (args : List Value)
    (place : Nat) (operation : Operation σ) : Eval σ Value := do
  record (.call overloads.name args.length overloads.operations.length)
  record (.entered overloads.name place args)
  let value ← perform reenter (operation.run args)
  record (.returned overloads.name place operation.inspect)
  pop
  pure value

/-- A call invokes the operation that is chosen. -/
theorem call_eq_invoking {overloads : Overloads σ} {args : List Value} {place : Nat}
    {operation : Operation σ} (chooses : overloads.Chooses args place operation)
    (position : Option Int) :
    (do
      let value ← call reenter overloads args position
      pop
      pure value) = invoking reenter overloads args place operation := by
  rw [call, Overloads.choose?_eq_some_iff.mpr chooses, invoking]
  simp only [bind_assoc, pure_bind]

/-- A call with these arguments ends over operations that were there and operations that came late.
One that was there is invoked if it is the first to take the arguments; if none does, the first late
one; and if no late one does either, the call fails. -/
structure Dispatches (reenter : String → Eval σ Value) (here ready : Machine σ) (call : Form.Call)
    (args : List Value) (old new : List (Operation σ)) : Prop where
  early : ∀ place operation, (Overloads.mk call.symbol old).Chooses args place operation →
    (form reenter call.form).run here =
      (invoking reenter ⟨call.symbol, old ++ new⟩ args place operation).run ready
  late : (∀ operation ∈ old, ¬ operation.Takes args) →
    ∀ place operation, (Overloads.mk call.symbol new).Chooses args place operation →
      (form reenter call.form).run here =
        (invoking reenter ⟨call.symbol, old ++ new⟩ args (old.length + place) operation).run ready
  refused : (∀ operation ∈ old ++ new, ¬ operation.Takes args) →
    (form reenter call.form).run here =
      (.error (.evaluation (.notApplicable call.symbol (args.map Value.kind)) (some call.head)),
        { ready with journal := ready.journal ++
          [.call call.symbol args.length (old ++ new).length] })

/-- A call that ends over the operations of a row dispatches over any two parts of it. -/
theorem dispatches_of_run {ready : Machine σ} {call : Form.Call} {args : List Value}
    {old new : List (Operation σ)}
    (ends : (form reenter call.form).run here = (do
      let value ← Eval.call reenter ⟨call.symbol, old ++ new⟩ args (some call.head)
      pop
      pure value : Eval σ Value).run ready) :
    Dispatches reenter here ready call args old new where
  early place operation chooses := by
    -- What an old operation takes is never offered to a new one.
    rw [ends, call_eq_invoking (Overloads.chooses_append_iff.mpr (.inl chooses))]
  late passed place operation chooses := by
    have later := Overloads.chooses_append_iff.mpr (.inr ⟨passed, place, rfl, chooses⟩)
    rw [ends, call_eq_invoking later]
  refused passed := by
    rw [ends]
    exact run_bind_error (call_run_none (Overloads.choose?_eq_none.mpr passed) _)

/-- A call of a known symbol, once its arguments have values. They have registered operations, which
come after those that the symbol had. -/
theorem form_run_grown {call : Form.Call} {known : Overloads σ} {args : List Value}
    {added : List (String × Operation σ)} (found : machine.registry.lookup call.symbol = some known)
    (evaluated : (forms reenter call.arguments).run (machine.entering call) = (.ok args, between))
    (kept : between.stack = (machine.entering call).stack)
    (grown : between.registry = machine.registry.registerAll added) :
    (form reenter call.form).run machine = (do
      let value ← Eval.call reenter
        ⟨call.symbol, known.operations ++ Registry.under call.symbol added⟩ args (some call.head)
      pop
      pure value : Eval σ Value).run
        { between with stack := call.frame args :: machine.stack } := by
  -- The name has kept its set, with what was registered at its end.
  have later : between.registry.lookup call.symbol = _ :=
    grown ▸ Registry.lookup_registerAll_of_some found added
  rw [form_run_call found, run_bind_ok evaluated, conclude_run args kept, later]
  rfl

end Eval

open Eval

/-- Let no operation call back, and let a call be reached while a form is evaluated; each node that has
its form is evaluated as it. If its head is not known by then, the call fails at the head, and comes
to none of its arguments, whatever they would register. If the head is known, the call fails as its
arguments do, or is dispatched over the operations that its head had by then and after them those
that its arguments have registered under it, in order. -/
theorem form_dispatches_late (depth : Nat) (machine here : Machine σ) (whole : Form Int)
    (call : Form.Call) (direct : machine.registry.Direct)
    (reaches : Reaches (sourceWithin depth) machine whole here call.form) :
    (∀ source tree, tree.form? source = some call.form →
      (node (sourceWithin depth) source tree).run here =
        (form (sourceWithin depth) call.form).run here) ∧
    (here.registry.lookup call.symbol = none →
      (form (sourceWithin depth) call.form).run here =
        (.error (.evaluation (.unknownFunction call.symbol) (some call.head)), here) ∧
      ∀ last point, Reaches (sourceWithin depth) here call.form last point →
        last = here ∧ point = call.form) ∧
    ∀ known, here.registry.lookup call.symbol = some known →
      (∀ fault after,
        (forms (sourceWithin depth) call.arguments).run (here.entering call) =
          (.error fault, after) →
        (form (sourceWithin depth) call.form).run here = (.error fault, after)) ∧
      ∀ args between,
        (forms (sourceWithin depth) call.arguments).run (here.entering call) = (.ok args, between) →
        ∃ added,
          (∀ made,
            (forms (sourceWithin depth) call.arguments).run ((here.entering call).noting made) =
              (.ok args, between.noting (made ++ added))) ∧
          Dispatches (sourceWithin depth) here
            { between with stack := call.frame args :: here.stack } call args known.operations
            (Registry.under call.symbol added) := by
  have entering : (here.entering call).registry.Direct := reaches.direct direct
  refine ⟨?_, ?_, ?_⟩
  · intro source tree formed
    rw [node_eq_form _ source tree call.form formed]
  · intro absent
    refine ⟨form_run_unknown absent, ?_⟩
    intro last point inner
    exact inner.unknown absent
  · intro known found
    constructor
    · intro fault after failed
      rw [form_run_call found]
      exact run_bind_error failed
    · intro args between evaluated
      obtain ⟨added, same, grown⟩ :=
        forms_note (sourceWithin_notes depth) call.arguments _ _ _ evaluated
      -- Operations that do not call back leave the frame of the call on top.
      obtain ⟨-, kept⟩ := forms_leave _ call.arguments _ entering _ _ evaluated
      exact ⟨added, same, dispatches_of_run (form_run_grown found evaluated kept grown)⟩

private def ofNumber : Operation Unit := .fixed none [.int] fun _ => .give (.int 1)

private def ofAnything : Operation Unit := .variadic none none fun _ => .give (.int 2)

/-- A machine with an operation on one number, and one that registers another operation under the
same symbol and under a new one. -/
def enlisting : Machine Unit :=
  .fresh (Registry.empty.registerAll [
    ("f", ofNumber),
    ("enlist", .variadic none none fun _ =>
      .register "f" ofAnything fun _ => .register "g" ofAnything fun _ => .give .null)]) ()

theorem enlisting_direct : enlisting.registry.Direct := by
  have nothing : (Registry.empty : Registry Unit).Each Operation.Direct := nofun
  have late : ofAnything.Direct := fun _ => trivial
  apply nothing.registerAll
  intro pair member
  rcases List.mem_cons.mp member with rfl | last
  · exact fun _ => trivial
  · cases List.mem_singleton.mp last
    exact fun _ => ⟨late, fun _ => ⟨late, fun _ => trivial⟩⟩

/-- The operation that an argument has registered is called where the one that was there does not
take the arguments. A symbol that was not known stays unknown, although the argument would register
it. -/
theorem form_dispatches_late_enlisting :
    let reenter : String → Eval Unit Value := sourceWithin (nestingDepth - 1)
    let argument : Form Int := .list 3 [.symbol 4 "enlist".toList]
    enlisting.registry.Direct ∧
    (∃ after, (form reenter (.list 0 [.symbol 1 ['f'], argument])).run enlisting =
      (.ok (.int 2), after)) ∧
    (form reenter (.list 0 [.symbol 1 ['g'], argument])).run enlisting =
      (.error (.evaluation (.unknownFunction "g") (some 1)), enlisting) := by
  intro reenter argument
  let known : Form.Call := ⟨0, 1, ['f'], [argument]⟩
  let unknown : Form.Call := ⟨0, 1, ['g'], [argument]⟩
  let late : List (String × Operation Unit) := [("f", ofAnything), ("g", ofAnything)]
  -- Nothing evaluates a source, so it does not matter how one would be.
  have ends (reenter : String → Eval Unit Value) : ∃ between,
      (forms reenter known.arguments).run (enlisting.entering known) = (.ok [.null], between) ∧
      ∃ after, (invoking reenter ⟨"f", [ofNumber, ofAnything]⟩ [.null] 1 ofAnything).run
        { between with stack := [known.frame [.null]] } = (.ok (.int 2), after) := ⟨_, rfl, _, rfl⟩
  have notes (reenter : String → Eval (Noted Unit) Value) :
      ((forms reenter known.arguments).run ((enlisting.entering known).noting [])).2.state.made =
        late := rfl
  refine ⟨enlisting_direct, ?_, ?_⟩
  · obtain ⟨between, evaluated, after, invoked⟩ := ends reenter
    -- The argument registers one operation under each name, and the known name has it now.
    obtain ⟨added, same, dispatches⟩ := ((form_dispatches_late (nestingDepth - 1) enlisting
      enlisting known.form known enlisting_direct (.here _ _)).2.2 _ rfl).2 _ _ evaluated
    have noted := notes (sourceWithin (nestingDepth - 1))
    rw [same []] at noted
    obtain rfl : added = late := noted
    have passed : ∀ operation ∈ [ofNumber], ¬ operation.Takes [.null] := by
      intro operation member takes
      cases List.mem_singleton.mp member
      cases takes.2 _ (.head _)
    have chooses : (Overloads.mk "f" [ofAnything]).Chooses [.null] 0 ofAnything :=
      ⟨[], [], rfl, rfl, nofun, nofun⟩
    exact ⟨after, (dispatches.late passed 0 ofAnything chooses).trans invoked⟩
  · exact ((form_dispatches_late (nestingDepth - 1) enlisting enlisting unknown.form unknown
      enlisting_direct (.here _ _)).2.1 rfl).1

end HostLisp
