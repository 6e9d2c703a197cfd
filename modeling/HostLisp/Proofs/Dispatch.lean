import HostLisp.Proofs.ReachedForms

/-!
# Dispatch

A call goes to the first operation of its set that takes the arguments, and to no other.

## Main results

`Overloads.choose?_eq_some_iff`: the operation that is called is the first that takes the arguments.

`Walk.call_run`: offering the arguments to one operation after another comes to the same, whether
counts are compared first or not, and leaves the caller's list of arguments as it was.

`call_dispatches`: a call invokes the first operation that takes the arguments and ends as that
does, or fails if there is none.

## Proof strategy

`Operation.Takes` and `Overloads.Chooses` say what is chosen without a search. The walk through a
set is an induction on its operations: those that do not take the arguments are passed by.
-/

namespace HostLisp

variable {σ α : Type}

/-! ### What operations take -/

/-- An operation takes arguments: as many as it has types, each of its own type, or any number, each
of the one type if there is one. -/
def Operation.Takes (operation : Operation σ) (args : List Value) : Prop :=
  match operation with
  | .fixed _ types _ =>
    args.length = types.length ∧ ∀ pair ∈ types.zip args, pair.1.holds pair.2 = true
  | .variadic _ type _ => ∀ declared ∈ type, ∀ value ∈ args, declared.holds value = true

theorem Operation.allHold_iff {types : List TypeName} {args : List Value} :
    allHold types args = true ↔
      args.length = types.length ∧ ∀ pair ∈ types.zip args, pair.1.holds pair.2 = true := by
  induction types generalizing args with
  | nil => cases args <;> simp [allHold]
  | cons type types ih =>
    cases args with
    | nil => simp [allHold]
    | cons value values =>
      simp only [allHold, Bool.and_eq_true, ih, List.length_cons, List.zip_cons_cons,
        List.forall_mem_cons, Nat.add_right_cancel_iff]
      constructor
      · rintro ⟨here, count, others⟩
        exact ⟨count, here, others⟩
      · rintro ⟨count, here, others⟩
        exact ⟨here, count, others⟩

theorem Operation.accepts_iff {operation : Operation σ} {args : List Value} :
    operation.accepts args = true ↔ operation.Takes args := by
  cases operation with
  | fixed label types run => exact allHold_iff
  | variadic label type run =>
    cases type with
    | none => simp [accepts, Takes]
    | some type => simp [accepts, Takes]

/-- Comparing the counts first decides nothing that the types do not decide. -/
theorem Operation.admits_and_accepts_iff {operation : Operation σ} {args : List Value} :
    (operation.admits args.length && operation.accepts args) = true ↔ operation.Takes args := by
  rw [Bool.and_eq_true, accepts_iff]
  constructor
  · exact And.right
  · intro takes
    exact ⟨admits_of_accepts (accepts_iff.mpr takes), takes⟩

/-- The first operation of a set that takes arguments, and its place. -/
def Overloads.Chooses (overloads : Overloads σ) (args : List Value) (place : Nat)
    (operation : Operation σ) : Prop :=
  ∃ before rest, overloads.operations = before ++ operation :: rest ∧ before.length = place ∧
    (∀ earlier ∈ before, ¬ earlier.Takes args) ∧ operation.Takes args

/-- The operation that is called is the first that takes the arguments. -/
theorem Overloads.choose?_eq_some_iff {overloads : Overloads σ} {args : List Value} {place : Nat}
    {operation : Operation σ} :
    overloads.choose? args = some (place, operation) ↔ overloads.Chooses args place operation := by
  -- What the search passes by is what does not take the arguments.
  have passed_iff (other : Operation σ) :
      (!(other.admits args.length && other.accepts args)) = true ↔ ¬ other.Takes args := by
    rw [Bool.not_eq_true', ← Bool.not_eq_true, Operation.admits_and_accepts_iff]
  rw [choose?, Option.map_eq_some_iff]
  constructor
  · rintro ⟨⟨found, index⟩, first, same⟩
    cases same
    obtain ⟨fit, before, rest, split, passed⟩ := List.find?_eq_some_iff_append.mp first
    have operations := congrArg (List.map Prod.fst) split
    rw [List.zipIdx_map_fst, List.map_append, List.map_cons] at operations
    -- The index of the operation is how many stand before it.
    have counted := congrArg (fun pairs => pairs[before.length]?) split
    simp only [List.getElem?_zipIdx, List.getElem?_append_right (Nat.le_refl _), Nat.sub_self,
      List.getElem?_cons_zero, Option.map_eq_some_iff, Prod.mk.injEq, Nat.zero_add] at counted
    obtain ⟨_, -, -, counted⟩ := counted
    refine ⟨before.map Prod.fst, rest.map Prod.fst, operations, ?_, ?_, ?_⟩
    · rw [List.length_map, counted]
    · intro earlier member
      obtain ⟨pair, inside, rfl⟩ := List.mem_map.mp member
      exact (passed_iff pair.1).mp (passed pair inside)
    · exact Operation.admits_and_accepts_iff.mp fit
  · rintro ⟨before, rest, split, rfl, passed, takes⟩
    refine ⟨(operation, before.length), ?_, rfl⟩
    rw [List.find?_eq_some_iff_append, split, List.zipIdx_append, List.zipIdx_cons, Nat.zero_add]
    refine ⟨Operation.admits_and_accepts_iff.mpr takes, _, _, rfl, ?_⟩
    intro pair inside
    exact (passed_iff pair.1).mpr (passed pair.1 (List.fst_mem_of_mem_zipIdx inside))

theorem Overloads.choose?_eq_none {overloads : Overloads σ} {args : List Value} :
    overloads.choose? args = none ↔ ∀ operation ∈ overloads.operations, ¬ operation.Takes args := by
  simp only [choose?_eq_none_iff, ← Operation.admits_and_accepts_iff, Bool.not_eq_true]

/-! ### A walk through the operations -/

/-- A machine beside the lists of values that there are, each at its place. Who has a list can
change it. -/
structure Heap (σ : Type) where
  machine : Machine σ
  lists : List (List Value)

abbrev Walk (σ : Type) := ExceptT Fault (StateM (Heap σ))

namespace Walk

/-- What is done on the machine and to no list. -/
def lift (evaluation : Eval σ α) : Walk σ α := ExceptT.mk fun heap =>
  let result := evaluation.run heap.machine
  (result.1, { heap with machine := result.2 })

def list (place : Nat) : Walk σ (List Value) := do return (← get).lists.getD place []

/-- Makes a list at a place of its own. -/
def allocate (values : List Value) : Walk σ Nat := do
  let place := (← get).lists.length
  modify fun heap => { heap with lists := heap.lists ++ [values] }
  pure place

def write (place : Nat) (values : List Value) : Walk σ Unit :=
  modify fun heap => { heap with lists := heap.lists.set place values }

/-- How a call goes through the operations of its set. -/
structure Manner (σ : Type) where
  /-- How a source is evaluated from within an operation. -/
  reenter : String → Eval σ Value
  /-- What an operation leaves in the list that it is handed. -/
  leaves : Machine σ → List Value → List Value
  /-- Whether operations of another count are passed by before they are offered anything. -/
  compares : Bool

/-- Offers the list at a place to an operation, which is invoked if the values are of its types.
With a fixed count it is handed the values one by one, and otherwise a list of its own. -/
def offer (manner : Manner σ) (name : String) (index place : Nat) :
    Operation σ → Walk σ (Option Value)
  | .fixed _ types run => do
    let args ← list place
    if args.length ≠ types.length then pure none
    else if (types.zip args).all (fun pair => pair.1.holds pair.2) then
      lift (Eval.record (.entered name index args))
      let value ← lift (Eval.perform manner.reenter (run args))
      pure (some value)
    else pure none
  | .variadic _ type run => do
    let args ← list place
    if type.all (fun declared => args.all declared.holds) then
      let copy ← allocate args
      lift (Eval.record (.entered name index args))
      let outcome ← lift (Eval.attempt (Eval.perform manner.reenter (run (← list copy))))
      -- Whether it has given a value or failed, the operation may have changed what it was handed.
      write copy (manner.leaves (← get).machine args)
      match outcome with
      | .ok value => pure (some value)
      | .error fault => throw fault
    else pure none

/-- Offers the list at a place to operations, the first of which is at the index, until one of them
is invoked. -/
def through (manner : Manner σ) (name : String) (place : Nat) (position : Option Int) :
    Nat → List (Operation σ) → Walk σ Value
  | _, [] => do throw (.evaluation (.notApplicable name ((← list place).map Value.kind)) position)
  | index, operation :: rest => do
    if manner.compares && !operation.admits (← list place).length then
      through manner name place position (index + 1) rest
    else
      match ← offer manner name index place operation with
      | some value =>
        lift (Eval.record (.returned name index operation.inspect))
        pure value
      | none => through manner name place position (index + 1) rest

/-- Calls a set with the arguments that are in the list at a place. -/
def call (manner : Manner σ) (overloads : Overloads σ) (place : Nat) (position : Option Int) :
    Walk σ Value := do
  lift (Eval.record (.call overloads.name (← list place).length overloads.operations.length))
  through manner overloads.name place position 0 overloads.operations

/-! ### Runs -/

open Eval (run_bind_ok run_bind_error run_bind_cases get_run)

variable {heap : Heap σ} {manner : Manner σ} {name : String} {index place : Nat}
  {operation : Operation σ} {args : List Value}

theorem lift_run {evaluation : Eval σ α} {outcome : Except Fault α} {after : Machine σ}
    (ran : evaluation.run heap.machine = (outcome, after)) :
    (lift evaluation).run heap = (outcome, { heap with machine := after }) := by
  change ((evaluation.run heap.machine).1, _) = _
  rw [ran]

theorem list_run (there : heap.lists[place]? = some args) :
    (list place).run heap = (.ok args, heap) := by
  have read : heap.lists.getD place [] = args := by
    rw [List.getD_eq_getElem?_getD, there, Option.getD_some]
  rw [← read]
  rfl

/-- An operation that does not take the arguments does nothing. -/
theorem offer_run_refused (there : heap.lists[place]? = some args)
    (refused : ¬ operation.Takes args) :
    (offer manner name index place operation).run heap = (.ok none, heap) := by
  cases operation with
  | fixed label types run =>
    rw [offer, run_bind_ok (list_run there)]
    -- A wrong count is refused before any type is looked at.
    by_cases count : args.length = types.length
    · have untyped : ¬ (types.zip args).all (fun pair => pair.1.holds pair.2) = true := by
        intro typed
        exact refused ⟨count, List.all_eq_true.mp typed⟩
      rw [if_neg (not_not_intro count), if_neg untyped]
      rfl
    · rw [if_pos count]
      rfl
  | variadic label type run =>
    have untyped : ¬ type.all (fun declared => args.all declared.holds) = true := by
      intro typed
      apply refused
      intro declared given
      cases given
      exact List.all_eq_true.mp typed
    rw [offer, run_bind_ok (list_run there), if_neg untyped]
    rfl

/-- An operation that takes the arguments is invoked with them, and the lists that there were stay
as they are. -/
theorem offer_run_taken (there : heap.lists[place]? = some args) (takes : operation.Takes args)
    {outcome : Except Fault Value} {after : Machine σ}
    (performed : (Eval.perform manner.reenter (operation.run args)).run { heap.machine with
      journal := heap.machine.journal ++ [.entered name index args] } = (outcome, after)) :
    ∃ handed, (offer manner name index place operation).run heap =
      (outcome.map some, ⟨after, heap.lists ++ handed⟩) := by
  cases operation with
  | fixed label types run =>
    obtain ⟨count, typed⟩ := takes
    refine ⟨[], ?_⟩
    rw [offer, run_bind_ok (list_run there), if_neg (not_not_intro count),
      if_pos (List.all_eq_true.mpr typed), run_bind_ok (lift_run (Eval.record_run _)),
      List.append_nil]
    cases outcome with
    | ok value =>
      rw [run_bind_ok (lift_run performed)]
      rfl
    | error fault =>
      rw [run_bind_error (lift_run performed)]
      rfl
  | variadic label type run =>
    have typed : type.all (fun declared => args.all declared.holds) = true := by
      cases type with
      | none => rfl
      | some declared => exact List.all_eq_true.mpr (takes declared rfl)
    -- The list that is handed out is the last one, and it is the only one that is written to.
    have written : (heap.lists ++ [args]).set heap.lists.length (manner.leaves after args) =
        heap.lists ++ [manner.leaves after args] := by
      rw [List.set_append_right _ _ (Nat.le_refl _), Nat.sub_self, List.set_cons_zero]
    have copied : (heap.lists ++ [args])[heap.lists.length]? = some args := by
      rw [List.getElem?_append_right (Nat.le_refl _), Nat.sub_self, List.getElem?_cons_zero]
    have made : (allocate args).run heap =
        (.ok heap.lists.length, ⟨heap.machine, heap.lists ++ [args]⟩) := rfl
    refine ⟨[manner.leaves after args], ?_⟩
    rw [offer, run_bind_ok (list_run there), if_pos typed, run_bind_ok made,
      run_bind_ok (lift_run (Eval.record_run _)), run_bind_ok (list_run copied),
      run_bind_ok (lift_run (Eval.attempt_run performed)), run_bind_ok get_run, ← written]
    cases outcome with
    | ok value => rfl
    | error fault => rfl

variable {position : Option Int}

/-- An operation that does not take the arguments is passed by, in either manner. -/
theorem through_run_refused (there : heap.lists[place]? = some args)
    (refused : ¬ operation.Takes args) (rest : List (Operation σ)) :
    (through manner name place position index (operation :: rest)).run heap =
      (through manner name place position (index + 1) rest).run heap := by
  rw [through, run_bind_ok (list_run there)]
  split_ifs
  · rfl
  · rw [run_bind_ok (offer_run_refused there refused)]

theorem through_run_passed (there : heap.lists[place]? = some args)
    {before : List (Operation σ)} (refused : ∀ earlier ∈ before, ¬ earlier.Takes args)
    (rest : List (Operation σ)) :
    (through manner name place position index (before ++ rest)).run heap =
      (through manner name place position (index + before.length) rest).run heap := by
  -- Each operation that refuses moves the walk on by one place.
  induction before generalizing index with
  | nil => rfl
  | cons first others ih =>
    obtain ⟨here, later⟩ := List.forall_mem_cons.mp refused
    rw [List.cons_append, through_run_refused there here, ih later, List.length_cons,
      Nat.add_assoc, Nat.add_comm 1]

theorem through_run_taken (there : heap.lists[place]? = some args) (takes : operation.Takes args)
    (rest : List (Operation σ)) {outcome : Except Fault Value} {after : Machine σ}
    (performed : (Eval.perform manner.reenter (operation.run args)).run { heap.machine with
      journal := heap.machine.journal ++ [.entered name index args] } = (outcome, after)) :
    ∃ handed, (through manner name place position index (operation :: rest)).run heap =
      match outcome with
      | .ok value => (.ok value, ⟨{ after with
          journal := after.journal ++ [.returned name index operation.inspect] },
          heap.lists ++ handed⟩)
      | .error fault => (.error fault, ⟨after, heap.lists ++ handed⟩) := by
  have admitted := Operation.admits_of_accepts (Operation.accepts_iff.mpr takes)
  obtain ⟨handed, offered⟩ := offer_run_taken there takes performed
  refine ⟨handed, ?_⟩
  -- The count is right, so comparing it passes nothing by.
  rw [through, run_bind_ok (list_run there), admitted, Bool.not_true, Bool.and_false,
    if_neg Bool.false_ne_true]
  cases outcome with
  | ok value =>
    rw [run_bind_ok offered]
    rfl
  | error fault => rw [run_bind_error offered]

theorem through_run_none (there : heap.lists[place]? = some args) {operations : List (Operation σ)}
    (refused : ∀ operation ∈ operations, ¬ operation.Takes args) :
    (through manner name place position index operations).run heap =
      (.error (.evaluation (.notApplicable name (args.map Value.kind)) position), heap) := by
  have passed : (through manner name place position index (operations ++ [])).run heap = _ :=
    through_run_passed there refused []
  rw [List.append_nil] at passed
  rw [passed, through, run_bind_ok (list_run there)]
  rfl

/-- Walking through the operations ends as a call does. The lists that there were stay as they are,
whatever operations do to the lists that they are handed. -/
theorem call_run (manner : Manner σ) (overloads : Overloads σ) (position : Option Int)
    (there : heap.lists[place]? = some args) {outcome : Except Fault Value} {after : Machine σ}
    (ran : (Eval.call manner.reenter overloads args position).run heap.machine = (outcome, after)) :
    ∃ handed, (call manner overloads place position).run heap =
      (outcome, ⟨after, heap.lists ++ handed⟩) := by
  let noted : Heap σ := { heap with machine := { heap.machine with
    journal := heap.machine.journal ++
      [.call overloads.name args.length overloads.operations.length] } }
  have there' : noted.lists[place]? = some args := there
  -- The line that announces the call is written before the walk.
  have called : (call manner overloads place position).run heap =
      (through manner overloads.name place position 0 overloads.operations).run noted := by
    rw [call, run_bind_ok (list_run there)]
    exact run_bind_ok (lift_run (Eval.record_run _))
  rw [called]
  cases chosen : overloads.choose? args with
  | none =>
    rw [Eval.call_run_none chosen] at ran
    cases ran
    refine ⟨[], ?_⟩
    rw [through_run_none there' (Overloads.choose?_eq_none.mp chosen), List.append_nil]
  | some found =>
    obtain ⟨index, operation⟩ := found
    obtain ⟨before, rest, split, rfl, refused, takes⟩ := Overloads.choose?_eq_some_iff.mp chosen
    rw [split, through_run_passed there' refused, Nat.zero_add]
    rw [Eval.call_run chosen] at ran
    rcases run_bind_cases ran with ⟨value, between, performed, ended⟩ | ⟨fault, failed, rfl⟩
    · cases ended
      exact through_run_taken there' takes rest performed
    · exact through_run_taken there' takes rest failed

end Walk

/-! ### Calls -/

/-- A call invokes the first operation of its set that takes the arguments, once and no other: the
call ends on the machine on which that operation ends, with its value or its fault. If no operation
takes the arguments none is invoked, and the call fails with the symbol of the set, the position of
the call and the kinds of the arguments. Offering the arguments to one operation after another comes
to the same, with or without a comparison of counts, and the caller's list of arguments stays as it
was. -/
theorem call_dispatches (reenter : String → Eval σ Value) (overloads : Overloads σ)
    (args : List Value) (position : Option Int) (machine : Machine σ) :
    ((∃ place operation, overloads.Chooses args place operation ∧
        (Eval.call reenter overloads args position).run machine =
          match (Eval.perform reenter (operation.run args)).run
            (machine.handing overloads place args) with
          | (.ok value, after) => (.ok value, { after with
              journal := after.journal ++ [.returned overloads.name place operation.inspect] })
          | (.error fault, after) => (.error fault, after)) ∨
      ((∀ operation ∈ overloads.operations, ¬ operation.Takes args) ∧ ∃ cause : Cause,
        cause.symbol = some overloads.name ∧
        (let shown := ", ".intercalate ((args.map Value.kind).map Kind.name);
          cause.message =
            s!"Failed to invoke function '{overloads.name}' with arguments ({shown})") ∧
        (Eval.call reenter overloads args position).run machine =
          (.error (.evaluation cause position), { machine with journal := machine.journal ++
            [.call overloads.name args.length overloads.operations.length] }))) ∧
    ∀ (leaves : Machine σ → List Value → List Value) (compares : Bool)
        (earlier later : List (List Value)), ∃ handed,
      (Walk.call ⟨reenter, leaves, compares⟩ overloads earlier.length position).run
          ⟨machine, earlier ++ args :: later⟩ =
        (((Eval.call reenter overloads args position).run machine).1,
          ⟨((Eval.call reenter overloads args position).run machine).2,
            earlier ++ args :: later ++ handed⟩) := by
  constructor
  · cases chosen : overloads.choose? args with
    | none =>
      right
      exact ⟨Overloads.choose?_eq_none.mp chosen,
        .notApplicable overloads.name (args.map Value.kind), rfl, rfl,
        Eval.call_run_none chosen position⟩
    | some found =>
      obtain ⟨place, operation⟩ := found
      left
      refine ⟨place, operation, Overloads.choose?_eq_some_iff.mp chosen, ?_⟩
      rw [Eval.call_run chosen, ← Machine.handing]
      cases performed : (Eval.perform reenter (operation.run args)).run
          (machine.handing overloads place args) with
      | mk outcome after =>
        cases outcome with
        | ok value => exact Eval.run_bind_ok performed
        | error fault => exact Eval.run_bind_error performed
  -- The walk is told where the list of arguments is, among any others.
  · intro leaves compares earlier later
    let heap : Heap σ := ⟨machine, earlier ++ args :: later⟩
    have there : heap.lists[earlier.length]? = some args := by
      rw [List.getElem?_append_right (Nat.le_refl _), Nat.sub_self, List.getElem?_cons_zero]
    exact Walk.call_run ⟨reenter, leaves, compares⟩ overloads position there rfl

end HostLisp
