import HostLisp.Proofs.CoupledForms

/-!
# Registrations that are noted

A host can keep a list of what is registered beside its own state. Evaluation goes on as it does
without the list, so the list tells what an evaluation registers and in what order, at any depth and
before any failure.

## Main results

`Eval.evaluates_noting`, `Eval.sourceWithin_notes`: with registrations noted an evaluation ends as it
does without, and the list grows by what is registered.

`Machine.evaluate_registered`: what a source leaves registered is what was there and then what it
registers.

## Proof strategy

`Action.noting` notes an operation right before it is registered, and changes nothing that an action
is told. An evaluation is coupled with the one with notes from all notes that there could have been
before, so what it adds is the same whatever they were.
-/

namespace HostLisp

variable {σ α : Type}

/-! ### Hosts that note -/

/-- The state of a host beside the operations that were registered, in order. -/
structure Noted (σ : Type) where
  state : σ
  made : List (String × Operation σ)

mutual

/-- Does the same, and notes each operation right before it is registered. -/
def Action.noting : Action σ → Action (Noted σ)
  | .done outcome => .done outcome
  | .frames next => .frames fun stack => (next stack).noting
  | .evaluate source next => .evaluate source fun outcome => (next outcome).noting
  | .register symbol operation next =>
    .readState fun host =>
      .writeState { host with made := host.made ++ [(symbol, operation)] }
        (.register symbol operation.noting fun size => (next size).noting)
  | .readState next => .readState fun host => (next host.state).noting
  | .writeState state next => .readState fun host => .writeState { host with state } next.noting
termination_by structural action => action

/-- An operation that takes the same arguments, and whose actions are noted. -/
def Operation.noting : Operation σ → Operation (Noted σ)
  | .fixed label types run => .fixed label types fun args => (run args).noting
  | .variadic label type run => .variadic label type fun args => (run args).noting
termination_by structural operation => operation

end

def Overloads.noting (overloads : Overloads σ) : Overloads (Noted σ) :=
  ⟨overloads.name, overloads.operations.map Operation.noting⟩

def Registry.noting (registry : Registry σ) : Registry (Noted σ) :=
  ⟨registry.sets.map Overloads.noting⟩

/-- The machine whose host has noted registrations. -/
def Machine.noting (machine : Machine σ) (made : List (String × Operation σ)) : Machine (Noted σ) :=
  ⟨machine.registry.noting, machine.stack, ⟨machine.state, made⟩, machine.journal⟩

namespace Operation

variable {operation : Operation σ}

@[simp] theorem run_noting (args : List Value) :
    operation.noting.run args = (operation.run args).noting := by
  cases operation <;> rfl

@[simp] theorem admits_noting (count : Nat) :
    operation.noting.admits count = operation.admits count := by
  cases operation <;> rfl

@[simp] theorem accepts_noting (args : List Value) :
    operation.noting.accepts args = operation.accepts args := by
  cases operation with
  | fixed label types run => rfl
  | variadic label type run => cases type <;> rfl

@[simp] theorem inspect_noting : operation.noting.inspect = operation.inspect := by
  cases operation <;> rfl

end Operation

/-- The same operation is chosen among those that are noted, because what they take is the same. -/
theorem Overloads.choose?_noting (overloads : Overloads σ) (args : List Value) :
    overloads.noting.choose? args =
      (overloads.choose? args).map fun (place, operation) => (place, operation.noting) := by
  simp only [choose?, noting, List.zipIdx_map, List.find?_map, Option.map_map]
  congr 1
  apply congrArg (List.find? · overloads.operations.zipIdx)
  funext pair
  simp

theorem Overloads.noting_length (overloads : Overloads σ) :
    overloads.noting.operations.length = overloads.operations.length :=
  List.length_map _

namespace Registry

theorem lookup_noting (registry : Registry σ) (symbol : String) :
    registry.noting.lookup symbol = (registry.lookup symbol).map Overloads.noting := by
  simp only [lookup, noting, List.find?_map]
  rfl

/-- Registering is noted operation by operation, so it does not matter whether notes are taken
before it or after. -/
theorem register_noting (registry : Registry σ) (symbol : String) (operation : Operation σ) :
    registry.noting.register symbol operation.noting =
      (registry.register symbol operation).noting := by
  -- A name is found at one place with notes or without, so the operation is added there on both
  -- sides.
  have inserted (sets : List (Overloads σ)) :
      insert symbol operation.noting (sets.map Overloads.noting) =
        (insert symbol operation sets).map Overloads.noting := by
    induction sets with
    | nil => rfl
    | cons first rest ih =>
      have named : first.noting.name = first.name := rfl
      rw [List.map_cons, insert, insert, named]
      split_ifs
      · simp [Overloads.noting]
      · rw [ih, List.map_cons]
  exact congrArg Registry.mk (inserted registry.sets)

theorem registerAll_append (registry : Registry σ) (first second : List (String × Operation σ)) :
    registry.registerAll (first ++ second) = (registry.registerAll first).registerAll second :=
  List.foldl_append

end Registry

theorem Machine.register_noting (machine : Machine σ) (symbol : String) (operation : Operation σ)
    (made : List (String × Operation σ)) :
    (machine.noting made).register symbol operation.noting =
      (machine.register symbol operation).noting made :=
  congrArg (fun registry => Machine.mk registry _ _ _)
    (machine.registry.register_noting symbol operation)

namespace Machine

/-- With notes, a step leads from the one machine to the other too, and what is registered meanwhile
is added to the notes. -/
def Tracks (step : Machine (Noted σ) → Machine (Noted σ) → Prop) (machine after : Machine σ) :
    Prop :=
  ∃ more, (∀ made, step (machine.noting made) (after.noting (made ++ more))) ∧
    after.registry = machine.registry.registerAll more

variable {step step' step'' : Machine (Noted σ) → Machine (Noted σ) → Prop}
  {machine between after : Machine σ}

theorem Tracks.still (same : ∀ made, step (machine.noting made) (after.noting made))
    (kept : after.registry = machine.registry) : Tracks step machine after := by
  refine ⟨[], fun made => ?_, kept⟩
  rw [List.append_nil]
  exact same made

/-- Notes of one step are notes of another that it implies. -/
theorem Tracks.imp (tracks : Tracks step machine after)
    (implies : ∀ made last, step (machine.noting made) last → step' (machine.noting made) last) :
    Tracks step' machine after := by
  obtain ⟨more, same, grown⟩ := tracks
  exact ⟨more, fun made => implies made _ (same made), grown⟩

/-- The notes of two steps one after the other are those of the first and then those of the second.
-/
theorem Tracks.trans (first : Tracks step machine between) (second : Tracks step' between after)
    (joined : ∀ start middle last, step start middle → step' middle last → step'' start last) :
    Tracks step'' machine after := by
  obtain ⟨more, same, grown⟩ := first
  obtain ⟨more', same', grown'⟩ := second
  refine ⟨more ++ more', fun made => ?_, ?_⟩
  · rw [← List.append_assoc]
    exact joined _ _ _ (same made) (same' (made ++ more))
  · rw [grown', grown, Registry.registerAll_append]

end Machine

/-- Computations that are run from several states at once, and end in the same way from each. -/
def Runs.each (ι ς : Type) : Runs (ExceptT Fault (StateM ς)) (ι → ς) where
  Ends computation states outcome after := ∀ i, computation.run (states i) = (outcome, after i)
  ends_pure _ _ _ := rfl
  ends_throw _ _ _ := rfl
  ends_bind ran ended i := (Eval.run_bind_ok (ran i)).trans (ended i)
  ends_bind_error ran i := Eval.run_bind_error (ran i)

namespace Eval

/-! ### Steps -/

/-- An evaluation and one in which registrations are noted have the same outcome and leave the same
machine. What is registered meanwhile is added to the notes. -/
def Notes (evaluation : Eval σ α) (noted : Eval (Noted σ) α) : Prop :=
  ∀ machine outcome after, evaluation.run machine = (outcome, after) →
    Machine.Tracks (fun start last => noted.run start = (outcome, last)) machine after

/-- An evaluation, and one with notes from whatever notes there were. They tell what was registered
since the registry was that one. -/
def noting (base : Registry σ) : Coupling (Runs.state (Machine σ))
    (Runs.each (List (String × Operation σ)) (Machine (Noted σ))) where
  Kept machine noted := ∃ more, noted = (fun made => machine.noting (made ++ more)) ∧
    machine.registry = base.registerAll more

variable {evaluation : Eval σ α} {noted : Eval (Noted σ) α} {base : Registry σ}

/-- An evaluation takes notes if it goes side by side with the noted one, whichever registry the
notes begin from. -/
theorem notes_of (holds : ∀ base, (noting base).Holds evaluation noted) : Notes evaluation noted := by
  intro machine outcome after ran
  -- Nothing has been noted yet.
  have start : (noting machine.registry).Kept machine machine.noting :=
    ⟨[], by simp only [List.append_nil], rfl⟩
  cases holds machine.registry machine machine.noting start with
  | value ran' same kept =>
    obtain ⟨more, rfl, grown⟩ := kept
    cases ran.symm.trans ran'
    exact ⟨more, same, grown⟩
  | fault ran' same fails left =>
    obtain ⟨more, rfl, grown⟩ := left
    obtain rfl := fails
    cases ran.symm.trans ran'
    exact ⟨more, same, grown⟩
  | pardoned _ never => exact never.elim

/-- An evaluation that takes notes goes side by side with the noted one, with the notes of earlier
steps before its own. -/
theorem Notes.holds (notes : Notes evaluation noted) : (noting base).Holds evaluation noted := by
  rintro machine _ ⟨more, rfl, grown⟩
  cases ran : evaluation.run machine with
  | mk outcome after =>
    obtain ⟨more', same, grown'⟩ := notes machine outcome after ran
    -- Whatever was noted before the evaluation stays before its own notes.
    have ran' (made : List (String × Operation σ)) : noted.run (machine.noting (made ++ more)) =
        (outcome, after.noting (made ++ (more ++ more'))) := by
      rw [same, List.append_assoc]
    have kept : (noting base).Kept after (fun made => after.noting (made ++ (more ++ more'))) :=
      ⟨more ++ more', rfl, by rw [grown', grown, Registry.registerAll_append]⟩
    cases outcome with
    | ok value => exact .value ran ran' kept
    | error fault => exact .fault ran ran' rfl kept

/-- A step that registers nothing and does the same with notes. -/
theorem notes_still (still : ∀ machine, ∃ outcome after, evaluation.run machine = (outcome, after) ∧
    (∀ made, noted.run (machine.noting made) = (outcome, after.noting made)) ∧
    after.registry = machine.registry) : Notes evaluation noted := by
  intro machine outcome after ran
  obtain ⟨outcome', after', ran', same, kept⟩ := still machine
  cases ran.symm.trans ran'
  exact .still same kept

theorem notes_record (event : Event) : Notes (record event : Eval σ Unit) (record event) :=
  notes_still fun _ => ⟨.ok (), _, rfl, fun _ => rfl, rfl⟩

theorem notes_push (frame : Frame) : Notes (push frame : Eval σ Unit) (push frame) :=
  notes_still fun _ => ⟨.ok (), _, rfl, fun _ => rfl, rfl⟩

theorem notes_pop : Notes (pop : Eval σ Unit) pop :=
  notes_still fun _ => ⟨.ok (), _, rfl, fun _ => rfl, rfl⟩

theorem notes_clearStack : Notes (clearStack : Eval σ Unit) clearStack :=
  notes_still fun _ => ⟨.ok (), _, rfl, fun _ => rfl, rfl⟩

theorem notes_setArguments (args : List Value) :
    Notes (setArguments args : Eval σ Unit) (setArguments args) := by
  apply notes_still
  rintro ⟨registry, stack, state, journal⟩
  cases stack with
  | nil => exact ⟨.error .listIndex, _, rfl, fun _ => rfl, rfl⟩
  | cons frame outer => exact ⟨.ok (), _, rfl, fun _ => rfl, rfl⟩

/-- What follows a look at the machine must not depend on the notes. -/
theorem noting_get {next : Machine σ → Eval σ α} {next' : Machine (Noted σ) → Eval (Noted σ) α}
    (unread : ∀ (machine : Machine σ) made, next' (machine.noting made) = next' (machine.noting []))
    (each : ∀ machine, (noting base).Holds (next machine) (next' (machine.noting []))) :
    (noting base).Holds (get >>= next) (get >>= next') := by
  rintro machine _ ⟨more, rfl, grown⟩
  apply (each machine machine _ ⟨more, rfl, grown⟩).imp
  · exact fun _ _ ran => ran
  · intro outcome after ran made
    rw [run_bind_ok get_run, unread]
    exact ran made

/-- Whether a fault is caught does not matter to the notes. -/
theorem Notes.attempt (notes : Notes evaluation noted) : Notes (attempt evaluation) (attempt noted) := by
  intro machine outcome after ran
  cases result : evaluation.run machine with
  | mk ended last =>
    cases (attempt_run result).symm.trans ran
    exact (notes machine _ _ result).imp fun _ _ => attempt_run

/-! ### Calls -/

variable {reenter : String → Eval σ Value} {reenter' : String → Eval (Noted σ) Value}

theorem operationCount_noting (registry : Registry σ) (symbol : String) :
    operationCount registry.noting symbol = operationCount registry symbol := by
  rw [operationCount, operationCount, Registry.lookup_noting]
  cases registry.lookup symbol with
  | none => rfl
  | some overloads => exact overloads.noting_length

/-- An operation is noted right before it is registered, and its action is told the same. -/
theorem perform_register_noting (machine : Machine σ) (symbol : String) (operation : Operation σ)
    (next : Nat → Action σ) (made : List (String × Operation σ)) :
    (perform reenter' (Action.register symbol operation next).noting).run (machine.noting made) =
      (perform reenter' (next (operationCount (machine.register symbol operation).registry
        symbol)).noting).run
        ((machine.register symbol operation).noting (made ++ [(symbol, operation)])) := by
  have told : operationCount ((machine.register symbol operation).noting
      (made ++ [(symbol, operation)])).registry symbol =
        operationCount (machine.register symbol operation).registry symbol :=
    operationCount_noting _ _
  -- Noting an operation is reading the state and writing it.
  have noted : (perform reenter' (Action.register symbol operation next).noting).run
      (machine.noting made) =
        (perform reenter' (.register symbol operation.noting fun size => (next size).noting)).run
          (machine.noting (made ++ [(symbol, operation)])) := by
    rw [Action.noting, perform_readState_run, perform_writeState_run]
    rfl
  rw [noted, perform_register_run, Machine.register_noting, told]

/-- The host keeps its own state beside the notes, so writing it leaves the notes. -/
theorem perform_writeState_noting (machine : Machine σ) (state : σ) (next : Action σ)
    (made : List (String × Operation σ)) :
    (perform reenter' (Action.writeState state next).noting).run (machine.noting made) =
      (perform reenter' next.noting).run
        (Machine.noting { machine with state } made) := by
  rw [Action.noting, perform_readState_run, perform_writeState_run]
  rfl

/-- An action is carried out as without notes, and what it registers is noted. -/
theorem perform_noting (reentry : ∀ source, Notes (reenter source) (reenter' source)) :
    ∀ action : Action σ,
      (noting base).Holds (perform reenter action) (perform reenter' action.noting)
  | .done (.ok value) => .pure value
  | .done (.error fault) => .throw rfl
  | .frames next => noting_get (fun _ _ => rfl) fun machine =>
      perform_noting reentry (next machine.stack)
  | .evaluate source next =>
    (reentry source).attempt.holds.bind fun outcome => perform_noting reentry (next outcome)
  | .register symbol operation next => by
    rintro machine _ ⟨more, rfl, grown⟩
    -- With notes this is three steps, of which the last is told the same as the one without.
    have kept : (noting base).Kept (machine.register symbol operation) fun made =>
        (machine.register symbol operation).noting (made ++ (more ++ [(symbol, operation)])) := by
      refine ⟨_, rfl, ?_⟩
      rw [Registry.registerAll_append, ← grown]
      rfl
    apply (perform_noting reentry (next _) _ _ kept).imp
    · intro outcome after ran
      exact perform_register_run.trans ran
    · intro outcome after ran made
      rw [perform_register_noting, List.append_assoc]
      exact ran made
  | .readState next => noting_get (fun _ _ => rfl) fun machine =>
      perform_noting reentry (next machine.state)
  | .writeState state next => by
    rintro machine _ ⟨more, rfl, grown⟩
    apply (perform_noting reentry next { machine with state } _ ⟨more, rfl, grown⟩).imp
    · intro outcome after ran
      exact perform_writeState_run.trans ran
    · intro outcome after ran made
      rw [perform_writeState_noting]
      exact ran made

theorem perform_notes (reentry : ∀ source, Notes (reenter source) (reenter' source))
    (action : Action σ) : Notes (perform reenter action) (perform reenter' action.noting) :=
  notes_of fun _ => perform_noting reentry action

/-- A form is evaluated as without notes. -/
theorem evaluates_noting (reentry : ∀ source, Notes (reenter source) (reenter' source)) :
    (noting base).Evaluates reenter reenter' Eq fun _ known known' => known' = known.noting where
  fails := by
    rintro mark _ cause rfl
    rfl
  digits _ := rfl
  find {name head head' next next'} := by
    rintro rfl each
    apply noting_get fun _ _ => rfl
    intro machine
    have found : (machine.noting []).registry.lookup name = _ := machine.registry.lookup_noting name
    simp only [found]
    cases machine.registry.lookup name with
    | none => exact .throw rfl
    | some known => exact each known _ rfl
  findAgain {name known known' next next'} begun each := by
    obtain rfl := begun
    apply noting_get fun _ _ => rfl
    intro machine
    have later : (machine.noting []).registry.lookup name = _ := machine.registry.lookup_noting name
    simp only [later, Option.getD_map]
    exact each _ _ rfl
  push name := by
    rintro rfl
    exact (notes_push _).holds
  setArguments args := (notes_setArguments args).holds
  pop := notes_pop.holds
  call {name known known' head head'} args begun := by
    obtain rfl := begun
    rintro rfl
    -- The journal tells the size of the set, which notes leave.
    have writes : (noting base).Writes known.name args known.operations.length
        known.noting.operations.length := by
      rw [known.noting_length]
      exact ⟨(notes_record _).holds, fun _ => (notes_record _).holds,
        fun _ _ => (notes_record _).holds⟩
    apply writes.calls rfl
    · intro place operation chosen
      refine ⟨operation.noting, ?_, operation.inspect_noting, ?_⟩
      · rw [known.choose?_noting, chosen]
        rfl
      · rw [operation.run_noting]
        exact perform_noting reentry _
    · intro none
      rw [known.choose?_noting, none]
      exact Or.inl ⟨rfl, rfl⟩

theorem forms_note (reentry : ∀ source, Notes (reenter source) (reenter' source))
    (items : List (Form Int)) : Notes (forms reenter items) (forms reenter' items) :=
  notes_of fun _ => (evaluates_noting reentry).forms items items (Form.forall₂_self items)

/-! ### Sources -/

/-- A source is evaluated as without notes, at any depth of nesting. -/
theorem sourceWithin_notes (depth : Nat) (text : String) :
    Notes (sourceWithin depth text : Eval σ Value) (sourceWithin depth text) := by
  induction depth generalizing text with
  | zero => exact notes_of fun _ => .throw rfl
  | succ depth ih =>
    apply notes_of
    intro base
    rw [sourceWithin, sourceWithin, sourceWith, sourceWith]
    apply notes_clearStack.holds.bind
    intro _
    cases parsed : parse text.toList with
    | error fault => exact .throw rfl
    | ok root =>
      obtain ⟨item, formed, -⟩ := parse_form text.toList root parsed
      apply notes_clearStack.holds.bind
      intro _
      rw [node_eq_form _ _ _ _ formed, node_eq_form _ _ _ _ formed]
      exact (evaluates_noting ih).form item item item.beside_self

end Eval

namespace Machine

/-- What the evaluation of a source registers, in order, whether it has a value or fails. -/
def registered (machine : Machine σ) (source : String) : List (String × Operation σ) :=
  ((machine.noting []).evaluate source).2.state.made

/-- With registrations noted a source is evaluated as without, and the notes grow by what it
registers. -/
theorem evaluate_noting (machine : Machine σ) (made : List (String × Operation σ))
    (source : String) : (machine.noting made).evaluate source =
      ((machine.evaluate source).1,
        (machine.evaluate source).2.noting (made ++ machine.registered source)) := by
  obtain ⟨more, same, -⟩ := Eval.sourceWithin_notes Eval.nestingDepth source machine _ _ rfl
  have first : (machine.noting []).evaluate source = _ := same []
  rw [registered, first]
  exact same made

/-- What a source leaves registered is what was there, and then what it registers. -/
theorem evaluate_registered (machine : Machine σ) (source : String) :
    (machine.evaluate source).2.registry =
      machine.registry.registerAll (machine.registered source) := by
  obtain ⟨more, same, grown⟩ := Eval.sourceWithin_notes Eval.nestingDepth source machine _ _ rfl
  have first : (machine.noting []).evaluate source = _ := same []
  rw [registered, first]
  exact grown

end Machine

end HostLisp
