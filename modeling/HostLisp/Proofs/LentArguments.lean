import HostLisp.Proofs.DirectCalls
import HostLisp.Proofs.FormEvaluation
import HostLisp.Proofs.StackFree

/-!
# Arguments lent to operations

An operation is handed a list of its own, which it may empty or change. Here the arguments of the
calls in progress and the lists that operations are handed are lists in memory, so that one could be
the other.

## Main result

`Lent.form_mirrors`: whatever operations leave in the lists that they are handed, the calls in
progress have the arguments that they have in the evaluator.

## Proof strategy

A list is handed out at a fresh place, so memory only grows before the places of the calls in
progress.
-/

namespace HostLisp

variable {σ α β : Type}

/-- A call in progress whose arguments are at a place in memory. -/
structure LentFrame where
  name : String
  place : Nat
  position : Option Int

/-- The frame that is seen where the arguments are read from memory. -/
def LentFrame.read (memory : List (List Value)) (frame : LentFrame) : Frame :=
  ⟨frame.name, memory.getD frame.place [], frame.position⟩

/-- A machine whose calls in progress have their arguments in memory. -/
structure Store (σ : Type) where
  world : World σ
  stack : List LentFrame
  memory : List (List Value)

namespace Store

/-- The machine that is seen by reading memory. -/
def machine (store : Store σ) : Machine σ :=
  store.world.machine (store.stack.map (LentFrame.read store.memory))

/-- Each call in progress has its arguments in memory. -/
def Sound (store : Store σ) : Prop := ∀ frame ∈ store.stack, frame.place < store.memory.length

end Store

abbrev Lent (σ : Type) := ExceptT Fault (StateM (Store σ))

namespace Lent

/-- What the evaluator does besides noting calls in progress. -/
def lift (evaluation : Eval σ α) : Lent σ α := ExceptT.mk fun store =>
  let result := evaluation.run store.machine
  (result.1, { store with world := result.2.world })

def allocate (values : List Value) : Lent σ Nat := do
  let place := (← get).memory.length
  modify fun store => { store with memory := store.memory ++ [values] }
  pure place

def write (place : Nat) (values : List Value) : Lent σ Unit :=
  modify fun store => { store with memory := store.memory.set place values }

def push (frame : LentFrame) : Lent σ Unit :=
  modify fun store => { store with stack := frame :: store.stack }

def pop : Lent σ Unit := modify fun store => { store with stack := store.stack.tail }

def setArguments (place : Nat) : Lent σ Unit := do
  match (← get).stack with
  | [] => throw .listIndex
  | frame :: outer => modify fun store => { store with stack := { frame with place } :: outer }

/-- Hands a copy of the arguments to the operation that is chosen, which leaves something in it. -/
def lend (overloads : Overloads σ) (args left : List Value) : Lent σ Unit :=
  match overloads.choose? args with
  | none => pure ()
  | some _ => do
    let copy ← allocate args
    write copy left

/-- Ends a call. Its arguments are written to a list of their own, and the operation is handed a
second one. -/
def conclude (reenter : String → Eval σ Value) (leaves : Machine σ → List Value → List Value)
    (name : String) (known : Overloads σ) (position : Option Int) (args : List Value) :
    Lent σ Value := do
  let place ← allocate args
  setArguments place
  let machine ← lift get
  let overloads := (machine.registry.lookup name).getD known
  lend overloads args (leaves machine args)
  let value ← lift (Eval.call reenter overloads args position)
  pop
  pure value

mutual

/-- The value of a form, with the arguments of calls in memory. -/
def form (reenter : String → Eval σ Value) (leaves : Machine σ → List Value → List Value) :
    Form Int → Lent σ Value
  | .list mark (.symbol head name :: arguments) => do
    let name := String.ofList name
    match (← lift get).registry.lookup name with
    | none => throw (.evaluation (.unknownFunction name) (some head))
    | some known =>
      let place ← allocate []
      push ⟨name, place, some mark⟩
      let args ← forms reenter leaves arguments
      conclude reenter leaves name known (some head) args
  | .list mark [] => lift (Eval.form reenter (.list mark []))
  | .list mark (.string inside body :: rest) =>
    lift (Eval.form reenter (.list mark (.string inside body :: rest)))
  | .list mark (.list inside items :: rest) =>
    lift (Eval.form reenter (.list mark (.list inside items :: rest)))
  | .symbol mark text => lift (Eval.form reenter (.symbol mark text))
  | .string mark body => lift (Eval.form reenter (.string mark body))
termination_by structural form => form

def forms (reenter : String → Eval σ Value) (leaves : Machine σ → List Value → List Value) :
    List (Form Int) → Lent σ (List Value)
  | [] => pure []
  | first :: rest => do
    let value ← form reenter leaves first
    let values ← forms reenter leaves rest
    pure (value :: values)
termination_by structural forms => forms

end

/-! ### Runs -/

open Eval (run_bind_ok run_bind_error run_bind_cases get_run)

variable {store : Store σ}

theorem allocate_run (values : List Value) : (allocate values).run store =
    (.ok store.memory.length, { store with memory := store.memory ++ [values] }) := rfl

theorem push_run (frame : LentFrame) : (push frame).run store =
    (.ok (), { store with stack := frame :: store.stack }) := rfl

theorem setArguments_run {frame : LentFrame} {outer : List LentFrame} (place : Nat)
    (top : store.stack = frame :: outer) : (setArguments place).run store =
      (.ok (), { store with stack := { frame with place } :: outer }) := by
  rw [setArguments, run_bind_ok get_run, top]
  rfl

end Lent

/-! ### Memory that grows -/

namespace Store

variable {store : Store σ}

private theorem read_append {memory : List (List Value)} {frame : LentFrame}
    (inside : frame.place < memory.length) (more : List (List Value)) :
    frame.read (memory ++ more) = frame.read memory := by
  simp [LentFrame.read, List.getElem?_append_left inside]

/-- A list at a new place is not seen by the calls in progress. -/
theorem machine_append (sound : store.Sound) (more : List (List Value)) :
    ({ store with memory := store.memory ++ more } : Store σ).machine = store.machine := by
  have same : store.stack.map (LentFrame.read (store.memory ++ more)) =
      store.stack.map (LentFrame.read store.memory) :=
    List.map_congr_left fun frame member => read_append (sound frame member) more
  rw [machine, machine, same]

theorem Sound.append (sound : store.Sound) (more : List (List Value)) :
    ({ store with memory := store.memory ++ more } : Store σ).Sound := by
  intro frame member
  have inside := sound frame member
  simp only [List.length_append]
  omega

/-- A machine with one more call in progress, whose arguments are at a new place. -/
def entered (store : Store σ) (name : String) (args : List Value) (position : Option Int) : Store σ :=
  { store with
    stack := ⟨name, store.memory.length, position⟩ :: store.stack
    memory := store.memory ++ [args] }

theorem Sound.entered (sound : store.Sound) (name : String) (args : List Value)
    (position : Option Int) : (store.entered name args position).Sound := by
  refine List.forall_mem_cons.mpr ⟨?_, sound.append [args]⟩
  simp [Store.entered]

/-- A call that is entered is seen with its arguments on top of the calls that were there. -/
theorem machine_entered (sound : store.Sound) (name : String) (args : List Value)
    (position : Option Int) : (store.entered name args position).machine =
      { store.machine with stack := ⟨name, args, position⟩ :: store.machine.stack } := by
  have seen := store.machine_append sound [args]
  have top : LentFrame.read (store.memory ++ [args]) ⟨name, store.memory.length, position⟩ =
      ⟨name, args, position⟩ := by simp [LentFrame.read]
  have outer := congrArg Machine.stack seen
  simp only [machine, World.machine] at outer
  simp only [entered, machine, World.machine, List.map_cons, top, outer]

/-- A store later in a run: its memory has grown, and operations do not call back. -/
structure Later (store after : Store σ) : Prop where
  memory : store.memory <+: after.memory
  sound : after.Sound
  direct : after.world.registry.Direct

theorem Later.trans {first second third : Store σ} (begun : first.Later second)
    (ended : second.Later third) : first.Later third :=
  ⟨begun.memory.trans ended.memory, ended.sound, ended.direct⟩

/-- Memory only grows, so the calls that were in progress before have their arguments still. -/
theorem Later.restored {after : Store σ} (later : store.Later after) (sound : store.Sound) :
    ({ after with stack := store.stack } : Store σ).Sound := by
  intro frame member
  exact Nat.lt_of_lt_of_le (sound frame member) later.memory.length_le

end Store

/-! ### Evaluation with memory -/

namespace Lent

open Eval (run_bind_ok run_bind_error run_bind_cases)

/-- A computation with memory has the outcome of an evaluation and is seen to leave its machine. With
a value the calls in progress are those that were. -/
def Mirrors (lent : Lent σ α) (evaluation : Eval σ α) : Prop :=
  ∀ store : Store σ, store.Sound → store.world.registry.Direct → ∀ outcome after,
    evaluation.run store.machine = (outcome, after) → ∃ store',
      lent.run store = (outcome, store') ∧ store'.machine = after ∧ store.Later store' ∧
      ∀ value, outcome = .ok value → store'.stack = store.stack

theorem mirrors_pure (value : α) : Mirrors (pure value : Lent σ α) (pure value) := by
  rintro store sound direct _ _ ⟨⟩
  exact ⟨store, rfl, rfl, ⟨List.prefix_refl _, sound, direct⟩, fun _ _ => rfl⟩

/-- What leaves the calls in progress may be done by the evaluator itself. -/
theorem mirrors_lift {evaluation : Eval σ α} (steady : evaluation.Steady) :
    Mirrors (lift evaluation) evaluation := by
  intro store sound direct outcome after ran
  obtain ⟨direct', kept⟩ := steady store.machine direct outcome after ran
  refine ⟨{ store with world := after.world }, ?_, ?_, ⟨List.prefix_refl _, sound, direct'⟩,
    fun _ _ => rfl⟩
  · change ((evaluation.run store.machine).1, _) = _
    rw [ran]
  · change after.world.machine store.machine.stack = after
    rw [← kept]
    rfl

/-- Computations one after the other mirror evaluations one after the other. The calls in progress
are those of the beginning only if both have values. -/
theorem Mirrors.bind {lent : Lent σ α} {evaluation : Eval σ α} {next : α → Lent σ β}
    {next' : α → Eval σ β} (first : Mirrors lent evaluation)
    (second : ∀ value, Mirrors (next value) (next' value)) :
    Mirrors (lent >>= next) (evaluation >>= next') := by
  intro store sound direct outcome after ran
  rcases run_bind_cases ran with ⟨value, between, begun, ended⟩ | ⟨fault, stopped, rfl⟩
  · obtain ⟨store', here, rfl, later, kept⟩ := first store sound direct _ _ begun
    obtain ⟨store'', there, seen, later', kept'⟩ :=
      second value store' later.sound later.direct _ _ ended
    refine ⟨store'', (run_bind_ok here).trans there, seen, later.trans later', ?_⟩
    intro result given
    exact (kept' result given).trans (kept value rfl)
  · obtain ⟨store', here, seen, later, -⟩ := first store sound direct _ _ stopped
    exact ⟨store', run_bind_error here, seen, later, nofun⟩

/-- What an operation leaves in the list that it is handed is not seen. -/
theorem lend_mirrors (overloads : Overloads σ) (args left : List Value) :
    Mirrors (lend overloads args left) (pure () : Eval σ Unit) := by
  cases chosen : overloads.choose? args with
  | none =>
    rw [lend, chosen]
    exact mirrors_pure ()
  | some found =>
    rintro store sound direct _ _ ⟨⟩
    -- The copy is the last list in memory, and it is all that is written to.
    have written : (store.memory ++ [args]).set store.memory.length left = store.memory ++ [left] := by
      simp
    refine ⟨{ store with memory := store.memory ++ [left] }, ?_, store.machine_append sound [left],
      ⟨List.prefix_append _ _, sound.append [left], direct⟩, fun _ _ => rfl⟩
    rw [lend, chosen, ← written]
    rfl

/-- A call that is on top of the others is taken away on both sides if it has a value, and stays if
it fails. -/
theorem Mirrors.popped {lent : Lent σ α} {evaluation : Eval σ α} (mirrors : Mirrors lent evaluation)
    (sound : store.Sound) (direct : store.world.registry.Direct) {frame : LentFrame}
    {outer : List LentFrame} (top : store.stack = frame :: outer) {outcome : Except Fault α}
    {after : Machine σ}
    (ran : (do
      let value ← evaluation
      Eval.pop
      pure value : Eval σ α).run store.machine = (outcome, after)) : ∃ store',
      (do
        let value ← lent
        pop
        pure value : Lent σ α).run store = (outcome, store') ∧
      store'.machine = after ∧ store.Later store' ∧
      ∀ value, outcome = .ok value → store'.stack = outer := by
  rcases run_bind_cases ran with ⟨value, between, begun, ended⟩ | ⟨fault, stopped, rfl⟩
  · obtain ⟨store', here, rfl, later, kept⟩ := mirrors store sound direct _ _ begun
    -- With a value the frame of the call is on top again, to be taken away.
    have top' := (kept value rfl).trans top
    cases ended
    refine ⟨{ store' with stack := outer }, ?_, ?_, ⟨later.memory, ?_, later.direct⟩, fun _ _ => rfl⟩
    · rw [run_bind_ok here]
      change (_, ({ store' with stack := store'.stack.tail } : Store σ)) = _
      rw [top']
      rfl
    · simp [Store.machine, World.machine, top']
    · intro inner member
      exact later.sound inner (top' ▸ List.mem_cons_of_mem _ member)
  · obtain ⟨store', here, seen, later, -⟩ := mirrors store sound direct _ _ stopped
    exact ⟨store', run_bind_error here, seen, later, nofun⟩

variable {reenter : String → Eval σ Value} {leaves : Machine σ → List Value → List Value}

/-- A call whose arguments are known ends as in the evaluator, whatever the operation leaves in the
list that it is handed. -/
theorem conclude_mirrors {base : Store σ} (sound : base.Sound) (direct : base.world.registry.Direct)
    (frame : LentFrame) {name : String} {known : Overloads σ}
    (acts : ∀ operation ∈ ((base.world.registry.lookup name).getD known).operations,
      operation.Direct)
    (position : Option Int) (args : List Value) {outcome : Except Fault Value} {after : Machine σ}
    (ran : (Eval.conclude reenter name known position args).run
      ({ base with stack := frame :: base.stack } : Store σ).machine = (outcome, after)) :
    ∃ store', (conclude reenter leaves name known position args).run
        { base with stack := frame :: base.stack } = (outcome, store') ∧
      store'.machine = after ∧ base.Later store' ∧
      ∀ value, outcome = .ok value → store'.stack = base.stack := by
  let noted := base.entered frame.name args frame.position
  have lent := lend_mirrors ((base.world.registry.lookup name).getD known) args
    (leaves noted.machine args)
  -- Handing out a copy is seen as nothing, so the call mirrors the call alone.
  have called := lent.bind fun _ => mirrors_lift (Eval.call_steady reenter acts args position)
  -- Both have noted the arguments when they look up the set once more.
  have seen : noted.machine = { base.machine with
      stack := ⟨frame.name, args, frame.position⟩ :: base.machine.stack } :=
    base.machine_entered sound frame.name args frame.position
  have ran' : (do
      let value ← pure () >>= fun _ =>
        Eval.call reenter ((base.world.registry.lookup name).getD known) args position
      Eval.pop
      pure value : Eval σ Value).run noted.machine = (outcome, after) := by
    rw [pure_bind, seen, ← ran, Eval.conclude_run args rfl]
    rfl
  obtain ⟨store', here, seen', later, kept⟩ := called.popped
    (sound.entered frame.name args frame.position) direct rfl ran'
  -- The list that the call was noted with stays in memory, though nothing reads it again.
  have begun : base.Later noted := ⟨List.prefix_append _ _, sound.entered _ _ _, direct⟩
  refine ⟨store', ?_, seen', begun.trans later, kept⟩
  rw [← here, conclude, run_bind_ok (allocate_run args), run_bind_ok (setArguments_run _ rfl)]
  rw [bind_assoc]
  rfl

private theorem symbol_steady (mark : Int) (text : List Char) :
    (Eval.form reenter (.symbol mark text)).Steady := by
  rw [Eval.form]
  split
  · exact Eval.steady_of fun _ => .pure _
  · exact Eval.steady_of fun _ => .throw ⟨rfl, trivial⟩

mutual

/-- A form is evaluated with the arguments of calls in memory as in the evaluator. -/
theorem form_mirrors : ∀ form : Form Int,
    Mirrors (Lent.form reenter leaves form) (Eval.form reenter form)
  | .symbol mark text => mirrors_lift (symbol_steady mark text)
  | .string mark body => mirrors_lift (Eval.steady_of fun _ => .pure _)
  | .list mark [] => mirrors_lift (Eval.steady_of fun _ => .throw ⟨rfl, trivial⟩)
  | .list mark (.string _ _ :: _) => mirrors_lift (Eval.steady_of fun _ => .throw ⟨rfl, trivial⟩)
  | .list mark (.list _ _ :: _) => mirrors_lift (Eval.steady_of fun _ => .throw ⟨rfl, trivial⟩)
  | .list mark (.symbol head name :: arguments) => by
    intro store sound direct outcome after ran
    have looked : (lift get : Lent σ (Machine σ)).run store = (.ok store.machine, store) := rfl
    rw [form, run_bind_ok looked]
    cases found : store.machine.registry.lookup (String.ofList name) with
    | none =>
      rw [Eval.form_run_unknown found] at ran
      cases ran
      exact ⟨store, rfl, rfl, ⟨List.prefix_refl _, sound, direct⟩, nofun⟩
    | some known =>
      -- The call is noted with no arguments, at a place of its own.
      let begun := store.entered (String.ofList name) [] (some mark)
      have later : store.Later begun := ⟨List.prefix_append _ _, sound.entered _ _ _, direct⟩
      rw [Eval.form_run_known found, ← store.machine_entered sound] at ran
      dsimp only
      rw [run_bind_ok (allocate_run _), run_bind_ok (push_run _)]
      rcases run_bind_cases ran with ⟨args, between, first, last⟩ | ⟨fault, stopped, rfl⟩
      · obtain ⟨store', here, rfl, later', kept⟩ :=
          forms_mirrors arguments begun later.sound direct _ _ first
        -- The arguments leave the call on top, and the calls around it in memory.
        have top := kept args rfl
        have sound' := (later.trans later').restored sound
        obtain ⟨world, stack, memory⟩ := store'
        obtain rfl := top
        have acts := Registry.Each.lookup_getD direct later'.direct found
        obtain ⟨store'', there, seen, later'', kept'⟩ := conclude_mirrors sound' later'.direct
          ⟨String.ofList name, store.memory.length, some mark⟩ acts (some head) args last
        have grown := (later.trans later').memory.trans later''.memory
        exact ⟨store'', (run_bind_ok here).trans there, seen, ⟨grown, later''.sound, later''.direct⟩,
          kept'⟩
      · obtain ⟨store', here, seen, later', -⟩ :=
          forms_mirrors arguments begun later.sound direct _ _ stopped
        -- Without all arguments there is no call to end, and no value to say anything about.
        refine ⟨store', run_bind_error here, seen, later.trans later', ?_⟩
        intro value same
        cases same

/-- The same of the arguments of a call, one after the other. -/
theorem forms_mirrors : ∀ forms : List (Form Int),
    Mirrors (Lent.forms reenter leaves forms) (Eval.forms reenter forms)
  | [] => mirrors_pure []
  | first :: rest => by
    apply (form_mirrors first).bind
    intro value
    apply (forms_mirrors rest).bind
    intro values
    exact mirrors_pure (value :: values)

end

end Lent

end HostLisp
