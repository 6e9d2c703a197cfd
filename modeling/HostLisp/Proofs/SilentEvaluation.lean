import HostLisp.Proofs.Coupling

/-!
# Evaluation without a journal

The journal is only written. An evaluator that keeps none has the same outcomes, and leaves the same
machines but for their journals, whatever operations do.

## Main results

`Silent.node_hushed`: a node has the same outcome without a journal.

`Silent.source_run`: so has a source.

## Proof strategy

An evaluation is coupled with the one that writes nothing, whose journal stays as it is. A step that
only writes is left out.
-/

namespace HostLisp

variable {σ α : Type}

/-! ### The evaluator that writes nothing -/

namespace Silent

def call (reenter : String → Eval σ Value) (overloads : Overloads σ) (args : List Value)
    (position : Option Int) : Eval σ Value :=
  match overloads.choose? args with
  | some (_, operation) => Eval.perform reenter (operation.run args)
  | none => throw (.evaluation (.notApplicable overloads.name (args.map Value.kind)) position)

mutual

def node (reenter : String → Eval σ Value) (source : List Char) : Node → Eval σ Value
  | .list start (.symbol head :: arguments) => do
    let name := Node.symbolText head source
    let position := some head.start
    match (← get).registry.lookup name with
    | none => throw (.evaluation (.unknownFunction name) position)
    | some known =>
      Eval.push ⟨name, [], start⟩
      let args ← nodes reenter source arguments
      Eval.setArguments args
      let overloads := ((← get).registry.lookup name).getD known
      let value ← call reenter overloads args position
      Eval.pop
      pure value
  -- Nothing else makes a call.
  | other => Eval.node reenter source other
termination_by structural node => node

def nodes (reenter : String → Eval σ Value) (source : List Char) : List Node → Eval σ (List Value)
  | [] => pure []
  | first :: rest => do
    let value ← node reenter source first
    let values ← nodes reenter source rest
    pure (value :: values)
termination_by structural nodes => nodes

end

def tree (reenter : String → Eval σ Value) (source : List Char) (root : Node) : Eval σ Value := do
  Eval.clearStack
  node reenter source root

def sourceWith (reenter : String → Eval σ Value) (source : String) : Eval σ Value := do
  Eval.clearStack
  match parse source.toList with
  | .ok root => tree reenter source.toList root
  | .error fault => throw fault

def sourceWithin : (depth : Nat) → String → Eval σ Value
  | 0 => fun _ => throw .nestingLimit
  | depth + 1 => sourceWith (sourceWithin depth)

def source (text : String) : Eval σ Value := sourceWithin Eval.nestingDepth text

end Silent

namespace Eval

/-! ### Steps -/

/-- Two evaluations of which the second has that journal throughout. -/
def hushing (σ : Type) (journal : List Event) :
    Coupling (Runs.state (Machine σ)) (Runs.state (Machine σ)) where
  Kept machine machine' := machine' = { machine with journal }

variable {journal : List Event}

theorem hushing_exact : (hushing σ journal).Exact :=
  ⟨fun same => same, fun kept => kept, fun _ => not_false⟩

theorem hushing_stacked : (hushing σ journal).Stacked Eq := by
  apply Coupling.Stacked.same
  · rintro machine _ rfl
    rfl
  · rintro machine _ rfl stack
    rfl
  · rfl

/-- Writing in the journal is left out. -/
theorem hushing_record {evaluation silent : Eval σ α}
    (holds : (hushing σ journal).Holds evaluation silent) (event : Event) :
    (hushing σ journal).Holds (record event >>= fun _ => evaluation) silent := by
  rintro machine _ rfl
  have written : (record event).run machine =
      (.ok (), { machine with journal := machine.journal ++ [event] }) := record_run event
  apply (holds { machine with journal := machine.journal ++ [event] } _ rfl).imp
  · exact fun _ _ ran => (run_bind_ok written).trans ran
  · exact fun _ _ ran => ran

end Eval

namespace Silent

open Eval

variable {reenter silent : String → Eval σ Value} {journal : List Event}

/-! ### Calls -/

theorem performs_hushing
    (reentry : ∀ source, (hushing σ journal).Holds (reenter source) (silent source)) :
    (hushing σ journal).Performs reenter silent fun _ => True where
  raise _ := rfl
  frames _ machine _ kept := by
    rw [kept]
    exact ⟨rfl, trivial⟩
  evaluate {source next} _ := ⟨hushing_exact.attempt (reentry source), fun _ => trivial⟩
  register _ := by
    refine ⟨?_, fun _ => trivial⟩
    rintro machine _ rfl
    exact ⟨rfl, rfl⟩
  readState _ machine _ kept := by
    rw [kept]
    exact ⟨rfl, trivial⟩
  writeState _ := by
    refine ⟨?_, trivial⟩
    rintro machine _ rfl
    rfl

theorem call_hushed (reentry : ∀ source, (hushing σ journal).Holds (reenter source) (silent source))
    (overloads : Overloads σ) (args : List Value) (position : Option Int) :
    (hushing σ journal).Holds (Eval.call reenter overloads args position)
      (call silent overloads args position) := by
  rw [Eval.call, call]
  -- The three lines of a call are each written on one side only.
  cases overloads.choose? args with
  | none => exact hushing_record (.throw rfl) _
  | some found =>
    obtain ⟨place, operation⟩ := found
    apply hushing_record
    apply hushing_record
    -- What is performed is the last step, once nothing is written after it.
    have performed := ((performs_hushing reentry).perform (operation.run args) trivial).bind
      fun value => hushing_record (.pure value) (.returned overloads.name place operation.inspect)
    rwa [bind_pure] at performed

/-! ### Nodes -/

mutual

/-- A node has the same outcome without a journal. -/
theorem node_hushed (reentry : ∀ source, (hushing σ journal).Holds (reenter source) (silent source))
    (source : List Char) : ∀ root : Node,
      (hushing σ journal).Holds (Eval.node reenter source root) (node silent source root)
  | .string _ => .pure _
  | .symbol span => by
    change (hushing σ journal).Holds _ (Eval.node silent source (.symbol span))
    rw [Eval.node, Eval.node]
    cases Atom.ofSpan span source with
    | ok value => exact .pure value
    | error fault => exact .throw rfl
  | .value value => by
    change (hushing σ journal).Holds _ (Eval.node silent source (.value value))
    rw [Eval.node, Eval.node]
    cases value.inspect with
    | ok shown => exact .throw rfl
    | error fault => exact .throw rfl
  | .list _ [] => .throw rfl
  | .list _ (.string _ :: _) => .throw rfl
  | .list _ (.list _ _ :: _) => .throw rfl
  | .list _ (.value _ :: _) => .throw rfl
  | .list start (.symbol head :: arguments) => by
    rw [Eval.node, node]
    apply Coupling.Holds.get
    rintro machine _ rfl
    dsimp only
    cases machine.registry.lookup (Node.symbolText head source) with
    | none => exact .throw rfl
    | some known =>
      apply (hushing_stacked.push rfl).bind
      intro _
      apply (nodes_hushed reentry source arguments).bind
      intro args
      apply (hushing_stacked.setArguments args).bind
      intro _
      apply Coupling.Holds.get
      -- Both machines are the same but for the journal, so the same set is found again.
      rintro later _ rfl
      apply (call_hushed reentry _ args _).bind
      intro value
      exact hushing_stacked.pop.bind fun _ => .pure value

theorem nodes_hushed (reentry : ∀ source, (hushing σ journal).Holds (reenter source) (silent source))
    (source : List Char) : ∀ roots : List Node,
      (hushing σ journal).Holds (Eval.nodes reenter source roots) (nodes silent source roots)
  | [] => .pure []
  | first :: rest => (node_hushed reentry source first).cons (nodes_hushed reentry source rest)

end

/-! ### Sources -/

theorem sourceWithin_hushed (depth : Nat) (text : String) :
    (hushing σ journal).Holds (Eval.sourceWithin depth text) (sourceWithin depth text) := by
  -- Sources from within are silent at the depth below.
  induction depth generalizing text with
  | zero => exact .throw rfl
  | succ depth ih =>
    rw [Eval.sourceWithin, sourceWithin, Eval.sourceWith, sourceWith]
    apply hushing_stacked.clearStack.bind
    intro _
    cases parse text.toList with
    | error fault => exact .throw rfl
    | ok root =>
      exact hushing_stacked.clearStack.bind fun _ => node_hushed ih text.toList root

/-- Without a journal a source has the same outcome, and leaves the machine with the journal that
there was. -/
theorem source_run (machine : Machine σ) (text : String) :
    (source text).run machine = ((machine.evaluate text).1,
      { (machine.evaluate text).2 with journal := machine.journal }) := by
  have holds : (hushing σ machine.journal).Holds (Eval.sourceWithin Eval.nestingDepth text)
      (sourceWithin Eval.nestingDepth text) := sourceWithin_hushed _ text
  obtain ⟨outcome, after, _, ran, ran', rfl⟩ := hushing_exact.run holds rfl
  change machine.evaluate text = _ at ran
  rw [ran]
  exact ran'

end Silent

end HostLisp
