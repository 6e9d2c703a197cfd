import HostLisp.Proofs.Coupling

/-!
# The calls in a journal

Evaluation only adds to the journal, and each line that it adds is about a call that stands in some
source: a list with a symbol in front, whose text is the name in the line, and with as many
arguments as the line says.

## Main results

`Eval.node_logging`: what the evaluation of a tree adds is about its lists, or about those of sources
that operations evaluate.

`Machine.evaluate_logs`: whatever the operations do, what the evaluation of a source adds is about
lists of sources.

## Proof strategy

That an evaluation adds lines of one kind only is a coupling of it with itself. The induction is on
the tree, and within it on what an operation does.
-/

namespace HostLisp

variable {σ α : Type}

/-! ### Lists of sources -/

/-- A tree has a node: it is the node, or one of its children has it. -/
inductive Node.Has : Node → Node → Prop
  | self (node : Node) : Has node node
  | inside {start : Option Int} {children : List Node} {child node : Node}
      (member : child ∈ children) (has : Has child node) : Has (.list start children) node

theorem Node.Has.trans {tree middle node : Node} (first : tree.Has middle)
    (second : middle.Has node) : tree.Has node := by
  induction first with
  | self _ => exact second
  | inside member _ ih => exact .inside member (ih second)

/-- Some source has a list of so many arguments with a symbol of that text in front. -/
def Called (name : String) (argumentCount : Nat) : Prop :=
  ∃ source root start head arguments, parse source = .ok root ∧
    root.Has (.list start (.symbol head :: arguments)) ∧ Node.symbolText head source = name ∧
    arguments.length = argumentCount

/-- A line of the journal is about a list of a source. -/
def Event.IsCalled : Event → Prop
  | .call name argumentCount _ => Called name argumentCount
  | .entered name _ args => Called name args.length
  | .returned name _ _ => ∃ argumentCount, Called name argumentCount

/-- The evaluation of a source adds a line to the journal. -/
def Machine.Writes (machine : Machine σ) (source : String) (event : Event) : Prop :=
  ∃ added, (machine.evaluate source).2.journal = machine.journal ++ added ∧ event ∈ added

namespace Eval

/-! ### Steps -/

/-- An evaluation keeps what is in the journal, and the lines that it adds are of one kind. -/
def Logs (Told : Event → Prop) (evaluation : Eval σ α) : Prop :=
  ∀ machine, ∃ added, (evaluation.run machine).2.journal = machine.journal ++ added ∧
    ∀ event ∈ added, Told event

/-- One evaluation, during which lines of one kind are added to the end of what was in the journal. -/
def logging (σ : Type) (Told : Event → Prop) (base : List Event) :
    Coupling (Runs.state (Machine σ)) (Runs.state (Machine σ)) :=
  .alone (fun machine => ∃ added, machine.journal = base ++ added ∧ ∀ event ∈ added, Told event)
    fun _ => True

variable {Told : Event → Prop} {base : List Event} {evaluation : Eval σ α}

theorem logs_of (holds : ∀ base, (logging σ Told base).Holds evaluation evaluation) :
    Logs Told evaluation :=
  fun machine => (Coupling.alone_run (holds machine.journal) ⟨[], by simp, nofun⟩ rfl).1

theorem Logs.holds (logs : Logs Told evaluation) :
    (logging σ Told base).Holds evaluation evaluation := by
  rintro machine _ ⟨rfl, added, written, told⟩
  -- What the evaluation adds comes after what was added before.
  obtain ⟨more, written', told'⟩ := logs machine
  have kept : (logging σ Told base).Kept (evaluation.run machine).2 (evaluation.run machine).2 :=
    ⟨rfl, added ++ more, by rw [written', written, List.append_assoc],
      List.forall_mem_append.mpr ⟨told, told'⟩⟩
  cases ran : evaluation.run machine with
  | mk outcome after =>
    rw [ran] at kept
    cases outcome with
    | ok value => exact .value ran ran kept
    | error fault => exact .fault ran ran ⟨rfl, trivial⟩ kept

theorem Logs.imp {Told' : Event → Prop} (logs : Logs Told evaluation)
    (weaker : ∀ event, Told event → Told' event) : Logs Told' evaluation := by
  intro machine
  obtain ⟨added, written, told⟩ := logs machine
  exact ⟨added, written, fun event member => weaker event (told event member)⟩

theorem logging_exact : (logging σ Told base).Exact :=
  ⟨fun same => same.1.symm, fun kept => kept, fun _ => not_false⟩

theorem logging_stacked : (logging σ Told base).Stacked Eq := by
  apply Coupling.Stacked.same
  · rintro machine _ ⟨rfl, -⟩
    rfl
  · rintro machine _ ⟨rfl, kept⟩ stack
    exact ⟨rfl, kept⟩
  · exact ⟨rfl, trivial⟩

theorem logging_record {event : Event} (told : Told event) :
    (logging σ Told base).Holds (record event) (record event) := by
  apply Coupling.Holds.modify
  rintro machine _ ⟨rfl, added, written, others⟩
  refine ⟨rfl, added ++ [event], by rw [written, List.append_assoc], ?_⟩
  exact List.forall_mem_append.mpr ⟨others, List.forall_mem_singleton.mpr told⟩

theorem logging_throw (fault : Fault) :
    (logging σ Told base).Holds (throw fault : Eval σ α) (throw fault) :=
  .throw ⟨rfl, trivial⟩

/-! ### Calls -/

variable {reenter : String → Eval σ Value}

/-- Whatever an operation does, only the sources that it evaluates add to the journal. -/
theorem performs_logging
    (reentry : ∀ source, (logging σ Told base).Holds (reenter source) (reenter source)) :
    (logging σ Told base).Performs reenter reenter fun _ => True where
  raise _ := ⟨rfl, trivial⟩
  frames _ machine _ kept := ⟨kept.1 ▸ rfl, trivial⟩
  evaluate {source next} _ := ⟨logging_exact.attempt (reentry source), fun _ => trivial⟩
  register _ := by
    refine ⟨?_, fun _ => trivial⟩
    rintro machine _ ⟨rfl, kept⟩
    exact ⟨rfl, rfl, kept⟩
  readState _ machine _ kept := ⟨kept.1 ▸ rfl, trivial⟩
  writeState _ := by
    refine ⟨?_, trivial⟩
    rintro machine _ ⟨rfl, kept⟩
    exact ⟨rfl, kept⟩

/-- A call adds lines about itself. -/
theorem call_logging
    (reentry : ∀ source, (logging σ Event.IsCalled base).Holds (reenter source) (reenter source))
    {overloads : Overloads σ} {args : List Value} (called : Called overloads.name args.length)
    (position : Option Int) : (logging σ Event.IsCalled base).Holds
      (call reenter overloads args position) (call reenter overloads args position) := by
  have writes : (logging σ Event.IsCalled base).Writes overloads.name args
      overloads.operations.length overloads.operations.length :=
    ⟨logging_record called, fun _ => logging_record called, fun _ _ => logging_record ⟨_, called⟩⟩
  apply writes.calls_same
  -- What the operation does may add lines only through sources that it evaluates.
  · exact fun operation _ => (performs_logging reentry).perform (operation.run args) trivial
  · exact fun _ => ⟨rfl, trivial⟩

/-! ### Trees -/

/-- Nodes have one value each. -/
theorem nodes_length (source : List Char) {trees : List Node} {values : List Value}
    {machine after : Machine σ}
    (ran : (nodes reenter source trees).run machine = (.ok values, after)) :
    values.length = trees.length := by
  induction trees generalizing values machine with
  | nil =>
    cases ran
    rfl
  | cons first rest ih =>
    rcases run_bind_cases ran with ⟨value, between, -, later⟩ | ⟨fault, -, failed⟩
    · rcases run_bind_cases later with ⟨others, last, there, ended⟩ | ⟨fault, -, failed⟩
      · cases ended
        simp [ih there]
      · cases failed
    · cases failed

/-- The lists of a tree are lists of sources. -/
def AreCalled (source : List Char) (tree : Node) : Prop :=
  ∀ start head arguments, tree.Has (.list start (.symbol head :: arguments)) →
    Called (Node.symbolText head source) arguments.length

theorem AreCalled.child {source : List Char} {start : Option Int} {children : List Node}
    {child : Node} (called : AreCalled source (.list start children)) (member : child ∈ children) :
    AreCalled source child :=
  fun _ _ _ has => called _ _ _ (.inside member has)

private theorem symbol_logging (source : List Char) (span : Span) : (logging σ Told base).Holds
    (node reenter source (.symbol span)) (node reenter source (.symbol span)) := by
  rw [node]
  cases Atom.ofSpan span source with
  | ok value => exact .pure value
  | error fault => exact logging_throw fault

private theorem value_logging (source : List Char) (value : Value) : (logging σ Told base).Holds
    (node reenter source (.value value)) (node reenter source (.value value)) := by
  rw [node]
  cases value.inspect with
  | ok shown => exact logging_throw _
  | error fault => exact logging_throw fault

mutual

/-- The evaluation of a tree adds lines about lists of sources, if its own lists are some and
operations that evaluate sources add no others. -/
theorem node_logging
    (reentry : ∀ source, (logging σ Event.IsCalled base).Holds (reenter source) (reenter source))
    (source : List Char) : ∀ tree : Node, AreCalled source tree →
      (logging σ Event.IsCalled base).Holds (node reenter source tree) (node reenter source tree)
  | .string _, _ => .pure _
  | .symbol span, _ => symbol_logging source span
  | .value value, _ => value_logging source value
  | .list _ [], _ => logging_throw _
  | .list _ (.string _ :: _), _ => logging_throw _
  | .list _ (.list _ _ :: _), _ => logging_throw _
  | .list _ (.value _ :: _), _ => logging_throw _
  | .list start (.symbol head :: arguments), called => by
    rw [node]
    apply Coupling.Holds.get
    rintro machine _ ⟨rfl, -⟩
    dsimp only
    cases found : machine.registry.lookup (Node.symbolText head source) with
    | none => exact logging_throw _
    | some known =>
      -- The frame is no line of the journal.
      apply (logging_stacked.push rfl).bind
      intro _
      apply (nodes_logging reentry source arguments fun tree member =>
        called.child (.tail _ member)).bind_given
      -- There are as many values as arguments, and that is the count in the line.
      intro _ args _ evaluated
      apply (logging_stacked.setArguments args).bind
      intro _
      apply Coupling.Holds.get
      rintro later _ ⟨rfl, -⟩
      -- However the registry has grown, the set that is called has the text of the head as name.
      have named := Registry.name_of_lookup_getD later.registry found
      have here : Called ((later.registry.lookup (Node.symbolText head source)).getD known).name
          args.length := by
        rw [named, nodes_length source evaluated]
        exact called _ _ _ (.self _)
      apply (call_logging reentry here _).bind
      intro value
      exact logging_stacked.pop.bind fun _ => .pure value

theorem nodes_logging
    (reentry : ∀ source, (logging σ Event.IsCalled base).Holds (reenter source) (reenter source))
    (source : List Char) : ∀ trees : List Node, (∀ tree ∈ trees, AreCalled source tree) →
      (logging σ Event.IsCalled base).Holds (nodes reenter source trees)
        (nodes reenter source trees)
  | [], _ => .pure []
  | first :: rest, called =>
    have ⟨here, there⟩ := List.forall_mem_cons.mp called
    (node_logging reentry source first here).cons (nodes_logging reentry source rest there)

end

/-! ### Sources -/

theorem sourceWithin_logs (depth : Nat) (text : String) :
    Logs Event.IsCalled (sourceWithin depth text : Eval σ Value) := by
  apply logs_of
  intro base
  induction depth generalizing text with
  | zero => exact logging_throw _
  | succ depth ih =>
    rw [sourceWithin, sourceWith]
    apply logging_stacked.clearStack.bind
    intro _
    -- Operations evaluate sources at the depth of the hypothesis.
    cases parsed : parse text.toList with
    | error fault => exact logging_throw fault
    | ok root =>
      apply logging_stacked.clearStack.bind
      intro _
      exact node_logging ih text.toList root
        fun _ _ _ has => ⟨_, _, _, _, _, parsed, has, rfl, rfl⟩

end Eval

/-- The lines that the evaluation of a source adds to the journal are about lists of sources. -/
theorem Machine.evaluate_logs (machine : Machine σ) {source : String} {event : Event}
    (writes : machine.Writes source event) : event.IsCalled := by
  obtain ⟨added, written, member⟩ := writes
  obtain ⟨added', written', called⟩ := Eval.sourceWithin_logs Eval.nestingDepth source machine
  have same : added = added' := List.append_cancel_left (written.symm.trans written')
  exact called event (same ▸ member)

end HostLisp
