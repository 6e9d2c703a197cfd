import HostLisp.Proofs.CoupledForms
import HostLisp.Proofs.RoundTrip

/-!
# Evaluation of printed sources

A source that is printed from its tree means what the source meant.

## Main results

`Eval.evaluates_blindly`: operations that do not look at positions are called alike wherever the
calls stand.

`evaluate_printed`: a source without empty symbols is evaluated as the text that its tree prints as,
up to positions.

## Proof strategy

Marks only get into faults and frames. Two evaluations of forms with different marks are coupled; a
source that an operation evaluates itself starts with no call in progress, so it goes the same way on
both sides.
-/

namespace HostLisp

variable {σ : Type}

/-- A fault without the position that it is reported at. -/
def Fault.unplaced : Fault → Fault
  | .endOfInput message _ => .endOfInput message none
  | .evaluation cause _ => .evaluation cause none
  | .language message _ => .language message none
  | fault => fault

@[simp] theorem Fault.className_unplaced (fault : Fault) :
    fault.unplaced.className = fault.className := by cases fault <;> rfl

@[simp] theorem Fault.message_unplaced (fault : Fault) : fault.unplaced.message = fault.message := by
  cases fault <;> rfl

@[simp] theorem Fault.symbol_unplaced (fault : Fault) : fault.unplaced.symbol = fault.symbol := by
  cases fault <;> rfl

def Frame.called (frame : Frame) : String × List Value := (frame.name, frame.args)

/-! ### Operations that do not look at positions -/

mutual

/-- An action does the same wherever the calls in progress stand. -/
def Action.Blind : Action σ → Prop
  | .done _ => True
  | .frames next =>
    (∀ stack stack', stack.map Frame.called = stack'.map Frame.called → next stack = next stack') ∧
      ∀ stack, (next stack).Blind
  | .evaluate _ next => ∀ outcome, (next outcome).Blind
  | .register _ operation next => operation.Blind ∧ ∀ size, (next size).Blind
  | .readState next => ∀ state, (next state).Blind
  | .writeState _ next => next.Blind
termination_by structural action => action

def Operation.Blind : Operation σ → Prop
  | .fixed _ _ run => ∀ args, (run args).Blind
  | .variadic _ _ run => ∀ args, (run args).Blind
termination_by structural operation => operation

end

theorem Operation.Blind.run {operation : Operation σ} (blind : operation.Blind)
    (args : List Value) : (operation.run args).Blind := by
  cases operation with
  | fixed label types run => exact blind args
  | variadic label type run => exact blind args

def Registry.Blind (registry : Registry σ) : Prop := registry.Each Operation.Blind

/-- Two machines whose operations do not look at positions, and which differ only in where the calls
in progress stand. -/
structure Machine.Alike (machine machine' : Machine σ) : Prop where
  registry : machine'.registry = machine.registry
  stack : machine'.stack.map Frame.called = machine.stack.map Frame.called
  state : machine'.state = machine.state
  journal : machine'.journal = machine.journal
  blind : machine.registry.Blind

namespace Machine.Alike

variable {machine machine' : Machine σ}

theorem cleared (alike : machine.Alike machine') :
    ({ machine' with stack := [] } : Machine σ) = { machine with stack := [] } := by
  obtain ⟨registry, stack, state, journal⟩ := machine
  obtain ⟨registry', stack', state', journal'⟩ := machine'
  obtain ⟨rfl, -, rfl, rfl, -⟩ := alike
  rfl

theorem with_stack (alike : machine.Alike machine') {stack stack' : List Frame}
    (same : stack'.map Frame.called = stack.map Frame.called) :
    ({ machine with stack } : Machine σ).Alike { machine' with stack := stack' } :=
  ⟨alike.registry, same, alike.state, alike.journal, alike.blind⟩

end Machine.Alike

/-! ### Forms -/

mutual

/-- Forms that differ in their marks alone stand beside each other. -/
theorem Form.beside_of_erase : ∀ first second : Form Int, first.erase = second.erase →
    first.Beside (fun _ _ => True) second
  | .symbol mark text, second, same => by
    cases second with
    | symbol mark' text' =>
      cases same
      exact .symbol text trivial
    | string _ _ | list _ _ => cases same
  | .string mark body, second, same => by
    cases second with
    | string mark' body' =>
      cases same
      exact .string mark mark' body
    | symbol _ _ | list _ _ => cases same
  | .list mark items, second, same => by
    cases second with
    | list mark' items' =>
      exact .list trivial (forall₂_of_erase items items' (Form.list.inj same).2)
    | symbol _ _ | string _ _ => cases same

theorem Form.forall₂_of_erase : ∀ first second : List (Form Int),
    Form.mapAll (fun _ => ()) first = Form.mapAll (fun _ => ()) second →
      List.Forall₂ (Form.Beside fun _ _ => True) first second
  | [], [], _ => .nil
  | form :: rest, form' :: rest', same =>
    have ⟨here, there⟩ := List.cons.inj same
    .cons (beside_of_erase form form' here) (forall₂_of_erase rest rest' there)
  | [], _ :: _, same => by cases same
  | _ :: _, [], same => by cases same

end

namespace Eval

/-- Two evaluations on machines that are alike. Their faults differ at most in their positions. -/
def blindly (σ : Type) : Coupling (Runs.state (Machine σ)) (Runs.state (Machine σ)) where
  Kept := Machine.Alike
  Fails fault fault' := fault'.unplaced = fault.unplaced

theorem blindly_stacked :
    (blindly σ).Stacked fun frame frame' => frame.called = frame'.called where
  stack alike := Coupling.forall₂_seen.mpr alike.stack.symm
  with_stack alike same := alike.with_stack (Coupling.forall₂_seen.mp same).symm
  with_args args same := congrArg (fun called => (Prod.fst called, args)) same
  listIndex := rfl

/-- A source is evaluated the same way on machines that are alike. -/
def Settled (reenter : String → Eval σ Value) : Prop :=
  ∀ source (machine machine' : Machine σ), machine.Alike machine' →
    ((reenter source).run machine').1 = ((reenter source).run machine).1 ∧
    ((reenter source).run machine).2.Alike ((reenter source).run machine').2

variable {reenter : String → Eval σ Value}

/-- What an operation is told of a source has no position that could differ. -/
theorem attempt_blindly (settled : Settled reenter) (source : String) :
    (blindly σ).Holds (attempt (reenter source)) (attempt (reenter source)) := by
  intro machine machine' alike
  -- The source clears the calls in progress first, and only these could differ.
  obtain ⟨same, alike'⟩ := settled source machine machine' alike
  cases ran : (reenter source).run machine with
  | mk outcome after =>
    cases ran' : (reenter source).run machine' with
    | mk outcome' after' =>
      rw [ran, ran'] at same alike'
      obtain rfl : outcome' = outcome := same
      exact .value (attempt_run ran) (attempt_run ran') alike'

theorem performs_blindly (settled : Settled reenter) :
    (blindly σ).Performs reenter reenter Action.Blind where
  raise _ := rfl
  frames blind machine machine' alike :=
    ⟨(blind.1 _ _ alike.stack.symm).symm, blind.2 machine.stack⟩
  evaluate {source next} blind := ⟨attempt_blindly settled source, blind⟩
  register {symbol operation next} blind := by
    refine ⟨fun machine machine' alike => ⟨alike.registry, ?_⟩, blind.2⟩
    exact ⟨congrArg (Registry.register · symbol operation) alike.registry, alike.stack,
      alike.state, alike.journal, Registry.Each.register alike.blind symbol blind.1⟩
  readState blind machine _ alike := ⟨alike.state, blind machine.state⟩
  writeState blind :=
    ⟨fun _ _ alike => ⟨alike.registry, alike.stack, rfl, alike.journal, alike.blind⟩, blind⟩

/-- Calls that stand in different places are made alike. -/
theorem evaluates_blindly (settled : Settled reenter) :
    (blindly σ).Evaluates reenter reenter (fun _ _ => True) fun _ known known' =>
      known' = known ∧ ∀ operation ∈ known.operations, operation.Blind := by
  refine .of_each blindly_stacked ?_ ?_ ?_ ?_ ?_ ?_
  · exact fun _ _ _ _ => rfl
  · exact fun _ _ alike => ⟨alike.registry, alike.blind⟩
  · intro event
    apply Coupling.Holds.modify
    intro machine machine' alike
    exact ⟨alike.registry, alike.stack, alike.state, by rw [alike.journal], alike.blind⟩
  · exact fun operation args blind => (performs_blindly settled).perform _ (blind.run args)
  · exact fun _ _ _ _ => rfl
  · exact fun _ => rfl

/-! ### Sources -/

/-- A source that is evaluated from within goes the same way whatever calls were in progress. -/
theorem sourceWithin_settled : ∀ depth, Settled (sourceWithin depth : String → Eval σ Value)
  | 0 => fun _ _ _ alike => ⟨rfl, alike⟩
  | depth + 1 => by
    intro source machine machine' alike
    rw [sourceWithin, sourceWith, run_bind_ok clearStack_run, run_bind_ok clearStack_run,
      alike.cleared]
    refine ⟨rfl, rfl, rfl, rfl, rfl, ?_⟩
    have start : ({ machine with stack := [] } : Machine σ).Alike { machine with stack := [] } :=
      ⟨rfl, rfl, rfl, rfl, alike.blind⟩
    cases parsed : parse source.toList with
    | error fault => exact alike.blind
    | ok root =>
      obtain ⟨form, formed, -⟩ := parse_form source.toList root parsed
      dsimp only
      rw [tree, run_bind_ok clearStack_run, node_eq_form _ _ _ _ formed]
      -- What the source registers does not look at positions either.
      cases (evaluates_blindly (sourceWithin_settled depth)).form form form
        (Form.beside_of_erase form form rfl) _ _ start with
      | value ran _ kept => exact congrArg Prod.snd ran ▸ kept.blind
      | fault ran _ _ kept => exact congrArg Prod.snd ran ▸ kept.blind
      | pardoned _ never => exact never.elim

end Eval

/-! ### Trees without empty symbols -/

namespace Node

mutual

/-- Whether no symbol of a tree is empty. -/
def isSolid : Node → Bool
  | .symbol span => span.length ≠ 0
  | .string _ | .value _ => true
  | .list _ children => areSolid children
termination_by structural node => node

def areSolid : List Node → Bool
  | [] => true
  | node :: rest => isSolid node && areSolid rest
termination_by structural nodes => nodes

end

mutual

theorem isSolid_form {source : List Char} : ∀ (node : Node) (form : Form Int),
    node.form? source = some form → form.isSolid = node.isSolid
  | .symbol span, form, formed => by
    rcases form?_symbol_eq_some formed with ⟨empty, rfl⟩ | ⟨filled, outside, rfl⟩
    · simp [Form.isSolid, isSolid, empty]
    · simp [Form.isSolid, isSolid, filled, outside]
  | .string span, form, formed => by
    cases formed
    rfl
  | .value shown, form, formed => by cases formed
  | .list start children, form, formed => by
    obtain ⟨offset, items, rfl, inner, rfl⟩ := form?_list_eq_some formed
    exact areSolid_forms children items inner

theorem areSolid_forms {source : List Char} : ∀ (nodes : List Node) (forms : List (Form Int)),
    forms? source nodes = some forms → Form.areSolid forms = areSolid nodes
  | [], forms, formed => by
    cases formed
    rfl
  | node :: rest, forms, formed => by
    obtain ⟨form, others, here, there, rfl⟩ := forms?_cons_eq_some.mp formed
    rw [Form.areSolid, areSolid, isSolid_form node form here, areSolid_forms rest others there]

end

end Node

/-- If no operation looks at positions, a source whose tree has no empty symbol is evaluated as the
text that the tree prints as: to the same value or to faults of one class, message and symbol, with
the same calls made and the same calls left in progress. -/
theorem evaluate_printed (machine : Machine σ) (blind : machine.registry.Blind) (text : String)
    (root : Node) (parsed : parse text.toList = .ok root) (solid : root.isSolid = true) :
    ∃ printed outcome after outcome' after', root.print text.toList = .ok printed ∧
      machine.evaluate text = (outcome, after) ∧ machine.evaluate printed = (outcome', after') ∧
      ((∃ value, outcome = .ok value ∧ outcome' = .ok value) ∨
        ∃ fault fault', outcome = .error fault ∧ outcome' = .error fault' ∧
          fault'.className = fault.className ∧ fault'.message = fault.message ∧
          fault'.symbol = fault.symbol) ∧
      after'.journal = after.journal ∧ after'.state = after.state ∧
      after'.registry = after.registry ∧
      after'.frames.map Frame.called = after.frames.map Frame.called := by
  obtain ⟨form, formed, readable⟩ := parse_form text.toList root parsed
  -- Nothing of the form is lost in print, because it has no empty symbol.
  rw [← Node.isSolid_form root form formed] at solid
  have printed := Form.print_eq text.toList root form formed
  obtain ⟨root', returned, formed'⟩ :=
    read_chars form readable (Form.isEmpty_eq_false_of_isSolid solid)
  have parsed' : parse (String.ofList form.chars).toList = .ok root' := by
    rw [String.toList_ofList, parse, returned]
  -- Nothing is left out, so the text has the form of the source but for the marks.
  have same : form.erase = (form.place 0).prune.erase := by
    rw [Form.erase_prune, Form.erase_place, ← Form.erase_prune, Form.prune_of_isSolid form solid]
  have start : ({ machine with stack := [] } : Machine σ).Alike { machine with stack := [] } :=
    ⟨rfl, rfl, rfl, rfl, blind⟩
  have beside := Form.beside_of_erase form _ same
  have settled : Eval.Settled (Eval.sourceWithin (Eval.nestingDepth - 1) : String → Eval σ Value) :=
    Eval.sourceWithin_settled _
  have seen {last last' : Machine σ} (alike : last.Alike last') :
      last'.frames.map Frame.called = last.frames.map Frame.called := by
    rw [Machine.frames, Machine.frames, List.map_reverse, List.map_reverse, alike.stack]
  have evaluated := machine.evaluate_of_form parsed formed
  have evaluated' := machine.evaluate_of_form parsed' (by rw [String.toList_ofList, formed'])
  cases (Eval.evaluates_blindly settled).form form _ beside _ _ start with
  | value ran ran' alike =>
    exact ⟨_, _, _, _, _, printed, evaluated.trans ran, evaluated'.trans ran',
      Or.inl ⟨_, rfl, rfl⟩, alike.journal, alike.state, alike.registry, seen alike⟩
  | @fault fault fault' _ _ ran ran' unplaced alike =>
    refine ⟨_, _, _, _, _, printed, evaluated.trans ran, evaluated'.trans ran',
      Or.inr ⟨fault, fault', rfl, rfl, ?_, ?_, ?_⟩, alike.journal, alike.state, alike.registry,
      seen alike⟩
    -- What is left of a fault without its position are these three.
    · simpa using congrArg Fault.className unplaced
    · simpa using congrArg Fault.message unplaced
    · simpa using congrArg Fault.symbol unplaced
  | pardoned _ never => exact never.elim

/-- A machine with one operation, which evaluates a source and gives the number of calls that were in
progress before. -/
def counted : Machine Unit :=
  .fresh (Registry.empty.register "f" (.variadic none none fun _ => .frames fun stack =>
    .evaluate "true" fun _ => .give (.int stack.length))) ()

theorem evaluate_printed_spaced : counted.registry.Blind ∧
    parse "(f\t\"a\"  (f ) )".toList =
      .ok (.list (some 0) [.symbol ⟨1, 1⟩, .string ⟨4, 1⟩, .list (some 8) [.symbol ⟨9, 1⟩]]) ∧
    Node.isSolid (.list (some 0) [.symbol ⟨1, 1⟩, .string ⟨4, 1⟩, .list (some 8) [.symbol ⟨9, 1⟩]]) =
      true ∧
    ∃ printed outcome after outcome' after',
      Node.print "(f\t\"a\"  (f ) )".toList (.list (some 0) [.symbol ⟨1, 1⟩, .string ⟨4, 1⟩,
        .list (some 8) [.symbol ⟨9, 1⟩]]) = .ok printed ∧
      counted.evaluate "(f\t\"a\"  (f ) )" = (outcome, after) ∧
      counted.evaluate printed = (outcome', after') ∧
      ((∃ value, outcome = .ok value ∧ outcome' = .ok value) ∨
        ∃ fault fault', outcome = .error fault ∧ outcome' = .error fault' ∧
          fault'.className = fault.className ∧ fault'.message = fault.message ∧
          fault'.symbol = fault.symbol) ∧
      after'.journal = after.journal ∧ after'.state = after.state ∧
      after'.registry = after.registry ∧
      after'.frames.map Frame.called = after.frames.map Frame.called := by
  have blind : counted.registry.Blind := by
    intro overloads member operation inside
    cases List.mem_singleton.mp member
    cases List.mem_singleton.mp inside
    intro args
    refine ⟨?_, fun stack outcome => trivial⟩
    -- The operation gives the number of calls in progress, which does not depend on where they
    -- stand.
    intro stack stack' same
    have length : stack.length = stack'.length := by simpa using congrArg List.length same
    simp only [length]
  have parsed : parse "(f\t\"a\"  (f ) )".toList = .ok (.list (some 0)
      [.symbol ⟨1, 1⟩, .string ⟨4, 1⟩, .list (some 8) [.symbol ⟨9, 1⟩]]) := rfl
  exact ⟨blind, parsed, rfl, evaluate_printed counted blind _ _ parsed rfl⟩

end HostLisp
