import HostLisp.Proofs.Dispatch
import HostLisp.Proofs.SilentEvaluation

/-!
# The order of evaluation

Lists are called after those inside of them, from left to right, until one fails.

## Main results

`Eval.form_courses`: the operations that the evaluation of a form invokes are those of its lists, in
order, of all if it has a value and of the first few if it fails.

`evaluate_in_order`: so for a source, and the journal shows the calls in that order.

## Proof strategy

`Eval.Course` says what an evaluation has done of the lists that are before it. The courses of two
evaluations in a row are put together, and the induction is on the form.
-/

namespace HostLisp

variable {σ α β : Type}

/-! ### The lists of a form -/

namespace Form

mutual

/-- The lists in a form, each after those inside of it, from left to right. -/
def lists : Form α → List (Form α)
  | .symbol _ _ => []
  | .string _ _ => []
  | .list mark items => listsAll items ++ [.list mark items]
termination_by structural form => form

def listsAll : List (Form α) → List (Form α)
  | [] => []
  | first :: rest => lists first ++ listsAll rest
termination_by structural forms => forms

end

theorem Call.lists_form (call : Call) :
    call.form.lists = listsAll call.arguments ++ [call.form] := by
  rw [form, lists, listsAll, lists, List.nil_append]

end Form

/-- What an operation is handed, with the symbol and the place that it has. -/
def Event.handed? : Event → Option (String × Nat × List Value)
  | .entered name place args => some (name, place, args)
  | _ => none

namespace Eval

/-! ### Invocations -/

/-- An operation that is invoked for a call: one of a set, with the values of the arguments. -/
structure Invocation (σ : Type) where
  call : Form.Call
  args : List Value
  overloads : Overloads σ
  place : Nat
  operation : Operation σ

namespace Invocation

def handed (invocation : Invocation σ) : String × Nat × List Value :=
  (invocation.call.symbol, invocation.place, invocation.args)

/-- What the journal shows of an invocation before the operation has given a value. -/
def begun (invocation : Invocation σ) : List Event :=
  [.call invocation.call.symbol invocation.args.length invocation.overloads.operations.length,
    .entered invocation.call.symbol invocation.place invocation.args]

/-- What the journal shows of an invocation that has given a value. -/
def events (invocation : Invocation σ) : List Event :=
  invocation.begun ++
    [.returned invocation.call.symbol invocation.place invocation.operation.inspect]

/-- The lines of an invocation in a trace. -/
def lines (invocation : Invocation σ) : List String :=
  let symbol := invocation.call.symbol
  let argumentCount := invocation.args.length
  let operationCount := invocation.overloads.operations.length
  [s!"[DBG] call {symbol} argc {argumentCount} operations {operationCount}\n",
    s!"[DBG] invoked {invocation.operation.inspect}\n"]

end Invocation

/-- An operation is invoked in the evaluation of a form: its call is reached, which is after the
arguments before it on every level, the arguments of the call have values, and the operation is the
first to take them of those that the head has by then. -/
inductive Invoked (reenter : String → Eval σ Value) (machine : Machine σ) (whole : Form Int) :
    Invocation σ → Prop
  | intro {here between : Machine σ} {call : Form.Call} {known : Overloads σ} {args : List Value}
      {place : Nat} {operation : Operation σ}
      (reaches : Reaches reenter machine whole here call.form)
      (found : here.registry.lookup call.symbol = some known)
      (evaluated : (forms reenter call.arguments).run (here.entering call) = (.ok args, between))
      (chooses : ((between.registry.lookup call.symbol).getD known).Chooses args place operation) :
      Invoked reenter machine whole
        ⟨call, args, (between.registry.lookup call.symbol).getD known, place, operation⟩

/-! ### Courses -/

/-- The end of a journal where an evaluation fails: nothing of a call, a call that invokes no
operation, or one whose operation is invoked and gives no value. -/
inductive Unfinished : List (Invocation σ) → List Event → Prop
  | nothing : Unfinished [] []
  | refused (name : String) (argumentCount operationCount : Nat) :
      Unfinished [] [.call name argumentCount operationCount]
  | raised (invocation : Invocation σ) : Unfinished [invocation] invocation.begun

theorem Unfinished.handed {last : List (Invocation σ)} {unfinished : List Event}
    (ending : Unfinished last unfinished) :
    unfinished.filterMap Event.handed? = last.map Invocation.handed := by
  cases ending <;> rfl

theorem Unfinished.length_le {last : List (Invocation σ)} {unfinished : List Event}
    (ending : Unfinished last unfinished) : last.length ≤ 1 := by
  cases ending <;> simp

/-- The course of an evaluation that has lists before it, between two states of the journal.
Operations are invoked for the first of the lists, one for each and in order, and the journal shows
no other. All of them have given a value but the last one, if the evaluation fails; if it does not,
they are those of all of the lists. -/
structure Course (lists : List (Form Int)) (Holds : Invocation σ → Prop)
    (journal journal' : List Event) (outcome : Except Fault α) where
  returned : List (Invocation σ)
  last : List (Invocation σ)
  unfinished : List Event
  ending : Unfinished last unfinished
  written : journal' = journal ++ (returned.flatMap Invocation.events ++ unfinished)
  invoked : ∀ invocation ∈ returned ++ last, Holds invocation
  order : (returned ++ last).map (·.call.form) <+: lists
  complete : ∀ value, outcome = .ok value →
    last = [] ∧ unfinished = [] ∧ returned.map (·.call.form) = lists

namespace Course

variable {lists lists' : List (Form Int)} {Holds Holds' : Invocation σ → Prop}
  {journal journal' journal'' : List Event}

/-- An evaluation that invokes nothing. -/
def nothing {outcome : Except Fault α} (none : ∀ value, outcome = .ok value → lists = []) :
    Course lists Holds journal journal outcome where
  returned := []
  last := []
  unfinished := []
  ending := .nothing
  written := (List.append_nil journal).symm
  invoked := nofun
  order := List.nil_prefix
  complete value same := ⟨rfl, rfl, (none value same).symm⟩

/-- An evaluation that invokes nothing and fails. -/
def failed {fault : Fault} :
    Course lists Holds journal journal (.error fault : Except Fault α) :=
  nothing (by rintro _ ⟨⟩)

/-- A call that invokes nothing and fails. -/
def refused {fault : Fault} (name : String) (argumentCount operationCount : Nat)
    (written : journal' = journal ++ [.call name argumentCount operationCount]) :
    Course lists Holds journal journal' (.error fault : Except Fault α) where
  returned := []
  last := []
  unfinished := _
  ending := .refused name argumentCount operationCount
  written := written
  invoked := nofun
  order := List.nil_prefix
  complete := by rintro _ ⟨⟩

/-- A call whose operation fails. -/
def raised {fault : Fault} (invocation : Invocation σ) (holds : Holds invocation)
    (written : journal' = journal ++ invocation.begun) :
    Course [invocation.call.form] Holds journal journal' (.error fault : Except Fault α) where
  returned := []
  last := [invocation]
  unfinished := _
  ending := .raised invocation
  written := written
  invoked := List.forall_mem_singleton.mpr holds
  order := List.prefix_rfl
  complete := by rintro _ ⟨⟩

/-- A call whose operation gives a value. -/
def given {value : α} (invocation : Invocation σ) (holds : Holds invocation)
    (written : journal' = journal ++ invocation.events) :
    Course [invocation.call.form] Holds journal journal' (.ok value) where
  returned := [invocation]
  last := []
  unfinished := []
  ending := .nothing
  written := by
    rw [written, List.flatMap_singleton, List.append_nil]
  invoked := List.forall_mem_singleton.mpr holds
  order := List.prefix_rfl
  complete _ _ := ⟨rfl, rfl, rfl⟩

def imp {outcome : Except Fault α} (course : Course lists Holds journal journal' outcome)
    (implies : ∀ invocation, Holds invocation → Holds' invocation) :
    Course lists Holds' journal journal' outcome where
  __ := course
  invoked invocation member := implies invocation (course.invoked invocation member)

/-- An evaluation that fails comes to none of the lists that are left. -/
def stop {fault : Fault}
    (course : Course lists Holds journal journal' (.error fault : Except Fault α))
    (lists' : List (Form Int)) :
    Course (lists ++ lists') Holds journal journal' (.error fault : Except Fault β) where
  __ := course
  order := course.order.trans (List.prefix_append lists lists')
  complete := by rintro _ ⟨⟩

/-- Of the outcome it only matters whether it is a value. -/
def regard {outcome : Except Fault α} {outcome' : Except Fault β}
    (course : Course lists Holds journal journal' outcome)
    (also : ∀ value', outcome' = .ok value' → ∃ value, outcome = .ok value) :
    Course lists Holds journal journal' outcome' where
  __ := course
  complete value' same := by
    obtain ⟨value, same'⟩ := also value' same
    exact course.complete value same'

theorem written_given {value : α} (course : Course lists Holds journal journal' (.ok value)) :
    journal' = journal ++ course.returned.flatMap Invocation.events := by
  have finished := (course.complete value rfl).2.1
  have written := course.written
  rwa [finished, List.append_nil] at written

/-- An evaluation after one that has a value. -/
def append {value : α} {outcome : Except Fault β}
    (first : Course lists Holds journal journal' (.ok value))
    (second : Course lists' Holds journal' journal'' outcome) :
    Course (lists ++ lists') Holds journal journal'' outcome where
  returned := first.returned ++ second.returned
  last := second.last
  unfinished := second.unfinished
  ending := second.ending
  written := by
    calc
      journal'' = journal' ++ (second.returned.flatMap Invocation.events ++ second.unfinished) :=
        second.written
      _ = journal ++ first.returned.flatMap Invocation.events ++
          (second.returned.flatMap Invocation.events ++ second.unfinished) :=
        congrArg (· ++ _) first.written_given
      _ = journal ++ ((first.returned ++ second.returned).flatMap Invocation.events ++
          second.unfinished) := by
        simp only [List.flatMap_append, List.append_assoc]
  invoked := by
    intro invocation member
    rw [List.append_assoc] at member
    rcases List.mem_append.mp member with earlier | later
    · exact first.invoked invocation (List.mem_append_left _ earlier)
    · exact second.invoked invocation later
  order := by
    obtain ⟨-, -, all⟩ := first.complete value rfl
    rw [List.append_assoc, List.map_append, all]
    exact (List.prefix_append_right_inj lists).mpr second.order
  complete := by
    intro value' same
    obtain ⟨-, -, all⟩ := first.complete value rfl
    obtain ⟨none, finished, all'⟩ := second.complete value' same
    refine ⟨none, finished, ?_⟩
    rw [List.map_append, all, all']

/-- The operations that are invoked, in order. -/
def invocations {outcome : Except Fault α} (course : Course lists Holds journal journal' outcome) :
    List (Invocation σ) :=
  course.returned ++ course.last

/-- What is written in the journal meanwhile. -/
def events {outcome : Except Fault α} (course : Course lists Holds journal journal' outcome) :
    List Event :=
  course.returned.flatMap Invocation.events ++ course.unfinished

/-- The journal shows each operation that is invoked, and no other. -/
theorem handed {outcome : Except Fault α} (course : Course lists Holds journal journal' outcome) :
    course.events.filterMap Event.handed? = course.invocations.map Invocation.handed := by
  have returned (invocations : List (Invocation σ)) :
      (invocations.flatMap Invocation.events).filterMap Event.handed? =
        invocations.map Invocation.handed := by
    induction invocations with
    | nil => rfl
    | cons first rest ih =>
      rw [List.flatMap_cons, List.filterMap_append, ih]
      rfl
  rw [events, invocations, List.filterMap_append, List.map_append, returned, course.ending.handed]

/-- Where an evaluation has a value, operations are invoked for all lists. -/
theorem all {outcome : Except Fault α} (course : Course lists Holds journal journal' outcome)
    {value : α} (same : outcome = .ok value) :
    course.invocations.map (·.call.form) = lists := by
  obtain ⟨none, -, all⟩ := course.complete value same
  rw [invocations, none, List.append_nil, all]

/-- Where an evaluation has a value, its trace has the lines of its invocations. -/
theorem traced {outcome : Except Fault α} (course : Course lists Holds journal journal' outcome)
    {value : α} (same : outcome = .ok value) :
    course.events.filterMap Event.trace? = course.invocations.flatMap Invocation.lines := by
  -- With a value every list has been invoked, and no call is left open.
  obtain ⟨none, finished, -⟩ := course.complete value same
  rw [events, invocations, none, finished, List.append_nil, List.append_nil]
  induction course.returned with
  | nil => rfl
  | cons first rest ih =>
    rw [List.flatMap_cons, List.filterMap_append, ih, List.flatMap_cons]
    rfl

end Course

variable {reenter : String → Eval σ Value} {machine between after : Machine σ}

/-! ### Calls -/

/-- An action that evaluates no source writes nothing in the journal. -/
theorem perform_journal : ∀ (action : Action σ) (machine : Machine σ), action.Direct →
    ∀ outcome after, (perform reenter action).run machine = (outcome, after) →
      after.journal = machine.journal
  | .done (.ok value), _, _, _, _, ran => by
    cases ran
    rfl
  | .done (.error fault), _, _, _, _, ran => by
    cases ran
    rfl
  | .frames next, machine, direct, outcome, after, ran => by
    rw [perform, run_bind_ok get_run] at ran
    exact perform_journal (next machine.stack) machine (direct machine.stack) outcome after ran
  -- Only a source that is evaluated from within could write, and there is none.
  | .evaluate _ _, _, direct, _, _, _ => False.elim direct
  | .register symbol operation next, machine, direct, outcome, after, ran => by
    rw [perform_register_run] at ran
    exact perform_journal _ (machine.register symbol operation) (direct.2 _) outcome after ran
  | .readState next, machine, direct, outcome, after, ran => by
    rw [perform_readState_run] at ran
    exact perform_journal (next machine.state) machine (direct machine.state) outcome after ran
  | .writeState state next, machine, direct, outcome, after, ran => by
    rw [perform_writeState_run] at ran
    exact perform_journal next { machine with state } direct outcome after ran

/-- A call either invokes nothing and fails, or invokes the first operation that takes the
arguments, which the journal shows before it does anything and, if it gives a value, after that. -/
theorem call_journal {overloads : Overloads σ} {args : List Value} {position : Option Int}
    (direct : ∀ operation ∈ overloads.operations, operation.Direct) {outcome : Except Fault Value}
    (ran : (call reenter overloads args position).run machine = (outcome, after)) :
    let called := .call overloads.name args.length overloads.operations.length
    (∃ fault, outcome = .error fault ∧ after.journal = machine.journal ++ [called]) ∨
    ∃ place operation, overloads.Chooses args place operation ∧
      let entered := .entered overloads.name place args
      ((∃ fault, outcome = .error fault ∧ after.journal = machine.journal ++ [called, entered]) ∨
        ∃ value, outcome = .ok value ∧ after.journal = machine.journal ++
          [called, entered, .returned overloads.name place operation.inspect]) := by
  intro called
  cases chosen : overloads.choose? args with
  | none =>
    rw [call_run_none chosen] at ran
    cases ran
    exact Or.inl ⟨_, rfl, rfl⟩
  | some pair =>
    obtain ⟨place, operation⟩ := pair
    have acts := (direct operation (Overloads.mem_of_choose? chosen)).run args
    refine Or.inr ⟨place, operation, Overloads.choose?_eq_some_iff.mp chosen, ?_⟩
    rw [call_run chosen] at ran
    rcases run_bind_cases ran with ⟨value, left, performed, ended⟩ | ⟨fault, failed, rfl⟩
    · -- The operation itself has written nothing between the lines of its call.
      have same := perform_journal _ _ acts _ _ performed
      cases ended
      exact Or.inr ⟨value, rfl, by simp [same, called]⟩
    · have same := perform_journal _ _ acts _ _ failed
      exact Or.inl ⟨fault, rfl, by simp [same, called]⟩

/-- The end of a call is the course of its own list. -/
theorem conclude_courses {call : Form.Call} {known : Overloads σ} {args : List Value}
    (found : machine.registry.lookup call.symbol = some known) (direct : machine.registry.Direct)
    (evaluated : (forms reenter call.arguments).run (machine.entering call) = (.ok args, between))
    (kept : between.stack = (machine.entering call).stack) (direct' : between.registry.Direct)
    {outcome : Except Fault Value}
    (ran : (conclude reenter call.symbol known (some call.head) args).run between =
      (outcome, after)) :
    Nonempty (Course [call.form] (Invoked reenter machine call.form) between.journal after.journal
      outcome) := by
  have named := Registry.name_of_lookup_getD between.registry found
  have invoked {place : Nat} {operation : Operation σ}
      (chooses : Overloads.Chooses _ args place operation) :
      Invoked reenter machine call.form _ :=
    .intro (.here _ _) found evaluated chooses
  -- Taking the frame away writes nothing, so the journal is that of the call.
  have called : ∃ last, (Eval.call reenter ((between.registry.lookup call.symbol).getD known) args
      (some call.head)).run { between with stack := call.frame args :: machine.stack } =
        (outcome, last) ∧ after.journal = last.journal := by
    rw [conclude_run args kept] at ran
    rcases run_bind_cases ran with ⟨value, last, ended, popped⟩ | ⟨fault, failed, rfl⟩
    · cases popped
      exact ⟨last, ended, rfl⟩
    · exact ⟨after, failed, rfl⟩
  obtain ⟨last, ended, same⟩ := called
  have written := call_journal (direct.lookup_getD direct' found) ended
  simp only [← same, named] at written
  -- The call was refused, or entered and then failed or returned.
  rcases written with ⟨fault, rfl, shown⟩ |
    ⟨place, operation, chooses, ⟨fault, rfl, shown⟩ | ⟨value, rfl, shown⟩⟩
  · exact ⟨.refused _ _ _ shown⟩
  · exact ⟨.raised ⟨call, args, _, place, operation⟩ (invoked chooses) shown⟩
  · exact ⟨.given ⟨call, args, _, place, operation⟩ (invoked chooses) shown⟩

/-! ### Forms -/

/-- An operation is invoked in the evaluation of one of several forms, after those before it. -/
def InvokedAmong (reenter : String → Eval σ Value) (machine : Machine σ) (items : List (Form Int))
    (invocation : Invocation σ) : Prop :=
  ∃ before item rest values between, items = before ++ item :: rest ∧
    (forms reenter before).run machine = (.ok values, between) ∧
    Invoked reenter between item invocation

theorem InvokedAmong.inside {call : Form.Call} {known : Overloads σ} {invocation : Invocation σ}
    (found : machine.registry.lookup call.symbol = some known)
    (invoked : InvokedAmong reenter (machine.entering call) call.arguments invocation) :
    Invoked reenter machine call.form invocation := by
  obtain ⟨before, item, rest, values, between, split, evaluated, inner⟩ := invoked
  cases inner with
  | intro reaches found' evaluated' chooses =>
    exact .intro (.argument found split evaluated reaches) found' evaluated' chooses

mutual

/-- With operations that do not call back, the evaluation of a form goes through its lists. -/
theorem form_courses (reenter : String → Eval σ Value) : ∀ (item : Form Int) (machine : Machine σ),
    machine.registry.Direct → ∀ outcome after,
      (form reenter item).run machine = (outcome, after) →
      Nonempty (Course item.lists (Invoked reenter machine item) machine.journal after.journal
        outcome)
  | .string mark body, machine, direct, _, _, ran => by
    cases ran
    exact ⟨.nothing fun _ _ => rfl⟩
  | .symbol mark text, machine, direct, _, _, ran => by
    rw [Eval.form] at ran
    cases spelled : Atom.ofText text mark with
    | ok value =>
      rw [spelled] at ran
      cases ran
      exact ⟨.nothing fun _ _ => rfl⟩
    | error fault =>
      rw [spelled] at ran
      cases ran
      exact ⟨.failed⟩
  | .list mark [], machine, direct, _, _, ran => by
    cases ran
    exact ⟨.failed⟩
  | .list mark (.string inside body :: rest), machine, direct, _, _, ran => by
    cases ran
    exact ⟨.failed⟩
  | .list mark (.list inside items :: rest), machine, direct, _, _, ran => by
    cases ran
    exact ⟨.failed⟩
  | .list mark (.symbol head name :: arguments), machine, direct, outcome, after, ran => by
    let call : Form.Call := ⟨mark, head, name, arguments⟩
    change Nonempty (Course call.form.lists (Invoked reenter machine call.form) machine.journal
      after.journal outcome)
    cases found : machine.registry.lookup call.symbol with
    | none =>
      rw [form_run_unknown found] at ran
      cases ran
      exact ⟨.failed⟩
    | some known =>
      have entering : (machine.entering call).registry.Direct := direct
      rw [call.lists_form]
      rw [form_run_known found] at ran
      rcases run_bind_cases ran with ⟨args, between, evaluated, ended⟩ | ⟨fault, stopped, rfl⟩
      · obtain ⟨direct', kept⟩ := forms_leave reenter arguments _ entering _ _ evaluated
        obtain ⟨earlier⟩ := forms_course reenter arguments _ entering _ _ evaluated
        obtain ⟨own⟩ := conclude_courses found direct evaluated kept direct' ended
        -- The lists in the arguments come first, and the list itself after them.
        have inside := earlier.imp fun _ => InvokedAmong.inside found
        exact ⟨inside.append own⟩
      · obtain ⟨earlier⟩ := forms_course reenter arguments _ entering _ _ stopped
        -- An argument has failed, so the call comes to nothing.
        have inside := earlier.imp fun _ => InvokedAmong.inside found
        exact ⟨inside.stop [call.form]⟩

theorem forms_course (reenter : String → Eval σ Value) :
    ∀ (items : List (Form Int)) (machine : Machine σ), machine.registry.Direct → ∀ outcome after,
      (forms reenter items).run machine = (outcome, after) →
      Nonempty (Course (Form.listsAll items) (InvokedAmong reenter machine items) machine.journal
        after.journal outcome)
  | [], machine, direct, _, _, ran => by
    cases ran
    exact ⟨.nothing fun _ _ => rfl⟩
  | first :: rest, machine, direct, outcome, after, ran => by
    rw [forms] at ran
    -- What the first form invokes is invoked among all of them.
    have here (invocation : Invocation σ) (invoked : Invoked reenter machine first invocation) :
        InvokedAmong reenter machine (first :: rest) invocation :=
      ⟨[], first, rest, [], machine, rfl, rfl, invoked⟩
    rcases run_bind_cases ran with ⟨value, between, begun, ended⟩ | ⟨fault, stopped, rfl⟩
    · obtain ⟨direct', -⟩ := form_leaves reenter first machine direct _ _ begun
      obtain ⟨course⟩ := form_courses reenter first machine direct _ _ begun
      -- The first form has a value, so it joins those before the ones that come later.
      have later (invocation : Invocation σ)
          (invoked : InvokedAmong reenter between rest invocation) :
          InvokedAmong reenter machine (first :: rest) invocation := by
        obtain ⟨before, item, rest', values, between', rfl, evaluated, inner⟩ := invoked
        refine ⟨first :: before, item, rest', value :: values, between', rfl, ?_, inner⟩
        rw [forms, run_bind_ok begun, run_bind_ok evaluated]
        rfl
      rcases run_bind_cases ended with ⟨values, last, goes, done⟩ | ⟨fault, stopped, rfl⟩
      · cases done
        obtain ⟨others⟩ := forms_course reenter rest between direct' _ _ goes
        exact ⟨(course.imp here).append ((others.imp later).regard fun _ _ => ⟨values, rfl⟩)⟩
      · obtain ⟨others⟩ := forms_course reenter rest between direct' _ _ stopped
        exact ⟨(course.imp here).append (others.imp later)⟩
    · obtain ⟨course⟩ := form_courses reenter first machine direct _ _ stopped
      exact ⟨(course.imp here).stop (Form.listsAll rest)⟩

end

end Eval

/-! ### Sources -/

/-- With operations that do not call back, a source that has a tree invokes operations for the lists
of the tree, each after those inside of it and from left to right: for all of them if it has a value,
and otherwise for the first ones, of which at most the last has given none. The journal shows these
operations with their arguments, and no other. If there is a value, its trace has two lines for each
list in that order; and without a journal the outcome is the same. -/
theorem evaluate_in_order (machine : Machine σ) (direct : machine.registry.Direct) (text : String)
    (root : Node) (parsed : parse text.toList = .ok root) :
    ∃ form, root.form? text.toList = some form ∧
    ∃ course : Eval.Course form.lists
        (Eval.Invoked (Eval.sourceWithin (Eval.nestingDepth - 1)) { machine with stack := [] } form)
        machine.journal (machine.evaluate text).2.journal (machine.evaluate text).1,
      (machine.evaluate text).2.journal = machine.journal ++ course.events ∧
      course.events.filterMap Event.handed? = course.invocations.map Eval.Invocation.handed ∧
      course.invocations.map (·.call.form) <+: form.lists ∧ course.last.length ≤ 1 ∧
      (∀ value, (machine.evaluate text).1 = .ok value →
        course.invocations.map (·.call.form) = form.lists ∧
        Event.traceText course.events =
          String.join (course.invocations.flatMap Eval.Invocation.lines)) ∧
      (Silent.source text).run machine = ((machine.evaluate text).1,
        { (machine.evaluate text).2 with journal := machine.journal }) := by
  obtain ⟨form, formed, -⟩ := parse_form text.toList root parsed
  refine ⟨form, formed, ?_⟩
  -- The silent run is compared with the noted one as a whole, failures included.
  have silent := Silent.source_run machine text
  cases ran : machine.evaluate text with
  | mk outcome after =>
    obtain ⟨course⟩ := Eval.form_courses _ form { machine with stack := [] } direct outcome after
      ((machine.evaluate_of_form parsed formed).symm.trans ran)
    refine ⟨course, course.written, course.handed, course.order, course.ending.length_le, ?_, ?_⟩
    · intro value same
      refine ⟨course.all same, ?_⟩
      rw [Event.traceText, course.traced same]
    · rw [silent, ran]

/-- A machine with one operation, which gives the number of its arguments. -/
def measuring : Machine Unit :=
  .fresh (Registry.empty.register "f" (.variadic none none fun args => .give (.int args.length))) ()

theorem measuring_direct : measuring.registry.Direct := by
  intro overloads member operation inside
  cases List.mem_singleton.mp member
  cases List.mem_singleton.mp inside
  intro args
  trivial

/-- Of three calls, one in each of the two arguments of the third, the third comes last. -/
theorem evaluate_in_order_measuring : measuring.registry.Direct ∧ ∃ after,
    measuring.evaluate "(f (f 1) (f))" = (.ok (.int 2), after) ∧
    ∃ invocations : List (Eval.Invocation Unit),
      invocations.map (·.call.form) = [.list 3 [.symbol 4 ['f'], .symbol 6 ['1']],
        .list 9 [.symbol 10 ['f']],
        .list 0 [.symbol 1 ['f'], .list 3 [.symbol 4 ['f'], .symbol 6 ['1']],
          .list 9 [.symbol 10 ['f']]]] ∧
      after.journal.filterMap Event.handed? = invocations.map Eval.Invocation.handed ∧
      Event.traceText after.journal = String.join (invocations.flatMap Eval.Invocation.lines) := by
  have parsed : parse "(f (f 1) (f))".toList = .ok (.list (some 0) [.symbol ⟨1, 1⟩,
      .list (some 3) [.symbol ⟨4, 1⟩, .symbol ⟨6, 1⟩], .list (some 9) [.symbol ⟨10, 1⟩]]) := rfl
  -- No source is evaluated from within, so it does not matter how one would be.
  have ends (reenter : String → Eval Unit Value) : ∃ after,
      (Eval.node reenter "(f (f 1) (f))".toList (.list (some 0) [.symbol ⟨1, 1⟩,
        .list (some 3) [.symbol ⟨4, 1⟩, .symbol ⟨6, 1⟩], .list (some 9) [.symbol ⟨10, 1⟩]])).run
          measuring = (.ok (.int 2), after) := ⟨_, rfl⟩
  obtain ⟨after, given⟩ := ends (Eval.sourceWithin (Eval.nestingDepth - 1))
  have ran := (measuring.evaluate_of_parse parsed).trans given
  obtain ⟨form, formed, course, written, handed, -, -, each, -⟩ :=
    evaluate_in_order measuring measuring_direct _ _ parsed
  cases formed
  obtain ⟨all, traced⟩ := each _ (congrArg Prod.fst ran)
  -- The machine is fresh, so its journal holds nothing else.
  have shown : after.journal = course.events :=
    (congrArg (fun result => result.2.journal) ran).symm.trans written
  refine ⟨measuring_direct, after, ran, course.invocations, all, ?_, ?_⟩
  · rw [shown, handed]
  · rw [shown, traced]

end HostLisp
