import HostLisp.Host.Ledger
import HostLisp.Proofs.SettledCalls

/-!
# Operations that evaluate

A call whose operation evaluates a source forgets the calls that it is made for. These find no frame
when they are to be concluded, so only the outermost call can evaluate a source and have a value.

## Main results

`Eval.Reentry.enclosing_fails`: a call that evaluates a source leaves the call that it is an argument
of to fail.

`evaluate_reentered`: so it leaves the whole source to fail, unless it is the outermost call.

## Proof strategy

After such a call no call is in progress, and the arguments that follow bring none back.
-/

namespace HostLisp

variable {σ : Type}

namespace Eval

variable {reenter : String → Eval σ Value}

/-! ### Calls that evaluate -/

/-- In the evaluation of a form, a call that is an argument of another performs an action that
evaluates a source and has a value. -/
structure Reentry (reenter : String → Eval σ Value) (start : Machine σ) (form : Form Int) where
  /-- The call that it is an argument of, and the machine that this is evaluated on. -/
  enclosing : Form.Call
  machine : Machine σ
  reached : Reaches reenter start form machine enclosing.form
  known : Overloads σ
  found : machine.registry.lookup enclosing.symbol = some known
  /-- The arguments before it, which have values, and those after it. -/
  before : List (Form Int)
  values : List Value
  between : Machine σ
  evaluated : (forms reenter before).run (machine.entering enclosing) = (.ok values, between)
  call : Form.Call
  rest : List (Form Int)
  split : enclosing.arguments = before ++ call.form :: rest
  /-- What the call performs, and a source that is evaluated by it. -/
  action : Action σ
  entered : Machine σ
  invoked : Invokes reenter between call action entered
  last : Machine σ
  source : String
  asked : Asks reenter entered action last source
  value : Value
  left : Machine σ
  returned : (perform reenter action).run entered = (.ok value, left)

namespace Reentry

variable {start : Machine σ} {item : Form Int}

/-- What the enclosing call fails with, given what becomes of its remaining arguments: with theirs, or
because it finds no frame to note its arguments in. -/
def fault : Except Fault (List Value) → Fault
  | .ok _ => .listIndex
  | .error fault => fault

/-- After the call no call is in progress. -/
theorem call_empties (reentry : Reentry reenter start item) (clean : Clean reenter start item) :
    ∃ later, (form reenter reentry.call.form).run reentry.between = (.ok reentry.value, later) ∧
      later.stack = [] := by
  have here : Clean reenter reentry.between reentry.call.form :=
    (clean.reached reentry.reached).arguments reentry.found reentry.before reentry.call.form
      reentry.rest reentry.values reentry.between reentry.split reentry.evaluated
  -- The nested evaluation empties the stack, and nothing after it in the action puts a frame back.
  have settles := perform_settles reentry.action reentry.entered (here.acts reentry.invoked) _ _
    reentry.returned
  obtain ⟨journal, ran⟩ := reentry.invoked.run_ok reentry.returned
  refine ⟨_, ran, ?_⟩
  exact congrArg List.tail (settles.emptied _ _ reentry.asked)

/-- So the enclosing call fails, though its remaining arguments are evaluated before that. -/
theorem enclosing_fails (reentry : Reentry reenter start item) (clean : Clean reenter start item) :
    ∃ later outcome after,
      (form reenter reentry.call.form).run reentry.between = (.ok reentry.value, later) ∧
      later.stack = [] ∧ (forms reenter reentry.rest).run later = (outcome, after) ∧
      (form reenter reentry.enclosing.form).run reentry.machine = (.error (fault outcome), after) ∧
      ∀ values, outcome = .ok values → after.stack = [] := by
  obtain ⟨later, called, empty⟩ := reentry.call_empties clean
  -- With its value the call joins the arguments before it.
  have evaluated : (forms reenter (reentry.before ++ [reentry.call.form])).run
      (reentry.machine.entering reentry.enclosing) =
        (.ok (reentry.values ++ [reentry.value]), later) := by
    rw [forms_append_run reentry.evaluated, run_bind_ok (forms_singleton_run called)]
    rfl
  have split : reentry.enclosing.arguments =
      reentry.before ++ [reentry.call.form] ++ reentry.rest := by
    simp [reentry.split]
  have clean' : CleanAll reenter later reentry.rest := by
    have all := (clean.reached reentry.reached).arguments reentry.found
    rw [split] at all
    exact all.later evaluated
  cases ran : (forms reenter reentry.rest).run later with
  | mk outcome after =>
    refine ⟨later, outcome, after, called, empty, ran, ?_⟩
    rw [form_run_call reentry.found, split]
    -- The enclosing call looks for its frame only after its last argument.
    cases outcome with
    | error fault =>
      refine ⟨run_bind_error ?_, nofun⟩
      rw [forms_append_run evaluated]
      exact run_bind_error ran
    | ok more =>
      have none := (forms_settle reentry.rest later clean' more after ran).empty empty
      refine ⟨?_, fun _ _ => none⟩
      -- All arguments have values, but the frame that they would be noted in is gone.
      have all : (forms reenter (reentry.before ++ [reentry.call.form] ++ reentry.rest)).run
          (reentry.machine.entering reentry.enclosing) =
            (.ok (reentry.values ++ [reentry.value] ++ more), after) := by
        rw [forms_append_run evaluated, run_bind_ok ran]
        rfl
      rw [run_bind_ok all, conclude]
      exact run_bind_error (setArguments_run_nil _ none)

end Reentry

variable {depth : Nat} {machine : Machine σ} {text : String} {root : Node} {item : Form Int}

/-- A source fails with the call that encloses one of its calls that evaluate. -/
theorem Reentry.source_fails (reentry : Reentry (sourceWithin depth) { machine with stack := [] } item)
    (parsed : parse text.toList = .ok root) (formed : root.form? text.toList = some item)
    {fault : Fault} {after : Machine σ}
    (failed : (form (sourceWithin depth) reentry.enclosing.form).run reentry.machine =
      (.error fault, after)) :
    (sourceWithin (depth + 1) text).run machine = (.error fault, after) := by
  rw [sourceWithin_form parsed formed]
  exact reentry.reached.fails failed

/-- A source ends as the action that its outermost call performs. -/
theorem Invokes.source_ends {call : Form.Call} {action : Action σ} {entered : Machine σ}
    (invokes : Invokes (sourceWithin depth) { machine with stack := [] } call action entered)
    (parsed : parse text.toList = .ok root) (formed : root.form? text.toList = some call.form) :
    ∃ outcome left after, (perform (sourceWithin depth) action).run entered = (outcome, left) ∧
      (sourceWithin (depth + 1) text).run machine = (outcome, after) := by
  rw [sourceWithin_form parsed formed]
  cases performed : (perform (sourceWithin depth) action).run entered with
  | mk outcome left =>
    cases outcome with
    | error fault => exact ⟨.error fault, left, left, rfl, invokes.run_error performed⟩
    | ok value =>
      obtain ⟨journal, ran⟩ := invokes.run_ok performed
      exact ⟨.ok value, left, _, rfl, ran⟩

end Eval

/-- Let all sources that are evaluated within a source have values, however deep they are nested. A
call that is an argument and evaluates one of them leaves the call that it is an argument of to fail,
with one of the remaining arguments or else because it finds no call in progress, and so the whole
source. A source whose outermost call performs an action ends as this does. Wherever there is a value,
no call is in progress after it. -/
theorem evaluate_reentered (depth : Nat) (machine : Machine σ) (text : String)
    (flawless : Eval.Flawless (depth + 1) machine text) (root : Node) (item : Form Int)
    (parsed : parse text.toList = .ok root) (formed : root.form? text.toList = some item) :
    (∀ reentry : Eval.Reentry (Eval.sourceWithin depth) { machine with stack := [] } item,
      ∃ later outcome after,
        (Eval.form (Eval.sourceWithin depth) reentry.call.form).run reentry.between =
          (.ok reentry.value, later) ∧ later.stack = [] ∧
        (Eval.forms (Eval.sourceWithin depth) reentry.rest).run later = (outcome, after) ∧
        (Eval.form (Eval.sourceWithin depth) reentry.enclosing.form).run reentry.machine =
          (.error (Eval.Reentry.fault outcome), after) ∧
        (∀ values, outcome = .ok values → after.stack = []) ∧
        (Eval.sourceWithin (depth + 1) text).run machine =
          (.error (Eval.Reentry.fault outcome), after)) ∧
    (∀ (call : Form.Call) (action : Action σ) (entered : Machine σ), item = call.form →
      Eval.Invokes (Eval.sourceWithin depth) { machine with stack := [] } call action entered →
      ∃ outcome left after,
        (Eval.perform (Eval.sourceWithin depth) action).run entered = (outcome, left) ∧
        (Eval.sourceWithin (depth + 1) text).run machine = (outcome, after) ∧
        ∀ value, outcome = .ok value → after.stack = []) ∧
    ∀ depth' last source, Eval.Within (depth + 1) machine text depth' last source →
      ∃ value after, (Eval.sourceWithin depth' source).run last = (.ok value, after) ∧
        after.stack = [] := by
  -- Re-entry below the root, re-entry by the root call, and the evaluations within.
  refine ⟨fun reentry => ?_, ?_, ?_⟩
  · obtain ⟨later, outcome, after, called, empty, ran, failed, none⟩ :=
      reentry.enclosing_fails (flawless.clean parsed formed)
    exact ⟨later, outcome, after, called, empty, ran, failed, none,
      reentry.source_fails parsed formed failed⟩
  · rintro call action entered rfl invokes
    obtain ⟨outcome, left, after, performed, ran⟩ := invokes.source_ends parsed formed
    refine ⟨outcome, left, after, performed, ran, ?_⟩
    rintro value rfl
    exact Eval.sourceWithin_settles (depth + 1) machine text flawless value after ran
  · intro depth' last source within
    obtain ⟨value, after, ran⟩ := flawless depth' last source within
    exact ⟨value, after, ran,
      Eval.sourceWithin_settles depth' last source (flawless.inner within) value after ran⟩

/-- A machine with one operation, which evaluates a source and gives its value. -/
def answering : Machine Ledger :=
  .fresh (Registry.empty.register "f" (.variadic none none (Ledger.evaluate (some "true")))) .empty

namespace Eval

private theorem true_formed : parse "true".toList = .ok (.symbol ⟨0, 4⟩) ∧
    Node.form? "true".toList (.symbol ⟨0, 4⟩) = some (.symbol 0 "true".toList) := ⟨rfl, rfl⟩

private theorem succeeds_true (depth : Nat) (machine : Machine Ledger) :
    (sourceWithin (depth + 1) "true").run machine = (.ok (.bool true), { machine with stack := [] }) :=
  sourceWithin_form true_formed.1 true_formed.2

/-- A symbol calls nothing, and so evaluates nothing within. -/
private theorem not_within_true {depth depth' : Nat} {machine last : Machine Ledger}
    {text source : String} (within : Within depth machine text depth' last source) : text ≠ "true" := by
  induction within with
  | direct parsed formed asked =>
    rintro rfl
    obtain ⟨here, call, action, entered, reaches, -⟩ := asked
    -- The source is an atom, which calls nothing.
    cases true_formed.1.symm.trans parsed
    cases true_formed.2.symm.trans formed
    generalize same : call.form = point at reaches
    cases reaches with
    | here machine form => cases same
  | nested outer inner ih ih' => exact ih

private theorem flawless_of_asked {depth : Nat} {machine : Machine Ledger} {text : String}
    {root : Node} {item : Form Int} (parsed : parse text.toList = .ok root)
    (formed : root.form? text.toList = some item)
    (each : ∀ last source,
      Asked (sourceWithin (depth + 1)) { machine with stack := [] } item last source →
        source = "true") : Flawless (depth + 2) machine text := by
  have inside : ∀ {depth' depth'' machine' text' last source},
      Within depth' machine' text' depth'' last source → depth' = depth + 2 → machine' = machine →
        text' = text → depth'' = depth + 1 ∧ source = "true" := by
    intro depth' depth'' machine' text' last source within
    -- What is evaluated directly is that one source, and nothing is evaluated within it.
    induction within with
    | direct parsed' formed' asked =>
      rintro ⟨⟩ rfl rfl
      cases parsed.symm.trans parsed'
      cases formed.symm.trans formed'
      exact ⟨rfl, each _ _ asked⟩
    | nested outer inner ih ih' =>
      intro high same whole
      exact absurd (ih high same whole).2 (not_within_true inner)
  intro depth' last source within
  obtain ⟨rfl, rfl⟩ := inside within rfl rfl rfl
  exact ⟨_, _, succeeds_true depth last⟩

private def innermost (mark head : Int) : Form.Call := ⟨mark, head, ['f'], []⟩

private theorem call_runs (depth : Nat) (mark head : Int) (machine : Machine Ledger)
    (registered : machine.registry = answering.registry) : ∃ after,
    (form (sourceWithin (depth + 1)) (innermost mark head).form).run machine =
      (.ok (.bool true), after) ∧ after.stack = [] ∧ after.registry = answering.registry := by
  obtain ⟨registry, stack, state, journal⟩ := machine
  cases registered
  exact ⟨_, rfl, rfl, rfl⟩

variable {reenter : String → Eval Ledger Value} {machine last : Machine Ledger} {source : String}

private theorem asked_innermost {mark head : Int} (registered : machine.registry = answering.registry)
    (asked : Asked reenter machine (innermost mark head).form last source) : source = "true" := by
  obtain ⟨registry, stack, state, journal⟩ := machine
  cases registered
  obtain ⟨here, call, action, entered, reaches, invokes, asks⟩ := asked
  generalize whole : (innermost mark head).form = item at reaches
  generalize inner : call.form = point at reaches
  cases reaches with
  | here =>
    obtain rfl := Form.Call.form_inj (whole.trans inner.symm)
    cases invokes with
    | intro found evaluated noted chosen =>
      cases evaluated
      obtain ⟨frame, outer, -, rfl⟩ := setArguments_ok noted
      cases chosen
      have asks' : Asks reenter _ (.evaluate "true" .done) last source := asks
      cases asks' with
      | now => rfl
      | later answered rest => cases rest
  | argument found split evaluated inside =>
    obtain rfl := Form.Call.form_inj whole
    exact absurd split (by simp [innermost])

private def outermost : Form.Call := ⟨0, 1, ['f'], [(innermost 3 4).form]⟩

private theorem asked_outermost (depth : Nat)
    (asked : Asked (sourceWithin (depth + 1)) answering outermost.form last source) :
    source = "true" := by
  obtain ⟨here, call, action, entered, reaches, invokes, asks⟩ := asked
  generalize whole : outermost.form = item at reaches
  generalize inner : call.form = point at reaches
  cases reaches with
  | here =>
    -- The inner call leaves no frame, so the outer one performs nothing.
    obtain rfl := Form.Call.form_inj (whole.trans inner.symm)
    cases invokes with
    | intro found evaluated noted chosen =>
      obtain ⟨after, ran, empty, -⟩ := call_runs depth 3 4 (answering.entering outermost) rfl
      cases evaluated.symm.trans (forms_singleton_run ran)
      rw [setArguments_run_nil _ empty] at noted
      cases noted
  | @argument _ between _ call' known before rest item _ values found split evaluated inside =>
    obtain rfl := Form.Call.form_inj whole
    cases before with
    | nil =>
      cases split
      cases evaluated
      subst inner
      have registered : (answering.entering outermost).registry = answering.registry := rfl
      exact asked_innermost registered ⟨here, call, action, entered, inside, invokes, asks⟩
    | cons first others =>
      -- The outer call has one argument only, so none stands before the inner call.
      have long := congrArg List.length split
      simp [outermost] at long

private theorem innermost_invokes (reenter : String → Eval Ledger Value)
    (machine : Machine Ledger) (mark head : Int)
    (registered : machine.registry = answering.registry) : ∃ entered,
    Invokes reenter machine (innermost mark head) (.evaluate "true" .done) entered := by
  obtain ⟨registry, stack, state, journal⟩ := machine
  cases registered
  let operation : Operation Ledger := .variadic none none (Ledger.evaluate (some "true"))
  have found : answering.registry.lookup "f" = some ⟨"f", [operation]⟩ := rfl
  have invokes : Invokes reenter ⟨answering.registry, stack, state, journal⟩ (innermost mark head)
      (operation.run []) _ := .intro found rfl rfl rfl
  exact ⟨_, invokes⟩

private theorem exists_reentry (depth : Nat) :
    ∃ reentry : Reentry (sourceWithin (depth + 1)) answering outermost.form, reentry.rest = [] := by
  obtain ⟨entered, invoked⟩ :=
    innermost_invokes (sourceWithin (depth + 1)) (answering.entering outermost) 3 4 rfl
  refine ⟨{
    enclosing := outermost
    machine := answering
    reached := .here _ _
    known := ⟨"f", [.variadic none none (Ledger.evaluate (some "true"))]⟩
    found := rfl
    before := []
    values := []
    between := answering.entering outermost
    evaluated := rfl
    call := innermost 3 4
    rest := []
    split := rfl
    action := .evaluate "true" .done
    entered := entered
    invoked := invoked
    last := entered
    source := "true"
    asked := .now _ _ _
    value := .bool true
    left := { entered with stack := [] }
    returned := perform_evaluate_run (succeeds_true depth entered) }, rfl⟩

end Eval

/-- The same call has a value as the outermost, and leaves none to the call that it is an argument
of. -/
theorem evaluate_reentered_answering :
    Eval.Flawless Eval.nestingDepth answering "(f (f))" ∧
    Eval.Flawless Eval.nestingDepth answering "(f)" ∧
    (∃ after, answering.evaluate "(f (f))" = (.error .listIndex, after)) ∧
    ∃ after, answering.evaluate "(f)" = (.ok (.bool true), after) ∧ after.stack = [] := by
  have parsed : parse "(f (f))".toList =
      .ok (.list (some 0) [.symbol ⟨1, 1⟩, .list (some 3) [.symbol ⟨4, 1⟩]]) := rfl
  have formed : Node.form? "(f (f))".toList (.list (some 0) [.symbol ⟨1, 1⟩,
      .list (some 3) [.symbol ⟨4, 1⟩]]) = some Eval.outermost.form := rfl
  have parsed' : parse "(f)".toList = .ok (.list (some 0) [.symbol ⟨1, 1⟩]) := rfl
  have formed' : Node.form? "(f)".toList (.list (some 0) [.symbol ⟨1, 1⟩]) =
      some (Eval.innermost 0 1).form := rfl
  have flawless : Eval.Flawless Eval.nestingDepth answering "(f (f))" :=
    Eval.flawless_of_asked parsed formed fun _ _ => Eval.asked_outermost (Eval.nestingDepth - 2)
  have flawless' : Eval.Flawless Eval.nestingDepth answering "(f)" :=
    Eval.flawless_of_asked parsed' formed' fun _ _ => Eval.asked_innermost rfl
  refine ⟨flawless, flawless', ?_, ?_⟩
  · obtain ⟨reentry, last⟩ := Eval.exists_reentry (Eval.nestingDepth - 2)
    obtain ⟨later, outcome, after, -, -, ran, -, -, whole⟩ :=
      (evaluate_reentered (Eval.nestingDepth - 1) answering "(f (f))" flawless _ _ parsed formed).1
        reentry
    rw [last] at ran
    cases ran
    exact ⟨_, whole⟩
  · obtain ⟨entered, invokes⟩ :=
      Eval.innermost_invokes (Eval.sourceWithin (Eval.nestingDepth - 1)) answering 0 1 rfl
    obtain ⟨outcome, left, after, performed, whole, none⟩ :=
      (evaluate_reentered (Eval.nestingDepth - 1) answering "(f)" flawless' _ _ parsed' formed').2.1
        _ _ entered rfl invokes
    -- What the call performs is the nested evaluation, whose value it answers.
    have given : (Eval.perform (Eval.sourceWithin (Eval.nestingDepth - 1))
        (.evaluate "true" .done)).run entered = (.ok (.bool true), { entered with stack := [] }) :=
      Eval.perform_evaluate_run (Eval.succeeds_true (Eval.nestingDepth - 2) entered)
    cases given.symm.trans performed
    exact ⟨after, whole, none _ rfl⟩

end HostLisp
