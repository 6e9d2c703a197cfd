import HostLisp.Proofs.LentArguments
import HostLisp.Proofs.Placement

/-!
# The path to a failure

The calls in progress that a failure leaves are the lists on the way from the form that was evaluated
to the place where the failure arose.

## Main result

`evaluate_leaves_path`: no call is in progress after a value or when the source has no tree, and
after any other failure the path to it.

## Proof strategy

`Eval.Stops` says how an evaluation comes to fail. The induction is on the form: each argument that
has a value leaves the calls in progress that there were.
-/

namespace HostLisp

variable {σ : Type}

/-! ### Paths -/

/-- A list whose head is a symbol. -/
structure Form.Call where
  mark : Int
  head : Int
  name : List Char
  arguments : List (Form Int)

namespace Form.Call

def form (call : Call) : Form Int := .list call.mark (.symbol call.head call.name :: call.arguments)

def symbol (call : Call) : String := String.ofList call.name

def frame (call : Call) (args : List Value) : Frame := ⟨call.symbol, args, some call.mark⟩

end Form.Call

namespace Form

/-- The calls on the way from a form to a form inside of it, the outermost first. -/
inductive Path : Form Int → List Call → Form Int → Prop
  | here (form : Form Int) : Path form [] form
  | inside (call : Call) {argument point : Form Int} {outer : List Call}
      (member : argument ∈ call.arguments) (path : Path argument outer point) :
      Path call.form (call :: outer) point

/-- The arguments of a call stand in the source, behind its parenthesis. -/
private theorem InPlace.arguments {source : List Char} {call : Call} {whole : Form Int}
    (placed : whole.InPlace source) (same : whole = call.form) :
    ∀ argument ∈ call.arguments, argument.InPlace source ∧ call.mark < argument.mark := by
  cases placed with
  | symbol before text after split filled => cases same
  | empty before after split => cases same
  | string before body after split => cases same
  | list before after items split later each =>
    obtain ⟨mark, head, name, arguments⟩ := call
    cases same
    intro argument member
    exact ⟨each argument (.tail _ member), later argument (.tail _ member)⟩

/-- The calls on a path stand in the source in the order of the path, each at its own parenthesis
and before the form that the path leads to. -/
structure Path.Ordered (source : List Char) (form : Form Int) (outer : List Call) (point : Form Int) :
    Prop where
  reached : point.InPlace source
  forward : form.mark ≤ point.mark
  calls : ∀ call ∈ outer, call.form.InPlace source ∧ form.mark ≤ call.mark ∧ call.mark < point.mark
  increasing : outer.Pairwise fun call inner => call.mark < inner.mark

/-- A path goes forward in the source. -/
theorem Path.ordered {source : List Char} {form point : Form Int} {outer : List Call}
    (path : Path form outer point) (placed : form.InPlace source) :
    Path.Ordered source form outer point := by
  induction path with
  | here form => exact ⟨placed, Int.le_refl _, by simp, .nil⟩
  | inside call member path ih =>
    -- An argument stands after the parenthesis of its call, and so does all that is inside of it.
    obtain ⟨inside, after⟩ := placed.arguments rfl _ member
    have rest := ih inside
    refine ⟨rest.reached, ?_, ?_, ?_⟩
    · exact Int.le_of_lt (Int.lt_of_lt_of_le after rest.forward)
    · have first := Int.lt_of_lt_of_le after rest.forward
      refine List.forall_mem_cons.mpr ⟨⟨placed, Int.le_refl _, first⟩, ?_⟩
      intro inner among
      obtain ⟨placed', later, before⟩ := rest.calls inner among
      exact ⟨placed', Int.le_trans (Int.le_of_lt after) later, before⟩
    · refine List.pairwise_cons.mpr ⟨?_, rest.increasing⟩
      intro inner among
      exact Int.lt_of_lt_of_le after (rest.calls inner among).2.1

/-- The form that a path leads to is an argument of the innermost call on it. -/
theorem Path.encloses {form point : Form Int} {outer : List Call} (path : Path form outer point)
    {call : Call} (last : outer.getLast? = some call) : point ∈ call.arguments := by
  induction path with
  | here form => cases last
  | @inside first argument point outer member path ih =>
    cases outer with
    | nil =>
      cases path
      cases last
      exact member
    | cons next rest =>
      rw [List.getLast?_cons_cons] at last
      exact ih last

end Form

/-! ### Failures -/

/-- The machine on which the arguments of a call are evaluated. -/
def Machine.entering (machine : Machine σ) (call : Form.Call) : Machine σ :=
  { machine with stack := call.frame [] :: machine.stack }

namespace Eval

/-- What an evaluation stops at. -/
inductive Stop
  /-- A form that is no call of a known symbol. -/
  | refused (form : Form Int)
  /-- A call whose arguments no operation takes. -/
  | unapplied (call : Form.Call) (args : List Value)
  /-- An operation, called with these arguments. -/
  | raised (call : Form.Call) (args : List Value)

namespace Stop

def point : Stop → Form Int
  | .refused form => form
  | .unapplied call _ | .raised call _ => call.form

def call? : Stop → Option Form.Call
  | .refused _ => none
  | .unapplied call _ | .raised call _ => some call

def frame? : Stop → Option Frame
  | .refused _ => none
  | .unapplied call args | .raised call args => some (call.frame args)

/-- The calls in progress at the end of a path, the outermost first. -/
def frames (outer : List Form.Call) (stop : Stop) : List Frame :=
  outer.map (·.frame []) ++ stop.frame?.toList

end Stop

/-- The evaluation of a form fails with a fault and leaves a machine. The path goes through calls of
known symbols in whose arguments the failure arose, after the arguments before had values. -/
inductive Stops (reenter : String → Eval σ Value) :
    Machine σ → Form Int → List Form.Call → Stop → Fault → Machine σ → Prop
  | symbol {machine : Machine σ} {mark : Int} {text : List Char} {fault : Fault}
      (invalid : Atom.ofText text mark = .error fault) :
      Stops reenter machine (.symbol mark text) [] (.refused (.symbol mark text)) fault machine
  | empty (machine : Machine σ) (mark : Int) :
      Stops reenter machine (.list mark []) [] (.refused (.list mark []))
        (.evaluation .emptyList (some mark)) machine
  | head (machine : Machine σ) (mark : Int) {first : Form Int} (rest : List (Form Int))
      (other : ∀ head name, first ≠ .symbol head name) :
      Stops reenter machine (.list mark (first :: rest)) [] (.refused (.list mark (first :: rest)))
        (.evaluation .headNotSymbol (some mark)) machine
  | unknown {machine : Machine σ} {call : Form.Call}
      (absent : machine.registry.lookup call.symbol = none) :
      Stops reenter machine call.form [] (.refused call.form)
        (.evaluation (.unknownFunction call.symbol) (some call.head)) machine
  | argument {machine between after : Machine σ} {call : Form.Call} {known : Overloads σ}
      {before rest : List (Form Int)} {argument : Form Int} {values : List Value}
      {outer : List Form.Call} {stop : Stop} {fault : Fault}
      (found : machine.registry.lookup call.symbol = some known)
      (split : call.arguments = before ++ argument :: rest)
      (evaluated : (forms reenter before).run (machine.entering call) = (.ok values, between))
      (stops : Stops reenter between argument outer stop fault after) :
      Stops reenter machine call.form (call :: outer) stop fault after
  | unapplied {machine between : Machine σ} {call : Form.Call} {known : Overloads σ}
      {args : List Value} (found : machine.registry.lookup call.symbol = some known)
      (evaluated : (forms reenter call.arguments).run (machine.entering call) = (.ok args, between))
      (chosen : ((between.registry.lookup call.symbol).getD known).choose? args = none) :
      Stops reenter machine call.form [] (.unapplied call args)
        (.evaluation (.notApplicable call.symbol (args.map Value.kind)) (some call.head))
        { between with
          stack := call.frame args :: machine.stack
          journal := between.journal ++ [.call call.symbol args.length
            ((between.registry.lookup call.symbol).getD known).operations.length] }
  | raised {machine between after : Machine σ} {call : Form.Call} {known : Overloads σ}
      {args : List Value} {place : Nat} {operation : Operation σ} {fault : Fault}
      (found : machine.registry.lookup call.symbol = some known)
      (evaluated : (forms reenter call.arguments).run (machine.entering call) = (.ok args, between))
      (chosen : ((between.registry.lookup call.symbol).getD known).choose? args =
        some (place, operation))
      (failed : (perform reenter (operation.run args)).run { between with
          stack := call.frame args :: machine.stack
          journal := between.journal ++ [.call call.symbol args.length
            ((between.registry.lookup call.symbol).getD known).operations.length] ++
            [.entered call.symbol place args] } = (.error fault, after)) :
      Stops reenter machine call.form [] (.raised call args) fault after

variable {reenter : String → Eval σ Value} {machine between after : Machine σ}

/-- Where an evaluation stops, a path leads to. -/
theorem Stops.path {form : Form Int} {outer : List Form.Call} {stop : Stop} {fault : Fault}
    (stops : Stops reenter machine form outer stop fault after) : form.Path outer stop.point := by
  induction stops with
  | argument found split evaluated stops ih =>
    exact .inside _ (by simp [split]) ih
  | symbol invalid => exact .here _
  | empty machine mark => exact .here _
  | head machine mark rest other => exact .here _
  | unknown absent => exact .here _
  | unapplied found evaluated chosen => exact .here _
  | raised found evaluated chosen failed => exact .here _

/-- A call fails because no operation takes the arguments, or because the one that does fails. -/
private theorem call_fails {overloads : Overloads σ} {args : List Value} {position : Option Int}
    {fault : Fault}
    (ran : (call reenter overloads args position).run machine = (.error fault, after)) :
    (overloads.choose? args = none ∧
      fault = .evaluation (.notApplicable overloads.name (args.map Value.kind)) position ∧
      after = { machine with journal := machine.journal ++
        [.call overloads.name args.length overloads.operations.length] }) ∨
    ∃ place operation, overloads.choose? args = some (place, operation) ∧
      (perform reenter (operation.run args)).run { machine with
        journal := machine.journal ++ [.call overloads.name args.length overloads.operations.length]
          ++ [.entered overloads.name place args] } = (.error fault, after) := by
  cases chosen : overloads.choose? args with
  | none =>
    rw [call_run_none chosen] at ran
    cases ran
    exact Or.inl ⟨rfl, rfl, rfl⟩
  | some found =>
    obtain ⟨place, operation⟩ := found
    rw [call_run chosen] at ran
    -- The operation is entered, and what is left to say is whether it gives a value.
    rcases run_bind_cases ran with ⟨value, between, performed, ended⟩ | ⟨_, failed, same⟩
    · -- With a value only a line of the journal is left to be written.
      cases ended
    · cases same
      exact Or.inr ⟨place, operation, rfl, failed⟩

/-- What is left after a form: the calls that were in progress, and with a fault the path to it. -/
def Leaves (reenter : String → Eval σ Value) (machine : Machine σ) (form : Form Int)
    (after : Machine σ) : Except Fault Value → Prop
  | .ok _ => after.stack = machine.stack
  | .error fault => ∃ outer stop, Stops reenter machine form outer stop fault after ∧
      after.stack = (stop.frames outer).reverse ++ machine.stack

def LeavesAll (reenter : String → Eval σ Value) (machine : Machine σ) (items : List (Form Int))
    (after : Machine σ) : Except Fault (List Value) → Prop
  | .ok _ => after.stack = machine.stack
  | .error fault => ∃ before item rest values between outer stop,
      items = before ++ item :: rest ∧
      (forms reenter before).run machine = (.ok values, between) ∧
      Stops reenter between item outer stop fault after ∧
      after.stack = (stop.frames outer).reverse ++ machine.stack

/-- A call whose arguments are known leaves nothing if it has a value, and its own frame if it
fails. -/
private theorem conclude_leaves {call : Form.Call} {known : Overloads σ}
    (found : machine.registry.lookup call.symbol = some known) (direct : machine.registry.Direct)
    {args : List Value}
    (evaluated : (forms reenter call.arguments).run (machine.entering call) = (.ok args, between))
    (kept : between.stack = (machine.entering call).stack) (direct' : between.registry.Direct)
    {outcome : Except Fault Value}
    (ran : (conclude reenter call.symbol known (some call.head) args).run between =
      (outcome, after)) :
    after.registry.Direct ∧ Leaves reenter machine call.form after outcome := by
  have named := Registry.name_of_lookup_getD between.registry found
  have steady := call_steady reenter (direct.lookup_getD direct' found) args (some call.head)
    { between with stack := call.frame args :: machine.stack } direct'
  rw [conclude_run args kept] at ran
  rcases run_bind_cases ran with ⟨value, called, ended, popped⟩ | ⟨fault, failed, rfl⟩
  · -- The frame on top is the one of the call, and it is the one that is taken away.
    obtain ⟨direct'', same⟩ := steady _ _ ended
    cases popped
    exact ⟨direct'', congrArg List.tail same⟩
  · -- A fault leaves the frame, which by now has all arguments.
    obtain ⟨direct'', same⟩ := steady _ _ failed
    refine ⟨direct'', ?_⟩
    rcases call_fails failed with ⟨chosen, rfl, rfl⟩ | ⟨place, operation, chosen, raised⟩
    · simp only [named]
      exact ⟨[], .unapplied call args, .unapplied found evaluated chosen, same⟩
    · simp only [named] at raised
      exact ⟨[], .raised call args, .raised found evaluated chosen raised, same⟩

mutual

/-- With operations that do not call back, a form leaves the path to its failure. -/
theorem form_leaves (reenter : String → Eval σ Value) : ∀ (form : Form Int) (machine : Machine σ),
    machine.registry.Direct → ∀ outcome after, (Eval.form reenter form).run machine = (outcome, after) →
      after.registry.Direct ∧ Leaves reenter machine form after outcome
  | .string mark body, machine, direct, _, _, ran => by
    cases ran
    exact ⟨direct, rfl⟩
  | .symbol mark text, machine, direct, _, _, ran => by
    rw [Eval.form] at ran
    cases spelled : Atom.ofText text mark with
    | ok value =>
      rw [spelled] at ran
      cases ran
      exact ⟨direct, rfl⟩
    | error fault =>
      rw [spelled] at ran
      cases ran
      exact ⟨direct, [], .refused (.symbol mark text), .symbol spelled, rfl⟩
  | .list mark [], machine, direct, _, _, ran => by
    cases ran
    exact ⟨direct, [], .refused (.list mark []), .empty machine mark, rfl⟩
  | .list mark (.string inside body :: rest), machine, direct, _, _, ran => by
    cases ran
    exact ⟨direct, [], .refused _, .head machine mark rest nofun, rfl⟩
  | .list mark (.list inside items :: rest), machine, direct, _, _, ran => by
    cases ran
    exact ⟨direct, [], .refused _, .head machine mark rest nofun, rfl⟩
  | .list mark (.symbol head name :: arguments), machine, direct, outcome, after, ran => by
    let call : Form.Call := ⟨mark, head, name, arguments⟩
    cases found : machine.registry.lookup call.symbol with
    | none =>
      rw [form_run_unknown found] at ran
      cases ran
      exact ⟨direct, [], .refused call.form, .unknown found, rfl⟩
    | some known =>
      rw [form_run_known found] at ran
      rcases run_bind_cases ran with ⟨args, between, evaluated, ended⟩ | ⟨fault, stopped, rfl⟩
      · obtain ⟨direct', kept⟩ :=
          forms_leave reenter arguments (machine.entering call) direct _ _ evaluated
        exact conclude_leaves found direct evaluated kept direct' ended
      · -- The failure is in an argument, so the call comes first on the path to it.
        obtain ⟨direct', before, item, rest, values, between, outer, stop, split, evaluated, stops,
          left⟩ := forms_leave reenter arguments (machine.entering call) direct _ _ stopped
        refine ⟨direct', call :: outer, stop, .argument found split evaluated stops, ?_⟩
        simpa [Machine.entering, Stop.frames] using left

/-- The same of the arguments of a call, which fail with the first that does. -/
theorem forms_leave (reenter : String → Eval σ Value) :
    ∀ (items : List (Form Int)) (machine : Machine σ), machine.registry.Direct →
      ∀ outcome after, (Eval.forms reenter items).run machine = (outcome, after) →
        after.registry.Direct ∧ LeavesAll reenter machine items after outcome
  | [], machine, direct, _, _, ran => by
    cases ran
    exact ⟨direct, rfl⟩
  | first :: rest, machine, direct, outcome, after, ran => by
    rw [forms] at ran
    rcases run_bind_cases ran with ⟨value, between, begun, ended⟩ | ⟨fault, stopped, rfl⟩
    · obtain ⟨direct', kept⟩ := form_leaves reenter first machine direct _ _ begun
      rcases run_bind_cases ended with ⟨values, last, others, done⟩ | ⟨fault, stopped, rfl⟩
      · obtain ⟨direct'', kept'⟩ := forms_leave reenter rest between direct' _ _ others
        cases done
        exact ⟨direct'', kept'.trans kept⟩
      · -- The first form has a value, so it joins those before the one that fails.
        obtain ⟨direct'', before, item, after', values, later, outer, stop, split, evaluated, stops,
          left⟩ := forms_leave reenter rest between direct' _ _ stopped
        refine ⟨direct'', first :: before, item, after', value :: values, later, outer, stop, ?_, ?_,
          stops, kept ▸ left⟩
        · rw [split, List.cons_append]
        · rw [forms, run_bind_ok begun, run_bind_ok evaluated]
          rfl
    · obtain ⟨direct', outer, stop, stops, left⟩ :=
        form_leaves reenter first machine direct _ _ stopped
      exact ⟨direct', [], first, rest, [], machine, outer, stop, rfl, rfl, stops, left⟩

end

/-- The calls in progress when an evaluation stops stand in the source one behind the other. -/
theorem Stops.calls {form : Form Int} {outer : List Form.Call} {stop : Stop} {fault : Fault}
    (stops : Stops reenter machine form outer stop fault after) {source : List Char}
    (placed : form.InPlace source) :
    (outer ++ stop.call?.toList).Pairwise (fun call inner => call.mark < inner.mark) ∧
      ∀ call ∈ outer ++ stop.call?.toList, call.form.InPlace source := by
  have ordered := stops.path.ordered placed
  -- The point of the path is a call of its own only if the failure arose in that call.
  cases called : stop.call? with
  | none =>
    simp only [Option.toList_none, List.append_nil]
    exact ⟨ordered.increasing, fun call member => (ordered.calls call member).1⟩
  | some call =>
    have same : stop.point = call.form := by
      cases stop <;> cases called <;> rfl
    have reached := ordered.reached
    -- What is known of the point then is known of the call.
    have before := ordered.calls
    rw [same] at reached before
    refine ⟨List.pairwise_append.mpr ⟨ordered.increasing, by simp, ?_⟩, ?_⟩
    · intro earlier member later last
      cases List.mem_singleton.mp last
      exact (before earlier member).2.2
    · intro other member
      rcases List.mem_append.mp member with inside | last
      · exact (before other inside).1
      · cases List.mem_singleton.mp last
        exact reached

end Eval

/-! ### Sources -/

/-- With operations that do not call back, no call is in progress after a value or when the source
has no tree. After any other failure the calls in progress are those on the path to it, with their
arguments noted only if they were called; a form stands where its frame says. This is so whatever
operations leave in the lists that they are handed. -/
theorem evaluate_leaves_path (machine : Machine σ) (direct : machine.registry.Direct) (text : String)
    (outcome : Except Fault Value) (after : Machine σ)
    (ran : machine.evaluate text = (outcome, after)) :
    (∀ value, outcome = .ok value → after.frames = []) ∧
    (∀ fault, parse text.toList = .error fault → outcome = .error fault ∧ after.frames = []) ∧
    ∀ root, parse text.toList = .ok root → ∃ form, root.form? text.toList = some form ∧
      (∀ fault, outcome = .error fault → ∃ outer stop,
        Eval.Stops (Eval.sourceWithin (Eval.nestingDepth - 1)) { machine with stack := [] } form outer
          stop fault after ∧
        form.Path outer stop.point ∧
        after.frames = outer.map (·.frame []) ++ stop.frame?.toList ∧
        (outer ++ stop.call?.toList).Pairwise (fun call inner => call.mark < inner.mark) ∧
        ∀ call ∈ outer ++ stop.call?.toList, call.form.InPlace text.toList) ∧
      ∀ leaves memory, ∃ store : Store σ,
        (Lent.form (Eval.sourceWithin (Eval.nestingDepth - 1)) leaves form).run
          ⟨machine.world, [], memory⟩ = (outcome, store) ∧ store.machine = after := by
  cases parsed : parse text.toList with
  | error fault =>
    rw [machine.evaluate_of_error parsed] at ran
    cases ran
    exact ⟨nofun, fun _ same => ⟨congrArg Except.error (Except.error.inj same), rfl⟩, nofun⟩
  | ok root =>
    obtain ⟨form, formed, -⟩ := parse_form text.toList root parsed
    rw [machine.evaluate_of_form parsed formed] at ran
    -- Before a source is evaluated the stack is emptied, so what the form leaves is all there is.
    obtain ⟨-, left⟩ := Eval.form_leaves _ form { machine with stack := [] } direct _ _ ran
    refine ⟨?_, nofun, ?_⟩
    · rintro value rfl
      exact congrArg List.reverse left
    · rintro _ ⟨⟩
      refine ⟨form, formed, ?_, ?_⟩
      · rintro fault rfl
        obtain ⟨outer, stop, stops, path⟩ := left
        obtain ⟨increasing, placed⟩ := stops.calls (parse_inPlace parsed formed)
        refine ⟨outer, stop, stops, stops.path, ?_, increasing, placed⟩
        -- The frames are listed from the outermost call on, so the stack is turned round.
        rw [Machine.frames, path, List.append_nil, List.reverse_reverse, Eval.Stop.frames]
      · intro leaves memory
        obtain ⟨store, here, seen, -⟩ := Lent.form_mirrors form ⟨machine.world, [], memory⟩ nofun
          direct outcome after ran
        exact ⟨store, here, seen⟩

/-- A machine with one operation, which looks at the calls in progress and then fails. -/
def refusing : Machine Unit :=
  .fresh (Registry.empty.register "f" (.variadic none none fun _ => .frames fun stack =>
    .raise (.language "no" (stack.head?.bind Frame.position)))) ()

theorem refusing_direct : refusing.registry.Direct := by
  intro overloads member operation inside
  cases List.mem_singleton.mp member
  cases List.mem_singleton.mp inside
  intro args stack
  trivial

theorem evaluate_leaves_path_refusing : refusing.registry.Direct ∧ ∃ after,
    refusing.evaluate "(f 1 (f 2))" = (.error (.language "no" (some 5)), after) ∧
    after.frames = [⟨"f", [], some 0⟩, ⟨"f", [.int 2], some 5⟩] ∧
    ∃ form, (∃ outer stop, Eval.Stops (Eval.sourceWithin (Eval.nestingDepth - 1)) refusing form outer
        stop (.language "no" (some 5)) after ∧ form.Path outer stop.point ∧
        after.frames = outer.map (·.frame []) ++ stop.frame?.toList ∧
        (outer ++ stop.call?.toList).Pairwise (fun call inner => call.mark < inner.mark) ∧
        ∀ call ∈ outer ++ stop.call?.toList, call.form.InPlace "(f 1 (f 2))".toList) ∧
      ∀ leaves memory, ∃ store : Store Unit,
        (Lent.form (Eval.sourceWithin (Eval.nestingDepth - 1)) leaves form).run
          ⟨refusing.world, [], memory⟩ = (.error (.language "no" (some 5)), store) ∧
        store.machine = after := by
  have parsed : parse "(f 1 (f 2))".toList = .ok (.list (some 0) [.symbol ⟨1, 1⟩, .symbol ⟨3, 1⟩,
      .list (some 5) [.symbol ⟨6, 1⟩, .symbol ⟨8, 1⟩]]) := rfl
  -- No source is evaluated from within, so it does not matter how one would be.
  have ends (reenter : String → Eval Unit Value) : ∃ after,
      (Eval.node reenter "(f 1 (f 2))".toList (.list (some 0) [.symbol ⟨1, 1⟩, .symbol ⟨3, 1⟩,
        .list (some 5) [.symbol ⟨6, 1⟩, .symbol ⟨8, 1⟩]])).run refusing =
          (.error (.language "no" (some 5)), after) ∧
      after.frames = [⟨"f", [], some 0⟩, ⟨"f", [.int 2], some 5⟩] := ⟨_, rfl, rfl⟩
  obtain ⟨after, failed, left⟩ := ends (Eval.sourceWithin (Eval.nestingDepth - 1))
  have ran := (refusing.evaluate_of_parse parsed).trans failed
  obtain ⟨-, -, each⟩ := evaluate_leaves_path refusing refusing_direct "(f 1 (f 2))" _ after ran
  obtain ⟨form, -, path, lent⟩ := each _ parsed
  exact ⟨refusing_direct, after, ran, left, form, path _ rfl, lent⟩

end HostLisp
