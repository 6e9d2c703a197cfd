import HostLisp.Proofs.ParsedForm
import HostLisp.Proofs.Run
import HostLisp.Proofs.StackFree

/-!
# The calls in progress

The evaluator keeps the calls in progress so that a fault can show the path to it. They have no
influence on a value or a fault, and the places where the evaluator would find too few of them are
never reached.

## Main result

`tree_eq_plain`: the tree of a source has the value or the fault that it has without the calls in
progress.

## Proof strategy

The places that are not reached are made parameters, `Escapes`. An evaluation that goes as its
counterpart without calls in progress says does so whatever these parameters are.
-/

namespace HostLisp

variable {σ α β : Type}

/-! ### Places that are not reached -/

/-- What evaluation does where the tree of a source and quiet operations do not lead. -/
structure Escapes (σ : Type) where
  /-- An operation evaluates a source. -/
  reenter : String → Eval σ Value
  /-- The arguments of the innermost call are noted, and there is no call. -/
  noFrame : List Value → Eval σ Unit
  /-- The innermost call ends, and there is no call. -/
  noCall : Eval σ Unit
  /-- A value stands in the place of a node. -/
  notANode : Value → Eval σ Value
  /-- The first character of a symbol is looked at, and the symbol has none. -/
  noCharacter : Int → Eval σ Value

namespace Eval

/-- What the evaluator does at those places. -/
def escapes (reenter : String → Eval σ Value) : Escapes σ where
  reenter := reenter
  noFrame _ := throw .listIndex
  noCall := pure ()
  notANode value :=
    match value.inspect with
    | .ok shown => throw (.evaluation (.notANode shown) none)
    | .error fault => throw fault
  noCharacter _ := throw .textIndex

def setArgumentsWith (escapes : Escapes σ) (args : List Value) : Eval σ Unit := do
  match (← get).stack with
  | [] => escapes.noFrame args
  | frame :: outer => modify fun machine => { machine with stack := { frame with args } :: outer }

def popWith (escapes : Escapes σ) : Eval σ Unit := do
  match (← get).stack with
  | [] => escapes.noCall
  | _ :: outer => modify fun machine => { machine with stack := outer }

def applyWith (escapes : Escapes σ) (name : String) (known : Overloads σ) (args : List Value)
    (position : Option Int) : Eval σ Value := do
  call escapes.reenter (((← get).registry.lookup name).getD known) args position

def symbolWith (escapes : Escapes σ) (span : Span) (source : List Char) : Eval σ Value :=
  if span.length = 0 then throw (.evaluation .zeroLengthSymbol (some span.start))
  else match span.slice source with
    | [] => escapes.noCharacter span.start
    | text =>
      match Atom.ofChars text span.start with
      | .ok value => pure value
      | .error fault => throw fault

mutual

/-- The value of a node, with the escapes in the place of what the evaluator does there. -/
def nodeWith (escapes : Escapes σ) (source : List Char) : Node → Eval σ Value
  | .string span => pure (.text (Node.stringText span source))
  | .symbol span => symbolWith escapes span source
  | .value value => escapes.notANode value
  | .list start [] => throw (.evaluation .emptyList start)
  | .list start (.symbol head :: arguments) => do
    let name := Node.symbolText head source
    match (← get).registry.lookup name with
    | none => throw (.evaluation (.unknownFunction name) (some head.start))
    | some known =>
      push ⟨name, [], start⟩
      let args ← nodesWith escapes source arguments
      setArgumentsWith escapes args
      let value ← applyWith escapes name known args (some head.start)
      popWith escapes
      pure value
  | .list start (_ :: _) => throw (.evaluation .headNotSymbol start)
termination_by structural node => node

def nodesWith (escapes : Escapes σ) (source : List Char) : List Node → Eval σ (List Value)
  | [] => pure []
  | first :: rest => do
    let value ← nodeWith escapes source first
    let values ← nodesWith escapes source rest
    pure (value :: values)
termination_by structural nodes => nodes

end

def treeWith (escapes : Escapes σ) (source : List Char) (root : Node) : Eval σ Value := do
  clearStack
  nodeWith escapes source root

private theorem setArgumentsWith_escapes (reenter : String → Eval σ Value) (args : List Value) :
    setArgumentsWith (escapes reenter) args = setArguments args := rfl

private theorem popWith_escapes (reenter : String → Eval σ Value) :
    popWith (escapes reenter) = pop := by
  funext machine
  obtain ⟨registry, stack, state, journal⟩ := machine
  cases stack <;> rfl

private theorem symbolWith_escapes (reenter : String → Eval σ Value) (span : Span)
    (source : List Char) : symbolWith (escapes reenter) span source =
      match Atom.ofSpan span source with
      | .ok value => pure value
      | .error fault => throw fault := by
  rw [symbolWith, Atom.ofSpan]
  split
  · rfl
  · cases span.slice source <;> rfl

mutual

theorem nodeWith_escapes (reenter : String → Eval σ Value) (source : List Char) :
    ∀ node, nodeWith (escapes reenter) source node = Eval.node reenter source node
  | .string span => rfl
  | .symbol span => symbolWith_escapes reenter span source
  | .value value => rfl
  | .list start [] => rfl
  | .list start (.string _ :: _) => rfl
  | .list start (.list _ _ :: _) => rfl
  | .list start (.value _ :: _) => rfl
  | .list start (.symbol head :: arguments) => by
    -- The look-up and the call are one step here and two in the evaluator.
    simp only [nodeWith, Eval.node, nodesWith_escapes reenter source arguments,
      setArgumentsWith_escapes, popWith_escapes, applyWith, bind_assoc]
    rfl

theorem nodesWith_escapes (reenter : String → Eval σ Value) (source : List Char) :
    ∀ nodes, nodesWith (escapes reenter) source nodes = Eval.nodes reenter source nodes
  | [] => rfl
  | first :: rest => by
    rw [nodesWith, Eval.nodes, nodeWith_escapes reenter source first,
      nodesWith_escapes reenter source rest]

end

/-- With what the evaluator does at those places, the value of a tree is the evaluator's. -/
theorem treeWith_escapes (reenter : String → Eval σ Value) (source : List Char) (root : Node) :
    treeWith (escapes reenter) source root = tree reenter source root := by
  rw [treeWith, tree, nodeWith_escapes]

end Eval

/-! ### Evaluations that go as plain ones -/

/-- An evaluation ends as it does whatever is done at the places that are not reached. -/
def Escapes.runs (σ : Type) : Runs (ReaderT (Escapes σ) (Eval σ)) (Machine σ) where
  Ends evaluation machine outcome after :=
    ∀ escapes, (evaluation escapes).run machine = (outcome, after)
  ends_pure _ _ _ := rfl
  ends_throw _ _ _ := rfl
  ends_bind ran ended escapes := (Eval.run_bind_ok (ran escapes)).trans (ended escapes)
  ends_bind_error ran escapes := Eval.run_bind_error (ran escapes)

/-- An evaluation, and one without calls in progress, with quiet operations. As long as no fault has
arisen the calls in progress are those; a fault leaves those in progress where it arose. -/
def following (σ : Type) (stack : List Frame) : Coupling (Escapes.runs σ) (Plain.runs σ) where
  Kept machine world := machine = world.machine stack ∧ world.registry.Quiet
  Left machine world := ∃ stack, machine = world.machine stack
  left kept := ⟨stack, kept.1⟩

/-- Whatever calls are in progress, and whatever is done at the places that are not reached, an
evaluation ends as the plain one. -/
def Follows (evaluation : Escapes σ → Eval σ α) (plain : Plain σ α) : Prop :=
  ∀ stack, (following σ stack).Holds evaluation plain

theorem follows_pure (value : α) : Follows (fun _ => pure value) (pure value : Plain σ α) :=
  fun _ => .pure value

theorem follows_throw (fault : Fault) :
    Follows (fun _ => throw fault) (throw fault : Plain σ α) :=
  fun _ => .throw rfl

theorem Follows.bind {evaluation : Escapes σ → Eval σ α} {plain : Plain σ α}
    {next : Escapes σ → α → Eval σ β} {next' : α → Plain σ β} (first : Follows evaluation plain)
    (second : ∀ value, Follows (next · value) (next' value)) :
    Follows (fun escapes => evaluation escapes >>= next escapes) (plain >>= next') :=
  fun stack => (first stack).bind fun value => second value stack

theorem follows_modify (change : Machine σ → Machine σ) (change' : World σ → World σ)
    (same : ∀ world stack, change (World.machine world stack) = (change' world).machine stack)
    (keeps : ∀ world, world.registry.Quiet → (change' world).registry.Quiet) :
    Follows (fun _ => modify change) (modify change' : Plain σ Unit) := by
  rintro stack _ world ⟨rfl, quiet⟩
  exact .value (fun _ => rfl) rfl ⟨same world stack, keeps world quiet⟩

theorem follows_get {evaluation : Escapes σ → Machine σ → Eval σ α} {plain : World σ → Plain σ α}
    (each : ∀ world stack, world.registry.Quiet →
      Follows (fun escapes => evaluation escapes (world.machine stack)) (plain world)) :
    Follows (fun escapes => get >>= evaluation escapes) (get >>= plain) := by
  rintro stack _ world ⟨rfl, quiet⟩
  exact (each world stack quiet stack _ world ⟨rfl, quiet⟩).imp (fun _ _ ran => ran)
    fun _ _ ran => ran

/-- A call in progress is noted while its arguments are evaluated and while it runs. -/
theorem Follows.framed {arguments : Escapes σ → Eval σ (List Value)} {plain : Plain σ (List Value)}
    {body : Escapes σ → List Value → Eval σ α} {body' : List Value → Plain σ α}
    (first : Follows arguments plain) (second : ∀ args, Follows (body · args) (body' args))
    (frame : Frame) :
    Follows (fun escapes => do
      Eval.push frame
      let args ← arguments escapes
      Eval.setArgumentsWith escapes args
      let value ← body escapes args
      Eval.popWith escapes
      pure value) (plain >>= body') := by
  rintro stack _ world ⟨rfl, quiet⟩
  have pushed : (Eval.push frame).run (world.machine stack) =
      (.ok (), world.machine (frame :: stack)) := Eval.push_run frame
  cases first (frame :: stack) _ world ⟨rfl, quiet⟩ with
  | fault ran ran' same left =>
    refine .fault (fun escapes => ?_) (Plain.run_bind_error ran') same left
    rw [Eval.run_bind_ok pushed, Eval.run_bind_error (ran escapes)]
  | pardoned _ never => exact never.elim
  | @value args _ between begun begun' kept =>
    obtain ⟨rfl, quiet'⟩ := kept
    -- The arguments leave the frame on top, so it is there to be completed.
    have noted (escapes : Escapes σ) :
        (Eval.setArgumentsWith escapes args).run (between.machine (frame :: stack)) =
          (.ok (), between.machine ({ frame with args } :: stack)) := rfl
    cases second args ({ frame with args } :: stack) _ between ⟨rfl, quiet'⟩ with
    | fault ran ran' same left =>
      -- A fault in the call leaves its frame for the report.
      refine .fault (fun escapes => ?_) ((Plain.run_bind_ok begun').trans ran') same left
      rw [Eval.run_bind_ok pushed, Eval.run_bind_ok (begun escapes),
        Eval.run_bind_ok (noted escapes), Eval.run_bind_error (ran escapes)]
    | pardoned _ never => exact never.elim
    | value ran ran' kept =>
      -- The call leaves its frame on top, so it is there to be forgotten.
      obtain ⟨rfl, quiet''⟩ := kept
      refine .value (fun escapes => ?_) ((Plain.run_bind_ok begun').trans ran') ⟨rfl, quiet''⟩
      rw [Eval.run_bind_ok pushed, Eval.run_bind_ok (begun escapes),
        Eval.run_bind_ok (noted escapes), Eval.run_bind_ok (ran escapes)]
      rfl

/-! ### The evaluator -/

theorem record_follows (event : Event) :
    Follows (fun _ => Eval.record event) (Plain.record event : Plain σ Unit) :=
  follows_modify _ _ (fun _ _ => rfl) fun _ quiet => quiet

theorem perform_follows : ∀ action : Action σ, action.Quiet →
    Follows (fun escapes => Eval.perform escapes.reenter action) (Plain.perform action)
  | .done (.ok value), _ => follows_pure value
  | .done (.error fault), _ => follows_throw fault
  | .frames _, quiet => quiet.elim
  | .evaluate _ _, quiet => quiet.elim
  | .register symbol operation next, quiet => by
    apply (follows_modify (·.register symbol operation) _ (fun _ _ => rfl)
      fun world known => known.register symbol quiet.1).bind
    intro _
    exact follows_get fun world _ _ => perform_follows _ (quiet.2 _)
  | .readState next, quiet => follows_get fun world _ _ =>
      perform_follows (next world.state) (quiet world.state)
  | .writeState state next, quiet => by
    apply (follows_modify (fun machine => { machine with state })
      (fun world => { world with state }) (fun _ _ => rfl) fun _ known => known).bind
    intro _
    exact perform_follows next quiet

theorem call_follows {overloads : Overloads σ} (quiet : overloads.Quiet) (args : List Value)
    (position : Option Int) : Follows
      (fun escapes => Eval.call escapes.reenter overloads args position)
      (Plain.call overloads args position) := by
  apply (record_follows _).bind
  intro _
  -- The same operation is chosen, since the set is the same.
  cases chosen : overloads.choose? args with
  | none => exact follows_throw _
  | some found =>
    obtain ⟨place, operation⟩ := found
    -- The operation comes from the set, so what it does is quiet.
    have acts := (quiet operation (Overloads.mem_of_choose? chosen)).run args
    apply (record_follows _).bind
    intro _
    apply (perform_follows _ acts).bind
    intro value
    exact (record_follows _).bind fun _ => follows_pure value

theorem apply_follows (name : String) {known : Overloads σ} (quiet : known.Quiet)
    (args : List Value) (position : Option Int) :
    Follows (fun escapes => Eval.applyWith escapes name known args position)
      (Plain.apply name known args position) := by
  apply follows_get
  intro world _ others
  -- The arguments may have registered more under the name; that is quiet as well.
  have quiet' : ((world.registry.lookup name).getD known).Quiet := by
    cases found : world.registry.lookup name with
    | none => exact quiet
    | some overloads => exact others.lookup found
  exact call_follows quiet' args position

theorem symbol_follows {span : Span} {source : List Char} {form : Form Int}
    (formed : Node.form? source (.symbol span) = some form) :
    Follows (fun escapes => Eval.symbolWith escapes span source)
      (Plain.symbol span source : Plain σ Value) := by
  -- On a symbol with a form neither escape is taken.
  unfold Eval.symbolWith Plain.symbol
  rcases Node.form?_symbol_eq_some formed with ⟨empty, -⟩ | ⟨filled, outside, -⟩
  · simp only [if_pos empty]
    exact follows_throw _
  · simp only [if_neg filled]
    obtain ⟨c, rest, text⟩ := List.exists_cons_of_ne_nil outside
    simp only [text]
    cases Atom.ofChars (c :: rest) span.start with
    | ok value => exact follows_pure value
    | error fault => exact follows_throw fault

mutual

/-- Each node with a form is evaluated as without calls in progress. -/
theorem node_follows (source : List Char) : ∀ (node : Node) (form : Form Int),
    node.form? source = some form → Follows (fun escapes => Eval.nodeWith escapes source node)
      (Plain.node source node : Plain σ Value)
  | .string span, _, _ => follows_pure _
  | .symbol span, _, formed => symbol_follows formed
  | .value _, _, formed => by cases formed
  | .list start [], _, _ => follows_throw _
  | .list start (.string _ :: _), _, _ => follows_throw _
  | .list start (.list _ _ :: _), _, _ => follows_throw _
  | .list start (.value _ :: _), _, _ => follows_throw _
  | .list start (.symbol head :: arguments), _, formed => by
    obtain ⟨offset, items, rfl, inner, rfl⟩ := Node.form?_list_eq_some formed
    obtain ⟨_, others, _, there, rfl⟩ := Node.forms?_cons_eq_some.mp inner
    apply follows_get
    intro world stack quiet
    change Follows (fun escapes => match world.registry.lookup _ with | none => _ | some known => _) _
    cases found : world.registry.lookup (Node.symbolText head source) with
    | none => exact follows_throw _
    | some known =>
      -- The set that is found now stays quiet, whatever the arguments do.
      exact (nodes_follows source arguments others there).framed
        (fun args => apply_follows _ (quiet.lookup found) args _) _

theorem nodes_follows (source : List Char) : ∀ (nodes : List Node) (forms : List (Form Int)),
    Node.forms? source nodes = some forms →
      Follows (fun escapes => Eval.nodesWith escapes source nodes)
        (Plain.nodes source nodes : Plain σ (List Value))
  | [], _, _ => follows_pure []
  | first :: rest, _, formed => by
    obtain ⟨form, others, here, there, rfl⟩ := Node.forms?_cons_eq_some.mp formed
    exact fun stack => (node_follows source first form here stack).cons
      (nodes_follows source rest others there stack)

end

/-! ### Trees of sources -/

/-- On a machine with quiet operations the tree of a source has the value or the fault that it has
without calls in progress, and the same is left of the machine. No call is in progress after a
value. What happens at the escapes does not matter, so none is reached. -/
theorem tree_eq_plain (machine : Machine σ) (quiet : machine.registry.Quiet) (source : List Char)
    (root : Node) (parsed : parse source = .ok root) : ∃ outcome world stack,
      (Plain.node source root).run machine.world = some (outcome, world) ∧
      (∀ reenter, (Eval.tree reenter source root).run machine = (outcome, world.machine stack)) ∧
      (∀ value, outcome = .ok value → stack = []) ∧
      ∀ escapes, (Eval.treeWith escapes source root).run machine =
        (outcome, world.machine stack) := by
  obtain ⟨form, formed, -⟩ := parse_form source root parsed
  have cleared : Eval.clearStack.run machine = (.ok (), machine.world.machine []) :=
    Eval.clearStack_run
  have evaluated {outcome : Except Fault Value} {after : Machine σ}
      (ran : (Escapes.runs σ).Ends (fun escapes => Eval.nodeWith escapes source root)
        (machine.world.machine []) outcome after) (escapes : Escapes σ) :
      (Eval.treeWith escapes source root).run machine = (outcome, after) := by
    rw [Eval.treeWith, Eval.run_bind_ok cleared, ran escapes]
  have tree (reenter : String → Eval σ Value) := Eval.treeWith_escapes reenter source root
  -- The evaluation begins with no call in progress and follows the one without calls.
  cases node_follows source root form formed [] _ machine.world ⟨rfl, quiet⟩ with
  | value ran ran' kept =>
    obtain ⟨rfl, -⟩ := kept
    exact ⟨_, _, _, ran', fun reenter => tree reenter ▸ evaluated ran _, fun _ _ => rfl, evaluated ran⟩
  | fault ran ran' same left =>
    obtain ⟨stack, rfl⟩ := left
    obtain rfl := same
    exact ⟨_, _, _, ran', fun reenter => tree reenter ▸ evaluated ran _, nofun, evaluated ran⟩
  | pardoned _ never => exact never.elim

/-- A machine with one operation, which counts its calls and gives their number so far. -/
def counting : Machine Nat :=
  .fresh (Registry.empty.register "f" (.variadic none none fun _ =>
    .readState fun count => .writeState (count + 1) (.give (.int (count + 1))))) 0

theorem tree_eq_plain_counting : counting.registry.Quiet ∧
    parse "(f (f) 1)".toList =
      .ok (.list (some 0) [.symbol ⟨1, 1⟩, .list (some 3) [.symbol ⟨4, 1⟩], .symbol ⟨7, 1⟩]) ∧
    ∃ outcome world stack,
      (Plain.node "(f (f) 1)".toList (.list (some 0) [.symbol ⟨1, 1⟩,
        .list (some 3) [.symbol ⟨4, 1⟩], .symbol ⟨7, 1⟩])).run counting.world =
          some (outcome, world) ∧
      (∀ reenter, (Eval.tree reenter "(f (f) 1)".toList (.list (some 0) [.symbol ⟨1, 1⟩,
        .list (some 3) [.symbol ⟨4, 1⟩], .symbol ⟨7, 1⟩])).run counting =
          (outcome, world.machine stack)) ∧
      (∀ value, outcome = .ok value → stack = []) ∧
      ∀ escapes, (Eval.treeWith escapes "(f (f) 1)".toList (.list (some 0) [.symbol ⟨1, 1⟩,
        .list (some 3) [.symbol ⟨4, 1⟩], .symbol ⟨7, 1⟩])).run counting =
          (outcome, world.machine stack) := by
  have quiet : counting.registry.Quiet := by
    intro overloads member operation inside
    cases List.mem_singleton.mp member
    cases List.mem_singleton.mp inside
    intro args count
    trivial
  exact ⟨quiet, rfl, tree_eq_plain counting quiet _ _ rfl⟩

end HostLisp
