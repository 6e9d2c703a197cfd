import HostLisp.Proofs.FailurePath

/-!
# The location of a failure

A report says where in the source a run failed.

## Main results

`run_failure_located`: the location of a report is the end of a source without a tree, the text that
an error of the evaluator names, or else the parenthesis that opens the innermost call in progress.
What leaves a run without a report has come out of an operation.

`run_raised_missingKey`: a fault whose text cannot be made does leave a run.

## Proof strategy

An evaluation stops at a form that stands in the source where its mark says. Of the faults that it
can stop with, those of the evaluator itself have words of their own.
-/

namespace HostLisp

variable {σ : Type}

/-- A place in a source is what a cause speaks of. -/
structure Cause.PointsAt (cause : Cause) (source : List Char) (place : Nat) : Prop where
  inside : place < source.length
  symbol : ∀ symbol, cause.symbol = some symbol →
    (source.drop place).take symbol.length = symbol.toList
  list : cause = .emptyList ∨ cause = .headNotSymbol → source[place]? = some '('
  gap : cause = .zeroLengthSymbol → source[place]? = some ')'

namespace Form

theorem InPlace.symbol_at {source : List Char} {mark : Int} {text : List Char}
    (placed : InPlace source (.symbol mark text)) : ∃ place : Nat, mark = place ∧
      place < source.length ∧ (source.drop place).take text.length = text ∧
      (text = [] → source[place]? = some ')') := by
  cases placed with
  | symbol before text after split filled =>
    have some_text := List.length_pos_iff.mpr filled
    refine ⟨before.length, rfl, ?_, ?_, fun empty => absurd empty filled⟩
    · simp only [split, List.length_append]
      omega
    · simp [split]
  | empty before after split =>
    refine ⟨before.length, rfl, ?_, rfl, fun _ => ?_⟩
    · simp [split]
    · simp [split]

theorem InPlace.list_at {source : List Char} {mark : Int} {items : List (Form Int)}
    (placed : InPlace source (.list mark items)) : ∃ place : Nat, mark = place ∧
      place < source.length ∧ source[place]? = some '(' := by
  cases placed with
  | list before after items split later each =>
    refine ⟨before.length, rfl, ?_, ?_⟩
    · simp [split]
    · simp [split]

theorem Call.head_inPlace {source : List Char} {call : Call} {whole : Form Int}
    (placed : whole.InPlace source) (same : whole = call.form) :
    InPlace source (.symbol call.head call.name) := by
  cases placed with
  | symbol before text after split filled => cases same
  | empty before after split => cases same
  | string before body after split => cases same
  | list before after items split later each =>
    obtain ⟨mark, head, name, arguments⟩ := call
    cases same
    exact each _ List.mem_cons_self

end Form

theorem Cause.pointsAt_of_symbol (cause : Cause) {source : List Char} {mark : Int} {text : List Char}
    (named : cause.symbol = some (String.ofList text))
    (placed : Form.InPlace source (.symbol mark text)) :
    ∃ place : Nat, mark = place ∧ cause.PointsAt source place := by
  -- The symbol of the cause is the text that stands at the mark.
  obtain ⟨place, same, inside, slice, -⟩ := placed.symbol_at
  refine ⟨place, same, inside, ?_, ?_, ?_⟩
  · intro symbol called
    obtain rfl := Option.some.inj (named.symm.trans called)
    simpa using slice
  · rintro (rfl | rfl)
    · cases named
    · cases named
  · rintro rfl
    cases named

theorem Cause.pointsAt_of_list {cause : Cause} {source : List Char} {mark : Int}
    {items : List (Form Int)} (unnamed : cause = .emptyList ∨ cause = .headNotSymbol)
    (placed : Form.InPlace source (.list mark items)) :
    ∃ place : Nat, mark = place ∧ cause.PointsAt source place := by
  obtain ⟨place, same, inside, opens⟩ := placed.list_at
  refine ⟨place, same, inside, ?_, fun _ => opens, ?_⟩
  · intro symbol called
    rcases unnamed with rfl | rfl
    · cases called
    · cases called
  · rintro rfl
    simp at unnamed

/-- The fault of a symbol in its place points at the symbol, unless this is a number with too many
digits. -/
theorem Form.InPlace.points_of_invalid {source : List Char} {mark : Int} {text : List Char}
    {fault : Fault} (placed : Form.InPlace source (.symbol mark text))
    (invalid : Atom.ofText text mark = .error fault) :
    (∃ (cause : Cause) (place : Nat), fault = .evaluation cause (some place) ∧
      cause.PointsAt source place) ∨
    Number.digitLimit < text.length ∧ fault = .tooManyDigitsToRead text.length := by
  -- A symbol has a value, a fault that says what is wrong with its text, or too many digits.
  rcases Atom.ofText_outcome text with ⟨value, good⟩ | ⟨cause, names, each⟩ | ⟨long, each⟩
  · cases (good mark).symm.trans invalid
  · cases (each mark).symm.trans invalid
    rcases names with ⟨rfl, rfl⟩ | named
    · obtain ⟨place, rfl, inside, -, gap⟩ := placed.symbol_at
      exact Or.inl ⟨.zeroLengthSymbol, place, rfl, inside, nofun, by simp, fun _ => gap rfl⟩
    · obtain ⟨place, rfl, points⟩ := cause.pointsAt_of_symbol named placed
      exact Or.inl ⟨cause, place, rfl, points⟩
  · cases (each mark).symm.trans invalid
    exact Or.inr ⟨long, rfl⟩

namespace Eval

inductive Stop.Gives : Stop → Fault → Prop
  | symbol {mark : Int} {text : List Char} {fault : Fault}
      (invalid : Atom.ofText text mark = .error fault) :
      Gives (.refused (.symbol mark text)) fault
  | empty (mark : Int) : Gives (.refused (.list mark [])) (.evaluation .emptyList (some mark))
  | head (mark : Int) (items : List (Form Int)) :
      Gives (.refused (.list mark items)) (.evaluation .headNotSymbol (some mark))
  | unknown (call : Form.Call) :
      Gives (.refused call.form) (.evaluation (.unknownFunction call.symbol) (some call.head))
  | unapplied (call : Form.Call) (args : List Value) :
      Gives (.unapplied call args)
        (.evaluation (.notApplicable call.symbol (args.map Value.kind)) (some call.head))
  | raised (call : Form.Call) (args : List Value) (fault : Fault) : Gives (.raised call args) fault

theorem Stops.gives {reenter : String → Eval σ Value} {machine after : Machine σ} {form : Form Int}
    {outer : List Form.Call} {stop : Stop} {fault : Fault}
    (stops : Stops reenter machine form outer stop fault after) : stop.Gives fault := by
  induction stops with
  | symbol invalid => exact .symbol invalid
  | empty machine mark => exact .empty mark
  | head machine mark rest other => exact .head mark _
  | unknown absent => exact .unknown _
  -- The fault of an argument is that of the call.
  | argument found split evaluated stops ih => exact ih
  | unapplied found evaluated chosen => exact .unapplied _ _
  | raised found evaluated chosen failed => exact .raised _ _ _

/-- Where the failure of a form of a source is reported. -/
inductive Stop.Located (source : List Char) (form : Form Int) (outer : List Form.Call) :
    Stop → Fault → Option Location → Prop
  /-- An error of the evaluator is reported at what it names. -/
  | refused {point : Form Int} {cause : Cause} {place : Nat} (points : cause.PointsAt source place) :
      Located source form outer (.refused point) (.evaluation cause (some place))
        (some (.ofOffset source place))
  | unapplied {call : Form.Call} {args : List Value} {cause : Cause} {place : Nat}
      (points : cause.PointsAt source place) :
      Located source form outer (.unapplied call args) (.evaluation cause (some place))
        (some (.ofOffset source place))
  /-- A number with too many digits is reported at the form that it is an argument of. -/
  | enclosed {mark : Int} {text : List Char} {call : Form.Call} {place : Nat}
      (long : Number.digitLimit < text.length) (innermost : outer.getLast? = some call)
      (member : Form.symbol mark text ∈ call.arguments) (same : call.mark = place)
      (opens : source[place]? = some '(') :
      Located source form outer (.refused (.symbol mark text)) (.tooManyDigitsToRead text.length)
        (some (.ofOffset source place))
  /-- If it is all there is, it is reported nowhere. -/
  | alone {mark : Int} {text : List Char} (long : Number.digitLimit < text.length)
      (whole : form = .symbol mark text) (outermost : outer = []) :
      Located source form outer (.refused (.symbol mark text)) (.tooManyDigitsToRead text.length) none
  /-- A fault of an operation is reported at the form that called it. -/
  | raised {call : Form.Call} {args : List Value} {fault : Fault} {place : Nat}
      (unplaced : fault.position = none) (same : call.mark = place)
      (opens : source[place]? = some '(') :
      Located source form outer (.raised call args) fault (some (.ofOffset source place))
  /-- If it has a position, the operation chose that. -/
  | placed {call : Form.Call} {args : List Value} {fault : Fault} {position : Int}
      (chosen : fault.position = some position) :
      Located source form outer (.raised call args) fault (some (.ofOffset source position))

theorem Stop.frames_refused (outer : List Form.Call) (point : Form Int) :
    (Stop.frames outer (.refused point)).reverse.head? = outer.getLast?.map (·.frame []) := by
  simp [Stop.frames, Stop.frame?]

/-- The innermost call in progress says where it starts, if there is one. -/
theorem Stop.frames_position (outer : List Form.Call) (stop : Stop) :
    (stop.frames outer).reverse.head?.bind Frame.position = none ↔
      (stop.frames outer).reverse = [] := by
  -- Every frame of a path is that of a call, which has a mark.
  have placed : ∀ frame ∈ (stop.frames outer).reverse, frame.position ≠ none := by
    intro frame member
    rcases List.mem_append.mp (List.mem_reverse.mp member) with path | last
    · obtain ⟨call, -, rfl⟩ := List.mem_map.mp path
      exact nofun
    · cases stop with
      | refused form => cases last
      | unapplied call args | raised call args =>
        cases List.mem_singleton.mp last
        exact nofun
  cases frames : (stop.frames outer).reverse with
  | nil => simp
  | cons frame rest =>
    have first := placed frame (frames ▸ List.mem_cons_self)
    simp [first]

/-- A fault is located by where its form stands, and otherwise by the innermost call in progress. -/
theorem Stops.located {reenter : String → Eval σ Value} {machine after : Machine σ}
    {form : Form Int} {outer : List Form.Call} {stop : Stop} {fault : Fault}
    (stops : Stops reenter machine form outer stop fault after) {source : List Char}
    (placed : form.InPlace source) (left : after.stack = (stop.frames outer).reverse) :
    stop.Located source form outer fault ((after.faultPosition fault).map (.ofOffset source)) := by
  have path := stops.path
  have ordered := path.ordered placed
  have reached := ordered.reached
  cases stops.gives with
  | @symbol mark text fault invalid =>
    rcases reached.points_of_invalid invalid with ⟨cause, place, rfl, points⟩ | ⟨long, rfl⟩
    · exact .refused points
    · -- Without a position of its own the fault is reported at the innermost call in progress.
      have position : after.faultPosition (.tooManyDigitsToRead text.length) =
          outer.getLast?.map Form.Call.mark := by
        change after.stack.head?.bind Frame.position = _
        rw [left, Stop.frames_refused]
        cases outer.getLast? <;> rfl
      rw [position]
      cases innermost : outer.getLast? with
      | none =>
        obtain rfl := List.getLast?_eq_none_iff.mp innermost
        cases path
        exact .alone long rfl rfl
      | some call =>
        -- That is the last call of the path, which has the number among its arguments.
        have among := List.mem_of_getLast? innermost
        obtain ⟨place, same, -, opens⟩ := (ordered.calls call among).1.list_at
        simp only [Option.map_some, same]
        exact .enclosed long innermost (path.encloses innermost) same opens
  | empty mark =>
    obtain ⟨place, rfl, points⟩ := Cause.pointsAt_of_list (Or.inl rfl) reached
    exact .refused points
  | head mark items =>
    obtain ⟨place, rfl, points⟩ := Cause.pointsAt_of_list (Or.inr rfl) reached
    exact .refused points
  | unknown call =>
    obtain ⟨place, same, points⟩ := Cause.pointsAt_of_symbol (.unknownFunction call.symbol) rfl
      (Form.Call.head_inPlace reached rfl)
    rw [same]
    exact .refused points
  | unapplied call args =>
    obtain ⟨place, same, points⟩ := Cause.pointsAt_of_symbol
      (.notApplicable call.symbol (args.map Value.kind)) rfl
      (Form.Call.head_inPlace reached rfl)
    rw [same]
    exact .unapplied points
  | raised call args =>
    -- The operation may give its fault a place, and otherwise the call is where it is.
    cases chosen : fault.position with
    | some position =>
      have position' : after.faultPosition fault = some position := by
        rw [Machine.faultPosition, chosen]
      rw [position']
      exact .placed chosen
    | none =>
      obtain ⟨place, same, -, opens⟩ := reached.list_at
      have position : after.faultPosition fault = some call.mark := by
        rw [Machine.faultPosition, chosen, left]
        simp [Stop.frames, Stop.frame?, Form.Call.frame]
      rw [position, same]
      exact .raised chosen same opens

end Eval

/-! ### Words of a fault -/

/-- What leaves a run in the place of the report of a fault: the fault itself if it is no error, and
what is raised when the fault is asked for its text. -/
inductive Fault.Escapes : Fault → Fault → Prop
  | interruption (className message : String) :
      Escapes (.interruption className message) (.interruption className message)
  | untold (className : String) (raised : Fault) : Escapes (.untold className raised) raised

/-- A fault has words for a report, unless something else leaves the run. -/
theorem Fault.runMessage_eq_error (fault raised : Fault) :
    fault.runMessage = .error raised ↔ fault.Escapes raised := by
  constructor
  · intro unworded
    -- Only two causes can fail here; all others have a text that is there already.
    cases fault with
    | interruption className message =>
      cases unworded
      exact .interruption className message
    | untold className inner =>
      cases unworded
      exact .untold className _
    | _ => cases unworded
  · rintro (⟨className, message⟩ | ⟨className, raised⟩) <;> rfl

/-- The evaluator's own faults have words, so what leaves a run came out of an operation. -/
theorem Eval.Stop.Gives.raised_of_escapes {stop : Stop} {fault raised : Fault}
    (gives : stop.Gives fault) (escapes : fault.Escapes raised) :
    ∃ call args, stop = .raised call args := by
  cases gives with
  | raised call args => exact ⟨call, args, rfl⟩
  | @symbol mark text fault invalid =>
    rcases Atom.ofText_outcome text with ⟨value, good⟩ | ⟨cause, -, each⟩ | ⟨-, each⟩
    · cases (good mark).symm.trans invalid
    · cases (each mark).symm.trans invalid
      cases escapes
    · cases (each mark).symm.trans invalid
      cases escapes
  | empty mark => cases escapes
  | head mark items => cases escapes
  | unknown call => cases escapes
  | unapplied call args => cases escapes

/-! ### Reports -/

/-- How a run ends without a value when its operations do not call back.

It ends without a report exactly when the evaluation ended with a fault in whose place something else
leaves the run, and that fault was raised by an operation.

Otherwise it has failed at the end of a source without a tree, or else where the evaluation stopped:
an error of the evaluator is located at the text that it names, and a fault without a position at the
innermost form in progress, if there is one. -/
theorem run_failure_located (machine : Machine σ) (direct : machine.registry.Direct) (text : String) :
    (∀ raised after, machine.run text = (.raised raised, after) ↔
      ∃ fault, machine.evaluate text = (.error fault, after) ∧ fault.Escapes raised ∧
        ∃ root form outer call args, parse text.toList = .ok root ∧
          root.form? text.toList = some form ∧
          Eval.Stops (Eval.sourceWithin (Eval.nestingDepth - 1)) { machine with stack := [] } form
            outer (.raised call args) fault after) ∧
    ∀ report after, machine.run text = (.failure report, after) →
      (∀ fault, parse text.toList = .error fault → ∃ words, fault.message = .ok words ∧
        report.message = some ("ParseError: " ++ words) ∧
        report.location = some (.ofOffset text.toList text.toList.length) ∧ report.trace = []) ∧
      ∀ root, parse text.toList = .ok root → ∃ form outer stop fault,
        root.form? text.toList = some form ∧
        Eval.Stops (Eval.sourceWithin (Eval.nestingDepth - 1)) { machine with stack := [] } form outer
          stop fault after ∧
        (∃ words, fault.runMessage = .ok words ∧ report.message = some words) ∧
        report.trace = after.frames.map Frame.entry ∧
        after.frames = outer.map (·.frame []) ++ stop.frame?.toList ∧
        stop.Located text.toList form outer fault report.location ∧
        (fault.position = none → (report.location = none ↔ after.frames = [])) := by
  constructor
  · intro raised after
    constructor
    · intro ran
      obtain ⟨fault, failed, escapes⟩ := Machine.run_eq_raised.mp ran
      rw [Fault.runMessage_eq_error] at escapes
      refine ⟨fault, failed, escapes, ?_⟩
      cases parsed : parse text.toList with
      | error fault' =>
        -- A source that has no tree has failed with words.
        rw [machine.evaluate_of_error parsed] at failed
        cases failed
        obtain rfl := parse_error parsed
        cases escapes
      | ok root =>
        obtain ⟨form, formed, -⟩ := parse_form text.toList root parsed
        rw [machine.evaluate_of_form parsed formed] at failed
        obtain ⟨-, outer, stop, stops, -⟩ :=
          Eval.form_leaves _ form { machine with stack := [] } direct _ _ failed
        obtain ⟨call, args, rfl⟩ := stops.gives.raised_of_escapes escapes
        exact ⟨root, form, outer, call, args, rfl, formed, stops⟩
    -- Where the failure arose is more than is needed here.
    · rintro ⟨fault, failed, escapes, -⟩
      exact Machine.run_eq_raised.mpr ⟨fault, failed, (fault.runMessage_eq_error raised).mpr escapes⟩
  · intro report after ran
    obtain ⟨fault, words, failed, worded, rfl⟩ := Machine.run_eq_failure.mp ran
    have message : (after.failure text fault).message = some words :=
      (Machine.run_reported failed worded).2
    cases parsed : parse text.toList with
    | error fault' =>
      rw [machine.evaluate_of_error parsed] at failed
      cases failed
      obtain rfl := parse_error parsed
      refine ⟨?_, nofun⟩
      rintro _ ⟨⟩
      exact ⟨_, rfl, rfl, rfl, rfl⟩
    | ok root =>
      obtain ⟨form, formed, -⟩ := parse_form text.toList root parsed
      refine ⟨nofun, ?_⟩
      rintro _ ⟨⟩
      rw [machine.evaluate_of_form parsed formed] at failed
      obtain ⟨-, outer, stop, stops, left⟩ :=
        Eval.form_leaves _ form { machine with stack := [] } direct _ _ failed
      rw [List.append_nil] at left
      have located := stops.located (parse_inPlace parsed formed) left
      refine ⟨form, outer, stop, fault, formed, stops, ⟨words, worded, message⟩, rfl, ?_, located, ?_⟩
      · rw [Machine.frames, left, List.reverse_reverse, Eval.Stop.frames]
      · intro unplaced
        have position : after.faultPosition fault = after.stack.head?.bind Frame.position := by
          rw [Machine.faultPosition, unplaced]
        rw [Machine.failure, Option.map_eq_none_iff, position, Machine.frames,
          List.reverse_eq_nil_iff, left]
        exact Eval.Stop.frames_position outer stop

theorem run_failure_located_unknown : refusing.registry.Direct ∧
    parse "(f (g))".toList =
      .ok (.list (some 0) [.symbol ⟨1, 1⟩, .list (some 3) [.symbol ⟨4, 1⟩]]) ∧
    ∃ report after, refusing.run "(f (g))" = (.failure report, after) ∧
      report.message = some "EvaluationError: Unknown function 'g'" ∧
      report.location = some ⟨1, some 5⟩ ∧
      ∃ form outer stop fault,
        Eval.Stops (Eval.sourceWithin (Eval.nestingDepth - 1)) refusing form outer stop fault after ∧
        report.trace = after.frames.map Frame.entry ∧
        stop.Located "(f (g))".toList form outer fault report.location := by
  have parsed : parse "(f (g))".toList =
      .ok (.list (some 0) [.symbol ⟨1, 1⟩, .list (some 3) [.symbol ⟨4, 1⟩]]) := rfl
  have ends (reenter : String → Eval Unit Value) : ∃ after,
      (Eval.node reenter "(f (g))".toList (.list (some 0) [.symbol ⟨1, 1⟩,
        .list (some 3) [.symbol ⟨4, 1⟩]])).run refusing =
          (.error (.evaluation (.unknownFunction "g") (some 4)), after) := ⟨_, rfl⟩
  obtain ⟨after, failed⟩ := ends (Eval.sourceWithin (Eval.nestingDepth - 1))
  obtain ⟨ran, message⟩ :=
    Machine.run_reported ((refusing.evaluate_of_parse parsed).trans failed) rfl
  obtain ⟨-, reported⟩ := run_failure_located refusing refusing_direct "(f (g))"
  obtain ⟨-, each⟩ := reported _ after ran
  obtain ⟨form, outer, stop, fault, -, stops, -, trace, -, located, -⟩ := each _ parsed
  exact ⟨refusing_direct, parsed, _, after, ran, message, rfl, form, outer, stop, fault, stops, trace,
    located⟩

/-- The fault of a key that is not there: its text is the text of the key. -/
def Fault.missingKey (key : Value) : Fault :=
  match key.inspect with
  | .ok shown => .host "KeyError" shown
  | .error raised => .untold "KeyError" raised

/-- A machine whose one operation looks for a number of more digits than can be written, in a table
where it is not. -/
def searching : Machine Unit :=
  .fresh (Registry.empty.register "get" (.fixed none [] fun _ =>
    .raise (.missingKey (.int (Nat.pow 10 Number.digitLimit))))) ()

theorem Number.exceedsDigitLimit_pow : exceedsDigitLimit (Nat.pow 10 digitLimit) = true := by
  rw [exceedsDigitLimit, Int.natAbs_natCast, decide_eq_true (Nat.le_refl _)]

theorem Fault.missingKey_of_long {n : Int} (long : Number.exceedsDigitLimit n = true) :
    missingKey (.int n) = .untold "KeyError" .tooManyDigitsToWrite := by
  rw [missingKey, Value.inspect, writeInt, if_pos long]

/-- The fault of a key too long to be written has no words, and the fault of writing the key leaves
the run instead of a report. -/
theorem run_raised_missingKey : searching.registry.Direct ∧
    (searching.run "(get)").1 = .raised .tooManyDigitsToWrite := by
  constructor
  · intro overloads member operation inside
    cases List.mem_singleton.mp member
    cases List.mem_singleton.mp inside
    intro args
    trivial
  -- The key has one digit too many to be written.
  · have untold := Fault.missingKey_of_long Number.exceedsDigitLimit_pow
    have parsed : parse "(get)".toList = .ok (.list (some 0) [.symbol ⟨1, 3⟩]) := rfl
    have ends (reenter : String → Eval Unit Value) : ∃ after,
        (Eval.node reenter "(get)".toList (.list (some 0) [.symbol ⟨1, 3⟩])).run searching =
          (.error (.missingKey (.int (Nat.pow 10 Number.digitLimit))), after) := ⟨_, rfl⟩
    obtain ⟨after, failed⟩ := ends (Eval.sourceWithin (Eval.nestingDepth - 1))
    rw [untold] at failed
    rw [Machine.run_raised ((searching.evaluate_of_parse parsed).trans failed) rfl]

end HostLisp
