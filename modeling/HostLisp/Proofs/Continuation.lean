import HostLisp.Host.Ledger
import HostLisp.Proofs.ConfinedPositions
import HostLisp.Proofs.Spelling

/-!
# Sources that go on

Reading looks no further than it must: it fails only where a source ends too early, and what follows
a form that is complete changes nothing.

## Main result

`read_incremental`: how a source is read says how each continuation of it is read.

## Proof strategy

What is read was spelled, and what is spelled is read whatever follows. A source that is not read
can be completed: each reader that fails names the form that it was in.
-/

namespace HostLisp

open Reader (Cursor)

variable {σ : Type}

/-! ### Completions -/

private theorem stringEnd_completed (offset place : Nat) (chars : List Char)
    (failed : Reader.stringEnd offset chars = .error place) :
    ∃ more body, chars ++ more = body ++ ['"'] ∧ IsBody body := by
  induction offset, chars using Reader.stringEnd.induct with
  | case1 offset => exact ⟨['"'], [], rfl, .nil⟩
  | case2 offset =>
    -- The backslash at the end protects one character more.
    exact ⟨['"', '"'], ['\\', '"'], rfl, .escape '"' .nil⟩
  | case3 offset c rest ih =>
    obtain ⟨more, body, completed, closed⟩ := ih (by simpa [Reader.stringEnd] using failed)
    exact ⟨more, '\\' :: c :: body, congrArg ('\\' :: c :: ·) completed, .escape c closed⟩
  | case4 offset rest => simp [Reader.stringEnd] at failed
  | case5 offset c rest notLast notEscape notQuote ih =>
    obtain ⟨more, body, completed, closed⟩ :=
      ih (by rwa [Reader.stringEnd] at failed <;> assumption)
    have notBackslash : c ≠ '\\' := by
      rintro rfl
      cases rest with
      | nil => exact notLast rfl rfl
      | cons d rest => exact notEscape _ _ rfl rfl
    exact ⟨more, c :: body, congrArg (c :: ·) completed,
      .plain c notBackslash (fun same => notQuote same) closed⟩

/-- A continuation completes what is left of a source to blanks and a literal or list. -/
def Completes (cursor : Cursor) (more : List Char) : Prop :=
  ∃ gap text form, cursor.rest ++ more = gap ++ text ∧ (∀ c ∈ gap, Reader.isSpace c = true) ∧
    Spells (cursor.offset + gap.length) text form ∧ ∀ after, form.EndsBefore after

/-- A continuation completes what is left of a source to the items of a list and its parenthesis. -/
def CompletesRow (cursor : Cursor) (more : List Char) : Prop :=
  ∃ inner forms, cursor.rest ++ more = inner ++ [')'] ∧ SpellsRow cursor.offset inner forms

private theorem form_completed_of (cursor : Cursor) (place : Nat)
    (failed : Reader.form cursor = .error place)
    (rows : ∀ inside : Cursor, inside.rest.length < cursor.rest.length → ∀ place,
      Reader.list inside = .error place → ∃ more, CompletesRow inside more) :
    ∃ more, Completes cursor more := by
  obtain ⟨offset, chars⟩ := cursor
  obtain ⟨gap, ahead, rfl, spaces, stops⟩ := exists_stretch Reader.isSpace chars
  rw [Reader.form_append_spaces offset gap ahead spaces stops] at failed
  cases ahead with
  | nil =>
    -- Where nothing is left to read, an empty literal completes the source.
    exact ⟨['"', '"'], gap, _, _, by simp, spaces, .leaf (.string [] .nil), fun _ => trivial⟩
  | cons c rest =>
    by_cases quote : c = '"'
    · subst quote
      rw [Reader.form_quote, Reader.string] at failed
      cases ended : Reader.stringEnd (offset + gap.length + 1) rest with
      | ok next => simp [ended, bind, Except.bind] at failed
      | error place' =>
        obtain ⟨more, body, completed, closed⟩ := stringEnd_completed _ _ _ ended
        refine ⟨more, gap, _, _, ?_, spaces, .leaf (.string body closed), fun _ => trivial⟩
        simp [completed]
    by_cases opening : c = '('
    · subst opening
      rw [Reader.form_opening] at failed
      cases inside : Reader.list ⟨offset + gap.length + 1, rest⟩ with
      | ok pair => simp [inside, bind, Except.bind] at failed
      | error place' =>
        -- What completes the row inside completes the list as well.
        obtain ⟨more, inner, forms, completed, row⟩ := rows _ (by simp; omega) _ inside
        refine ⟨more, gap, _, _, ?_, spaces, .group row, fun _ => trivial⟩
        simpa using congrArg (gap ++ '(' :: ·) completed
    · rw [Reader.form_plain _ c rest (stops c rfl) quote opening] at failed
      cases failed

/-- A list that is not read to its end fails at the end, in a form, or after a form. -/
private theorem list_error_cases {cursor : Cursor} {place : Nat}
    (failed : Reader.list cursor = .error place) :
    (∀ c ∈ cursor.rest, Reader.isGap c = true) ∨ (∃ place', Reader.form cursor = .error place') ∨
    ∃ node middle place', Reader.form cursor = .ok (node, middle) ∧
      Reader.list middle = .error place' := by
  obtain ⟨offset, chars⟩ := cursor
  obtain ⟨gap, ahead, rfl, plain, stops⟩ := exists_stretch Reader.isGap chars
  have passed := Cursor.skip_append Reader.isGap offset gap ahead plain stops
  cases ahead with
  | nil => exact Or.inl (by simpa using plain)
  | cons c rest =>
    by_cases closing : c = ')'
    · subst closing
      rw [Reader.list_closed _ rest (by rw [passed])] at failed
      cases failed
    rw [Reader.list_form _ c rest (by rw [passed]) closing] at failed
    cases first : Reader.form ⟨offset, gap ++ c :: rest⟩ with
    | error place' => exact Or.inr (Or.inl ⟨place', rfl⟩)
    | ok pair =>
      cases others : Reader.list pair.2 with
      | error place' => exact Or.inr (Or.inr ⟨pair.1, pair.2, place', rfl, others⟩)
      | ok pair' => simp [first, others, bind, Except.bind] at failed

private theorem list_completed (cursor : Cursor) (place : Nat)
    (failed : Reader.list cursor = .error place) : ∃ more, CompletesRow cursor more := by
  -- The list fails at its end, in an item or after one. Only in the last two cases is there less to
  -- read.
  induction size : cursor.rest.length using Nat.strong_induction_on generalizing cursor place with
  | _ size ih =>
  subst size
  rcases list_error_cases failed with
    plain | ⟨place', failed'⟩ | ⟨node, middle, place', first, failed'⟩
  · exact ⟨[')'], cursor.rest, [], rfl, .gap _ plain⟩
  · obtain ⟨more, gap, text, form, completed, spaces, spelled, ends⟩ :=
      form_completed_of cursor place' failed' fun inside shorter _ failed =>
        ih _ shorter _ _ failed rfl
    -- After the form that is completed the list can end.
    refine ⟨more ++ [')'], gap ++ (text ++ []), [form], ?_, ?_⟩
    · rw [← List.append_assoc, completed, List.append_nil]
    · exact .item gap spaces spelled (ends []) (.gap [] nofun)
  · have found := form_spelled _ _ _ first
    cases found with
    | @closing gap after rest spaces =>
      rw [Reader.list_closed ⟨_, ')' :: after⟩ after rfl] at failed'
      cases failed'
    | @spelled gap text after form rest spaces spelled ends =>
      rw [Reader.list_cursorAfter] at failed'
      cases after with
      | nil =>
        -- A symbol at the end of the source ends at the parenthesis.
        refine ⟨[')'], gap ++ (text ++ []), [form], by rw [rest], ?_⟩
        exact .item gap spaces spelled (Form.endsBefore_of_stops form nofun) (.gap [] nofun)
      | cons d after =>
        obtain ⟨c, chars, filled, -, -⟩ := spelled.head
        have shorter : (d :: after).length < cursor.rest.length := by simp [rest, filled]; omega
        obtain ⟨more, inner, forms, completed, row⟩ := ih _ shorter _ _ failed' rfl
        have shape : d :: after ++ more = inner ++ [')'] := completed
        have ends' : form.EndsBefore (inner ++ [')']) :=
          shape ▸ Form.endsBefore_append_right ends nofun more
        refine ⟨more, gap ++ (text ++ inner), form :: forms, ?_, ?_⟩
        · rw [rest, List.append_assoc, List.append_assoc, shape]
          simp
        · exact .item gap spaces spelled (Form.endsBefore_of_append ends') row

theorem parse_completed {source : List Char} {fault : Fault} (failed : parse source = .error fault) :
    ∃ more root, parse (source ++ more) = .ok root := by
  cases returned : Reader.form (.start source) with
  | ok pair => simp [parse, read, returned, bind, Except.bind] at failed
  | error place =>
    obtain ⟨more, gap, text, form, completed, spaces, spelled, ends⟩ :=
      form_completed_of _ place returned fun inside _ place => list_completed inside place
    have begins : BeginsWith (source ++ more) form :=
      ⟨gap, text, [], by simpa [Cursor.start] using completed, spaces,
        by simpa [Cursor.start] using spelled, ends []⟩
    exact ⟨more, _, begins.parse⟩

/-! ### Continuations -/

/-- A form that a source begins with ends where it did, or is a symbol that goes on. -/
theorem BeginsWith.append {source : List Char} {form : Form Int} (begins : BeginsWith source form)
    (more : List Char) : ∃ form', BeginsWith (source ++ more) form' := by
  obtain ⟨gap, text, after, rfl, spaces, spelled, ends⟩ := begins
  rcases after with - | ⟨d, after⟩
  · cases spelled with
    | group inside => exact ⟨_, gap, _, more, by simp, spaces, .group inside, trivial⟩
    | leaf spelled =>
      cases spelled with
      | string body closed =>
        exact ⟨_, gap, _, more, by simp, spaces, .leaf (.string body closed), trivial⟩
      | symbol text filled whole =>
        -- A symbol at the end of the source takes as much of the text as can be part of it.
        obtain ⟨others, after, rfl, within, stops⟩ := exists_stretch (!Reader.endsSymbol ·) more
        have whole' : IsSymbolText (text ++ others) := by
          refine ⟨fun c member => ?_, ?_⟩
          · rcases List.mem_append.mp member with first | second
            · exact whole.inside c first
            · simpa using within c second
          · obtain ⟨c, rest, rfl⟩ := List.exists_cons_of_ne_nil filled
            exact whole.unquoted
        refine ⟨_, gap, text ++ others, after, by simp, spaces,
          .leaf (.symbol _ (by simp [filled]) whole'), ?_⟩
        exact fun c first => by simpa using stops c first
  · refine ⟨form, gap, text, d :: after ++ more, by simp, spaces, spelled, ?_⟩
    exact Form.endsBefore_append_right ends nofun more

theorem parse_append {source : List Char} {root : Node} (parsed : parse source = .ok root)
    (more : List Char) : ∃ root', parse (source ++ more) = .ok root' := by
  rcases parse_begins parsed with ⟨form, -, begins⟩ | ⟨gap, after, rfl, spaces, -⟩
  · obtain ⟨form', begins'⟩ := begins.append more
    exact ⟨_, begins'.parse⟩
  · rw [List.append_assoc, List.cons_append, parse, read_closing spaces]
    exact ⟨_, rfl⟩

/-- The end of a root does not depend on the end of a source of a size: it is a list, a literal, or
a symbol that ends before. -/
def Node.Ended (size : Nat) : Node → Prop
  | .symbol span => span.stop < size
  | _ => True

private theorem endsBefore_of_ended {gap text after : List Char} {form : Form Int}
    (spelled : Spells gap.length text form)
    (ended : form.node.Ended (gap ++ (text ++ after)).length) (ends : form.EndsBefore after)
    (more : List Char) : form.EndsBefore (after ++ more) ∧ ∀ offset,
      (form.cursorAfter offset (after ++ more)).offset = (form.cursorAfter offset after).offset := by
  cases spelled with
  | group inside => exact ⟨trivial, fun _ => rfl⟩
  | leaf spelled =>
    cases spelled with
    | string body closed => exact ⟨trivial, fun _ => rfl⟩
    | symbol text filled whole =>
      -- The symbol ends before the source, so something follows it and still does.
      rcases after with - | ⟨c, rest⟩
      · simp only [Form.node, Node.Ended, Span.stop, List.length_append, List.append_nil] at ended
        omega
      · refine ⟨ends, fun offset => ?_⟩
        by_cases space : c = ' '
        · subst space
          rfl
        · simp [Form.cursorAfter, space]

/-- A root that has ended is read from each continuation, as far as before, with the same form. -/
theorem read_append {source : List Char} {root : Node} {position : Nat}
    (returned : read source = .ok (root, position)) (ended : root.Ended source.length)
    (more : List Char) : read (source ++ more) = .ok (root, position) ∧
      root.form? (source ++ more) = root.form? source := by
  have parsed : parse source = .ok root := by rw [parse, returned]
  rcases parse_begins parsed with ⟨form, rfl, begins⟩ | ⟨gap, after, rfl, spaces, rfl⟩
  · obtain ⟨gap, text, after, rfl, spaces, spelled, ends⟩ := begins
    rw [read_spelled spaces spelled ends] at returned
    obtain ⟨-, rfl⟩ := Prod.mk.inj (Except.ok.inj returned)
    obtain ⟨ends', same⟩ := endsBefore_of_ended spelled ended ends more
    rw [spelled.form? gap rfl after, List.append_assoc, List.append_assoc,
      read_spelled spaces spelled ends', same, spelled.form? gap rfl (after ++ more)]
    exact ⟨rfl, rfl⟩
  · rw [read_closing spaces] at returned
    obtain ⟨-, rfl⟩ := Prod.mk.inj (Except.ok.inj returned)
    rw [List.append_assoc, List.cons_append, read_closing spaces]
    exact ⟨rfl, rfl⟩

/-! ### Evaluation and reports -/

/-- The outcome of a run as if it were the run of another source. -/
def Outcome.ofSource (source : String) : Outcome → Outcome
  | .success value => .success value
  | .failure report => .failure { report with source := some source }
  | .raised fault => .raised fault

theorem Location.ofOffset_append {source : List Char} {position : Int}
    (inside : Inside source.length (some position)) (more : List Char) :
    ofOffset (source ++ more) position = ofOffset source position := by
  obtain ⟨-, below⟩ := inside position rfl
  have same : (source ++ more).take position.toNat = source.take position.toNat :=
    List.take_append_of_le_length (by omega)
  simp only [ofOffset, lineAndColumn, same]

theorem Machine.evaluate_append (machine : Machine σ) {text : String} {root : Node} {position : Nat}
    (returned : read text.toList = .ok (root, position)) (ended : root.Ended text.toList.length)
    (more : String) : machine.evaluate (text ++ more) = machine.evaluate text := by
  obtain ⟨returned', same⟩ := read_append returned ended more.toList
  rw [← String.toList_append] at returned' same
  have parsed : parse text.toList = .ok root := by rw [parse, returned]
  have parsed' : parse (text ++ more).toList = .ok root := by rw [parse, returned']
  obtain ⟨form, formed, -⟩ := parse_form text.toList root parsed
  rw [machine.evaluate_of_form parsed' (same.trans formed), machine.evaluate_of_form parsed formed]

/-- A run of a continuation goes as the run of the source and is reported at the same place. -/
theorem Machine.run_append (machine : Machine σ) (direct : machine.registry.Direct)
    (unplaced : machine.registry.Each Operation.Unplaced) {text : String} {root : Node}
    {position : Nat} (returned : read text.toList = .ok (root, position))
    (ended : root.Ended text.toList.length) (more : String) :
    machine.run (text ++ more) =
      ((machine.run text).1.ofSource (text ++ more), (machine.run text).2) := by
  have same := machine.evaluate_append returned ended more
  rcases evaluated : machine.evaluate text with ⟨fault | value, after⟩
  · rw [evaluated] at same
    cases worded : fault.runMessage with
    | error raised =>
      rw [run_raised same worded, run_raised evaluated worded]
      rfl
    | ok message =>
      have inside := machine.evaluate_position_inside direct unplaced evaluated
      -- The position is in the source already, so its line and column do not depend on what
      -- follows.
      have located : (after.faultPosition fault).map (Location.ofOffset (text ++ more).toList) =
          (after.faultPosition fault).map (Location.ofOffset text.toList) := by
        rw [String.toList_append]
        cases reported : after.faultPosition fault with
        | none => rfl
        | some p =>
          rw [reported] at inside
          exact congrArg some (Location.ofOffset_append inside more.toList)
      rw [(run_reported same worded).1, (run_reported evaluated worded).1]
      simp only [failure, located, Outcome.ofSource]
  · rw [evaluated] at same
    rw [run_value same, run_value evaluated]
    rfl

/-- How a source is read says how each continuation of it is read. Reading gives a tree, or fails
where the source ends. If a continuation is not read, neither was the source. A source that is not
read has a continuation that is. And if what is read is a list, a literal or a symbol that ends
before the source does, each continuation is read the same way and as far, and is evaluated to the
same outcome; it is reported at the same place if no operation calls back or gives its faults
positions. -/
theorem read_incremental :
    (∀ source, (∃ root, parse source = .ok root) ∨
      (parse source = .error (.inputEnded source.length) ∧ read source = .error source.length)) ∧
    (∀ source more fault, parse (source ++ more) = .error fault →
      ∃ fault', parse source = .error fault') ∧
    (∀ source fault, parse source = .error fault → ∃ more root, parse (source ++ more) = .ok root) ∧
    ∀ (text more : String) (root : Node) (position : Nat),
      read text.toList = .ok (root, position) → root.Ended text.toList.length →
      read (text ++ more).toList = .ok (root, position) ∧
      ∀ machine : Machine σ, machine.evaluate (text ++ more) = machine.evaluate text ∧
        (machine.registry.Direct → machine.registry.Each Operation.Unplaced →
          machine.run (text ++ more) =
            ((machine.run text).1.ofSource (text ++ more), (machine.run text).2)) := by
  refine ⟨fun source => ?_, fun source more fault failed => ?_, fun source fault => parse_completed,
    fun text more root position returned ended => ⟨?_, fun machine => ⟨?_, ?_⟩⟩⟩
  · cases returned : read source with
    | ok pair => exact Or.inl ⟨pair.1, by rw [parse, returned]⟩
    | error place =>
      have failed : parse source = .error (.inputEnded place) := by rw [parse, returned]
      have same := parse_error failed
      simp only [Fault.inputEnded, Fault.endOfInput.injEq, Option.some.injEq, true_and] at same
      obtain rfl : place = source.length := Int.ofNat.inj same
      exact Or.inr ⟨failed, rfl⟩
  -- A source that has a tree keeps having one, so a failure of the longer one is one of this.
  · cases parsed : parse source with
    | error fault' => exact ⟨fault', rfl⟩
    | ok root =>
      obtain ⟨root', parsed'⟩ := parse_append parsed more
      rw [parsed'] at failed
      cases failed
  · rw [String.toList_append]
    exact (read_append returned ended more.toList).1
  · exact machine.evaluate_append returned ended more
  · exact fun direct unplaced => machine.run_append direct unplaced returned ended more

/-- A machine with one operation, which fails. -/
def failing : Machine Ledger :=
  .fresh (Registry.empty.register "g" (.variadic none none (Ledger.fail (.valueError "no"))))
    .empty

theorem failing_unplaced : failing.registry.Each Operation.Unplaced :=
  Registry.Each.register nofun "g" fun _ => rfl

/-- What follows a call, or the end of a literal, does not matter. -/
theorem read_incremental_failing :
    (∃ fault, parse "(".toList = .error fault) ∧
    (∃ more root, parse ("(".toList ++ more) = .ok root) ∧
    failing.registry.Direct ∧ failing.registry.Each Operation.Unplaced ∧
    read "(g 1)".toList = .ok (.list (some 0) [.symbol ⟨1, 1⟩, .symbol ⟨3, 1⟩], 5) ∧
    read ("(g 1)" ++ ")\"").toList = .ok (.list (some 0) [.symbol ⟨1, 1⟩, .symbol ⟨3, 1⟩], 5) ∧
    failing.run ("(g 1)" ++ ")\"") =
      ((failing.run "(g 1)").1.ofSource ("(g 1)" ++ ")\""), (failing.run "(g 1)").2) := by
  have direct : failing.registry.Direct := Registry.Each.register nofun "g" fun _ => trivial
  obtain ⟨-, earlier, completed, later⟩ := read_incremental (σ := Ledger)
  obtain ⟨returned, evaluated⟩ :=
    later "(g 1)" ")\"" (.list (some 0) [.symbol ⟨1, 1⟩, .symbol ⟨3, 1⟩]) 5 rfl trivial
  exact ⟨earlier "(".toList "\"".toList (.inputEnded 2) rfl,
    completed "(".toList (.inputEnded 1) rfl, direct, failing_unplaced, rfl, returned,
    (evaluated failing).2 direct failing_unplaced⟩

/-- A machine with an operation that fails and one that evaluates a source on the machine itself. -/
def reentering : Machine Ledger :=
  failing.register "f" (.variadic none none (Ledger.evaluate (some "          (g)")))

/-- The source from within fails in its call, which stays in progress. -/
private theorem inner_fails (depth : Nat) (machine : Machine Ledger)
    (registered : machine.registry = reentering.registry) : ∃ after,
    (Eval.sourceWithin (depth + 1) "          (g)").run machine =
      (.error (.valueError "no"), after) ∧ after.stack = [⟨"g", [], some 10⟩] := by
  have parsed : parse "          (g)".toList = .ok (.list (some 10) [.symbol ⟨11, 1⟩]) := rfl
  obtain ⟨registry, stack, state, journal⟩ := machine
  cases registered
  rw [Eval.sourceWithin_run parsed]
  exact ⟨_, rfl, rfl⟩

private theorem reentering_fails (depth : Nat) : ∃ after,
    (Eval.node (Eval.sourceWithin (depth + 1)) "(f)".toList (.list (some 0) [.symbol ⟨1, 1⟩])).run
      reentering = (.error (.valueError "no"), after) ∧ after.stack = [⟨"g", [], some 10⟩] := by
  let calling : Operation Ledger := .variadic none none (Ledger.evaluate (some "          (g)"))
  have found : reentering.registry.lookup (Node.symbolText ⟨1, 1⟩ "(f)".toList) =
      some ⟨"f", [calling]⟩ := rfl
  have chosen : (Overloads.mk "f" [calling]).choose? [] = some (0, calling) := rfl
  have none : Eval.nodes (Eval.sourceWithin (depth + 1)) "(f)".toList [] =
      (pure [] : Eval Ledger (List Value)) := rfl
  -- The source from within clears the frame of the call and leaves its own.
  obtain ⟨after, failed, left⟩ := inner_fails depth { reentering with
    stack := ⟨Node.symbolText ⟨1, 1⟩ "(f)".toList, [], some 0⟩ :: reentering.stack
    journal := reentering.journal ++ [.call "f" 0 1] ++ [.entered "f" 0 []] } rfl
  have performed : (Eval.perform (Eval.sourceWithin (depth + 1)) (calling.run [])).run _ = _ :=
    Eval.perform_evaluate_run failed
  rw [Eval.node_run found none]
  exact ⟨after, Eval.run_bind_error ((Eval.call_run chosen _).trans
    (Eval.run_bind_error performed)), left⟩

/-- An operation that calls back leaves calls in progress that stand in its own source. A fault
without a position is reported there, which may be beyond the end of the source that is run. -/
theorem run_append_reentering : reentering.registry.Each Operation.Unplaced ∧
    read "(f)".toList = .ok (.list (some 0) [.symbol ⟨1, 1⟩], 3) ∧
    ∃ report report' after after', reentering.run "(f)" = (.failure report, after) ∧
      reentering.run ("(f)" ++ "          ") = (.failure report', after') ∧
      report.location = some ⟨1, some 4⟩ ∧ report'.location = some ⟨1, some 11⟩ := by
  have unplaced : reentering.registry.Each Operation.Unplaced :=
    Registry.Each.register failing_unplaced "f" fun _ _ => Or.inr rfl
  have returned : read "(f)".toList = .ok (.list (some 0) [.symbol ⟨1, 1⟩], 3) := rfl
  have parsed : parse "(f)".toList = .ok (.list (some 0) [.symbol ⟨1, 1⟩]) := rfl
  obtain ⟨after, failed, left⟩ := reentering_fails (Eval.nestingDepth - 2)
  have evaluated : reentering.evaluate "(f)" = (.error (.valueError "no"), after) :=
    (reentering.evaluate_of_parse parsed).trans failed
  have evaluated' := reentering.evaluate_append returned trivial "          "
  have position : after.faultPosition (.valueError "no") = some 10 := by
    simp [Machine.faultPosition, Fault.valueError, Fault.position, left]
  refine ⟨unplaced, returned, after.failure "(f)" (.valueError "no"),
    after.failure ("(f)" ++ "          ") (.valueError "no"), after, after, ?_, ?_, ?_, ?_⟩
  · exact (Machine.run_reported evaluated rfl).1
  · exact (Machine.run_reported (evaluated'.trans evaluated) rfl).1
  · have place : Location.ofOffset "(f)".toList 10 = ⟨1, some 4⟩ := by decide
    rw [Machine.failure, position, Option.map_some, place]
  · have place : Location.ofOffset ("(f)" ++ "          ").toList 10 = ⟨1, some 11⟩ := by decide
    rw [Machine.failure, position, Option.map_some, place]

end HostLisp
