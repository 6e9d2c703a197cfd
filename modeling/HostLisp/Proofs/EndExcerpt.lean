import HostLisp.Proofs.Lines
import HostLisp.Proofs.Placement
import HostLisp.Proofs.Run

/-!
# Excerpts at the end of a source

A source that ends too early is reported at its end. The excerpt shows the last line there, or the
empty line that a break at the very end begins.

## Main results

`inputEnded_excerpt`: the report has an excerpt exactly if the source does not end in a break other
than line feed and carriage return, and then the caret stands after the last character of the line.

`inputEnded_excerpt_missing`: after a vertical tab the excerpt is missing.

## Proof strategy

The line of the end is counted from the lines of the source and whether the last one is ended, which
its last character decides. Excerpts number the same lines, but begin a further one after two of the
ten breaks only.
-/

namespace HostLisp

/-! ### The line of the end -/

namespace Excerpt

/-- A source ends in a line break after which excerpts number no further line. -/
def EndsUnseen (source : List Char) : Prop :=
  ∃ c, source.getLast? = some c ∧ Text.isLineBreak c = true ∧ c ≠ '\n' ∧ c ≠ '\r'

/-- The lines that an excerpt numbers end with the one on which the source ends, and the source ends
behind the last character of that line. -/
structure ReachesEnd (source : List Char) (line column : Nat) (content : List Char) : Prop where
  numbered : ∃ before, lines source line = before ++ [content] ∧ line = before.length + 1
  behind : column = content.length + 1

private theorem lineContents_eq {source : List Char} {line : Text.Line}
    (last : (Text.lines source).getLast? = some line) :
    ∃ before, Text.lineContents source = before ++ [line.content] ∧
      (Text.lines source).length = before.length + 1 := by
  obtain ⟨before, split⟩ := List.getLast?_eq_some_iff.mp last
  refine ⟨before.map Text.Line.content, ?_, by simp [split]⟩
  rw [Text.lineContents, split, List.map_append]
  rfl

/-- Unless the source ends unseen, the excerpt at its end reaches that end. -/
theorem reachesEnd_or_endsUnseen {source : List Char} (filled : source ≠ []) :
    ∃ line column, Location.lineAndColumn source source.length = (line, column) ∧
      ((∃ content, ReachesEnd source line column content) ∧ ¬ EndsUnseen source ∨
        EndsUnseen source ∧ (lines source line).length < line) := by
  obtain ⟨c, last⟩ := Option.ne_none_iff_exists'.mp (mt List.getLast?_eq_none_iff.mp filled)
  obtain ⟨line, found, ended⟩ := Text.getLast?_lines last
  obtain ⟨before, contents, count⟩ := lineContents_eq found
  -- Whether the last character is a break decides where the end of the source is.
  cases breaks : Text.isLineBreak c with
  | false =>
    -- The last line goes on to the end of the source.
    rw [breaks] at ended
    have seen : ¬ EndsUnseen source := by
      rintro ⟨d, last', isBreak, -⟩
      cases last.symm.trans last'
      rw [breaks] at isBreak
      cases isBreak
    refine ⟨_, _, ?_, Or.inl ⟨⟨line.content, ⟨before, ?_, count⟩, rfl⟩, seen⟩⟩
    · simp [Location.lineAndColumn, found, ended]
    · simp [lines, contents, count]
  | true =>
    rw [breaks] at ended
    have placed :
        Location.lineAndColumn source source.length = ((Text.lines source).length + 1, 1) := by
      simp [Location.lineAndColumn, found, ended]
    refine ⟨_, _, placed, ?_⟩
    -- Only after these two has the source a further line for the excerpt.
    by_cases reopened : c = '\n' ∨ c = '\r'
    · have seen : ¬ EndsUnseen source := by
        rintro ⟨d, last', -, notFeed, notReturn⟩
        cases last.symm.trans last'
        rcases reopened with feed | return'
        · exact notFeed feed
        · exact notReturn return'
      refine Or.inl ⟨⟨[], ⟨Text.lineContents source, ?_, ?_⟩, rfl⟩, seen⟩
      · have beyond : (before.length : Int) + 1 < before.length + 1 + 1 := Int.lt_succ _
        simp [lines, contents, count, last, reopened, beyond]
      · simp [contents, count]
    · obtain ⟨notFeed, notReturn⟩ := not_or.mp reopened
      refine Or.inr ⟨⟨c, last, breaks, notFeed, notReturn⟩, ?_⟩
      simp [lines, contents, count, last, notFeed, notReturn]

/-! ### The rows of the end -/

private theorem length_row (width number : Nat) (marked : Bool) (content : List Char)
    (fits : (Nat.toDigits 10 number).length ≤ width) :
    (row width marked number content).length = width + 5 + content.length := by
  simp only [row, List.length_append, List.length_cons, List.length_replicate]
  omega

private theorem length_caretRow (width : Nat) (column : Nat) :
    (caretRow width (column + 1)).length = width + 5 + column + 1 := by
  simp only [caretRow, List.length_append, List.length_cons, List.length_replicate, List.length_nil]
  omega

/-- The excerpt ends with the row of the last line and a caret behind the last character of that. -/
theorem rows_of_reachesEnd {source : List Char} {line column : Nat} {content : List Char}
    (reaches : ReachesEnd source line column content) {radius : Int} (natural : 0 ≤ radius) :
    ∃ before width, rows source line (some column) radius =
        before ++ [row width true line content, caretRow width column] ∧
      (caretRow width column).length = (row width true line content).length + 1 := by
  obtain ⟨⟨earlier, numbered, count⟩, rfl⟩ := reaches
  have size : (earlier ++ [content]).length = line := by simp [count]
  have place : 1 + earlier.length = line := by omega
  -- The line is the last that is numbered, so its own number is the widest one.
  have last : min (line : Int) (line + radius) = line := by omega
  have first : max 1 ((line : Int) - radius) ≤ line := by omega
  have inside : ¬ (line : Int) < 1 := by omega
  simp only [rows, numbered, size, last, Int.toNat_natCast, inside, Int.lt_irrefl, decide_false,
    Bool.or_self, Bool.false_eq_true, if_false, List.zipIdx_append, List.zipIdx_singleton, place,
    List.filter_append, List.flatMap_append]
  -- The last line gives the last two rows, and those before it do not matter.
  refine ⟨_, (Nat.toDigits 10 line).length, congrArg (_ ++ ·) ?_, ?_⟩
  · simp only [List.filter_cons, List.filter_nil, first, Int.le_refl, decide_true, Bool.and_self,
      if_true, List.flatMap_singleton]
  · rw [Int.natCast_add, Int.natCast_one, length_caretRow, length_row _ _ _ _ (Nat.le_refl _)]

theorem rows_of_short {source : List Char} {line : Nat} (short : (lines source line).length < line)
    (column : Option Int) (radius : Int) : rows source line column radius = [] := by
  have beyond : ((lines source line).length : Int) < line := by omega
  simp [rows, beyond]

/-- An excerpt of several rows has characters, be it the break between two of them. -/
theorem render_ne_empty {source : List Char} {line : Int} {column : Option Int} {radius : Int}
    {before : List (List Char)} {first second : List Char}
    (shown : rows source line column radius = before ++ [first, second]) :
    render source line column radius ≠ "" := by
  obtain ⟨top, next, rest, split⟩ :
      ∃ top next rest, before ++ [first, second] = top :: next :: rest := by
    cases before with
    | nil => exact ⟨first, second, [], rfl⟩
    | cons top before =>
      cases before with
      | nil => exact ⟨top, first, [second], rfl⟩
      | cons next before => exact ⟨top, next, before ++ [first, second], rfl⟩
  rw [render, shown, split, List.map_cons, List.map_cons, String.intercalate_cons_cons]
  -- Two rows have a line feed between them.
  intro empty
  have chars := congrArg String.toList empty
  simp at chars

end Excerpt

/-! ### Reports of sources that end too early -/

/-- A report without calls in progress is its headline, and the excerpt below it if there is one. -/
theorem Failure.render_of_location {report : Failure} {location : Location}
    (located : report.location = some location) (idle : report.trace = []) :
    report.render = .ok (if report.excerpt location = "" then
      locationText location ++ report.messageText
      else locationText location ++ report.messageText ++ "\n" ++ report.excerpt location) := by
  have trace : TraceEntry.renderAll report.trace = .ok "" := by
    rw [idle]
    rfl
  by_cases none : report.excerpt location = ""
  · simp [render, located, trace, none, bind, Except.bind]
  · simp [render, located, trace, none, bind, Except.bind, String.append_assoc]

/-- A source that is not empty and ends too early is located at its end. The report has an excerpt
exactly if the source does not end in a break other than line feed and carriage return. The excerpt
ends with the last line of the source, marked, and a caret behind the last character of that row. -/
theorem inputEnded_excerpt {σ : Type} (machine : Machine σ) (text : String) (filled : text ≠ "")
    (fault : Fault) (failed : parse text.toList = .error fault) :
    ∃ report after line column, machine.run text = (.failure report, after) ∧
      Location.lineAndColumn text.toList text.toList.length = (line, column) ∧
      report.location = some ⟨line, some column⟩ ∧
      (Excerpt.render text.toList line (some column) Excerpt.defaultRadius ≠ "" ↔
        ¬ Excerpt.EndsUnseen text.toList) ∧
      (¬ Excerpt.EndsUnseen text.toList → ∃ content before width,
        Excerpt.ReachesEnd text.toList line column content ∧
        Excerpt.rows text.toList line (some column) Excerpt.defaultRadius =
          before ++ [Excerpt.row width true line content, Excerpt.caretRow width column] ∧
        (Excerpt.caretRow width column).length = (Excerpt.row width true line content).length + 1 ∧
        report.render = .ok (Failure.locationText ⟨line, some column⟩ ++ report.messageText ++ "\n" ++
          Excerpt.render text.toList line (some column) Excerpt.defaultRadius)) ∧
      (Excerpt.EndsUnseen text.toList →
        report.render = .ok (Failure.locationText ⟨line, some column⟩ ++ report.messageText)) := by
  -- Reading fails at the end of the source only, so that is where the fault is.
  obtain rfl := parse_error failed
  have chars : text.toList ≠ [] := fun none => filled (String.toList_eq_nil_iff.mp none)
  obtain ⟨line, column, placed, reached⟩ := Excerpt.reachesEnd_or_endsUnseen chars
  let after : Machine σ := { machine with stack := [] }
  let report := after.failure text (.inputEnded text.toList.length)
  have ran : machine.run text = (.failure report, after) :=
    (Machine.run_reported (machine.evaluate_of_error failed) rfl).1
  have located : report.location = some ⟨line, some column⟩ := by
    change some (Location.ofOffset text.toList text.toList.length) = _
    rw [Location.ofOffset, placed]
  have shown : report.excerpt ⟨line, some column⟩ =
      Excerpt.render text.toList line (some column) Excerpt.defaultRadius :=
    if_neg (by simpa using filled)
  have rendered := Failure.render_of_location located rfl
  rw [shown] at rendered
  refine ⟨report, after, line, column, ran, placed, located, ?_⟩
  rcases reached with ⟨⟨content, reaches⟩, seen⟩ | ⟨unseen, short⟩
  · have natural : 0 ≤ Excerpt.defaultRadius := by decide
    obtain ⟨before, width, rows, caret⟩ := Excerpt.rows_of_reachesEnd reaches natural
    have some' := Excerpt.render_ne_empty rows
    rw [if_neg some'] at rendered
    exact ⟨⟨fun _ => seen, fun _ => some'⟩,
      fun _ => ⟨content, before, width, reaches, rows, caret, rendered⟩,
      fun unseen => absurd unseen seen⟩
  · have none : Excerpt.render text.toList line (some column) Excerpt.defaultRadius = "" := by
      rw [Excerpt.render, Excerpt.rows_of_short short]
      rfl
    rw [if_pos none] at rendered
    exact ⟨⟨fun some' => absurd none some', fun seen => absurd unseen seen⟩,
      fun seen => absurd unseen seen, fun _ => rendered⟩

/-- A parenthesis that is never closed on a line of its own number. -/
theorem inputEnded_excerpt_reopened : "(add 1\n" ≠ "" ∧
    parse "(add 1\n".toList = .error (.inputEnded 7) ∧
    ∃ report after line column,
      (Machine.fresh (Registry.empty (σ := Unit)) ()).run "(add 1\n" = (.failure report, after) ∧
      Location.lineAndColumn "(add 1\n".toList "(add 1\n".toList.length = (line, column) ∧
      report.location = some ⟨line, some column⟩ ∧
      Excerpt.render "(add 1\n".toList line (some column) Excerpt.defaultRadius ≠ "" := by
  have failed : parse "(add 1\n".toList = .error (.inputEnded 7) := rfl
  obtain ⟨report, after, line, column, ran, placed, located, shown, -⟩ :=
    inputEnded_excerpt (Machine.fresh (Registry.empty (σ := Unit)) ()) "(add 1\n" (by decide) _
      failed
  refine ⟨by decide, failed, report, after, line, column, ran, placed, located, shown.mpr ?_⟩
  rintro ⟨c, last, -, notFeed, -⟩
  cases last
  exact notFeed rfl

/-- After a vertical tab, which is a line break of the location, the excerpt is missing. -/
theorem inputEnded_excerpt_missing : parse "(add 1\x0b".toList = .error (.inputEnded 7) ∧
    Location.lineAndColumn "(add 1\x0b".toList "(add 1\x0b".toList.length = (2, 1) ∧
    Excerpt.render "(add 1\x0b".toList 2 (some 1) Excerpt.defaultRadius = "" :=
  ⟨rfl, rfl, rfl⟩

end HostLisp
