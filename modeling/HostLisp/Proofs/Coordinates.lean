import HostLisp.Proofs.Lines
import HostLisp.Report.Location
import Mathlib.Data.Prod.Lex

/-!
# Lines and columns

Lines and columns are coordinates of the lines of a source: the character at an offset stands at its
column of its line, and a later offset has later coordinates.

## Main results

`lineAndColumn_points`: the coordinates of a character that is no break lead to that character.

`lineAndColumn_lt`: later offsets have later coordinates, but from between the two characters of a
break to the one behind it.

`coordinates_faithful`: both, and what coordinates an offset outside of the source has.

## Proof strategy

Cutting the source where the line of an offset begins gives both coordinates. One step further the
cut stays, or moves behind the break that was stepped over. The order is an induction on the later
offset.
-/

namespace HostLisp.Location

open Text

variable {source : List Char} {offset : Nat} {c : Char}

/-- The line of an offset comes after the complete ones before it, and its column after the
characters before it on that line. -/
theorem lineAndColumn_of_cut {whole rest : List Char} (cut : Cut (source.take offset) whole rest) :
    lineAndColumn source offset = ((lines whole).length + 1, rest.length + 1) := by
  obtain ⟨split, complete, plain⟩ := cut
  rw [lineAndColumn, Int.toNat_natCast, split]
  -- Only a complete line that ends right here makes the next line begin.
  cases rest with
  | nil =>
    rw [List.append_nil]
    cases last : whole.getLast? with
    | none =>
      obtain rfl := List.getLast?_eq_none_iff.mp last
      rfl
    | some c =>
      obtain ⟨line, found, ended⟩ := getLast?_lines last
      rw [complete c last] at ended
      simp [found, ended]
  | cons c rest =>
    have apart : Apart whole (c :: rest) := apart_of_plain (plain c List.mem_cons_self) _ _
    rw [lines_append complete apart, lines_of_plain plain (List.cons_ne_nil c rest)]
    simp [Line.isEnded]

/-! ### One step -/

/-- An offset between the two characters of a break. -/
def InsidePair (source : List Char) (offset : Nat) : Prop :=
  ∃ before, offset = before + 1 ∧ source[before]? = some '\r' ∧ source[offset]? = some '\n'

/-- An offset after a carriage return and before a line feed is between the two characters of a
break. -/
theorem insidePair_of_take (before : (source.take offset).getLast? = some '\r')
    (after : source[offset]? = some '\n') : InsidePair source offset := by
  cases offset with
  | zero => cases before
  | succ place =>
    obtain ⟨within, -⟩ := List.getElem?_eq_some_iff.mp after
    rw [List.getLast?_take, if_neg (Nat.succ_ne_zero place), Nat.add_sub_cancel,
      List.getElem?_eq_getElem (by omega), Option.some_or] at before
    exact ⟨place, rfl, by rw [List.getElem?_eq_getElem (by omega), before], after⟩

/-- No two offsets in a row are inside of a pair. -/
theorem InsidePair.not_succ (inside : InsidePair source offset) :
    ¬ InsidePair source (offset + 1) := by
  rintro ⟨before, same, first, -⟩
  obtain ⟨-, -, -, second⟩ := inside
  obtain rfl := Nat.succ.inj same
  cases first.symm.trans second

theorem take_succ_eq (here : source[offset]? = some c) :
    source.take (offset + 1) = source.take offset ++ [c] := by
  rw [List.take_add_one, here, Option.toList_some]

/-- A character that is no break is passed on its line. -/
theorem lineAndColumn_after_plain (here : source[offset]? = some c)
    (plain : isLineBreak c = false) : ∃ line column,
      lineAndColumn source offset = (line, column) ∧
      lineAndColumn source (offset + 1 : Nat) = (line, column + 1) := by
  obtain ⟨whole, rest, cut⟩ := exists_cut (source.take offset)
  -- The character joins the line that is not complete yet.
  have cut' : Cut (source.take (offset + 1)) whole (rest ++ [c]) := by
    refine ⟨?_, cut.complete, ?_⟩
    · rw [take_succ_eq here, cut.text_eq, List.append_assoc]
    · simpa [or_imp, forall_and, plain] using cut.plain
  refine ⟨_, _, lineAndColumn_of_cut cut, ?_⟩
  rw [lineAndColumn_of_cut cut', List.length_append, List.length_singleton]

/-- Behind a break a line begins, after all that are ended up to there. -/
theorem lineAndColumn_after_break (here : source[offset]? = some c)
    (isBreak : isLineBreak c = true) : lineAndColumn source (offset + 1 : Nat) =
      ((lines (source.take (offset + 1))).length + 1, 1) := by
  have cut : Cut (source.take (offset + 1)) (source.take (offset + 1)) [] := by
    refine ⟨(List.append_nil _).symm, ?_, nofun⟩
    intro d last
    obtain rfl : c = d := by simpa [take_succ_eq here] using last
    exact isBreak
  exact lineAndColumn_of_cut cut

/-- After a break the next line begins, unless the break has a second character to come. -/
theorem lineAndColumn_next (here : source[offset]? = some c) (isBreak : isLineBreak c = true)
    (outside : ¬ InsidePair source offset) : ∃ line column,
      lineAndColumn source offset = (line, column) ∧
      lineAndColumn source (offset + 1 : Nat) = (line + 1, 1) := by
  obtain ⟨whole, rest, cut⟩ := exists_cut (source.take offset)
  refine ⟨_, _, lineAndColumn_of_cut cut, ?_⟩
  have apart : Apart whole (rest ++ [c]) := by
    apply cut.apart
    rintro rfl ⟨last, first⟩
    obtain rfl : c = '\n' := Option.some.inj first
    rw [← List.append_nil whole, ← cut.text_eq] at last
    exact outside (insidePair_of_take last here)
  rw [lineAndColumn_after_break here isBreak, take_succ_eq here,
    cut.length_lines (.single isBreak) apart]

/-- Between the two characters of a break the next line has begun already. -/
theorem lineAndColumn_insidePair (inside : InsidePair source offset) :
    lineAndColumn source (offset + 1 : Nat) = lineAndColumn source offset := by
  obtain ⟨before, rfl, first, second⟩ := inside
  obtain ⟨whole, rest, cut⟩ := exists_cut (source.take before)
  have apart (others : List Char) : Apart whole (rest ++ '\r' :: others) := by
    apply cut.apart
    rintro - ⟨-, head⟩
    cases head
  -- The carriage return completes the line, and the line feed after it completes the same line.
  have one : (lines (source.take (before + 1))).length = (lines whole).length + 1 := by
    rw [take_succ_eq first]
    exact cut.length_lines (.single rfl) (apart _)
  have both : (lines (source.take (before + 1 + 1))).length = (lines whole).length + 1 := by
    rw [take_succ_eq second, take_succ_eq first, List.append_assoc]
    exact cut.length_lines .pair (apart _)
  rw [lineAndColumn_after_break first rfl, lineAndColumn_after_break second rfl, one, both]

/-! ### The order of offsets -/

/-- One character further the coordinates are later, except between the two characters of a break.
-/
theorem lineAndColumn_lt_succ (within : offset < source.length)
    (outside : ¬ InsidePair source offset) :
    toLex (lineAndColumn source offset) < toLex (lineAndColumn source (offset + 1 : Nat)) := by
  have here : source[offset]? = some source[offset] := List.getElem?_eq_getElem within
  rw [Prod.Lex.toLex_lt_toLex]
  cases breaks : isLineBreak source[offset] with
  | true =>
    obtain ⟨line, column, before, after⟩ := lineAndColumn_next here breaks outside
    rw [before, after]
    exact Or.inl (Nat.lt_succ_self line)
  | false =>
    obtain ⟨line, column, before, after⟩ := lineAndColumn_after_plain here breaks
    rw [before, after]
    exact Or.inr ⟨rfl, Nat.lt_succ_self column⟩

/-- Later offsets never have earlier coordinates. -/
theorem lineAndColumn_mono {first second : Nat} (order : first ≤ second)
    (within : second ≤ source.length) :
    toLex (lineAndColumn source first) ≤ toLex (lineAndColumn source second) := by
  induction second, order using Nat.le_induction with
  | base => exact le_refl _
  | succ second order ih =>
    apply (ih (by omega)).trans
    by_cases inside : InsidePair source second
    · rw [lineAndColumn_insidePair inside]
    · exact (lineAndColumn_lt_succ within inside).le

/-- Later offsets have later coordinates. Those between the two characters of a break are the ones
behind it. -/
theorem lineAndColumn_lt {first second : Nat} (order : first < second)
    (within : second ≤ source.length) (apart : ¬ (second = first + 1 ∧ InsidePair source first)) :
    toLex (lineAndColumn source first) < toLex (lineAndColumn source second) := by
  by_cases inside : InsidePair source first
  · -- The step out of the pair leads nowhere, but it is not the only one.
    have further : first + 1 + 1 ≤ second := by
      have other : second ≠ first + 1 := fun same => apart ⟨same, inside⟩
      omega
    rw [← lineAndColumn_insidePair inside]
    exact (lineAndColumn_lt_succ (by omega) inside.not_succ).trans_le
      (lineAndColumn_mono further within)
  · exact (lineAndColumn_lt_succ (by omega) inside).trans_le (lineAndColumn_mono order within)

/-! ### The character at an offset -/

/-- The coordinates of a character that is no break lead to that character. -/
theorem lineAndColumn_points (here : source[offset]? = some c) (plain : isLineBreak c = false) :
    ∃ line column content, lineAndColumn source offset = (line + 1, column + 1) ∧
      (lineContents source)[line]? = some content ∧ content[column]? = some c := by
  obtain ⟨whole, rest, cut⟩ := exists_cut (source.take offset)
  -- The line goes on after the character, up to a break or the end of the source.
  obtain ⟨more, ending, others, found⟩ := lines_through cut.plain plain (source.drop (offset + 1))
  have apart : Apart whole (rest ++ c :: source.drop (offset + 1)) :=
    cut.apart fun _ => apart_of_plain plain _ _
  have split : source = whole ++ (rest ++ c :: source.drop (offset + 1)) := by
    obtain ⟨within, same⟩ := List.getElem?_eq_some_iff.mp here
    rw [← List.append_assoc, ← cut.text_eq, ← same, ← List.drop_eq_getElem_cons,
      List.take_append_drop]
  refine ⟨_, _, rest ++ c :: more, lineAndColumn_of_cut cut, ?_, by simp⟩
  rw [lineContents, split, lines_append cut.complete apart, found]
  simp

/-- Lines and columns, counted from one, are coordinates of the lines of a source. Those of a
character that is no break lead to that character. Of two offsets the later one has the later
coordinates, but if they are next to each other and the earlier one is between the two characters
of a break: then the coordinates are the same. An offset before the source has those of its start,
and one beyond the source those of its end. -/
theorem coordinates_faithful (source : List Char) :
    (∀ (offset : Nat) (c : Char), source[offset]? = some c → isLineBreak c = false →
      ∃ line column content, lineAndColumn source offset = (line + 1, column + 1) ∧
        (lineContents source)[line]? = some content ∧ content[column]? = some c) ∧
    (∀ first second : Nat, first < second → second ≤ source.length →
      (second = first + 1 ∧ InsidePair source first →
        lineAndColumn source first = lineAndColumn source second) ∧
      (¬ (second = first + 1 ∧ InsidePair source first) →
        toLex (lineAndColumn source first) < toLex (lineAndColumn source second))) ∧
    ∀ offset : Int, (offset < 0 → lineAndColumn source offset = lineAndColumn source 0) ∧
      (source.length < offset →
        lineAndColumn source offset = lineAndColumn source source.length) := by
  refine ⟨fun offset c here plain => lineAndColumn_points here plain, ?_, ?_⟩
  -- Of two offsets in the source.
  · intro first second order within
    constructor
    · rintro ⟨rfl, inside⟩
      exact (lineAndColumn_insidePair inside).symm
    · exact lineAndColumn_lt order within
  -- Of an offset outside of it.
  · intro offset
    constructor
    · intro before
      have start : offset.toNat = 0 := Int.toNat_of_nonpos (by omega)
      simp only [lineAndColumn, start, Int.toNat_zero]
    · intro beyond
      have whole : source.take offset.toNat = source := List.take_of_length_le (by omega)
      simp only [lineAndColumn, whole, Int.toNat_natCast, List.take_length]

/-- A carriage return before a line feed: the offset between the two has the coordinates of the one
behind them, where the next line begins. -/
theorem coordinates_faithful_pair :
    ("a\r\nb".toList[3]? = some 'b' ∧ isLineBreak 'b' = false ∧
      ∃ line column content, lineAndColumn "a\r\nb".toList (3 : Nat) = (line + 1, column + 1) ∧
        (lineContents "a\r\nb".toList)[line]? = some content ∧ content[column]? = some 'b') ∧
    (InsidePair "a\r\nb".toList 2 ∧
      lineAndColumn "a\r\nb".toList (2 : Nat) = lineAndColumn "a\r\nb".toList (3 : Nat)) ∧
    (¬ InsidePair "a\r\nb".toList 1 ∧ toLex (lineAndColumn "a\r\nb".toList (1 : Nat)) <
      toLex (lineAndColumn "a\r\nb".toList (2 : Nat))) := by
  obtain ⟨points, order, -⟩ := coordinates_faithful "a\r\nb".toList
  have inside : InsidePair "a\r\nb".toList 2 := ⟨1, rfl, rfl, rfl⟩
  have outside : ¬ InsidePair "a\r\nb".toList 1 := by
    rintro ⟨before, -, -, feed⟩
    exact absurd feed (by decide)
  refine ⟨⟨rfl, rfl, points 3 'b' rfl rfl⟩, ⟨inside, ?_⟩, ⟨outside, ?_⟩⟩
  · exact (order 2 3 (by decide) (by decide)).1 ⟨rfl, inside⟩
  · exact (order 1 2 (by decide) (by decide)).2 fun ⟨_, within⟩ => outside within

end HostLisp.Location
