import Mathlib.Data.List.Sort
import HostLisp.Proofs.Lines
import HostLisp.Report.Location

/-!
# Rows of excerpts

An excerpt shows the lines around one of them, each in a row of its own behind a gutter of one
width, and a caret under a column of the line that is meant.

## Main results

`rows_of_within`: which rows an excerpt has.

`excerpt_aligned`: the rows of an excerpt of a line that there is, and that there are none of other
lines.

## Proof strategy

The lines are numbered by a range, of which those around the line are a part. No number is wider
than the last one, and no row has a line feed, so splitting the excerpt gives the rows again.
-/

namespace HostLisp.Excerpt

/-! ### The lines of a source -/

/-- A further line begins at the end of a source if it is asked for. -/
def Reopens (source : List Char) : Prop :=
  source.getLast? = some '\n' ∨ source.getLast? = some '\r'

instance (source : List Char) : Decidable (Reopens source) := inferInstanceAs (Decidable (_ ∨ _))

/-- How many lines a source has by itself, which is at least one. -/
def ownLines (source : List Char) : Nat := max 1 (Text.lineContents source).length

/-- How many lines a source has when one is asked for. -/
def lineCount (source : List Char) (line : Int) : Nat :=
  if line = ownLines source + 1 ∧ Reopens source then ownLines source + 1 else ownLines source

/-- The text of a line by its number, counted from one. -/
def lineText (source : List Char) (number : Nat) : List Char :=
  (Text.lineContents source)[number - 1]?.getD []

variable {source : List Char} {line : Int}

theorem map_lineText {count : Nat} (all : (Text.lineContents source).length ≤ count) :
    (List.range' 1 count).map (lineText source) = Text.lineContents source ++
      List.replicate (count - (Text.lineContents source).length) [] := by
  apply List.ext_getElem?
  intro index
  simp only [List.getElem?_map, List.getElem?_append, List.getElem?_replicate]
  grind [lineText]

theorem lines_eq_append (source : List Char) (line : Int) : lines source line =
    (List.range' 1 (ownLines source)).map (lineText source) ++
      if (ownLines source : Int) < line ∧ Reopens source then [[]] else [] := by
  rw [ownLines, map_lineText (Nat.le_max_right 1 _), lines]
  -- A source without characters has one line all the same.
  cases Text.lineContents source with
  | nil =>
    simp only [Reopens]
    split <;> simp_all
  | cons first rest =>
    simp only [Reopens]
    split <;> simp_all

/-- Up to the last line, lines are the texts of their numbers. -/
theorem lines_of_within (within : line ≤ lineCount source line) :
    lines source line = (List.range' 1 (lineCount source line)).map (lineText source) := by
  rw [lines_eq_append]
  by_cases further : line = ownLines source + 1 ∧ Reopens source
  · -- The line that is asked for is the further one, which has no text.
    have beyond : (ownLines source : Int) < line := by omega
    have empty : lineText source (1 + ownLines source) = [] := by
      have all : (Text.lineContents source).length ≤ ownLines source := Nat.le_max_right 1 _
      simp [lineText, all]
    rw [lineCount, if_pos further, if_pos ⟨beyond, further.2⟩, List.range'_concat, List.map_append,
      Nat.one_mul, List.map_singleton, empty]
  · rw [lineCount, if_neg further] at within ⊢
    have inside : ¬ ((ownLines source : Int) < line ∧ Reopens source) := by omega
    rw [if_neg inside, List.append_nil]

theorem length_lines_lt (beyond : lineCount source line < line) :
    ((lines source line).length : Int) < line := by
  rw [lines_eq_append, List.length_append, List.length_map, List.length_range']
  rw [lineCount] at beyond
  by_cases further : (ownLines source : Int) < line ∧ Reopens source
  · -- One line begins at the end, but the line that is asked for comes after it.
    have notNext : line ≠ ownLines source + 1 := by
      intro next
      rw [if_pos ⟨next, further.2⟩] at beyond
      omega
    rw [if_pos further, List.length_singleton]
    omega
  · rw [if_neg further, List.length_nil]
    split at beyond <;> omega

theorem newline_not_mem_lineText (source : List Char) (number : Nat) :
    '\n' ∉ lineText source number := by
  intro member
  cases found : (Text.lineContents source)[number - 1]? with
  | none => simp [lineText, found] at member
  | some content =>
    obtain ⟨line, inside, rfl⟩ := List.mem_map.mp (List.mem_of_getElem? found)
    rw [lineText, found, Option.getD_some] at member
    cases Text.content_plain line inside _ member

/-! ### Rows and their parts -/

/-- What stands before the text of a line in its row. -/
def gutter (width line number : Nat) : List Char := row width (number = line) number []

theorem row_eq_gutter (width line number : Nat) (content : List Char) :
    row width (number = line) number content = gutter width line number ++ content := by
  simp [gutter, row]

theorem length_toDigits_mono {m n : Nat} (order : m ≤ n) :
    (Nat.toDigits 10 m).length ≤ (Nat.toDigits 10 n).length := by
  have filled : 0 < (Nat.toDigits 10 n).length := Nat.length_toDigits_pos
  rw [Nat.length_toDigits_le_iff (by decide) filled]
  exact Nat.lt_of_le_of_lt order
    ((Nat.length_toDigits_le_iff (by decide) filled).mp (Nat.le_refl _))

theorem length_gutter {width number : Nat} (fits : (Nat.toDigits 10 number).length ≤ width)
    (line : Nat) : (gutter width line number).length = width + 5 := by
  simp only [gutter, row, List.length_append, List.length_cons, List.length_replicate,
    List.length_nil]
  omega

theorem head_gutter (width line number : Nat) (text : List Char) :
    (gutter width line number ++ text).head? = some '>' ↔ number = line := by
  by_cases here : number = line <;> simp [gutter, row, here]

theorem newline_not_mem_gutter (width line number : Nat) : '\n' ∉ gutter width line number := by
  have digits : '\n' ∉ Nat.toDigits 10 number := by
    intro member
    cases Nat.isDigit_of_mem_toDigits (by decide) (by decide) member
  cases marked : decide (number = line) <;> simp [gutter, row, marked, digits]

/-- What stands before the caret. -/
def margin (width column : Nat) : List Char :=
  ' ' :: ' ' :: List.replicate width ' ' ++ ' ' :: '|' :: ' ' :: List.replicate (column - 1) ' '

theorem caretRow_eq (width column : Nat) :
    caretRow width column = margin width column ++ ['^'] := by
  have natural : ((column : Int) - 1).toNat = column - 1 := by omega
  simp [caretRow, margin, natural]

/-- The row of a line, and the caret row if the line is the one that is meant. -/
def rowsOf (source : List Char) (width line column number : Nat) : List (List Char) :=
  (gutter width line number ++ lineText source number) ::
    if number = line then [margin width column ++ ['^']] else []

theorem newline_not_mem_rowsOf {width line column number : Nat} :
    ∀ shown ∈ rowsOf source width line column number, '\n' ∉ shown := by
  refine List.forall_mem_cons.mpr ⟨?_, ?_⟩
  · simp [newline_not_mem_gutter, newline_not_mem_lineText]
  · split <;> simp [margin]

theorem filter_rowsOf (source : List Char) (width line column number : Nat) :
    (rowsOf source width line column number).filter (·.head? = some '>') =
      if number = line then [gutter width line number ++ lineText source number] else [] := by
  have caret : (margin width column ++ ['^']).head? ≠ some '>' := by simp [margin]
  by_cases here : number = line
  · rw [rowsOf, if_pos here, if_pos here, List.filter_cons_of_pos, List.filter_cons_of_neg,
      List.filter_nil]
    · simpa using caret
    · simpa using (head_gutter width line number _).mpr here
  · rw [rowsOf, if_neg here, if_neg here, List.filter_cons_of_neg, List.filter_nil]
    simpa using mt (head_gutter width line number _).mp here

theorem flatMap_rowsOf {width line column : Nat} {numbers : List Nat}
    (others : ∀ number ∈ numbers, number ≠ line) :
    numbers.flatMap (rowsOf source width line column) =
      numbers.map fun number => gutter width line number ++ lineText source number := by
  induction numbers with
  | nil => rfl
  | cons number numbers ih =>
    obtain ⟨here, there⟩ := List.forall_mem_cons.mp others
    rw [List.flatMap_cons, ih there, rowsOf, if_neg here, List.map_cons, List.singleton_append]

theorem filter_flatMap_rowsOf {width line column : Nat} {numbers : List Nat}
    (others : ∀ number ∈ numbers, number ≠ line) :
    (numbers.flatMap (rowsOf source width line column)).filter (·.head? = some '>') = [] := by
  rw [List.filter_flatMap, List.flatMap_eq_nil_iff]
  intro number member
  rw [filter_rowsOf, if_neg (others number member)]

/-! ### The rows around a line -/

theorem zipIdx_map_range' {α : Type} (f : Nat → α) (start count : Nat) :
    ((List.range' start count).map f).zipIdx start =
      (List.range' start count).map fun number => (f number, number) := by
  induction count generalizing start with
  | zero => rfl
  | succ count ih => rw [List.range'_succ, List.map_cons, List.zipIdx_cons, ih, List.map_cons]

/-- A range around a number: those before it, itself, and those after it. -/
theorem range'_around {first line last : Nat} (lower : first ≤ line) (upper : line ≤ last) :
    List.range' first (last + 1 - first) =
      List.range' first (line - first) ++ line :: List.range' (line + 1) (last - line) := by
  rw [← List.range'_succ, show last + 1 - first = line - first + (last - line + 1) by omega,
    ← List.range'_append_1, Nat.add_sub_cancel' lower]

theorem filter_range' {first last count : Nat} (positive : 1 ≤ first) (order : first ≤ last)
    (within : last ≤ count) :
    (List.range' 1 count).filter (fun number => first ≤ number && number ≤ last) =
      List.range' first (last + 1 - first) := by
  have rising (start count : Nat) : (List.range' start count).Pairwise (· < ·) :=
    List.pairwise_lt_range'
  -- Both rise, so it is enough that they have the same numbers.
  apply ((rising 1 count).filter _).eq_of_mem_iff (rising first _)
  intro number
  simp only [List.mem_filter, List.mem_range'_1, Bool.and_eq_true, decide_eq_true_eq]
  omega

/-- An excerpt has the rows of the lines around one that there is. -/
theorem rows_of_within {line column radius first last : Nat} (positive : 1 ≤ line)
    (within : line ≤ lineCount source line) (isFirst : first = max 1 (line - radius))
    (isLast : last = min (lineCount source line) (line + radius)) :
    rows source line (some (column : Int)) radius = (List.range' first (last + 1 - first)).flatMap
      (rowsOf source (Nat.toDigits 10 last).length line column) := by
  have first' : max 1 ((line : Int) - radius) = first := by omega
  have last' : min (lineCount source line : Int) (line + radius) = last := by omega
  have inside : ¬ ((line : Int) < 1 ∨ (lineCount source line : Int) < line) := by omega
  rw [rows, lines_of_within (by omega)]
  simp only [List.length_map, List.length_range', zipIdx_map_range', Bool.or_eq_true,
    decide_eq_true_eq, inside, if_false, first', last', Int.toNat_natCast, List.filter_map,
    List.flatMap_map, Function.comp_def, Int.ofNat_le]
  rw [filter_range' (by omega) (by omega) (by omega)]
  -- The two sides differ only in the types of the numbers that are compared.
  apply List.flatMap_congr
  intro number member
  simp only [rowsOf, ← row_eq_gutter, ← caretRow_eq, Int.natCast_inj]

theorem splitOn_render {column : Option Int} {radius : Int}
    (filled : rows source line column radius ≠ [])
    (plain : ∀ row ∈ rows source line column radius, '\n' ∉ row) :
    (render source line column radius).toList.splitOn '\n' = rows source line column radius := by
  have same : ((rows source line column radius).map String.ofList).map String.toList =
      rows source line column radius := by
    simp [Function.comp_def]
  rw [render, String.toList_intercalate, same]
  exact List.splitOn_intercalate '\n' plain filled

/-- The rows of an excerpt of the lines from the first to the last, in which a column of one line is
pointed at. -/
structure Aligned (source : List Char) (line column first last width : Nat) (margin : List Char)
    (shown : List (List Char)) : Prop where
  /-- The rows of the lines in order, and the caret row directly after that of the line. -/
  rows : shown =
    ((List.range' first (line - first)).map fun number =>
      gutter width line number ++ lineText source number) ++
    ((gutter width line line ++ lineText source line) :: (margin ++ ['^']) ::
      (List.range' (line + 1) (last - line)).map fun number =>
        gutter width line number ++ lineText source number)
  even : ∀ number, first ≤ number → number ≤ last → (gutter width line number).length = width + 5
  marked : shown.filter (·.head? = some '>') = [gutter width line line ++ lineText source line]
  /-- The caret stands under the column: so many characters are before both of them. -/
  under : margin.length = width + 5 + column - 1
  clear : '^' ∉ margin

theorem aligned_flatMap {line column first last : Nat} (lower : first ≤ line) (upper : line ≤ last)
    (positive : 1 ≤ column) :
    Aligned source line column first last (Nat.toDigits 10 last).length
      (margin (Nat.toDigits 10 last).length column)
      ((List.range' first (last + 1 - first)).flatMap
        (rowsOf source (Nat.toDigits 10 last).length line column)) := by
  -- The marked line splits the range in two, and neither part has it.
  have before : ∀ number ∈ List.range' first (line - first), number ≠ line := by
    intro number member
    have bounds := List.mem_range'_1.mp member
    omega
  have after : ∀ number ∈ List.range' (line + 1) (last - line), number ≠ line := by
    intro number member
    have bounds := List.mem_range'_1.mp member
    omega
  constructor
  · rw [range'_around lower upper, List.flatMap_append, List.flatMap_cons, flatMap_rowsOf before,
      flatMap_rowsOf after, rowsOf, if_pos rfl]
    rfl
  · intro number _ within
    exact length_gutter (length_toDigits_mono within) line
  · -- No other line has this number, so the rest of the range has no marked row.
    rw [range'_around lower upper, List.flatMap_append, List.flatMap_cons, List.filter_append,
      List.filter_append, filter_flatMap_rowsOf before, filter_flatMap_rowsOf after, filter_rowsOf,
      if_pos rfl]
    rfl
  · simp only [margin, List.length_append, List.length_cons, List.length_replicate]
    omega
  · simp [margin]

/-- Splitting an excerpt of a line that there is gives the rows of the lines up to the radius on
either side, as far as there are any, and a caret row directly after the row of the line. All rows
have a gutter of one width, behind which the numbered ones show the text of their line; exactly the
row of the line is marked, and the caret stands under the column. An excerpt of any other line is
empty. -/
theorem excerpt_aligned (source : List Char) :
    (∀ line column radius : Nat, 1 ≤ line → line ≤ lineCount source line → 1 ≤ column →
      ∃ width margin, Aligned source line column (max 1 (line - radius))
        (min (lineCount source line) (line + radius)) width margin
        ((render source line (some (column : Int)) radius).toList.splitOn '\n')) ∧
    ∀ (line : Int) (column : Option Int) (radius : Int),
      line < 1 ∨ lineCount source line < line → render source line column radius = "" := by
  constructor
  · intro line column radius positive within here
    have aligned : Aligned source line column (max 1 (line - radius))
        (min (lineCount source line) (line + radius)) _ _ _ :=
      aligned_flatMap (by omega) (by omega) here
    rw [← rows_of_within positive within rfl rfl] at aligned
    -- No row has a line break of its own, so the rows are what the text is split into.
    have parts : (render source line (some (column : Int)) radius).toList.splitOn '\n' =
        rows source line (some (column : Int)) radius := by
      apply splitOn_render
      · rw [aligned.rows]
        simp
      · rw [rows_of_within positive within rfl rfl]
        intro shown member
        obtain ⟨number, -, inside⟩ := List.mem_flatMap.mp member
        exact newline_not_mem_rowsOf shown inside
    rw [parts]
    exact ⟨_, _, aligned⟩
  · intro line column radius outside
    have none : rows source line column radius = [] := by
      have outside' : line < 1 ∨ ((lines source line).length : Int) < line :=
        outside.imp_right length_lines_lt
      simp [rows, outside']
    rw [render, none]
    rfl

/-- The number of the last row is wider than that of the line. -/
theorem excerpt_aligned_ninth :
    let source := "a\nb\nc\nd\ne\nf\ng\nh\ni\nj".toList
    let shown := render source (9 : Nat) (some (2 : Nat)) (1 : Nat)
    1 ≤ 9 ∧ 9 ≤ lineCount source (9 : Nat) ∧ 1 ≤ 2 ∧
      ∃ width margin, Aligned source 9 2 (max 1 (9 - 1)) (min (lineCount source (9 : Nat)) (9 + 1))
        width margin (shown.toList.splitOn '\n') := by
  have within : 9 ≤ lineCount "a\nb\nc\nd\ne\nf\ng\nh\ni\nj".toList (9 : Nat) := by decide
  exact ⟨by decide, within, by decide,
    (excerpt_aligned _).1 9 2 1 (by decide) within (by decide)⟩

end HostLisp.Excerpt
