import HostLisp.Text.LineBreak
import Mathlib.Data.List.Induction

/-!
# Lines of texts

How the lines of a text come from the lines of its parts.

## Main results

`Text.lines_append`: the lines of a text whose lines are all ended are followed by those of what
comes after it.

`Text.exists_cut`: every text is such a text and then the beginning of a line.

`Text.content_plain`: no line has a break in its content.

## Proof strategy

Inductions follow the cases of `Text.lines`. Only a carriage return before a line feed has to be
kept together: apart from that pair a text can be cut behind any break.
-/

namespace HostLisp.Text

/-! ### The first line -/

theorem lines_eq_nil {text : List Char} (empty : lines text = []) : text = [] := by
  have chars := flatMap_chars_lines text
  rw [empty] at chars
  exact chars.symm

/-- No pair of characters that counts as one break is cut in two. -/
def Apart (before after : List Char) : Prop :=
  ¬ (before.getLast? = some '\r' ∧ after.head? = some '\n')

theorem Apart.tail {c : Char} {before after : List Char} (apart : Apart (c :: before) after) :
    Apart before after := by
  rintro ⟨last, first⟩
  exact apart ⟨by simp [List.getLast?_cons, last], first⟩

theorem apart_of_plain {c : Char} (plain : isLineBreak c = false) (before after : List Char) :
    Apart before (c :: after) := by
  rintro ⟨-, first⟩
  cases first
  cases plain

theorem lines_cons_of_plain {c : Char} (plain : isLineBreak c = false) (rest : List Char) :
    lines (c :: rest) = match lines rest with
      | [] => [⟨[c], []⟩]
      | line :: more => ⟨c :: line.content, line.ending⟩ :: more := by
  rw [lines]
  · cases lines rest <;> simp [plain]
  · rintro rest' rfl
    cases plain

theorem lines_cons_of_break {c : Char} (isBreak : isLineBreak c = true) {rest : List Char}
    (apart : Apart [c] rest) : lines (c :: rest) = ⟨[], [c]⟩ :: lines rest := by
  rw [lines]
  · simp [isBreak]
  · rintro rest' rfl rfl
    exact apart ⟨rfl, rfl⟩

/-- No character of the content of a line is a break. -/
theorem content_plain {text : List Char} :
    ∀ line ∈ lines text, ∀ c ∈ line.content, isLineBreak c = false := by
  induction text using lines.induct with
  | case1 => simp [lines]
  | case2 rest ih =>
    rw [lines]
    exact List.forall_mem_cons.mpr ⟨List.forall_mem_nil _, ih⟩
  | case3 c rest notPair isBreak ih =>
    rw [lines, if_pos isBreak]
    · exact List.forall_mem_cons.mpr ⟨List.forall_mem_nil _, ih⟩
    · exact notPair
  | case4 c rest notPair notBreak none ih =>
    have plain : isLineBreak c = false := by simpa using notBreak
    rw [lines_cons_of_plain plain, none]
    simpa using plain
  | case5 c rest notPair notBreak line others found ih =>
    have plain : isLineBreak c = false := by simpa using notBreak
    rw [found] at ih
    rw [lines_cons_of_plain plain, found]
    obtain ⟨here, there⟩ := List.forall_mem_cons.mp ih
    exact List.forall_mem_cons.mpr ⟨List.forall_mem_cons.mpr ⟨plain, here⟩, there⟩

/-! ### The last line -/

/-- A text ends its last line exactly if its last character is a break. -/
theorem getLast?_lines {text : List Char} {c : Char} (last : text.getLast? = some c) :
    ∃ line, (lines text).getLast? = some line ∧ line.isEnded = isLineBreak c := by
  induction text using lines.induct with
  | case1 => cases last
  | case2 rest ih =>
    rw [lines]
    cases rest with
    | nil =>
      cases last
      exact ⟨_, rfl, rfl⟩
    | cons d rest =>
      obtain ⟨line, ended, same⟩ := ih (by simpa using last)
      exact ⟨line, by simp [List.getLast?_cons, ended], same⟩
  | case3 d rest notPair isBreak ih =>
    rw [lines, if_pos isBreak]
    · cases rest with
      | nil =>
        cases last
        exact ⟨_, rfl, isBreak.symm⟩
      | cons e rest =>
        obtain ⟨line, ended, same⟩ := ih (by simpa using last)
        exact ⟨line, by simp [List.getLast?_cons, ended], same⟩
    · exact notPair
  | case4 d rest notPair notBreak none ih =>
    -- Nothing follows the character, which is the whole of the last line.
    obtain rfl := lines_eq_nil none
    cases last
    rw [lines, if_neg notBreak]
    · exact ⟨_, rfl, by simpa [Line.isEnded] using notBreak⟩
    · exact notPair
  | case5 d rest notPair notBreak first more found ih =>
    have filled : rest ≠ [] := by
      rintro rfl
      cases found
    rw [List.getLast?_cons_of_ne_nil filled] at last
    obtain ⟨line, ended, same⟩ := ih last
    rw [found] at ended
    rw [lines, if_neg notBreak, found]
    · cases more with
      | nil =>
        -- The character joins the last line, and leaves its end as it is.
        cases ended
        exact ⟨_, rfl, same⟩
      | cons second more => exact ⟨line, by simpa using ended, same⟩
    · exact notPair

/-! ### Complete texts -/

/-- Each line of a text is ended. -/
def IsComplete (text : List Char) : Prop := ∀ c, text.getLast? = some c → isLineBreak c = true

theorem IsComplete.tail {c : Char} {text : List Char} (complete : IsComplete (c :: text)) :
    IsComplete text := by
  intro d last
  apply complete
  simp [List.getLast?_cons, last]

/-- The lines of a complete text are followed by the lines of what comes after it. -/
theorem lines_append {whole rest : List Char} (complete : IsComplete whole)
    (apart : Apart whole rest) : lines (whole ++ rest) = lines whole ++ lines rest := by
  induction whole using lines.induct with
  | case1 => rfl
  | case2 more ih =>
    have others := ih complete.tail.tail apart.tail.tail
    rw [List.cons_append, List.cons_append, lines, others, lines, List.cons_append]
  | case3 c more notPair isBreak ih =>
    have here : Apart [c] more := by
      rintro ⟨⟨⟩, first⟩
      obtain ⟨others, rfl⟩ := List.head?_eq_some_iff.mp first
      exact notPair others rfl rfl
    -- The break is the last character of the text, or the same one follows it as before.
    have here' : Apart [c] (more ++ rest) := by
      cases more with
      | nil => exact apart
      | cons d more => exact here
    rw [List.cons_append, lines_cons_of_break isBreak here', lines_cons_of_break isBreak here,
      ih complete.tail apart.tail, List.cons_append]
  | case4 c more notPair notBreak none ih =>
    -- The character would have to end the text, and ends no line.
    obtain rfl := lines_eq_nil none
    exact absurd (complete c rfl) notBreak
  | case5 c more notPair notBreak line others found ih =>
    have plain : isLineBreak c = false := by simpa using notBreak
    rw [List.cons_append, lines_cons_of_plain plain, lines_cons_of_plain plain,
      ih complete.tail apart.tail, found]
    rfl

/-- A text is cut where the line begins that its end is on. -/
structure Cut (text whole rest : List Char) : Prop where
  text_eq : text = whole ++ rest
  complete : IsComplete whole
  plain : ∀ c ∈ rest, isLineBreak c = false

/-- A pair that is cut in two at the beginning of a line leaves nothing on that line before it. -/
theorem Cut.apart {text whole rest : List Char} (cut : Cut text whole rest) {after : List Char}
    (first : rest = [] → Apart whole after) : Apart whole (rest ++ after) := by
  cases rest with
  | nil => exact first rfl
  | cons c rest => exact apart_of_plain (cut.plain c List.mem_cons_self) _ _

theorem exists_cut (text : List Char) : ∃ whole rest, Cut text whole rest := by
  induction text using List.reverseRecOn with
  | nil => exact ⟨[], [], rfl, nofun, nofun⟩
  | append_singleton text c ih =>
    cases breaks : isLineBreak c with
    | true =>
      -- After a break all lines are complete.
      refine ⟨text ++ [c], [], by simp, ?_, nofun⟩
      intro d last
      obtain rfl : c = d := by simpa using last
      exact breaks
    | false =>
      -- Any other character joins the line that has been begun.
      obtain ⟨whole, rest, rfl, complete, plain⟩ := ih
      refine ⟨whole, rest ++ [c], by simp, complete, ?_⟩
      simpa [or_imp, forall_and, breaks] using plain

/-! ### One line -/

theorem lines_of_plain {content : List Char} (plain : ∀ c ∈ content, isLineBreak c = false)
    (filled : content ≠ []) : lines content = [⟨content, []⟩] := by
  induction content with
  | nil => exact absurd rfl filled
  | cons c content ih =>
    obtain ⟨here, there⟩ := List.forall_mem_cons.mp plain
    rw [lines_cons_of_plain here]
    cases content with
    | nil => rfl
    | cons d content => rw [ih there (List.cons_ne_nil d content)]

/-- What ends a line: a break, or the pair that counts as one. -/
inductive IsEnding : List Char → Prop
  | single {c : Char} (isBreak : isLineBreak c = true) : IsEnding [c]
  | pair : IsEnding ['\r', '\n']

theorem lines_of_ended {content ending : List Char} (plain : ∀ c ∈ content, isLineBreak c = false)
    (ends : IsEnding ending) : lines (content ++ ending) = [⟨content, ending⟩] := by
  induction content with
  | nil =>
    cases ends with
    | single isBreak => exact lines_cons_of_break isBreak (by simp [Apart])
    | pair => rfl
  | cons c content ih =>
    obtain ⟨here, there⟩ := List.forall_mem_cons.mp plain
    rw [List.cons_append, lines_cons_of_plain here, ih there]

/-- A character that is no break is on the line of the characters without a break before it. -/
theorem lines_through {content : List Char} (plain : ∀ c ∈ content, isLineBreak c = false)
    {c : Char} (here : isLineBreak c = false) (rest : List Char) : ∃ more ending others,
      lines (content ++ c :: rest) = ⟨content ++ c :: more, ending⟩ :: others := by
  induction content with
  | nil =>
    rw [List.nil_append, lines_cons_of_plain here]
    cases lines rest with
    | nil => exact ⟨[], [], [], rfl⟩
    | cons line others => exact ⟨line.content, line.ending, others, rfl⟩
  | cons d content ih =>
    obtain ⟨first, later⟩ := List.forall_mem_cons.mp plain
    obtain ⟨more, ending, others, found⟩ := ih later
    exact ⟨more, ending, others, by rw [List.cons_append, lines_cons_of_plain first, found]; rfl⟩

/-- Ending the line on which a text ends makes one line more than the complete ones. -/
theorem Cut.length_lines {text whole rest ending : List Char} (cut : Cut text whole rest)
    (ends : IsEnding ending) (apart : Apart whole (rest ++ ending)) :
    (lines (text ++ ending)).length = (lines whole).length + 1 := by
  obtain ⟨rfl, complete, plain⟩ := cut
  rw [List.append_assoc, lines_append complete apart, lines_of_ended plain ends,
    List.length_append, List.length_singleton]

end HostLisp.Text
