import HostLisp.Evaluation.Atom
import HostLisp.Text.LowerCase
import Mathlib.Data.List.Forall2
import Mathlib.Tactic.SplitIfs

/-!
# Words in any case

Which texts have a given word as their lower-case form. For words of plain letters these are the
ASCII spellings alone, although lower-casing takes every character into account.

## Main results

`map_toLower_eq_iff`: lower-casing that knows ASCII alone gives a word exactly from its spellings.

`Text.lower_eq_iff`: full lower-casing gives it from the same texts.

## Proof strategy

The table of lower-case forms starts with the ASCII capitals. None of its other entries leads to a
plain letter, which is checked entry by entry.
-/

namespace HostLisp

/-- A text spells a word, each letter as it is or as its ASCII capital. -/
def Recases (text word : List Char) : Prop :=
  List.Forall₂ (fun c letter => c = letter ∨ c = letter.toUpper) text word

/-- The small ASCII letters but for the k, which is also the lower-case form of a sign outside of
ASCII. -/
def IsPlainLetter (letter : Char) : Prop :=
  97 ≤ letter.toNat ∧ letter.toNat ≤ 122 ∧ letter ≠ 'k'

instance (letter : Char) : Decidable (IsPlainLetter letter) :=
  inferInstanceAs (Decidable (_ ∧ _ ∧ _))

/-! ### Letters -/

private theorem eq_iff_toNat_eq {c d : Char} : c = d ↔ c.toNat = d.toNat :=
  ⟨congrArg Char.toNat, fun same => Char.ext (UInt32.toNat_inj.mp same)⟩

/-- The small letters are 32 places after the capitals. -/
private theorem toNat_toLower (c : Char) :
    c.toLower.toNat = if 65 ≤ c.toNat ∧ c.toNat ≤ 90 then c.toNat + 32 else c.toNat := by
  have bounds : c.val ≥ 'A'.val ∧ c.val ≤ 'Z'.val ↔ 65 ≤ c.toNat ∧ c.toNat ≤ 90 := Iff.rfl
  unfold Char.toLower
  split_ifs with capital code code
  · have room : c.val.toNat + 32 < 2 ^ 32 := by
      have below : c.val.toNat ≤ 90 := code.2
      omega
    exact (UInt32.toNat_add c.val 32).trans (Nat.mod_eq_of_lt room)
  · exact absurd (bounds.mp capital) code
  · exact absurd (bounds.mpr code) capital
  · rfl

private theorem toNat_toUpper {letter : Char} (plain : IsPlainLetter letter) :
    letter.toUpper.toNat + 32 = letter.toNat := by
  have each : ∀ n ∈ List.range' 97 26, (Char.ofNat n).toUpper.toNat + 32 = (Char.ofNat n).toNat := by
    decide
  have member : letter.toNat ∈ List.range' 97 26 := by
    obtain ⟨low, high, -⟩ := plain
    exact List.mem_range'_1.mpr ⟨low, by omega⟩
  simpa using each letter.toNat member

/-- Only a plain letter and its capital have the letter as their lower-case form, as far as ASCII
goes. -/
theorem toLower_eq_iff {letter : Char} (plain : IsPlainLetter letter) (c : Char) :
    c.toLower = letter ↔ c = letter ∨ c = letter.toUpper := by
  have upper := toNat_toUpper plain
  obtain ⟨low, high, -⟩ := plain
  simp only [eq_iff_toNat_eq, toNat_toLower]
  split_ifs <;> omega

/-- A text has a word as its lower-case form exactly if it spells the word. -/
theorem map_toLower_eq_iff {text word : List Char} (plain : ∀ letter ∈ word, IsPlainLetter letter) :
    text.map Char.toLower = word ↔ Recases text word := by
  induction text generalizing word with
  | nil => cases word <;> simp [Recases]
  | cons c rest ih =>
    cases word with
    | nil => simp [Recases]
    | cons letter word =>
      obtain ⟨here, later⟩ := List.forall_mem_cons.mp plain
      simp only [List.map_cons, List.cons.injEq, toLower_eq_iff here, ih later, Recases,
        List.forall₂_cons]

/-! ### The table of lower-case forms -/

namespace Text

private theorem toNat_ofNat (code : Nat) :
    (Char.ofNat code).toNat = code ∨ (Char.ofNat code).toNat = 0 := by
  by_cases valid : code.isValidChar
  · rw [Char.ofNat, dif_pos valid]
    exact Or.inl rfl
  · rw [Char.ofNat, dif_neg valid]
    exact Or.inr rfl

/-- An entry of the table leads to no plain letter. -/
private def CaseRun.Foreign (run : CaseRun) : Prop :=
  0x80 ≤ run.first ∧ (0x80 ≤ (run.first : Int) + run.offset ∨
    run.first = 0x212a ∧ run.last = 0x212a ∧ run.offset = -8383)

set_option maxRecDepth 8000 in
/-- The table begins with the ASCII capitals, and this is its only entry that leads to plain
letters. -/
private theorem lowerRuns_eq : ∃ others, lowerRuns = ⟨0x41, 0x5a, 1, 32⟩ :: others ∧
    ∀ run ∈ others, run.Foreign := by
  refine ⟨lowerRuns.tail, rfl, ?_⟩
  unfold CaseRun.Foreign
  decide

/-- A foreign entry of the table leads to no plain letter. -/
private theorem CaseRun.Foreign.not_plain {run : CaseRun} (foreign : run.Foreign) {code : Nat}
    (holds : run.holds code = true) :
    ¬ IsPlainLetter (Char.ofNat (code + run.offset).toNat) := by
  simp only [CaseRun.holds, Bool.and_eq_true, decide_eq_true_eq] at holds
  obtain ⟨⟨low, high⟩, -⟩ := holds
  rintro ⟨above, below, notK⟩
  -- Either the entry ends beyond the small letters, or it is the single entry for the Kelvin sign.
  obtain ⟨-, later | ⟨first, last, offset⟩⟩ := foreign
  · rcases toNat_ofNat (code + run.offset).toNat with same | same <;> omega
  · -- The one entry that leads among the small letters leads to the k.
    obtain rfl : code = 0x212a := by omega
    rw [offset] at notK
    exact notK rfl

/-- On ASCII full lower-casing does what lower-casing of ASCII does. -/
private theorem lowerChar_ascii {c : Char} (small : c.toNat < 0x80) : lowerChar c = [c.toLower] := by
  obtain ⟨others, table, foreign⟩ := lowerRuns_eq
  -- All entries but the first begin beyond ASCII.
  have absent : others.find? (·.holds c.toNat) = none := by
    rw [List.find?_eq_none]
    intro run member holds
    simp only [CaseRun.holds, Bool.and_eq_true, decide_eq_true_eq] at holds
    have first := (foreign run member).1
    omega
  have notDotted : c ≠ '\u0130' := by
    rintro rfl
    exact absurd small (by decide)
  have code := toNat_toLower c
  rw [lowerChar, if_neg notDotted, table, List.find?_cons, absent]
  by_cases capital : 65 ≤ c.toNat ∧ c.toNat ≤ 90
  · have holds : (CaseRun.mk 0x41 0x5a 1 32).holds c.toNat = true := by
      simp [CaseRun.holds, capital, Nat.mod_one]
    rw [if_pos capital] at code
    have sum : ((c.toNat : Int) + 32).toNat = c.toLower.toNat := by omega
    simp only [holds, sum, Char.ofNat_toNat]
  · have holds : (CaseRun.mk 0x41 0x5a 1 32).holds c.toNat = false := by
      simp only [CaseRun.holds, Bool.and_eq_false_iff, decide_eq_false_iff_not]
      omega
    rw [if_neg capital] at code
    simp only [holds, eq_iff_toNat_eq.mpr code]

/-- Outside of ASCII each character is lowered to something that holds a sign other than the plain
letters, so it cannot be part of a spelled word. -/
private theorem lowerChar_foreign {c : Char} (large : 0x80 ≤ c.toNat) :
    ∃ d ∈ lowerChar c, ¬ IsPlainLetter d := by
  obtain ⟨others, table, foreign⟩ := lowerRuns_eq
  by_cases dotted : c = '\u0130'
  -- The dotted capital is the one character that is lowered to two, and the second is a mark.
  · rw [lowerChar, if_pos dotted]
    exact ⟨'\u0307', by simp, by decide⟩
  have notAscii : (CaseRun.mk 0x41 0x5a 1 32).holds c.toNat = false := by
    simp only [CaseRun.holds, Bool.and_eq_false_iff, decide_eq_false_iff_not]
    omega
  rw [lowerChar, if_neg dotted, table, List.find?_cons, notAscii]
  cases found : others.find? (·.holds c.toNat) with
  | none =>
    refine ⟨c, List.mem_singleton.mpr rfl, ?_⟩
    rintro ⟨-, high, -⟩
    omega
  | some run =>
    have holds := List.find?_some found
    exact ⟨_, List.mem_singleton.mpr rfl,
      (foreign run (List.mem_of_find?_eq_some found)).not_plain holds⟩

/-- What a character adds to the lower-case form of a text: one letter, if it belongs to ASCII, and
otherwise something that is no plain letter. -/
private theorem lowerAfter_cons (before : List Char) (c : Char) (rest : List Char) : ∃ piece,
    lowerAfter before (c :: rest) = piece ++ lowerAfter (c :: before) rest ∧
      (piece = [c.toLower] ∨ 0x80 ≤ c.toNat ∧ ∃ d ∈ piece, ¬ IsPlainLetter d) := by
  refine ⟨_, rfl, ?_⟩
  split_ifs with sigma final
  · exact Or.inr ⟨by rw [sigma]; decide, _, List.mem_singleton.mpr rfl, by decide⟩
  · exact Or.inr ⟨by rw [sigma]; decide, _, List.mem_singleton.mpr rfl, by decide⟩
  · rcases Nat.lt_or_ge c.toNat 0x80 with small | large
    · exact Or.inl (lowerChar_ascii small)
    · exact Or.inr ⟨large, lowerChar_foreign large⟩

/-- What comes before a text decides how a final sigma is lowered, and a sigma is no plain letter.
-/
private theorem lowerAfter_eq_iff {text word : List Char} (before : List Char)
    (plain : ∀ letter ∈ word, IsPlainLetter letter) :
    lowerAfter before text = word ↔ Recases text word := by
  induction text generalizing word before with
  | nil => cases word <;> simp [lowerAfter, Recases]
  | cons c rest ih =>
    obtain ⟨piece, lowered, rfl | ⟨large, d, inside, other⟩⟩ := lowerAfter_cons before c rest
    · rw [lowered]
      cases word with
      | nil => simp [Recases]
      | cons letter word =>
        obtain ⟨here, later⟩ := List.forall_mem_cons.mp plain
        simp only [List.singleton_append, List.cons.injEq, toLower_eq_iff here, ih _ later, Recases,
          List.forall₂_cons]
    · -- A character outside of ASCII spoils the word on both sides.
      constructor
      · intro same
        rw [lowered] at same
        exact absurd (plain d (same ▸ List.mem_append_left _ inside)) other
      · intro spells
        cases spells with
        | @cons _ letter _ word first _ =>
          have here := plain letter List.mem_cons_self
          have capital := toNat_toUpper here
          obtain ⟨-, high, -⟩ := here
          rcases first with rfl | rfl <;> omega

/-- Lower-casing gives a word of plain letters exactly from its spellings in ASCII. -/
theorem lower_eq_iff {text word : String} (plain : ∀ letter ∈ word.toList, IsPlainLetter letter) :
    lower text = word ↔ Recases text.toList word.toList := by
  rw [← lowerAfter_eq_iff [] plain, lower, ← String.toList_inj, String.toList_ofList]

end Text

end HostLisp
