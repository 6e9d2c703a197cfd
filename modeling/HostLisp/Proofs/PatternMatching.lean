import HostLisp.Output.Yaml.Plain
import HostLisp.Proofs.JsonWriting

/-!
# Matching of patterns

A pattern stands for a set of texts, and matching one character at a time decides whether a text is
in it. The simplifications on the way do not change the set.

## Main results

`Text.Pattern.isMatch_iff`: a text is matched exactly if it is one that the pattern stands for.

`Yaml.readsAsOther_decimalText`: a whole number in decimal digits would be read as a number.

## Proof strategy

The pattern after a character stands for what may follow that character; the induction is on the
pattern. Repetition needs that a text with a character in front begins with a repeated text that is
not empty.
-/

namespace HostLisp

namespace Text.Pattern

/-! ### What patterns stand for -/

/-- A text is one of those that a pattern stands for. -/
inductive Accepts : Pattern → List Char → Prop
  | empty : Accepts .empty []
  | oneOf {ranges : List (Char × Char)} {c : Char} (within : inClass ranges c = true) :
      Accepts (.oneOf ranges) [c]
  | first {p q : Pattern} {text : List Char} (accepts : Accepts p text) :
      Accepts (.either p q) text
  | second {p q : Pattern} {text : List Char} (accepts : Accepts q text) :
      Accepts (.either p q) text
  | both {p q : Pattern} {text text' : List Char} (accepts : Accepts p text)
      (accepts' : Accepts q text') : Accepts (.both p q) (text ++ text')
  | none {p : Pattern} : Accepts (.many p) []
  | more {p : Pattern} {text text' : List Char} (accepts : Accepts p text)
      (accepts' : Accepts (.many p) text') : Accepts (.many p) (text ++ text')

variable {p q : Pattern} {text : List Char}

@[simp] theorem not_accepts_never : ¬ Accepts .never text := nofun

@[simp] theorem accepts_empty : Accepts .empty text ↔ text = [] := by
  constructor
  · rintro ⟨⟩
    rfl
  · rintro rfl
    exact .empty

@[simp] theorem accepts_oneOf {ranges : List (Char × Char)} :
    Accepts (.oneOf ranges) text ↔ ∃ c, text = [c] ∧ inClass ranges c = true := by
  constructor
  · rintro ⟨⟩
    exact ⟨_, rfl, ‹_›⟩
  · rintro ⟨c, rfl, within⟩
    exact .oneOf within

@[simp] theorem accepts_either : Accepts (.either p q) text ↔ Accepts p text ∨ Accepts q text := by
  constructor
  · intro accepts
    cases accepts with
    | first accepts => exact Or.inl accepts
    | second accepts => exact Or.inr accepts
  · rintro (accepts | accepts)
    · exact .first accepts
    · exact .second accepts

theorem accepts_both : Accepts (.both p q) text ↔
    ∃ front back, text = front ++ back ∧ Accepts p front ∧ Accepts q back := by
  constructor
  · rintro ⟨⟩
    exact ⟨_, _, rfl, ‹_›, ‹_›⟩
  · rintro ⟨front, back, rfl, accepts, accepts'⟩
    exact .both accepts accepts'

/-! ### Simplified patterns -/

theorem accepts_followedBy : Accepts (followedBy p q) text ↔
    ∃ front back, text = front ++ back ∧ Accepts p front ∧ Accepts q back := by
  unfold followedBy
  split
  · simp
  · simp
  · simp
  · simp
  · exact accepts_both

theorem accepts_orElse : Accepts (orElse p q) text ↔ Accepts p text ∨ Accepts q text := by
  unfold orElse
  split
  · simp
  · simp
  · split
    next same => simp [same]
    next => exact accepts_either

@[simp] theorem accepts_optional : Accepts (optional p) text ↔ Accepts p text ∨ text = [] := by
  simp [optional]

theorem accepts_all_cons {ps : List Pattern} : Accepts (all (p :: ps)) text ↔
    ∃ front back, text = front ++ back ∧ Accepts p front ∧ Accepts (all ps) back :=
  accepts_followedBy

@[simp] theorem accepts_all_nil : Accepts (all []) text ↔ text = [] := accepts_empty

theorem accepts_any {ps : List Pattern} : Accepts (any ps) text ↔ ∃ p ∈ ps, Accepts p text := by
  induction ps with
  | nil => simp [any]
  | cons p ps ih =>
    rw [any, List.foldr_cons, accepts_orElse, ← any, ih]
    simp

/-- Characters of a class, one after the other. -/
theorem accepts_many_oneOf {ranges : List (Char × Char)}
    (each : ∀ c ∈ text, inClass ranges c = true) : Accepts (.many (.oneOf ranges)) text := by
  induction text with
  | nil => exact .none
  | cons c rest ih =>
    obtain ⟨here, later⟩ := List.forall_mem_cons.mp each
    exact .more (.oneOf here) (ih later)

/-! ### Matching -/

theorem matchesEmpty_iff : p.matchesEmpty = true ↔ Accepts p [] := by
  induction p with
  | never => simp [matchesEmpty]
  | empty => simp [matchesEmpty]
  | oneOf ranges => simp [matchesEmpty]
  | either first second ihFirst ihSecond => simp [matchesEmpty, ihFirst, ihSecond]
  | both first second ihFirst ihSecond => simp [matchesEmpty, accepts_both, ihFirst, ihSecond]
  | many repeated ih => simp [matchesEmpty, Accepts.none]

/-- A repeated pattern takes its first character with a repeated text that is not empty. -/
theorem Accepts.many_cons {c : Char} (accepts : Accepts (.many p) (c :: text)) :
    ∃ front back, text = front ++ back ∧ Accepts p (c :: front) ∧ Accepts (.many p) back := by
  -- The induction needs the pattern and the text as variables, so their shapes are kept as
  -- equations.
  generalize repeated : Pattern.many p = pattern at accepts
  generalize whole : c :: text = chars at accepts
  induction accepts with
  | none => cases whole
  | @more p' front back first others _ ih =>
    cases repeated
    cases front with
    -- An empty repetition in front takes nothing.
    | nil => exact ih rfl whole
    | cons d front =>
      obtain ⟨rfl, rfl⟩ := List.cons.inj whole
      exact ⟨front, back, rfl, first, others⟩
  | _ => cases repeated

/-- The pattern after a character stands for what may follow it. -/
theorem accepts_after {c : Char} : Accepts (p.after c) text ↔ Accepts p (c :: text) := by
  induction p generalizing text with
  | never => simp [after]
  | empty => simp [after]
  | oneOf ranges =>
    rw [after]
    split <;> simp_all
  | either first second ihFirst ihSecond =>
    rw [after, accepts_orElse, ihFirst, ihSecond, accepts_either]
  | both first second ihFirst ihSecond =>
    have continued : Accepts ((first.after c).followedBy second) text ↔
        ∃ front back, text = front ++ back ∧ Accepts first (c :: front) ∧ Accepts second back := by
      simp only [accepts_followedBy, ihFirst]
    -- The first part takes the character, or takes nothing and leaves it to the second.
    have parts : Accepts (.both first second) (c :: text) ↔
        Accepts ((first.after c).followedBy second) text ∨
          Accepts first [] ∧ Accepts second (c :: text) := by
      rw [accepts_both, continued]
      constructor
      · rintro ⟨front, back, whole, accepts, accepts'⟩
        cases front with
        | nil => exact Or.inr ⟨accepts, by rwa [whole]⟩
        | cons d front =>
          obtain ⟨rfl, rfl⟩ := List.cons.inj whole
          exact Or.inl ⟨front, back, rfl, accepts, accepts'⟩
      · rintro (⟨front, back, rfl, accepts, accepts'⟩ | ⟨accepts, accepts'⟩)
        · exact ⟨c :: front, back, rfl, accepts, accepts'⟩
        · exact ⟨[], _, rfl, accepts, accepts'⟩
    -- Whether the first part can be empty is what the derivative itself asks.
    rw [parts, ← matchesEmpty_iff, ← ihSecond, after]
    cases first.matchesEmpty with
    | true => simp [accepts_orElse]
    | false => simp
  | many repeated ih =>
    rw [after, accepts_followedBy]
    simp only [ih]
    constructor
    · rintro ⟨front, back, rfl, accepts, accepts'⟩
      exact .more accepts accepts'
    · exact Accepts.many_cons

/-- A text is matched exactly if it is one that the pattern stands for. -/
theorem isMatch_iff : p.isMatch text = true ↔ Accepts p text := by
  rw [isMatch]
  induction text generalizing p with
  | nil => exact matchesEmpty_iff
  | cons c rest ih => rw [List.foldl_cons, ih, accepts_after]

end Text.Pattern

namespace Yaml

open Text.Pattern
open Number (isDigit)

/-! ### Numbers -/

private theorem inClass_of_isDigit {ranges : List (Char × Char)} {c : Char}
    (digit : isDigit c = true) : inClass (('0', '9') :: ranges) c = true := by
  simp only [isDigit, Bool.and_eq_true, decide_eq_true_eq] at digit
  simp [inClass, digit]

private theorem inClass_of_nonzero {c : Char} (digit : isDigit c = true) (nonzero : c ≠ '0') :
    inClass [('1', '9')] c = true := by
  simp only [isDigit, Bool.and_eq_true, decide_eq_true_eq] at digit
  have above : '0' < c := Std.lt_of_le_of_ne digit.1 (Ne.symm nonzero)
  have least : '1' ≤ c := by
    simp only [Char.lt_def, Char.le_def, UInt32.lt_iff_toNat_lt, UInt32.le_iff_toNat_le] at above ⊢
    exact above
  simp [inClass, least, digit.2]

/-- Digits without a zero in front of others are a whole number, also after a minus sign. -/
theorem wholeNumber_accepts {decimal : List Char} (whole : Json.IsWhole decimal) {front : List Char}
    (signed : front = [] ∨ front = ['-']) : Accepts wholeNumber (front ++ decimal) := by
  have leading : Accepts sign front := by
    rcases signed with rfl | rfl
    · simp [sign]
    · simp [sign, anyOf, inClass]
  have counted : Accepts (any [char '0', all [.oneOf [('1', '9')], digits]]) decimal := by
    rw [accepts_any]
    obtain ⟨c, rest, rfl⟩ := List.exists_cons_of_ne_nil whole.filled
    obtain ⟨digit, others⟩ := List.forall_mem_cons.mp whole.each
    by_cases zero : c = '0'
    · -- A zero stands alone.
      subst zero
      obtain rfl : rest = [] := by simpa using whole.lone rfl
      exact ⟨char '0', by simp, .oneOf (by decide)⟩
    · -- Any other digit may have more after it.
      have tail : Accepts digits rest :=
        accepts_many_oneOf fun d member => inClass_of_isDigit (others d member)
      refine ⟨all [.oneOf [('1', '9')], digits], by simp,
        accepts_all_cons.mpr ⟨[c], rest, rfl, ?_, ?_⟩⟩
      · exact .oneOf (inClass_of_nonzero digit zero)
      · exact accepts_all_cons.mpr ⟨rest, [], by simp, tail, by simp⟩
  refine accepts_all_cons.mpr ⟨front, decimal, rfl, leading, ?_⟩
  refine accepts_all_cons.mpr ⟨decimal, [], by simp, accepts_any.mpr ⟨_, ?_, counted⟩, by simp⟩
  simp

/-- The decimal text of a number is no text when it stands without quotes. -/
theorem readsAsOther_decimalText (n : Int) : readsAsOther (Number.decimalText n).toList = true := by
  have accepts : Accepts wholeNumber (Number.decimalText n).toList := by
    rw [Number.decimalText, String.toList_ofList]
    split
    · exact wholeNumber_accepts (Json.toDigits_isWhole n.natAbs) (Or.inr rfl)
    · exact wholeNumber_accepts (Json.toDigits_isWhole n.natAbs) (Or.inl rfl)
  rw [readsAsOther, List.any_eq_true]
  exact ⟨wholeNumber, by simp [otherTypes], isMatch_iff.mpr accepts⟩

end Yaml

end HostLisp
