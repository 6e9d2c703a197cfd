import HostLisp.Proofs.FormEvaluation
import HostLisp.Proofs.LetterCase
import HostLisp.Proofs.Spelling
import HostLisp.Standard
import Mathlib.Data.Nat.Digits.Lemmas

/-!
# Classes of atoms

What a symbol on its own stands for: one of the constants, a number, or nothing. Every text that a
symbol can have belongs to one class, which depends neither on what is registered nor on what stands
around the symbol.

## Main results

`Atom.ofText_eq_iff`: the classes say what each text stands for.

`evaluate_atom_iff`: a source that begins with a symbol is evaluated as the class of its text says.
-/

namespace HostLisp

variable {σ : Type}

/-! ### Numbers -/

/-- Each digit times the power of ten of its place, the last place being the zeroth. -/
def Number.sumOfPlaces (digits : List Char) : Nat :=
  (digits.reverse.mapIdx fun place digit => (digit.toNat - '0'.toNat) * 10 ^ place).sum

private theorem Number.ofDigits_eq (digits : List Char) : ofDigits digits =
    Nat.ofDigits 10 (digits.reverse.map fun digit => digit.toNat - '0'.toNat) := by
  induction digits using List.reverseRecOn with
  | nil => rfl
  | append_singleton digits last ih =>
    -- One more digit moves the others up by one place.
    rw [List.reverse_append, List.reverse_singleton, List.singleton_append, List.map_cons,
      Nat.ofDigits_cons, ← ih, ofDigits, List.foldl_append, Nat.add_comm]
    rfl

theorem Number.ofDigits_eq_sumOfPlaces (digits : List Char) :
    ofDigits digits = sumOfPlaces digits := by
  rw [ofDigits_eq, Nat.ofDigits_eq_sum_mapIdx, sumOfPlaces]
  simp only [List.mapIdx_eq_zipIdx_map, List.zipIdx_map, List.map_map]
  rfl

/-! ### Classes -/

namespace Atom

/-- The words for the constants. -/
def constantWords : List (List Char × Value) :=
  [("true".toList, .bool true), ("false".toList, .bool false), ("null".toList, .null)]

/-- The classes of the texts of symbols, with what a symbol of each class gives at a position. -/
inductive Classified (text : List Char) (position : Int) : Except Fault Value → Prop
  | constant {word : List Char} {value : Value} (known : (word, value) ∈ constantWords)
      (spells : Recases text word) : Classified text position (.ok value)
  | number (digits : ∀ c ∈ text, Number.isDigit c = true)
      (short : text.length ≤ Number.digitLimit) :
      Classified text position (.ok (.int (Number.sumOfPlaces text)))
  | longNumber (digits : ∀ c ∈ text, Number.isDigit c = true)
      (long : Number.digitLimit < text.length) :
      Classified text position (.error (.tooManyDigitsToRead text.length))
  | invalidNumber (begun : ∀ c ∈ text.head?, Number.isDigit c = true)
      (other : ∃ c ∈ text, Number.isDigit c = false) : Classified text position
        (.error (.evaluation (.invalidInteger (String.ofList text)) (some position)))
  | unknown (unbegun : ∀ c ∈ text.head?, Number.isDigit c = false)
      (different : ∀ entry ∈ constantWords, ¬ Recases text entry.1) : Classified text position
        (.error (.evaluation (.unexpectedSymbol (String.ofList text)) (some position)))

/-- A text that is no constant, whatever the case. -/
def IsNoConstant (text : List Char) : Prop :=
  ∀ entry ∈ constantWords, ¬ Recases text entry.1

theorem plain_of_constantWords :
    ∀ entry ∈ constantWords, ∀ letter ∈ entry.1, IsPlainLetter letter := by
  have each : constantWords.all fun entry => entry.1.all fun letter => IsPlainLetter letter := by
    decide
  simpa only [List.all_eq_true, decide_eq_true_eq] using each

/-- No constant begins with a digit. -/
private theorem isNoConstant_of_digit {c : Char} (rest : List Char)
    (digit : Number.isDigit c = true) : IsNoConstant (c :: rest) := by
  have each : constantWords.all fun entry => entry.1.all fun letter =>
      !Number.isDigit letter && !Number.isDigit letter.toUpper := by decide
  simp only [List.all_eq_true, Bool.and_eq_true, Bool.not_eq_true'] at each
  intro entry known spells
  obtain ⟨word, value⟩ := entry
  cases spells with
  | @cons _ letter _ word first _ =>
    obtain ⟨small, capital⟩ := each _ known letter List.mem_cons_self
    rcases first with rfl | rfl <;> simp_all

private theorem ofText_of_recases {text word : List Char} {value : Value}
    (known : (word, value) ∈ constantWords) (spells : Recases text word) (position : Int) :
    ofText text position = .ok value := by
  have lowered := (map_toLower_eq_iff (plain_of_constantWords _ known)).mpr spells
  simp only [constantWords, List.mem_cons, Prod.mk.injEq, List.not_mem_nil, or_false] at known
  cases text with
  | nil =>
    subst lowered
    simp at known
  | cons c rest =>
    rw [ofText_cases, lowered]
    rcases known with ⟨rfl, rfl⟩ | ⟨rfl, rfl⟩ | ⟨rfl, rfl⟩ <;> rfl

/-- What is no constant is judged by its digits. -/
private theorem ofText_of_isNoConstant {c : Char} {rest : List Char}
    (different : IsNoConstant (c :: rest)) (position : Int) : ofText (c :: rest) position =
      if !Number.isDigit c then
        .error (.evaluation (.unexpectedSymbol (String.ofList (c :: rest))) (some position))
      else if (c :: rest).all Number.isDigit then readInt (c :: rest)
      else .error (.evaluation (.invalidInteger (String.ofList (c :: rest))) (some position)) := by
  have unlike : ∀ entry ∈ constantWords, (c :: rest).map Char.toLower ≠ entry.1 :=
    fun entry known same =>
      different entry known ((map_toLower_eq_iff (plain_of_constantWords _ known)).mp same)
  simp only [constantWords, List.forall_mem_cons] at unlike
  obtain ⟨notTrue, notFalse, notNull, -⟩ := unlike
  simp only [ofText_cases, if_neg notTrue, if_neg notFalse, if_neg notNull]

/-- The class of a text. -/
private theorem classified_ofText {text : List Char} (filled : text ≠ []) (position : Int) :
    Classified text position (ofText text position) := by
  by_cases constant : ∃ entry ∈ constantWords, Recases text entry.1
  · obtain ⟨⟨word, value⟩, known, spells⟩ := constant
    rw [ofText_of_recases known spells]
    exact .constant known spells
  -- What is left begins with a digit or is unknown.
  have different : IsNoConstant text := fun entry known spells => constant ⟨entry, known, spells⟩
  obtain ⟨c, rest, rfl⟩ := List.exists_cons_of_ne_nil filled
  rw [ofText_of_isNoConstant different]
  split_ifs with unbegun digits
  · exact .unknown (by simpa using unbegun) different
  · have digits := List.all_eq_true.mp digits
    rw [readInt]
    split_ifs with long
    · exact .longNumber digits long
    · rw [Number.ofDigits_eq_sumOfPlaces]
      exact .number digits (Nat.le_of_not_lt long)
  · exact .invalidNumber (by simpa using unbegun) (by simpa [Decidable.imp_iff_not_or] using digits)

/-- A text has no other class than its own. -/
private theorem ofText_of_classified {text : List Char} (filled : text ≠ []) {position : Int}
    {outcome : Except Fault Value} (classified : Classified text position outcome) :
    ofText text position = outcome := by
  obtain ⟨c, rest, rfl⟩ := List.exists_cons_of_ne_nil filled
  -- A text that begins with a digit is no constant, so the classes do not overlap.
  have begun := @isNoConstant_of_digit c rest
  cases classified with
  | constant known spells => exact ofText_of_recases known spells position
  | number digits short =>
    have head := digits c List.mem_cons_self
    rw [ofText_of_isNoConstant (begun head), if_neg (by simp [head]),
      if_pos (List.all_eq_true.mpr digits), readInt, if_neg (Nat.not_lt.mpr short),
      Number.ofDigits_eq_sumOfPlaces]
  | longNumber digits long =>
    have head := digits c List.mem_cons_self
    rw [ofText_of_isNoConstant (begun head), if_neg (by simp [head]),
      if_pos (List.all_eq_true.mpr digits), readInt, if_pos long]
  | invalidNumber first other =>
    have head := first c rfl
    obtain ⟨d, member, notDigit⟩ := other
    rw [ofText_of_isNoConstant (begun head), if_neg (by simp [head]), if_neg]
    intro digits
    simp [List.all_eq_true.mp digits d member] at notDigit
  | unknown unbegun different =>
    have head := unbegun c rfl
    rw [ofText_of_isNoConstant different, if_pos (by simp [head])]

/-- The classes say what each text stands for. -/
theorem ofText_eq_iff {text : List Char} (filled : text ≠ []) (position : Int)
    (outcome : Except Fault Value) :
    ofText text position = outcome ↔ Classified text position outcome := by
  constructor
  · rintro rfl
    exact classified_ofText filled position
  · exact ofText_of_classified filled

end Atom

/-! ### Sources -/

/-- A source that begins with a symbol is evaluated as the class of the symbol says, whatever is
registered and whatever follows. Lower-casing the symbol in full would find the same constants. -/
theorem evaluate_atom_iff (machine : Machine σ) {gap text after : List Char}
    (blank : ∀ c ∈ gap, Reader.isSpace c = true) (filled : text ≠ []) (whole : IsSymbolText text)
    (ended : Stops after) :
    (∀ outcome, (machine.evaluate (String.ofList (gap ++ (text ++ after)))).1 = outcome ↔
      Atom.Classified text gap.length outcome) ∧
    ∀ entry ∈ Atom.constantWords,
      Text.lower (String.ofList text) = String.ofList entry.1 ↔ Recases text entry.1 := by
  constructor
  · intro outcome
    -- The source begins with the atom, whatever stands after it.
    have begins : BeginsWith (gap ++ (text ++ after)) (.symbol gap.length text) :=
      ⟨gap, text, after, rfl, blank, .leaf (.symbol text filled whole), ended⟩
    rw [← Atom.ofText_eq_iff filled, machine.evaluate_of_form (by simpa using begins.parse)
      (by simpa using begins.form?), Eval.form]
    cases Atom.ofText text gap.length <;> rfl
  · intro entry known
    have plain : ∀ letter ∈ (String.ofList entry.1).toList, IsPlainLetter letter := by
      simpa using Atom.plain_of_constantWords entry known
    simpa using @Text.lower_eq_iff (String.ofList text) _ plain

/-- A digit of another script makes no number, and an operation of that name no value. -/
theorem evaluate_atom_mixed :
    (∀ c ∈ ['\n', ' '], Reader.isSpace c = true) ∧ IsSymbolText ['1', '٣'] ∧ Stops [')', 'x'] ∧
    ((Machine.fresh (Registry.empty.register "1٣" (Standard.fixed "one" [] fun _ => .null))
        ()).evaluate "\n 1٣)x").1 =
      .error (.evaluation (.invalidInteger "1٣") (some 2)) := by
  have blank : ∀ c ∈ ['\n', ' '], Reader.isSpace c = true := List.all_eq_true.mp rfl
  have solid : ['1', '٣'].all (!Reader.endsSymbol ·) := rfl
  have whole : IsSymbolText ['1', '٣'] := ⟨by simpa using solid, by decide⟩
  have ended : Stops [')', 'x'] := closing_stops ['x']
  have classes := evaluate_atom_iff
    (Machine.fresh (Registry.empty.register "1٣" (Standard.fixed "one" [] fun _ => .null)) ())
    blank (List.cons_ne_nil _ _) whole ended
  have begun : ∀ c ∈ ['1', '٣'].head?, Number.isDigit c = true := by
    rintro c ⟨⟩
    rfl
  exact ⟨blank, whole, ended, (classes.1 _).mpr (.invalidNumber begun ⟨'٣', by simp, rfl⟩)⟩

end HostLisp
