import HostLisp.Output.Document
import Mathlib.Tactic.SplitIfs

/-!
# Reading JSON

The grammar of JSON texts with the documents that they spell, and a reader of such texts. Whole
numbers have no bound, a number with a fraction or an exponent is the nearest float, and the members
of an object are kept in order.

## Main results

`Json.read_of_spellsText`: every text of the grammar is read as the document that it spells.

`Json.SpellsText.unique`: a text spells at most one document.

## Proof strategy

Each reader is shown to take exactly the characters that a part of the grammar spells and to leave
what follows, provided that what follows can follow a value. Rows of items and rows of members are
read in one way, so there is one lemma on rows.
-/

namespace HostLisp.Json

open Number (Binary64 isDigit)

/-- The characters that may stand around the tokens of a text. -/
def isBlank (c : Char) : Bool := c = ' ' || c = '\t' || c = '\n' || c = '\r'

def skip (chars : List Char) : List Char := chars.dropWhile isBlank

/-! ### Numbers -/

def signed (negative : Bool) (n : Nat) : Int := if negative then -n else n

/-- A number is whole unless it has a fraction or an exponent. -/
def numberOf (negative : Bool) (whole fraction : List Char) (exponent : Option Int) : Document :=
  if fraction.isEmpty && exponent.isNone then .int (signed negative (Number.ofDigits whole))
  else .float (Binary64.ofDecimal negative (Number.ofDigits (whole ++ fraction))
    (exponent.getD 0 - fraction.length))

/-- Digits, one at least. -/
structure IsDigits (digits : List Char) : Prop where
  filled : digits ≠ []
  each : ∀ c ∈ digits, isDigit c = true

/-- Digits of which the first is no zero, unless it is the only one. -/
structure IsWhole (digits : List Char) : Prop extends IsDigits digits where
  lone : digits.head? = some '0' → digits.length = 1

inductive SpellsFraction : List Char → List Char → Prop
  | absent : SpellsFraction [] []
  | present {digits : List Char} (given : IsDigits digits) : SpellsFraction ('.' :: digits) digits

inductive SpellsExponent : List Char → Option Int → Prop
  | absent : SpellsExponent [] none
  | unsigned {letter : Char} {digits : List Char} (known : letter = 'e' ∨ letter = 'E')
    (given : IsDigits digits) :
    SpellsExponent (letter :: digits) (some (signed false (Number.ofDigits digits)))
  | positive {letter : Char} {digits : List Char} (known : letter = 'e' ∨ letter = 'E')
    (given : IsDigits digits) :
    SpellsExponent (letter :: '+' :: digits) (some (signed false (Number.ofDigits digits)))
  | negative {letter : Char} {digits : List Char} (known : letter = 'e' ∨ letter = 'E')
    (given : IsDigits digits) :
    SpellsExponent (letter :: '-' :: digits) (some (signed true (Number.ofDigits digits)))

def digits? (chars : List Char) : Option (List Char × List Char) :=
  let digits := chars.takeWhile isDigit
  if digits.isEmpty then none else some (digits, chars.dropWhile isDigit)

def whole? (chars : List Char) : Option (List Char × List Char) := do
  let (digits, rest) ← digits? chars
  -- A zero has no digits after it.
  if digits.head? = some '0' && digits.length ≠ 1 then none else some (digits, rest)

def fraction? : List Char → Option (List Char × List Char)
  | '.' :: rest => digits? rest
  | rest => some ([], rest)

/-- Whether digits have a minus before them, and what stands after it. -/
def afterMinus (chars : List Char) : Bool × List Char :=
  if chars.head? = some '-' then (true, chars.tail) else (false, chars)

/-- The same for an exponent, which may have a plus too. -/
def afterSign (chars : List Char) : Bool × List Char :=
  if chars.head? = some '+' then (false, chars.tail) else afterMinus chars

def exponent? : List Char → Option (Option Int × List Char)
  | [] => some (none, [])
  | letter :: rest =>
    if letter = 'e' || letter = 'E' then do
      let (digits, after) ← digits? (afterSign rest).2
      some (some (signed (afterSign rest).1 (Number.ofDigits digits)), after)
    else some (none, letter :: rest)

def number? (chars : List Char) : Option (Document × List Char) := do
  let (whole, rest) ← whole? (afterMinus chars).2
  let (fraction, rest) ← fraction? rest
  let (exponent, rest) ← exponent? rest
  some (numberOf (afterMinus chars).1 whole fraction exponent, rest)

/-! ### Texts -/

/-- The letters that stand for a character after a backslash. -/
def letterEscapes : List (Char × Char) := [
  ('"', '"'), ('\\', '\\'), ('/', '/'), ('b', '\x08'), ('f', '\x0c'), ('n', '\n'), ('r', '\r'),
  ('t', '\t')]

def hexValue? (c : Char) : Option Nat :=
  if isDigit c then some (c.toNat - '0'.toNat)
  else if 'a' ≤ c && c ≤ 'f' then some (c.toNat - 'a'.toNat + 10)
  else if 'A' ≤ c && c ≤ 'F' then some (c.toNat - 'A'.toNat + 10)
  else none

def isHigh (unit : Nat) : Bool := 0xd800 ≤ unit && unit < 0xdc00

def isLow (unit : Nat) : Bool := 0xdc00 ≤ unit && unit < 0xe000

/-- The code point that two halves of a pair make. -/
def pairValue (high low : Nat) : Nat := 0x10000 + (high - 0xd800) * 0x400 + (low - 0xdc00)

/-- Four hexadecimal digits and their value. -/
inductive SpellsUnit : List Char → Nat → Prop
  | digits {a b c d : Char} {i j k l : Nat} (first : hexValue? a = some i)
    (second : hexValue? b = some j) (third : hexValue? c = some k) (fourth : hexValue? d = some l) :
    SpellsUnit [a, b, c, d] (((i * 16 + j) * 16 + k) * 16 + l)

/-- A character in quotes: itself, a letter after a backslash, or its code. A code that needs more
than four digits is written as a pair. -/
inductive SpellsChar : List Char → Char → Prop
  | plain {c : Char} (printed : ' ' ≤ c) (notQuote : c ≠ '"') (notBackslash : c ≠ '\\') :
    SpellsChar [c] c
  | letter {letter c : Char} (known : (letter, c) ∈ letterEscapes) : SpellsChar ['\\', letter] c
  | code {unit : List Char} {c : Char} (spelled : SpellsUnit unit c.toNat) :
    SpellsChar ('\\' :: 'u' :: unit) c
  | pair {first second : List Char} {high low : Nat} {c : Char} (spelled : SpellsUnit first high)
    (spelled' : SpellsUnit second low) (isHigh : isHigh high = true) (isLow : isLow low = true)
    (value : pairValue high low = c.toNat) :
    SpellsChar ('\\' :: 'u' :: (first ++ '\\' :: 'u' :: second)) c

inductive SpellsBody : List Char → List Char → Prop
  | nil : SpellsBody [] []
  | cons {text texts : List Char} {c : Char} {chars : List Char} (first : SpellsChar text c)
    (rest : SpellsBody texts chars) : SpellsBody (text ++ texts) (c :: chars)

def unit? : List Char → Option (Nat × List Char)
  | a :: b :: c :: d :: rest => do
    let i ← hexValue? a
    let j ← hexValue? b
    let k ← hexValue? c
    let l ← hexValue? d
    some (((i * 16 + j) * 16 + k) * 16 + l, rest)
  | _ => none

/-- The character that an escape stands for, after its backslash. Halves of pairs stand for nothing
on their own. -/
def escaped? : List Char → Option (Char × List Char)
  | [] => none
  | letter :: rest =>
    if letter = 'u' then do
      let (unit, rest) ← unit? rest
      if isHigh unit then
        match rest with
        | '\\' :: 'u' :: rest => do
          let (low, rest) ← unit? rest
          if isLow low then some (Char.ofNat (pairValue unit low), rest) else none
        | _ => none
      -- The second half of a pair stands after the first one only.
      else if isLow unit then none
      else some (Char.ofNat unit, rest)
    else (letterEscapes.lookup letter).map (·, rest)

/-- The characters up to the closing quote. The first argument bounds the number of steps, in this
and the following readers. -/
def body? : (bound : Nat) → List Char → Option (List Char × List Char)
  | 0, _ => none
  | _ + 1, [] => none
  | bound + 1, c :: rest =>
    if c = '"' then some ([], rest)
    else if c = '\\' then do
      let (first, rest) ← escaped? rest
      let (chars, rest) ← body? bound rest
      some (first :: chars, rest)
    -- Control characters are there as escapes only.
    else if c < ' ' then none
    else do
      let (chars, rest) ← body? bound rest
      some (c :: chars, rest)

/-- A text after its opening quote. -/
def string? (chars : List Char) : Option (List Char × List Char) :=
  body? (chars.length + 1) chars

/-! ### Rows -/

/-- Things between commas, one at least. -/
inductive SpellsRow {α : Type} (Item : List Char → α → Prop) : List Char → List α → Prop
  | last {before text after : List Char} {item : α} (blanks : ∀ c ∈ before, isBlank c = true)
    (spelled : Item text item) (blanks' : ∀ c ∈ after, isBlank c = true) :
    SpellsRow Item (before ++ (text ++ after)) [item]
  | cons {before text after rest : List Char} {item : α} {items : List α}
    (blanks : ∀ c ∈ before, isBlank c = true) (spelled : Item text item)
    (blanks' : ∀ c ∈ after, isBlank c = true) (others : SpellsRow Item rest items) :
    SpellsRow Item (before ++ (text ++ (after ++ ',' :: rest))) (item :: items)

/-- A row between brackets, or nothing. -/
inductive SpellsEnclosed {α : Type} (first last : Char) (Item : List Char → α → Prop) :
    List Char → List α → Prop
  | empty {gap : List Char} (blanks : ∀ c ∈ gap, isBlank c = true) :
    SpellsEnclosed first last Item (first :: (gap ++ [last])) []
  | row {inner : List Char} {items : List α} (row : SpellsRow Item inner items) :
    SpellsEnclosed first last Item (first :: (inner ++ [last])) items

/-- A name, a colon and an item. -/
inductive SpellsMember (Item : List Char → Document → Prop) :
    List Char → String × Document → Prop
  | named {body chars before after text : List Char} {item : Document}
      (name : SpellsBody body chars)
    (blanks : ∀ c ∈ before, isBlank c = true) (blanks' : ∀ c ∈ after, isBlank c = true)
    (spelled : Item text item) :
    SpellsMember Item ('"' :: (body ++ '"' :: (before ++ ':' :: (after ++ text))))
      (String.ofList chars, item)

def row? {α : Type} (close : Char) (item? : List Char → Option (α × List Char)) :
    (bound : Nat) → List Char → Option (List α × List Char)
  | 0, _ => none
  | bound + 1, chars => do
    let (first, rest) ← item? (skip chars)
    match skip rest with
    | [] => none
    | c :: rest =>
      if c = close then some ([first], rest)
      else if c = ',' then do
        let (others, rest) ← row? close item? bound rest
        some (first :: others, rest)
      else none

def enclosed? {α : Type} (close : Char) (item? : List Char → Option (α × List Char))
    (chars : List Char) : Option (List α × List Char) :=
  match skip chars with
  | [] => none
  | c :: rest => if c = close then some ([], rest) else row? close item? (chars.length + 1) chars

def member? (item? : List Char → Option (Document × List Char)) :
    List Char → Option ((String × Document) × List Char)
  | '"' :: rest => do
    let (name, rest) ← string? rest
    match skip rest with
    | ':' :: rest => do
      let (item, rest) ← item? (skip rest)
      some ((String.ofList name, item), rest)
    | _ => none
  | _ => none

/-! ### Values -/

/-- The text of a value, without blanks around it, and the document that it spells. -/
inductive Spells : List Char → Document → Prop
  | null : Spells "null".toList .null
  | bool (b : Bool) : Spells (if b then "true".toList else "false".toList) (.bool b)
  | number {negative : Bool} {whole shown fraction shown' : List Char} {exponent : Option Int}
    (given : IsWhole whole) (fractional : SpellsFraction shown fraction)
    (raised : SpellsExponent shown' exponent) :
    Spells ((if negative then ['-'] else []) ++ (whole ++ (shown ++ shown')))
      (numberOf negative whole fraction exponent)
  | text {body chars : List Char} (spelled : SpellsBody body chars) :
    Spells ('"' :: (body ++ ['"'])) (.text (String.ofList chars))
  | sequence {text : List Char} {items : List Document}
    (inside : SpellsEnclosed '[' ']' Spells text items) : Spells text (.sequence items)
  | mapping {text : List Char} {entries : List (String × Document)}
    (inside : SpellsEnclosed '\x7b' '\x7d' (SpellsMember Spells) text entries) :
    Spells text (.mapping entries)

/-- A whole text: a value with blanks around it. -/
def SpellsText (text : List Char) (document : Document) : Prop :=
  ∃ before inner after, text = before ++ (inner ++ after) ∧ (∀ c ∈ before, isBlank c = true) ∧
    (∀ c ∈ after, isBlank c = true) ∧ Spells inner document

def word? : List Char → Option (Document × List Char)
  | 'n' :: 'u' :: 'l' :: 'l' :: rest => some (.null, rest)
  | 't' :: 'r' :: 'u' :: 'e' :: rest => some (.bool true, rest)
  | 'f' :: 'a' :: 'l' :: 's' :: 'e' :: rest => some (.bool false, rest)
  | _ => none

def value? : (bound : Nat) → List Char → Option (Document × List Char)
  | 0, _ => none
  | _ + 1, [] => none
  | bound + 1, c :: rest =>
    if c = '"' then do
      let (chars, rest) ← string? rest
      some (.text (String.ofList chars), rest)
    else if c = '[' then do
      let (items, rest) ← enclosed? ']' (value? bound) rest
      some (.sequence items, rest)
    else if c = '\x7b' then do
      let (entries, rest) ← enclosed? '\x7d' (member? (value? bound)) rest
      some (.mapping entries, rest)
    else if c = '-' || isDigit c then number? (c :: rest)
    else word? (c :: rest)

/-- The document of a text that has nothing after its value but blanks. -/
def read (text : List Char) : Option Document := do
  let (document, rest) ← value? (text.length + 1) (skip text)
  if (skip rest).isEmpty then some document else none

/-! ### Blanks -/

theorem skip_append {gap : List Char} (blanks : ∀ c ∈ gap, isBlank c = true) (chars : List Char) :
    skip (gap ++ chars) = skip chars := by
  induction gap with
  | nil => rfl
  | cons c gap ih =>
    obtain ⟨blank, blanks'⟩ := List.forall_mem_cons.mp blanks
    rw [List.cons_append, skip, List.dropWhile_cons_of_pos blank]
    exact ih blanks'

theorem skip_cons {c : Char} (printed : isBlank c = false) (rest : List Char) :
    skip (c :: rest) = c :: rest :=
  List.dropWhile_cons_of_neg (by simp [printed])

/-- What can follow a value: blanks, a comma, a bracket, or nothing. -/
def Ends (after : List Char) : Prop :=
  ∀ c ∈ after.head?, isBlank c = true ∨ c = ',' ∨ c = ']' ∨ c = '\x7d'

theorem ends_nil : Ends [] := by simp [Ends]

theorem ends_cons {c : Char} {rest : List Char} :
    Ends (c :: rest) ↔ isBlank c = true ∨ c = ',' ∨ c = ']' ∨ c = '\x7d' := by
  simp [Ends]

theorem Ends.after_blanks {gap after : List Char} (blanks : ∀ c ∈ gap, isBlank c = true)
    (ends : Ends after) : Ends (gap ++ after) := by
  cases gap with
  | nil => exact ends
  | cons c gap => exact ends_cons.mpr (Or.inl (blanks c List.mem_cons_self))

/-- No part of a number can follow a value. -/
theorem Ends.not_number {c : Char} {rest : List Char} (ends : Ends (c :: rest)) :
    isDigit c = false ∧ c ≠ '.' ∧ c ≠ 'e' ∧ c ≠ 'E' := by
  simp only [ends_cons, isBlank, Bool.or_eq_true, decide_eq_true_eq] at ends
  rcases ends with (((rfl | rfl) | rfl) | rfl) | rfl | rfl | rfl
  all_goals decide

/-! ### What is spelled is read: numbers -/

theorem IsDigits.digits? {digits after : List Char} (given : IsDigits digits)
    (stops : ∀ c ∈ after.head?, isDigit c = false) :
    Json.digits? (digits ++ after) = some (digits, after) := by
  have taken : after.takeWhile isDigit = [] := by cases after <;> simp_all
  have dropped : after.dropWhile isDigit = after := by cases after <;> simp_all
  rw [Json.digits?, List.takeWhile_append_of_pos given.each,
    List.dropWhile_append_of_pos given.each,
    taken, dropped, List.append_nil, List.isEmpty_eq_false_iff.mpr given.filled]
  simp

theorem IsWhole.whole? {digits after : List Char} (given : IsWhole digits)
    (stops : ∀ c ∈ after.head?, isDigit c = false) :
    Json.whole? (digits ++ after) = some (digits, after) := by
  have lone := given.lone
  simp only [Json.whole?, given.digits? stops, bind, Option.bind_some]
  split_ifs with leading
  · simp_all
  · rfl

theorem IsDigits.head {digits : List Char} (given : IsDigits digits) :
    ∃ c rest, digits = c :: rest ∧ isDigit c = true := by
  obtain ⟨c, rest, rfl⟩ := List.exists_cons_of_ne_nil given.filled
  exact ⟨c, rest, rfl, given.each c List.mem_cons_self⟩

/-- Digits have no sign before them. -/
theorem IsDigits.unsigned {digits : List Char} (given : IsDigits digits) (after : List Char) :
    afterMinus (digits ++ after) = (false, digits ++ after) ∧
      afterSign (digits ++ after) = (false, digits ++ after) := by
  obtain ⟨c, rest, rfl, digit⟩ := given.head
  have notMinus : c ≠ '-' := by rintro rfl; cases digit
  have notPlus : c ≠ '+' := by rintro rfl; cases digit
  simp [afterMinus, afterSign, notMinus, notPlus]

section

variable {shown fraction after : List Char} {exponent : Option Int}

theorem SpellsExponent.read (spelled : SpellsExponent shown exponent) (ends : Ends after) :
    exponent? (shown ++ after) = some (exponent, after) := by
  -- What follows the number begins with none of its characters.
  have stops : ∀ c ∈ after.head?, isDigit c = false := by
    intro c first
    obtain ⟨rest, rfl⟩ := List.head?_eq_some_iff.mp first
    exact ends.not_number.1
  cases spelled with
  | absent =>
    cases after with
    | nil => rfl
    | cons c rest => simp [exponent?, ends.not_number]
  | unsigned known given =>
    simp [exponent?, known, (given.unsigned after).2, given.digits? stops]
  | positive known given => simp [exponent?, known, afterSign, given.digits? stops]
  | negative known given => simp [exponent?, known, afterSign, afterMinus, given.digits? stops]

theorem SpellsExponent.head (spelled : SpellsExponent shown exponent) (ends : Ends after) :
    ∀ c ∈ (shown ++ after).head?, isDigit c = false ∧ c ≠ '.' := by
  -- The letter of an exponent ends the digits before it.
  have letter {c : Char} (known : c = 'e' ∨ c = 'E') : isDigit c = false ∧ c ≠ '.' := by
    rcases known with rfl | rfl <;> decide
  cases spelled with
  | absent =>
    intro c first
    obtain ⟨rest, rfl⟩ := List.head?_eq_some_iff.mp first
    exact ⟨ends.not_number.1, ends.not_number.2.1⟩
  | unsigned known given => simpa using letter known
  | positive known given => simpa using letter known
  | negative known given => simpa using letter known

theorem SpellsFraction.read (spelled : SpellsFraction shown fraction)
    (stops : ∀ c ∈ after.head?, isDigit c = false ∧ c ≠ '.') :
    fraction? (shown ++ after) = some (fraction, after) := by
  cases spelled with
  | absent =>
    cases after with
    | nil => rfl
    | cons c rest =>
      have notPoint : c ≠ '.' := (stops c rfl).2
      simp [fraction?, notPoint]
  | present given => exact given.digits? fun c first => (stops c first).1

theorem SpellsFraction.head (spelled : SpellsFraction shown fraction)
    (stops : ∀ c ∈ after.head?, isDigit c = false ∧ c ≠ '.') :
    ∀ c ∈ (shown ++ after).head?, isDigit c = false := by
  cases spelled with
  | absent => exact fun c first => (stops c first).1
  | present given => simp [isDigit]

/-- Each part of a number ends where the next one begins, and the last one where a value ends. -/
theorem number_read (negative : Bool) {whole shown' : List Char} (given : IsWhole whole)
    (fractional : SpellsFraction shown fraction) (raised : SpellsExponent shown' exponent)
    (ends : Ends after) :
    number? ((if negative then ['-'] else []) ++ (whole ++ (shown ++ (shown' ++ after)))) =
      some (numberOf negative whole fraction exponent, after) := by
  have behind := raised.head ends
  have digits := given.whole? (fractional.head behind)
  -- A minus stands only in front, so without one the number begins with a digit.
  have sign : afterMinus ((if negative then ['-'] else []) ++
      (whole ++ (shown ++ (shown' ++ after)))) =
        (negative, whole ++ (shown ++ (shown' ++ after))) := by
    cases negative with
    | true => rfl
    | false => exact (given.unsigned _).1
  simp [number?, sign, digits, fractional.read behind, raised.read ends]

end

/-! ### What is spelled is read: texts -/

theorem SpellsUnit.read {text : List Char} {unit : Nat} (spelled : SpellsUnit text unit)
    (after : List Char) : unit? (text ++ after) = some (unit, after) := by
  cases spelled with
  | digits first second third fourth => simp [unit?, first, second, third, fourth]

theorem SpellsChar.head {text : List Char} {c : Char} (spelled : SpellsChar text c) :
    ∃ first rest, text = first :: rest ∧ first ≠ '"' := by
  cases spelled with
  | plain printed notQuote notBackslash => exact ⟨_, _, rfl, notQuote⟩
  | letter known => exact ⟨_, _, rfl, by decide⟩
  | code spelled => exact ⟨_, _, rfl, by decide⟩
  | pair spelled spelled' isHigh isLow value => exact ⟨_, _, rfl, by decide⟩

theorem char_not_half (c : Char) : isHigh c.toNat = false ∧ isLow c.toNat = false := by
  -- Code points leave out all the halves.
  have valid : c.toNat < 0xd800 ∨ 0xdfff < c.toNat ∧ c.toNat < 0x110000 := c.valid
  simp only [isHigh, isLow, Bool.and_eq_false_iff, decide_eq_false_iff_not]
  omega

theorem escaped_letter {letter c : Char} (known : (letter, c) ∈ letterEscapes) (after : List Char) :
    escaped? (letter :: after) = some (c, after) := by
  simp only [letterEscapes, List.mem_cons, Prod.mk.injEq, List.not_mem_nil, or_false] at known
  rcases known with ⟨rfl, rfl⟩ | ⟨rfl, rfl⟩ | ⟨rfl, rfl⟩ | ⟨rfl, rfl⟩ | ⟨rfl, rfl⟩ | ⟨rfl, rfl⟩ |
    ⟨rfl, rfl⟩ | ⟨rfl, rfl⟩
  all_goals rfl

theorem escaped_code {unit : List Char} {c : Char} (spelled : SpellsUnit unit c.toNat)
    (after : List Char) : escaped? ('u' :: (unit ++ after)) = some (c, after) := by
  simp [escaped?, spelled.read after, char_not_half c, Char.ofNat_toNat]

theorem escaped_pair {first second : List Char} {high low : Nat} {c : Char}
    (spelled : SpellsUnit first high) (spelled' : SpellsUnit second low)
    (upper : isHigh high = true) (lower : isLow low = true) (value : pairValue high low = c.toNat)
    (after : List Char) :
    escaped? ('u' :: (first ++ '\\' :: 'u' :: (second ++ after))) = some (c, after) := by
  have unit := spelled.read ('\\' :: 'u' :: (second ++ after))
  simp [escaped?, unit, upper, spelled'.read after, lower, value, Char.ofNat_toNat]

theorem body_char {text : List Char} {c : Char} (spelled : SpellsChar text c) (bound : Nat)
    (chars : List Char) : body? (bound + 1) (text ++ chars) =
      (body? bound chars).bind fun read => some (c :: read.1, read.2) := by
  cases spelled with
  | plain printed notQuote notBackslash =>
    have notControl : ¬ c < ' ' := Char.not_lt.mpr printed
    simp [body?, notQuote, notBackslash, notControl, bind]
  | letter known => simp [body?, escaped_letter known, bind]
  | code spelled => simp [body?, escaped_code spelled, bind]
  | pair spelled spelled' upper lower value =>
    simp [body?, escaped_pair spelled spelled' upper lower value, bind]

theorem SpellsBody.read {body chars : List Char} (spelled : SpellsBody body chars)
    (after : List Char) {bound : Nat} (enough : body.length < bound) :
    body? bound (body ++ '"' :: after) = some (chars, after) := by
  induction spelled generalizing bound with
  | nil =>
    obtain ⟨bound, rfl⟩ := Nat.exists_eq_succ_of_ne_zero (Nat.ne_of_gt enough)
    simp [body?]
  | @cons text texts c chars first rest ih =>
    obtain ⟨bound, rfl⟩ := Nat.exists_eq_succ_of_ne_zero (Nat.ne_zero_of_lt enough)
    -- A step takes one character, which has a text that is not empty.
    obtain ⟨_, _, filled, -⟩ := first.head
    simp only [filled, List.length_append, List.length_cons] at enough
    rw [List.append_assoc, body_char first, ih (by omega)]
    rfl

theorem SpellsBody.string {body chars : List Char} (spelled : SpellsBody body chars)
    (after : List Char) : string? (body ++ '"' :: after) = some (chars, after) :=
  spelled.read after (by rw [List.length_append]; exact Nat.lt_add_of_pos_right (Nat.succ_pos _))

/-! ### What is spelled is read: rows -/

section

variable {α : Type} {Item : List Char → α → Prop} {item? : List Char → Option (α × List Char)}

/-- What items of a row are spelled by, up to a length, is read by the reader of items, and begins
with a character that is neither blank nor the end of the row. -/
structure Reads (close : Char) (Item : List Char → α → Prop)
    (item? : List Char → Option (α × List Char)) (size : Nat) : Prop where
  read : ∀ {text : List Char} {item : α}, Item text item → text.length < size →
    ∀ {after : List Char}, Ends after → item? (text ++ after) = some (item, after)
  head : ∀ {text : List Char} {item : α}, Item text item →
    ∃ c rest, text = c :: rest ∧ isBlank c = false ∧ c ≠ close

/-- Blanks before an item are skipped, and the item is read. -/
theorem Reads.read_skip {close : Char} {size : Nat} (reads : Reads close Item item? size)
    {before text after : List Char} {item : α} (blanks : ∀ c ∈ before, isBlank c = true)
    (spelled : Item text item) (fits : text.length < size) (ends : Ends after) :
    item? (skip (before ++ (text ++ after))) = some (item, after) := by
  have read := reads.read spelled fits ends
  obtain ⟨c, rest, rfl, printed, -⟩ := reads.head spelled
  rwa [skip_append blanks, List.cons_append, skip_cons printed]

theorem SpellsRow.read {close : Char} {inner : List Char} {items : List α} {size : Nat}
    (row : SpellsRow Item inner items) (reads : Reads close Item item? size)
    (fits : inner.length < size) (closing : ∀ after, Ends (close :: after))
    (printed : isBlank close = false) (other : close ≠ ',') (after : List Char) (bound : Nat)
    (enough : inner.length < bound) :
    row? close item? bound (inner ++ close :: after) = some (items, after) := by
  -- Each member takes one step of the bound, and it is longer than that.
  induction row generalizing bound with
  | @last before text gap item blanks spelled blanks' =>
    obtain ⟨bound, rfl⟩ := Nat.exists_eq_succ_of_ne_zero (Nat.ne_zero_of_lt enough)
    simp only [List.length_append] at fits
    have first := reads.read_skip blanks spelled (by omega) ((closing after).after_blanks blanks')
    simp [row?, first, skip_append blanks', skip_cons printed]
  | @cons before text gap rest item items blanks spelled blanks' others ih =>
    obtain ⟨bound, rfl⟩ := Nat.exists_eq_succ_of_ne_zero (Nat.ne_zero_of_lt enough)
    simp only [List.length_append, List.length_cons] at fits enough
    have ends : Ends (gap ++ ',' :: (rest ++ close :: after)) :=
      (ends_cons.mpr (by simp)).after_blanks blanks'
    have first := reads.read_skip blanks spelled (by omega) ends
    have later := ih (by omega) bound (by omega)
    have comma : isBlank ',' = false := by decide
    simp [row?, first, skip_append blanks', skip_cons comma, other.symm, later]

theorem SpellsRow.head {close : Char} {inner : List Char} {items : List α} {size : Nat}
    (row : SpellsRow Item inner items) (reads : Reads close Item item? size) (after : List Char) :
    ∃ c rest, skip (inner ++ after) = c :: rest ∧ c ≠ close := by
  have begins {before text : List Char} {item : α} (blanks : ∀ c ∈ before, isBlank c = true)
      (spelled : Item text item) (more : List Char) :
      ∃ c rest, skip (before ++ (text ++ more)) = c :: rest ∧ c ≠ close := by
    obtain ⟨c, rest, rfl, printed, notClose⟩ := reads.head spelled
    exact ⟨c, rest ++ more, by rw [skip_append blanks, List.cons_append, skip_cons printed],
      notClose⟩
  cases row with
  | last blanks spelled blanks' => simpa using begins blanks spelled _
  | cons blanks spelled blanks' others => simpa using begins blanks spelled _

/-- What stands between brackets is read up to the closing one. -/
theorem SpellsEnclosed.read {opening close : Char} {text : List Char} {items : List α} {size : Nat}
    (inside : SpellsEnclosed opening close Item text items) (reads : Reads close Item item? size)
    (fits : text.length < size + 2) (closing : ∀ after, Ends (close :: after))
    (printed : isBlank close = false) (other : close ≠ ',') (after : List Char) :
    ∃ inner, text = opening :: inner ∧
      enclosed? close item? (inner ++ after) = some (items, after) := by
  cases inside with
  | @empty gap blanks =>
    exact ⟨gap ++ [close], rfl, by simp [enclosed?, skip_append blanks, skip_cons printed]⟩
  | @row inner items row =>
    refine ⟨inner ++ [close], rfl, ?_⟩
    -- The row does not begin with the closing bracket, so it is not taken for an empty one.
    obtain ⟨c, rest, begun, notClose⟩ := row.head reads (close :: after)
    have read := row.read reads (by simpa using fits) closing printed other after
      ((inner ++ close :: after).length + 1) (by rw [List.length_append]; omega)
    simp [enclosed?, begun, notClose]
    simpa using read

end

/-! ### What is spelled is read: values -/

theorem word_read (after : List Char) (b : Bool) :
    word? ("null".toList ++ after) = some (.null, after) ∧
      word? ((if b then "true".toList else "false".toList) ++ after) = some (.bool b, after) := by
  cases b <;> exact ⟨rfl, rfl⟩

theorem isDigit_other {c : Char} (digit : isDigit c = true) : isBlank c = false ∧ c ≠ ']' ∧
    c ≠ '\x7d' ∧ c ≠ '"' ∧ c ≠ '[' ∧ c ≠ '\x7b' := by
  simp only [isBlank, Bool.or_eq_false_iff, decide_eq_false_iff_not]
  refine ⟨⟨⟨⟨?_, ?_⟩, ?_⟩, ?_⟩, ?_, ?_, ?_, ?_, ?_⟩
  all_goals
    rintro rfl
    cases digit

/-- A number begins with a minus or a digit. -/
theorem number_head (negative : Bool) {whole : List Char} (given : IsWhole whole)
    (after : List Char) : ∃ c rest,
      (if negative then ['-'] else []) ++ (whole ++ after) = c :: rest ∧
        (c = '-' ∨ isDigit c = true) := by
  cases negative with
  | true => exact ⟨'-', _, rfl, Or.inl rfl⟩
  | false =>
    obtain ⟨c, rest, rfl, digit⟩ := given.head
    exact ⟨c, _, rfl, Or.inr digit⟩

/-- A value begins with a character that is neither a blank nor the end of a row. -/
theorem Spells.head {text : List Char} {document : Document} (spelled : Spells text document) :
    ∃ c rest, text = c :: rest ∧ isBlank c = false ∧ c ≠ ']' ∧ c ≠ '\x7d' := by
  cases spelled with
  | null => exact ⟨'n', _, rfl, by decide⟩
  | bool b => cases b <;> exact ⟨_, _, rfl, by decide⟩
  | number given fractional raised =>
    obtain ⟨c, rest, begun, rfl | digit⟩ := number_head _ given _
    · exact ⟨'-', rest, begun, by decide⟩
    · obtain ⟨printed, notBracket, notBrace, -⟩ := isDigit_other digit
      exact ⟨c, rest, begun, printed, notBracket, notBrace⟩
  | text spelled => exact ⟨'"', _, rfl, by decide⟩
  | sequence inside => cases inside <;> exact ⟨'[', _, rfl, by decide⟩
  | mapping inside => cases inside <;> exact ⟨'\x7b', _, rfl, by decide⟩

/-- Members are read where their items are. -/
theorem Reads.members {size : Nat} {item? : List Char → Option (Document × List Char)}
    (reads : Reads '\x7d' Spells item? size) :
    Reads '\x7d' (SpellsMember Spells) (member? item?) size where
  read spelled fits after ends := by
    cases spelled with
    | @named body chars before gap text item name blanks blanks' spelled =>
      simp only [List.length_cons, List.length_append] at fits
      have read := name.string (before ++ ':' :: (gap ++ (text ++ after)))
      have colon : isBlank ':' = false := by decide
      have last := reads.read_skip blanks' spelled (by omega) ends
      simp [member?, read, skip_append blanks, skip_cons colon, last]
  head spelled := by
    cases spelled with
    | named => exact ⟨'"', _, rfl, by decide, by decide⟩

/-- A value is read where its items are, which are shorter. -/
theorem value_read (bound : Nat) {text : List Char} {document : Document}
    (spelled : Spells text document) (enough : text.length < bound) {after : List Char}
    (ends : Ends after) : value? bound (text ++ after) = some (document, after) := by
  induction bound generalizing text document after with
  | zero => cases enough
  | succ bound ih =>
    -- Items are shorter than what they are in, so one step less is enough for them.
    have reads {close : Char} (among : close = ']' ∨ close = '\x7d') :
        Reads close Spells (value? bound) bound := by
      constructor
      · intro text item spelled fits after ends
        exact ih spelled fits ends
      · intro text item spelled
        obtain ⟨c, rest, begun, printed, notBracket, notBrace⟩ := spelled.head
        refine ⟨c, rest, begun, printed, ?_⟩
        rcases among with rfl | rfl
        · exact notBracket
        · exact notBrace
    cases spelled with
    | null => simpa [value?, isDigit] using (word_read after true).1
    | bool b =>
      have read := (word_read after b).2
      cases b <;> simpa [value?, isDigit] using read
    | @number negative whole shown fraction shown' exponent given fractional raised =>
      have read := number_read negative given fractional raised ends
      simp only [List.append_assoc] at enough ⊢
      obtain ⟨c, rest, begun, head⟩ := number_head negative given
        (shown ++ (shown' ++ after))
      -- A number begins with a digit or a minus, and the reader tries it last.
      have plain : c ≠ '"' ∧ c ≠ '[' ∧ c ≠ '\x7b' := by
        rcases head with rfl | digit
        · decide
        · obtain ⟨-, -, -, others⟩ := isDigit_other digit
          exact others
      rw [begun] at read ⊢
      simp [value?, plain, head, read]
    | text spelled => simp [value?, spelled.string after]
    | sequence inside =>
      obtain ⟨inner, rfl, read⟩ := inside.read (reads (Or.inl rfl)) (by omega)
        (fun _ => ends_cons.mpr (by simp)) (by decide) (by decide) after
      simp [value?, read]
    | mapping inside =>
      obtain ⟨inner, rfl, read⟩ := inside.read (reads (Or.inr rfl)).members (by omega)
        (fun _ => ends_cons.mpr (by simp)) (by decide) (by decide) after
      simp [value?, read]

/-- The reader reads every text of the grammar as what it spells. -/
theorem read_of_spellsText {text : List Char} {document : Document}
    (spelled : SpellsText text document) : read text = some document := by
  obtain ⟨before, inner, after, rfl, blanks, blanks', spelled⟩ := spelled
  have ends : Ends after := by simpa using ends_nil.after_blanks blanks'
  have rest : skip after = [] := by
    rw [← List.append_nil after, skip_append blanks', skip, List.dropWhile_nil]
  -- The text is longer than the value in it, so its length is bound enough.
  have value := value_read ((before ++ (inner ++ after)).length + 1) spelled
    (by simp only [List.length_append]; omega) ends
  obtain ⟨c, chars, rfl, printed, -, -⟩ := spelled.head
  rw [read, skip_append blanks, List.cons_append, skip_cons printed, ← List.cons_append, value]
  simp [rest]

/-- No text spells two documents. -/
theorem SpellsText.unique {text : List Char} {document document' : Document}
    (spelled : SpellsText text document) (spelled' : SpellsText text document') :
    document = document' :=
  Option.some.inj ((read_of_spellsText spelled).symm.trans (read_of_spellsText spelled'))

end HostLisp.Json
