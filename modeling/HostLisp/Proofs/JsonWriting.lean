import HostLisp.Proofs.Conversion
import HostLisp.Proofs.JsonReading

/-!
# Writing JSON

What is written is a text of the grammar that spells the document, in either layout, and the layouts
differ in blanks only.

## Main results

`Json.write_spells`: a document without floats is written as a text that spells it.

`Json.lossless`: so the text of a value is read as its document, in which numbers and texts of a
subtype are plain ones.

## Proof strategy

Both layouts are treated at once: they differ in what stands before a member and after the last one,
which is blank. What is left of a text without its blanks is a text of its own, and the induction
over the document says that this is the same text for every layout and depth.
-/

namespace HostLisp

/-! ### Documents without subtypes -/

namespace Document

mutual

/-- A document with plain numbers and texts in the place of those of a subtype. -/
def plain : Document → Document
  | .taggedInt _ n => .int n
  | .taggedText _ s => .text s
  | .sequence items => .sequence (plainAll items)
  | .mapping entries => .mapping (plainEntries entries)
  | document => document
termination_by structural document => document

def plainAll : List Document → List Document
  | [] => []
  | item :: rest => plain item :: plainAll rest
termination_by structural items => items

def plainEntries : List (String × Document) → List (String × Document)
  | [] => []
  | (key, item) :: rest => (key, plain item) :: plainEntries rest
termination_by structural entries => entries

end

end Document

namespace Json

open Number (isDigit)

/-! ### What is left without blanks -/

/-- A text without the blanks outside of its string literals. The flag says whether the text begins
inside of one. -/
def packed : (quoted : Bool) → List Char → List Char
  | _, [] => []
  | true, '\\' :: c :: rest => '\\' :: c :: packed true rest
  | true, c :: rest => c :: packed (c ≠ '"') rest
  | false, c :: rest => if isBlank c then packed false rest else c :: packed (c = '"') rest

/-- A backslash in a literal and the character after it both stay. -/
theorem packed_backslash (c : Char) (rest : List Char) :
    packed true ('\\' :: c :: rest) = '\\' :: c :: packed true rest := by
  rw [packed]

theorem packed_plain {c : Char} (notQuote : c ≠ '"') (notBackslash : c ≠ '\\') (rest : List Char) :
    packed true (c :: rest) = c :: packed true rest := by
  rw [packed]
  · simp [notQuote]
  · exact fun _ _ same => absurd same notBackslash

theorem packed_closing (rest : List Char) :
    packed true ('"' :: rest) = '"' :: packed false rest := by
  rw [packed]
  · simp
  · exact fun _ _ same => absurd same (by decide)

/-- Without blanks a text is another one, whatever follows it. -/
def HasInk (text ink : List Char) : Prop :=
  ∀ rest, packed false (text ++ rest) = ink ++ packed false rest

namespace HasInk

variable {text text' ink ink' : List Char}

/-- The ink of two texts that each stand alone is the ink of one and then of the other. -/
theorem append (has : HasInk text ink) (has' : HasInk text' ink') :
    HasInk (text ++ text') (ink ++ ink') := by
  intro rest
  rw [List.append_assoc, has, has', List.append_assoc]

/-- Blanks have no ink. -/
theorem blank {gap : List Char} (blanks : ∀ c ∈ gap, isBlank c = true) : HasInk gap [] := by
  intro rest
  induction gap with
  | nil => rfl
  | cons c gap ih =>
    obtain ⟨here, later⟩ := List.forall_mem_cons.mp blanks
    rw [List.cons_append, packed, if_pos here]
    exact ih later

/-- Characters that are no blanks and no quotes are left as they are. -/
theorem printed (each : ∀ c ∈ text, isBlank c = false ∧ c ≠ '"') : HasInk text text := by
  intro rest
  induction text with
  | nil => rfl
  | cons c text ih =>
    obtain ⟨⟨notBlank, notQuote⟩, later⟩ := List.forall_mem_cons.mp each
    simp [packed, notBlank, notQuote, ih later]

end HasInk

theorem hexValue_plain {c : Char} {value : Nat} (given : hexValue? c = some value) :
    c ≠ '"' ∧ c ≠ '\\' := by
  constructor
  all_goals
    rintro rfl
    cases given

/-- The digits of a unit are neither quotes nor backslashes, so they stay in a literal. -/
theorem SpellsUnit.kept {text : List Char} {unit : Nat} (spelled : SpellsUnit text unit)
    (rest : List Char) : packed true (text ++ rest) = text ++ packed true rest := by
  cases spelled with
  | digits first second third fourth =>
    have plain {c : Char} {value : Nat} (given : hexValue? c = some value) (rest : List Char) :=
      packed_plain (hexValue_plain given).1 (hexValue_plain given).2 rest
    simp [plain first, plain second, plain third, plain fourth]

/-- However a character is written in a literal, it stays. -/
theorem SpellsChar.kept {text : List Char} {c : Char} (spelled : SpellsChar text c)
    (rest : List Char) : packed true (text ++ rest) = text ++ packed true rest := by
  cases spelled with
  | plain printed notQuote notBackslash => exact packed_plain notQuote notBackslash rest
  | letter known => exact packed_backslash _ rest
  | code spelled => simp [packed_backslash, spelled.kept]
  | pair spelled spelled' upper lower value =>
    simp [packed_backslash, spelled.kept, spelled'.kept]

theorem SpellsBody.kept {body chars : List Char} (spelled : SpellsBody body chars)
    (rest : List Char) : packed true (body ++ rest) = body ++ packed true rest := by
  induction spelled with
  | nil => rfl
  | cons first others ih => rw [List.append_assoc, first.kept, ih, List.append_assoc]

/-- A string literal is left as it is. -/
theorem SpellsBody.hasInk {body chars : List Char} (spelled : SpellsBody body chars) :
    HasInk ('"' :: (body ++ ['"'])) ('"' :: (body ++ ['"'])) := by
  intro rest
  have opening : packed false ('"' :: (body ++ '"' :: rest)) =
      '"' :: packed true (body ++ '"' :: rest) := by
    simp [packed, isBlank]
  simp [opening, spelled.kept, packed_closing]

/-! ### Texts -/

private theorem hexValue_hexDigit (value : Nat) (small : value < 16) :
    hexValue? (Text.hexDigit 'a' value) = some value := by
  have table : ∀ value < 16, hexValue? (Text.hexDigit 'a' value) = some value := by decide
  exact table value small

/-- Four digits are enough for a unit. -/
theorem hexDigits_spells {n : Nat} (small : n < 65536) : SpellsUnit (Text.hexDigits 'a' 4 n) n := by
  have digit (m : Nat) := hexValue_hexDigit (m % 16) (Nat.mod_lt m (by decide))
  have spelled := SpellsUnit.digits (digit (n / 16 / 16 / 16)) (digit (n / 16 / 16))
    (digit (n / 16)) (digit n)
  have value :
      ((n / 16 / 16 / 16 % 16 * 16 + n / 16 / 16 % 16) * 16 + n / 16 % 16) * 16 + n % 16 = n := by
    omega
  rwa [value] at spelled

/-- Escaping writes a character in one of the ways that the grammar knows. -/
theorem escapeChar_spells (c : Char) : SpellsChar (escapeChar c) c := by
  rw [escapeChar]
  -- Some characters have letters, other control characters have codes, and the rest is itself.
  split_ifs with quote backslash feed carriage tab back form control
  · subst quote
    exact .letter (by decide)
  · subst backslash
    exact .letter (by decide)
  · subst feed
    exact .letter (by decide)
  · subst carriage
    exact .letter (by decide)
  · subst tab
    exact .letter (by decide)
  · subst back
    exact .letter (by decide)
  · subst form
    exact .letter (by decide)
  · have small : c.toNat < 32 := control
    exact .code (hexDigits_spells (by omega))
  · exact .plain (Char.not_lt.mp control) quote backslash

theorem quote_spells (chars : List Char) : SpellsBody (chars.flatMap escapeChar) chars := by
  induction chars with
  | nil => exact .nil
  | cons c rest ih => exact .cons (escapeChar_spells c) ih

/-! ### Numbers -/

/-- A positive number has no zero before it. -/
theorem head_toDigits (n : Nat) (positive : 0 < n) : (Nat.toDigits 10 n).head? ≠ some '0' := by
  -- The first digit of a number is that of the number without its last digit.
  induction n using Nat.strong_induction_on with
  | _ n ih =>
    by_cases single : n < 10
    · have table : ∀ n < 10, 0 < n → n.digitChar ≠ '0' := by decide
      simpa [Nat.toDigits_of_lt_base single] using table n single positive
    · have front := ih (n / 10) (by omega) (by omega)
      rwa [Nat.toDigits_of_base_le (by decide) (by omega),
        List.head?_append_of_ne_nil _ Nat.toDigits_ne_nil]

/-- Decimal digits have no zero in front, unless they are the zero. -/
theorem toDigits_isWhole (n : Nat) : IsWhole (Nat.toDigits 10 n) where
  filled := Nat.toDigits_ne_nil
  each c member := by
    have digit := Nat.isDigit_of_mem_toDigits (by decide) (by decide) member
    simpa [isDigit, Char.isDigit, Char.le_def] using digit
  lone leading := by
    rcases Nat.eq_zero_or_pos n with rfl | positive
    · rfl
    · exact absurd leading (head_toDigits n positive)

/-- An integer is written as its sign and the digits of its size. -/
theorem decimalText_eq (n : Int) : (Number.decimalText n).toList =
    (if decide (n < 0) = true then ['-'] else []) ++ Nat.toDigits 10 n.natAbs := by
  by_cases negative : n < 0 <;> simp [Number.decimalText, negative]

/-- An integer is written as a number of the grammar, without fraction and exponent. -/
theorem decimalText_spells (n : Int) : Spells (Number.decimalText n).toList (.int n) := by
  have spelled := @Spells.number (decide (n < 0)) _ _ _ _ _ (toDigits_isWhole n.natAbs)
    .absent .absent
  have digits : Number.ofDigits (Nat.toDigits 10 n.natAbs) = n.natAbs :=
    Nat.ofDigitChars_ten_toDigits
  have value : signed (decide (n < 0)) n.natAbs = n := by
    rw [signed]
    split_ifs with negative
    · have below : n < 0 := of_decide_eq_true negative
      omega
    · have above : ¬ n < 0 := mt decide_eq_true negative
      omega
  rw [decimalText_eq]
  simpa [numberOf, digits, value] using spelled

/-- A number has no blanks, so all of it is ink. -/
theorem decimalText_hasInk (n : Int) :
    HasInk (Number.decimalText n).toList (Number.decimalText n).toList := by
  apply HasInk.printed
  rw [decimalText_eq]
  have digits : ∀ c ∈ Nat.toDigits 10 n.natAbs, isBlank c = false ∧ c ≠ '"' := by
    intro c member
    obtain ⟨printed, -, -, notQuote, -⟩ := isDigit_other ((toDigits_isWhole n.natAbs).each c member)
    exact ⟨printed, notQuote⟩
  refine List.forall_mem_append.mpr ⟨?_, digits⟩
  split_ifs
  · simp [isBlank]
  · simp

/-! ### Rows -/

theorem blanks_nil : ∀ c ∈ ([] : List Char), isBlank c = true := by simp

theorem newline_blank (layout : Layout) (depth : Nat) :
    ∀ c ∈ layout.newline depth, isBlank c = true := by
  cases layout with
  | compact => simp [Layout.newline]
  | indented => simp [Layout.newline, isBlank]

theorem separator_eq (layout : Layout) (depth : Nat) :
    ∃ gap, layout.separator depth = ',' :: gap ∧ ∀ c ∈ gap, isBlank c = true := by
  cases layout with
  | compact => exact ⟨[' '], rfl, by simp [isBlank]⟩
  | indented => exact ⟨_, rfl, newline_blank .indented depth⟩

section

variable {α : Type} {Item : List Char → α → Prop}

/-- Members between separators are a row, with blanks around it. -/
theorem intercalate_spells {first : List Char} {item : α} {members : List (List Char)}
    {items : List α} (spelled : Item first item) (others : List.Forall₂ Item members items)
    {before gap after : List Char} (blanks : ∀ c ∈ before, isBlank c = true)
    (between : ∀ c ∈ gap, isBlank c = true) (blanks' : ∀ c ∈ after, isBlank c = true) :
    SpellsRow Item (before ++ ((',' :: gap).intercalate (first :: members) ++ after))
      (item :: items) := by
  -- The first member stands apart from the rest, because no separator comes before it.
  induction others generalizing first item before with
  | nil => simpa using SpellsRow.last blanks spelled blanks'
  | cons spelled' _ ih =>
    have rest := ih spelled' between
    simpa [List.intercalate_cons_cons] using SpellsRow.cons blanks spelled blanks_nil rest

/-- Members between brackets are a row of the grammar in either layout. -/
theorem enclose_spells (layout : Layout) (depth : Nat) (opening close : Char)
    {members : List (List Char)} {items : List α} (each : List.Forall₂ Item members items) :
    SpellsEnclosed opening close Item (enclose layout depth opening close members) items := by
  -- Without members there is nothing between the brackets, in either layout.
  cases each with
  | nil =>
    exact .empty blanks_nil
  | cons spelled others =>
    obtain ⟨gap, separator, between⟩ := separator_eq layout (depth + 1)
    have row := intercalate_spells spelled others (newline_blank layout (depth + 1)) between
      (newline_blank layout depth)
    have enclosed : SpellsEnclosed opening close Item _ _ := .row row
    simpa [enclose, separator] using enclosed

/-- Of a row with separators the members and the commas are left. -/
theorem intercalate_hasInk {gap first ink : List Char} {members inks : List (List Char)}
    (has : HasInk first ink) (others : List.Forall₂ HasInk members inks)
    (between : ∀ c ∈ gap, isBlank c = true) :
    HasInk ((',' :: gap).intercalate (first :: members)) ([','].intercalate (ink :: inks)) := by
  induction others generalizing first ink with
  | nil => simpa using has
  | cons has' _ ih =>
    have comma : HasInk [','] [','] := .printed (by simp [isBlank])
    have rest := ((has.append comma).append (.blank between)).append (ih has')
    simpa [List.intercalate_cons_cons] using rest

/-- What is left of a row does not depend on its layout. -/
theorem enclose_hasInk (layout : Layout) (depth : Nat) {opening close : Char}
    (plain : ∀ c ∈ [opening, close], isBlank c = false ∧ c ≠ '"')
    {members inks : List (List Char)} (each : List.Forall₂ HasInk members inks) :
    HasInk (enclose layout depth opening close members)
      (opening :: ([','].intercalate inks ++ [close])) := by
  have first : HasInk [opening] [opening] := .printed (by simp_all)
  have last : HasInk [close] [close] := .printed (by simp_all)
  cases each with
  | nil => exact first.append last
  | cons has others =>
    obtain ⟨gap, separator, between⟩ := separator_eq layout (depth + 1)
    have row := intercalate_hasInk has others between
    have before := HasInk.blank (newline_blank layout (depth + 1))
    have after := HasInk.blank (newline_blank layout depth)
    simpa [enclose, separator] using (((first.append before).append row).append after).append last

end

/-! ### Documents -/

/-- In every layout and at every depth a document is written as a text that spells it, of which
without blanks the same is left. -/
def WrittenAs (document : Document) (ink : List Char) : Prop :=
  ∀ layout depth, ∃ text, write layout depth document = .ok text ∧ Spells text document.plain ∧
    HasInk text ink

/-- An integer that is not too long is written alike in both layouts. -/
theorem int_writtenAs {n : Int} (fits : Number.exceedsDigitLimit n = false) :
    WrittenAs (.int n) (Number.decimalText n).toList := by
  intro layout depth
  refine ⟨_, ?_, decimalText_spells n, decimalText_hasInk n⟩
  rw [write, writeInt_of_fits fits]
  rfl

/-- A text is written alike in both layouts. -/
theorem quote_writtenAs (s : String) : WrittenAs (.text s) (quote s) := by
  intro layout depth
  have body := quote_spells s.toList
  have spelled := Spells.text body
  rw [String.ofList_toList] at spelled
  exact ⟨quote s, by rw [write], spelled, body.hasInk⟩

/-- The members of an array are those of its items. -/
theorem writeItems_written {items : List Document}
    (each : ∀ item ∈ items, ∃ ink, WrittenAs item ink) :
    ∃ inks, ∀ layout depth, ∃ members, writeItems layout depth items = .ok members ∧
      List.Forall₂ Spells members (Document.plainAll items) ∧ List.Forall₂ HasInk members inks := by
  induction items with
  | nil => exact ⟨[], fun layout depth => ⟨[], rfl, .nil, .nil⟩⟩
  | cons item rest ih =>
    obtain ⟨⟨ink, here⟩, later⟩ := List.forall_mem_cons.mp each
    obtain ⟨inks, there⟩ := ih later
    refine ⟨ink :: inks, fun layout depth => ?_⟩
    obtain ⟨text, written, spelled, has⟩ := here layout depth
    obtain ⟨members, written', spelled', has'⟩ := there layout depth
    refine ⟨text :: members, ?_, .cons spelled spelled', .cons has has'⟩
    simp only [writeItems, written, written']
    rfl

/-- The members of an object are those of its entries, with their names in quotes. -/
theorem writeEntries_written {entries : List (String × Document)}
    (each : ∀ entry ∈ entries, ∃ ink, WrittenAs entry.2 ink) :
    ∃ inks, ∀ layout depth, ∃ members, writeEntries layout depth entries = .ok members ∧
      List.Forall₂ (SpellsMember Spells) members (Document.plainEntries entries) ∧
      List.Forall₂ HasInk members inks := by
  induction entries with
  | nil => exact ⟨[], fun layout depth => ⟨[], rfl, .nil, .nil⟩⟩
  | cons entry rest ih =>
    obtain ⟨key, item⟩ := entry
    obtain ⟨⟨ink, here⟩, later⟩ := List.forall_mem_cons.mp each
    obtain ⟨inks, there⟩ := ih later
    refine ⟨(quote key ++ ':' :: ink) :: inks, fun layout depth => ?_⟩
    obtain ⟨text, written, spelled, has⟩ := here layout depth
    obtain ⟨members, written', spelled', has'⟩ := there layout depth
    have body := quote_spells key.toList
    have space : ∀ c ∈ [' '], isBlank c = true := by simp [isBlank]
    have named := SpellsMember.named body blanks_nil space spelled
    have colon : HasInk [':'] [':'] := .printed (by simp [isBlank])
    -- The space after the colon is there in both layouts.
    have gap : HasInk [' '] [] := .blank (by simp [isBlank])
    have member : HasInk (quote key ++ ':' :: ' ' :: text) (quote key ++ ':' :: ink) := by
      simpa [quote] using ((body.hasInk.append colon).append gap).append has
    refine ⟨(quote key ++ ':' :: ' ' :: text) :: members, ?_, .cons ?_ spelled', .cons member has'⟩
    · simp only [writeEntries, written, written']
      rfl
    · simpa [quote] using named

/-- A document without floats and long numbers is written, in one way but for blanks. -/
theorem write_spells {document : Document} (portable : document.Portable) :
    ∃ ink, WrittenAs document ink := by
  induction portable with
  | null =>
    exact ⟨_, fun layout depth => ⟨_, rfl, .null, .printed (by simp [isBlank])⟩⟩
  | bool b =>
    have ink : HasInk (if b then "true".toList else "false".toList)
        (if b then "true".toList else "false".toList) :=
      .printed (by cases b <;> simp [isBlank])
    exact ⟨_, fun layout depth => ⟨_, rfl, .bool b, ink⟩⟩
  | int n fits => exact ⟨_, int_writtenAs fits⟩
  | text s => exact ⟨_, quote_writtenAs s⟩
  | taggedInt subtype n fits => exact ⟨_, int_writtenAs fits⟩
  | taggedText subtype s => exact ⟨_, quote_writtenAs s⟩
  | sequence items each ih =>
    obtain ⟨inks, written⟩ := writeItems_written ih
    refine ⟨'[' :: ([','].intercalate inks ++ [']']), fun layout depth => ?_⟩
    -- Inside of brackets everything is one level deeper.
    obtain ⟨members, made, spelled, has⟩ := written layout (depth + 1)
    refine ⟨_, ?_, .sequence (enclose_spells layout depth '[' ']' spelled),
      enclose_hasInk layout depth (by simp [isBlank]) has⟩
    simp only [write, made]
    rfl
  | mapping entries each distinct ih =>
    obtain ⟨inks, written⟩ := writeEntries_written ih
    refine ⟨'\x7b' :: ([','].intercalate inks ++ ['\x7d']), fun layout depth => ?_⟩
    obtain ⟨members, made, spelled, has⟩ := written layout (depth + 1)
    refine ⟨_, ?_, .mapping (enclose_spells layout depth '\x7b' '\x7d' spelled),
      enclose_hasInk layout depth (by simp [isBlank]) has⟩
    simp only [write, made]
    rfl

/-- A value without floats and without numbers that are too long is written as JSON in both layouts.
Each of the two texts is one of the grammar and is read as the document of the value, with plain
numbers and texts for those of a subtype; no object in it has one name twice, so it does not matter
what a reader makes of those. Without the blanks outside of string literals the two texts are the
same. The document of the value is the document of itself. -/
theorem lossless (value : Value) (portable : ∀ part ∈ value.parts, part.IsPortable) :
    ∃ document compact indented, Document.ofValue value = .ok document ∧ document.Portable ∧
      value.writeAs (some "json") false = .ok compact ∧
      value.writeAs (some "json") true = .ok indented ∧
      (∀ text ∈ [compact, indented], SpellsText text.toList document.plain ∧
        read text.toList = some document.plain) ∧
      packed false compact.toList = packed false indented.toList ∧
      Document.ofValue document.toValue = .ok document := by
  -- The value is first made a document, which is then written twice.
  obtain ⟨document, made, good⟩ := Document.ofValue_portable portable
  obtain ⟨ink, written⟩ := write_spells good
  -- What is left without blanks is the same in both layouts.
  obtain ⟨compact, short, spelled, has⟩ := written .compact 0
  obtain ⟨indented, long, spelled', has'⟩ := written .indented 0
  have named : Format.ofName? (Text.lower "json") = some .json := by decide +kernel
  have texts : ∀ text ∈ [compact, indented], SpellsText text document.plain := by
    simp only [List.forall_mem_cons, List.not_mem_nil]
    exact ⟨⟨[], compact, [], by simp, by simp, by simp, spelled⟩,
      ⟨[], indented, [], by simp, by simp, by simp, spelled'⟩, by simp⟩
  refine ⟨document, String.ofList compact, String.ofList indented, made, good, ?_, ?_, ?_, ?_,
    good.ofValue_toValue⟩
  · simp [Value.writeAs, made, named, Document.render, render, short, bind, Except.bind, Except.map]
  · simp [Value.writeAs, made, named, Document.render, render, long, bind, Except.bind, Except.map]
  · simp only [List.forall_mem_cons, List.not_mem_nil, String.toList_ofList] at texts ⊢
    obtain ⟨first, second, -⟩ := texts
    exact ⟨⟨first, read_of_spellsText first⟩, ⟨second, read_of_spellsText second⟩, by simp⟩
  · have left : packed false compact = ink := by simpa [packed] using has []
    have right : packed false indented = ink := by simpa [packed] using has' []
    rw [String.toList_ofList, String.toList_ofList, left, right]

def home : HostObject := ⟨⟨"Page", []⟩, "home", "<Page home>", "page:home"⟩

/-- A mapping with a number as a key, which holds a number of a subtype, an object of the host and a
text that JSON must escape. -/
def sample : Value := .dict [
  (.int 1, .tuple [.null, .taggedInt "Num" 3]),
  (.text "quote \" and bell \x07", .list [.object home, .dict []])]

theorem lossless_sample : (∀ part ∈ sample.parts, part.IsPortable) ∧ ∃ compact indented,
    sample.writeAs (some "json") false = .ok compact ∧
    sample.writeAs (some "json") true = .ok indented ∧
    ∀ text ∈ [compact, indented], read text.toList = some (.mapping [
      ("1", .sequence [.null, .int 3]),
      ("quote \" and bell \x07", .sequence [.text "page:home", .mapping []])]) := by
  have one : Number.exceedsDigitLimit 1 = false :=
    Number.exceedsDigitLimit_of_digit (n := 1) (by decide)
  have three : Number.exceedsDigitLimit 3 = false :=
    Number.exceedsDigitLimit_of_digit (n := 3) (by decide)
  have portable : ∀ part ∈ sample.parts, part.IsPortable := by
    simp [sample, Value.parts, Value.partsAll, Value.partsOfEntries, Value.IsPortable,
      Value.IsOverlong, one, three]
  have made : Document.ofValue sample = .ok (.mapping [
      ("1", .sequence [.null, .taggedInt "Num" 3]),
      ("quote \" and bell \x07", .sequence [.text "page:home", .mapping []])]) := by
    have shown : writeInt 1 = .ok "1" := by rw [writeInt_of_fits one]; rfl
    simp only [sample, Document.ofValue, Document.ofPairs, Document.ofItems, Value.display,
      Value.inspect, shown]
    rfl
  obtain ⟨document, compact, indented, made', -, short, long, texts, -, -⟩ :=
    lossless sample portable
  obtain rfl := Except.ok.inj (made.symm.trans made')
  exact ⟨portable, compact, indented, short, long, fun text member => (texts text member).2⟩

end Json

end HostLisp
