import HostLisp.Output.Yaml.Block
import Mathlib.Tactic.SplitIfs

/-!
# The lines of scalars

A scalar that is too long for a line goes on in further lines, and so does one with line feeds in
it. No line but the first can be the mark of a document: it is empty or indented. Quotes and the
last character of a plain text end the last line.

## Main results

`Yaml.writeText_block`: below its first line a scalar is empty or indented, and no line feed ends
it.

`Yaml.writeText_flat`: a key on one line with its value has no line feed.

`Yaml.writeText_folded`: without quotes a text is written as it is, except that spaces become line
breaks.

## Proof strategy

`Opens` says of the start of a line that no mark can come of it, whatever follows. So it is enough
to look at each line feed and at what is written right after it.
-/

namespace HostLisp.Yaml

/-! ### Lines -/

/-- A text begins a line that is no mark of the start or the end of a document, whatever follows. -/
inductive Opens : List Char → Prop
  | other {c : Char} (rest : List Char) (notDot : c ≠ '.') (notDash : c ≠ '-') : Opens (c :: rest)
  | item {c : Char} (rest : List Char) (notDash : c ≠ '-') : Opens ('-' :: c :: rest)
  | key {line : List Char} (rest : List Char) (flat : '\n' ∉ line) : Opens (line ++ ':' :: rest)

theorem Opens.append {text : List Char} (opens : Opens text) (more : List Char) :
    Opens (text ++ more) := by
  cases opens with
  | other rest notDot notDash => exact .other _ notDot notDash
  | item rest notDash => exact .item _ notDash
  | key rest flat =>
    rw [List.append_assoc]
    exact .key _ flat

theorem Opens.feed (rest : List Char) : Opens ('\n' :: rest) := .other rest (by decide) (by decide)

theorem Opens.space (rest : List Char) : Opens (' ' :: rest) := .other rest (by decide) (by decide)

theorem Opens.indented {indent : Nat} (positive : 0 < indent) (rest : List Char) :
    Opens (List.replicate indent ' ' ++ rest) := by
  cases indent with
  | zero => exact absurd positive (by decide)
  | succ indent => exact .space _

theorem Opens.indent {text : List Char} (opens : Opens text) (indent : Nat) :
    Opens (List.replicate indent ' ' ++ text) := by
  cases indent with
  | zero => simpa using opens
  | succ indent => exact .space _

/-- No line after the first can be a mark. -/
def Lined (text : List Char) : Prop :=
  ∀ before after, text = before ++ '\n' :: after → Opens after

theorem lined_of_flat {text : List Char} (flat : '\n' ∉ text) : Lined text := by
  rintro before after rfl
  simp at flat

theorem Lined.append {text text' : List Char} (lined : Lined text) (lined' : Lined text') :
    Lined (text ++ text') := by
  intro before after split
  rcases List.append_eq_append_iff.mp split with ⟨more, -, there⟩ | ⟨more, here, there⟩
  · exact lined' _ _ there
  · cases more with
    | nil => exact lined' [] after there.symm
    | cons c more =>
      obtain ⟨rfl, rfl⟩ := List.cons.inj there
      exact (lined before more here).append text'

theorem Lined.feed {text : List Char} (lined : Lined text) (opens : Opens text) :
    Lined ('\n' :: text) := by
  intro before after split
  cases before with
  | nil =>
    obtain ⟨-, rfl⟩ := List.cons.inj split
    exact opens
  | cons c before =>
    obtain ⟨rfl, same⟩ := List.cons.inj split
    exact lined before after same

theorem Lined.cons {text : List Char} {c : Char} (lined : Lined text) (notFeed : c ≠ '\n') :
    Lined (c :: text) := by
  have single : Lined [c] := lined_of_flat (by simpa using notFeed.symm)
  exact single.append lined

theorem Lined.newLine {text : List Char} {indent : Nat} (lined : Lined text)
    (opens : Opens (List.replicate indent ' ' ++ text)) : Lined (newLine indent ++ text) :=
  .feed (.append (lined_of_flat (by simp)) lined) opens

/-- The last character is there and is no line feed. -/
def Closes (text : List Char) : Prop := ∃ front c, text = front ++ [c] ∧ c ≠ '\n'

theorem Closes.prepend {text : List Char} (closes : Closes text) (more : List Char) :
    Closes (more ++ text) := by
  obtain ⟨front, c, rfl, notFeed⟩ := closes
  exact ⟨more ++ front, c, by simp, notFeed⟩

/-- Lines of which only the first can be a mark, and that end in the last of them. -/
structure IsBlock (text : List Char) : Prop where
  lined : Lined text
  closes : Closes text

namespace IsBlock

variable {text text' : List Char}

theorem flat (flat : '\n' ∉ text) (filled : text ≠ []) : IsBlock text := by
  refine ⟨lined_of_flat flat, text.dropLast, text.getLast filled, ?_, ?_⟩
  · exact (List.dropLast_concat_getLast filled).symm
  · exact fun same => flat (same ▸ List.getLast_mem filled)

theorem prepend (block : IsBlock text) (lined : Lined text') : IsBlock (text' ++ text) :=
  ⟨lined.append block.lined, block.closes.prepend text'⟩

theorem cons (block : IsBlock text) {c : Char} (notFeed : c ≠ '\n') : IsBlock (c :: text) :=
  ⟨block.lined.cons notFeed, block.closes.prepend [c]⟩

theorem newLine (block : IsBlock text) {indent : Nat}
    (opens : Opens (List.replicate indent ' ' ++ text)) : IsBlock (newLine indent ++ text) :=
  ⟨block.lined.newLine opens, block.closes.prepend _⟩

end IsBlock

/-- What stands between two quotes is closed by the second. -/
theorem quoted_block {body : List Char} {quote : Char} (lined : Lined body)
    (notFeed : quote ≠ '\n') : IsBlock (quote :: (body ++ [quote])) := by
  have closing : IsBlock [quote] := .flat (by simpa using notFeed.symm) (by simp)
  exact (closing.prepend lined).cons notFeed

/-! ### Stretches of a text -/

namespace Run

def chars : Run → List Char
  | .word chars => chars
  | .spaces count => List.replicate count ' '
  | .breaks chars => chars

/-- A stretch has characters of its kind only, and one break at least if it is one of breaks. -/
def IsUniform : Run → Prop
  | .word chars => ∀ c ∈ chars, isBreak c = false
  | .spaces _ => True
  | .breaks chars => chars ≠ [] ∧ ∀ c ∈ chars, isBreak c = true

theorem IsUniform.not_unbroken {chars : List Char} (uniform : (Run.breaks chars).IsUniform) :
    ¬ ∀ c ∈ chars, isBreak c = false := by
  obtain ⟨filled, broken⟩ := uniform
  obtain ⟨c, rest, rfl⟩ := List.exists_cons_of_ne_nil filled
  simp [broken c List.mem_cons_self]

/-- Words have no line feeds, and encoded they have none either. -/
theorem IsUniform.encoded_flat {chars : List Char} (uniform : (Run.word chars).IsUniform)
    {encode : Char → List Char} (encoded : ∀ c, c ≠ '\n' → '\n' ∉ encode c) :
    '\n' ∉ chars.flatMap encode := by
  rw [List.mem_flatMap]
  rintro ⟨c, member, among⟩
  refine encoded c ?_ among
  rintro rfl
  exact absurd (uniform _ member) (by decide)

end Run

theorem runs_chars (text : List Char) : (runs text).flatMap Run.chars = text := by
  induction text with
  | nil => rfl
  | cons c rest ih =>
    rw [runs]
    -- A character joins the first stretch of the rest if it is of its kind.
    split_ifs with space broken
    · subst space
      split
      next same => simpa [same, Run.chars, List.replicate_succ] using ih
      next => simpa [Run.chars] using ih
    · split
      next same => simpa [same, Run.chars] using ih
      next => simpa [Run.chars] using ih
    · split
      next same => simpa [same, Run.chars] using ih
      next => simpa [Run.chars] using ih

theorem runs_uniform (text : List Char) : ∀ run ∈ runs text, run.IsUniform := by
  induction text with
  | nil => simp [runs]
  | cons c rest ih =>
    rw [runs]
    split_ifs with space broken
    · split
      next same =>
        rw [same] at ih
        exact List.forall_mem_cons.mpr ⟨trivial, (List.forall_mem_cons.mp ih).2⟩
      next => exact List.forall_mem_cons.mpr ⟨trivial, ih⟩
    · split
      next same =>
        rw [same] at ih
        obtain ⟨⟨-, each⟩, others⟩ := List.forall_mem_cons.mp ih
        exact List.forall_mem_cons.mpr
          ⟨⟨by simp, List.forall_mem_cons.mpr ⟨broken, each⟩⟩, others⟩
      next => exact List.forall_mem_cons.mpr ⟨⟨by simp, by simpa using broken⟩, ih⟩
    · have plain : isBreak c = false := by simpa using broken
      split
      next same =>
        rw [same] at ih
        obtain ⟨each, others⟩ := List.forall_mem_cons.mp ih
        exact List.forall_mem_cons.mpr ⟨List.forall_mem_cons.mpr ⟨plain, each⟩, others⟩
      next =>
        refine List.forall_mem_cons.mpr ⟨?_, ih⟩
        simpa [Run.IsUniform] using plain

/-! ### Stretches as they are written -/

section

variable {encode : Char → List Char} {indent : Nat} {rs : List Run}

private theorem feeds_lined (count : Nat) {rest : List Char} (lined : Lined (' ' :: rest)) :
    Lined (List.replicate count '\n' ++ ' ' :: rest) := by
  induction count with
  | zero => simpa using lined
  | succ count ih =>
    refine Lined.feed ih ?_
    cases count with
    | zero => exact .space rest
    | succ count => exact .feed _

/-- After line feeds comes the indentation. -/
private theorem writeBreaks_lined (indented : 0 < indent) {breaks rest : List Char}
    (feeds : ∀ c ∈ breaks, c = '\n') (lined : Lined rest) :
    Lined (writeBreaks indent breaks ++ rest) := by
  obtain ⟨spaces, rfl⟩ := Nat.exists_eq_succ_of_ne_zero (Nat.pos_iff_ne_zero.mp indented)
  -- All breaks are line feeds, and the first of them is written twice.
  have same : breaks = List.replicate breaks.length '\n' := List.eq_replicate_iff.mpr ⟨rfl, feeds⟩
  -- The indentation has one space at least, and a line with a space in front is no mark.
  have tail : Lined (' ' :: (List.replicate spaces ' ' ++ rest)) :=
    (Lined.append (lined_of_flat (by simp)) lined).cons (by decide)
  have lines (count : Nat) := feeds_lined count tail
  rw [writeBreaks, same, List.replicate_succ, List.append_assoc, List.append_assoc,
    List.cons_append]
  split_ifs
  · exact lines (breaks.length + 1)
  · exact lines breaks.length

/-- Below the first line stretches are indented, if only line feeds break lines. -/
theorem writeRuns_lined (encoded : ∀ c, c ≠ '\n' → '\n' ∉ encode c) (indented : 0 < indent)
    (uniform : ∀ run ∈ rs, run.IsUniform)
    (feeds : ∀ run ∈ rs, ∀ c ∈ run.chars, isBreak c = true → c = '\n')
    (split : Bool) (column : Nat) (inside : Bool) :
    Lined (writeRuns encode indent split column inside rs) := by
  -- The column is what the stretches before have left, so the induction is on all columns.
  induction rs generalizing column inside with
  | nil => exact lined_of_flat (by simp [writeRuns])
  | cons run rest ih =>
    obtain ⟨here, uniform⟩ := List.forall_mem_cons.mp uniform
    obtain ⟨feed, feeds⟩ := List.forall_mem_cons.mp feeds
    have later (column : Nat) := ih uniform feeds column true
    cases run with
    | word chars => exact .append (lined_of_flat (here.encoded_flat encoded)) (later _)
    | spaces count =>
      rw [writeRuns]
      split_ifs
      · exact (later _).newLine (.indented indented _)
      · exact .append (lined_of_flat (by simp)) (later _)
    | breaks chars =>
      exact writeBreaks_lined indented (fun c member => feed c member (here.2 c member)) (later _)

/-- Without breaks, and where spaces stay spaces, stretches are written on one line. -/
theorem writeRuns_flat (encoded : ∀ c, c ≠ '\n' → '\n' ∉ encode c)
    (uniform : ∀ run ∈ rs, run.IsUniform)
    (unbroken : ∀ run ∈ rs, ∀ c ∈ run.chars, isBreak c = false) (column : Nat) (inside : Bool) :
    '\n' ∉ writeRuns encode indent false column inside rs := by
  induction rs generalizing column inside with
  | nil => simp [writeRuns]
  | cons run rest ih =>
    obtain ⟨here, uniform⟩ := List.forall_mem_cons.mp uniform
    obtain ⟨plain, unbroken⟩ := List.forall_mem_cons.mp unbroken
    have later (column : Nat) := ih uniform unbroken column true
    cases run with
    | word chars =>
      rw [writeRuns, List.mem_append, not_or]
      exact ⟨here.encoded_flat encoded, later _⟩
    | spaces count => simp [writeRuns, later]
    | breaks chars => exact absurd plain here.not_unbroken

end

/-! ### Texts without quotes -/

/-- A text is written as it is, except that some of its spaces become line breaks. -/
inductive Folded (indent : Nat) : List Char → List Char → Prop
  | nil : Folded indent [] []
  | keep {text written : List Char} (c : Char) (rest : Folded indent text written) :
      Folded indent (c :: text) (c :: written)
  | fold {text written : List Char} (rest : Folded indent text written) :
      Folded indent (' ' :: text) (newLine indent ++ written)

namespace Folded

variable {indent : Nat} {text written : List Char}

theorem prepend (folded : Folded indent text written) (front : List Char) :
    Folded indent (front ++ text) (front ++ written) := by
  induction front with
  | nil => exact folded
  | cons c front ih => exact .keep c ih

/-- On one line a text is itself. -/
theorem eq_of_flat (folded : Folded indent text written) (flat : '\n' ∉ written) :
    written = text := by
  induction folded with
  | nil => rfl
  | keep c _ ih => rw [ih (List.not_mem_of_not_mem_cons flat)]
  | fold _ _ => simp [newLine] at flat

/-- The first line is the start of the text. -/
theorem firstLine (folded : Folded indent text written) :
    ∃ rest, text = written.takeWhile (· ≠ '\n') ++ rest := by
  induction folded with
  | nil => exact ⟨[], rfl⟩
  | @keep text written c _ ih =>
    obtain ⟨rest, same⟩ := ih
    by_cases feed : c = '\n'
    · exact ⟨c :: text, by simp [feed]⟩
    · exact ⟨rest, by simpa [feed] using same⟩
  | @fold text written _ _ => exact ⟨' ' :: text, by simp [newLine]⟩

/-- The last character stays the last, unless it is a space. -/
theorem closes (folded : Folded indent text written) (filled : text ≠ [])
    (last : ∀ c ∈ text.getLast?, c ≠ ' ' ∧ c ≠ '\n') : Closes written := by
  induction folded with
  | nil => exact absurd rfl filled
  -- A character that is kept last is the last of what is written.
  | @keep text written c folded ih =>
    by_cases only : text = []
    · subst only
      cases folded
      exact ⟨[], c, rfl, (last c rfl).2⟩
    · rw [List.getLast?_cons_of_ne_nil only] at last
      exact (ih only last).prepend [c]
  | @fold text written folded ih =>
    by_cases only : text = []
    · -- Only a space at the end could leave a line feed there.
      subst only
      exact absurd rfl (last ' ' rfl).1
    · rw [List.getLast?_cons_of_ne_nil only] at last
      exact (ih only last).prepend _

end Folded

/-- Stretches without breaks are folded at single spaces. -/
theorem writeRuns_folded {rs : List Run} (uniform : ∀ run ∈ rs, run.IsUniform)
    (unbroken : ∀ run ∈ rs, ∀ c ∈ run.chars, isBreak c = false) (indent : Nat) (split : Bool)
    (column : Nat) (inside : Bool) :
    Folded indent (rs.flatMap Run.chars)
      (writeRuns (fun c => [c]) indent split column inside rs) := by
  -- Where a line is folded depends on the column, but what is folded there is a single space.
  induction rs generalizing column inside with
  | nil => exact .nil
  | cons run rest ih =>
    obtain ⟨here, uniform⟩ := List.forall_mem_cons.mp uniform
    obtain ⟨plain, unbroken⟩ := List.forall_mem_cons.mp unbroken
    have later (column : Nat) := ih uniform unbroken column true
    rw [List.flatMap_cons]
    cases run with
    | word chars =>
      have same : chars.flatMap (fun c => [c]) = chars := by simp
      rw [writeRuns, same]
      exact (later _).prepend chars
    | spaces count =>
      rw [writeRuns]
      split_ifs with folds
      · simp only [Bool.and_eq_true, decide_eq_true_eq] at folds
        -- A stretch is folded only if it is a single space.
        obtain ⟨⟨-, rfl⟩, -⟩ := folds
        exact .fold (later _)
      · exact (later _).prepend _
    | breaks chars => exact absurd plain here.not_unbroken

/-! ### Escapes -/

private theorem hexDigit_flat (value : Nat) (small : value < 16) :
    Text.hexDigit 'A' value ≠ '\n' := by
  have table : ∀ value < 16, Text.hexDigit 'A' value ≠ '\n' := by decide
  exact table value small

private theorem hexDigits_flat (width n : Nat) : '\n' ∉ Text.hexDigits 'A' width n := by
  induction width generalizing n with
  | zero => simp [Text.hexDigits]
  | succ width ih =>
    have digit := hexDigit_flat (n % 16) (Nat.mod_lt n (by decide))
    simp [Text.hexDigits, ih, digit.symm]

theorem escape_flat (c : Char) : '\n' ∉ escape c := by
  rw [escape]
  -- An escape is a letter of the table or a code, and no line feed is either.
  cases known : letterEscapes.lookup c with
  | some letter =>
    have member : (c, letter) ∈ letterEscapes := by
      obtain ⟨before, after, same, -⟩ := List.lookup_eq_some_iff.mp known
      simp [same]
    have table : ∀ pair ∈ letterEscapes, pair.2 ≠ '\n' := by decide
    simpa using (table _ member).symm
  | none =>
    simp only [Text.escapeByCode]
    split_ifs <;> simp [hexDigits_flat]

theorem notFeed_of_needsEscape {c : Char} (plain : needsEscape c = false) : c ≠ '\n' := by
  rintro rfl
  exact absurd plain (by decide)

/-- What an escape is followed by on the next line: a backslash before a space, or nothing. -/
private theorem resumed_flat (condition : Prop) [Decidable condition] :
    '\n' ∉ (if condition then ['\\'] else [] : List Char) := by
  split_ifs <;> simp

/-- In double quotes a line ends with a backslash only, and the next one is indented. -/
theorem writeEscaped_lined {indent : Nat} (indented : 0 < indent) (split : Bool) (column : Nat)
    (first fresh : Bool) (text : List Char) :
    Lined (writeEscaped indent split column first fresh text) := by
  induction text generalizing column first fresh with
  | nil => exact lined_of_flat (by simp [writeEscaped])
  | cons c rest ih =>
    have resume {resumed more : List Char} (flat : '\n' ∉ resumed) (lined : Lined more) :
        Lined ('\\' :: (newLine indent ++ (resumed ++ more))) :=
      ((Lined.append (lined_of_flat flat) lined).newLine (.indented indented _)).cons (by decide)
    rw [writeEscaped]
    dsimp only
    split
    · -- A line is split after what is escaped, and before what is not.
      have escaped := lined_of_flat (escape_flat c)
      split
      · simpa using escaped.append (resume (resumed_flat (rest.head? = some ' ')) (ih _ false true))
      · exact escaped.append (ih _ _ _)
    next plain =>
      have notFeed := notFeed_of_needsEscape (by simpa using plain)
      split
      · simpa using resume (resumed_flat (c = ' ')) ((ih _ false false).cons notFeed)
      · exact (ih _ _ _).cons notFeed

/-- Where lines are not split there is one. -/
theorem writeEscaped_flat (indent column : Nat) (first fresh : Bool) (text : List Char) :
    '\n' ∉ writeEscaped indent false column first fresh text := by
  induction text generalizing column first fresh with
  | nil => simp [writeEscaped]
  | cons c rest ih =>
    rw [writeEscaped]
    cases escapes : needsEscape c with
    | true => simp [escape_flat, ih]
    | false => simp [ih, (notFeed_of_needsEscape escapes).symm]

/-! ### Scalars -/

/-- What a text is that stands without quotes. -/
structure StandsPlain (text : List Char) : Prop where
  filled : text ≠ []
  own : readsAsOther text = false
  last : ∀ c ∈ text.getLast?, c ≠ ' '
  unbroken : ∀ c ∈ text, isBreak c = false
  unmarked : startsWithMark text = false

theorem styleOf_plain {text : List Char} (style : styleOf text = .plain) : StandsPlain text := by
  have allowed : allowsPlain text = true := by
    rw [styleOf] at style
    split_ifs at style with allowed
    exact allowed
  simp only [allowsPlain, Bool.not_eq_true', Bool.or_eq_false_iff, List.any_eq_false,
    List.isEmpty_eq_false_iff] at allowed
  obtain ⟨⟨⟨⟨⟨⟨⟨filled, own⟩, -⟩, last⟩, unbroken⟩, unmarked⟩, -⟩, -⟩ := allowed
  refine ⟨filled, own, fun c member space => ?_, by simpa using unbroken, unmarked⟩
  simp [Option.mem_def.mp member, space] at last

/-- In a text in single quotes only line feeds break lines. -/
theorem styleOf_single {text : List Char} (style : styleOf text = .single) :
    ∀ c ∈ text, isBreak c = true → c = '\n' := by
  have allowed : needsDouble text = false := by
    rw [styleOf] at style
    split_ifs at style with plain double
    simpa using double
  intro c member broken
  have ordinary : isSpecial c = false := by
    simp only [needsDouble, Bool.or_eq_false_iff, List.any_eq_false] at allowed
    simpa using allowed.1 c member
  simp only [isBreak, Bool.or_eq_true, decide_eq_true_eq] at broken
  -- The other breaks are no printable ASCII.
  rcases broken with ((feed | rfl) | rfl) | rfl
  · exact feed
  · exact absurd ordinary (by decide)
  · exact absurd ordinary (by decide)
  · exact absurd ordinary (by decide)

private theorem runs_each {Holds : Char → Prop} {text : List Char} (each : ∀ c ∈ text, Holds c) :
    ∀ run ∈ runs text, ∀ c ∈ run.chars, Holds c := by
  intro run member c among
  apply each
  rw [← runs_chars text]
  exact List.mem_flatMap.mpr ⟨run, member, among⟩

private theorem quote_flat (c : Char) (notFeed : c ≠ '\n') :
    '\n' ∉ (if c = '\x27' then ['\x27', '\x27'] else [c] : List Char) := by
  split_ifs with quote
  · decide
  · simpa using notFeed.symm

variable {text : List Char} {indent column : Nat} {split : Bool}

theorem StandsPlain.folded (stands : StandsPlain text) :
    Folded indent text (writePlain indent split column text) := by
  have folded := writeRuns_folded (runs_uniform text) (runs_each stands.unbroken) indent split
    column false
  rwa [runs_chars] at folded

/-- Without quotes a text is written as it is, except that spaces become line breaks. -/
theorem writeText_folded (style : styleOf text = .plain) :
    Folded indent text (writeText indent split column text) := by
  rw [writeText, style]
  exact (styleOf_plain style).folded

/-- A text in quotes begins with one. -/
theorem writeText_quoted (indent column : Nat) (split : Bool) (style : styleOf text ≠ .plain) :
    ∃ c rest, writeText indent split column text = c :: rest ∧ (c = '\x27' ∨ c = '"') := by
  rw [writeText]
  cases known : styleOf text with
  | plain => exact absurd known style
  | single => exact ⟨_, _, rfl, Or.inl rfl⟩
  | double => exact ⟨_, _, rfl, Or.inr rfl⟩

/-- Below its first line a text is empty or indented, and no line feed ends it. -/
theorem writeText_block (indented : 0 < indent) : IsBlock (writeText indent split column text) := by
  rw [writeText]
  cases style : styleOf text with
  | plain =>
    have stands := styleOf_plain style
    have folded : Folded indent text (writePlain indent split column text) := stands.folded
    constructor
    · refine writeRuns_lined (fun c notFeed => by simpa using notFeed.symm) indented
        (runs_uniform text) ?_ split column false
      refine runs_each fun c member broken => ?_
      simp [stands.unbroken c member] at broken
    · refine folded.closes stands.filled fun c member => ⟨stands.last c member, ?_⟩
      rintro rfl
      exact absurd (stands.unbroken _ (List.mem_of_getLast? member)) (by decide)
  | single =>
    have lined := writeRuns_lined quote_flat indented (runs_uniform text)
      (runs_each (styleOf_single style)) split (column + 1) false
    exact quoted_block lined (by decide)
  | double =>
    have lined := writeEscaped_lined indented split (column + 1) true true text
    exact quoted_block lined (by decide)

/-- A text without breaks is written on one line, where spaces stay spaces. -/
theorem writeText_flat (unbroken : ∀ c ∈ text, isBreak c = false) :
    '\n' ∉ writeText indent false column text := by
  rw [writeText]
  cases styleOf text with
  | plain =>
    exact writeRuns_flat (fun c notFeed => by simpa using notFeed.symm) (runs_uniform text)
      (runs_each unbroken) column false
  | single =>
    have flat : '\n' ∉ writeRuns _ indent false (column + 1) false (runs text) :=
      writeRuns_flat quote_flat (runs_uniform text) (runs_each unbroken) (column + 1) false
    simpa [writeSingle] using flat
  | double =>
    simpa [writeDouble] using writeEscaped_flat indent (column + 1) true true text

end HostLisp.Yaml
