import HostLisp.Proofs.WritableReports
import Mathlib.Data.List.Nodup

/-!
# Values as documents

A value that is written out becomes a document first: sequences become lists, mappings get texts as
keys, and objects become their texts.

## Main results

`Document.ofValue_writes`: a value has a document unless one of its keys has a number with too many
digits.

`Document.ofValue_portable`: where a value has no floats and no numbers that are too long, neither
has its document, and no mapping in it has one name twice.

`Document.Portable.ofValue_toValue`: such a document is the document of itself.

`containers_walked`: the document of a value has everything that the value holds exactly if no
mapping in the value has two keys with the same text.

## Proof strategy

Entries are put into a mapping one by one, and one whose name is new comes last. So entries with
different names are all there in their order, and what is put together never has one name twice.
-/

namespace HostLisp

/-- Two things are written one after the other unless one of them is too long. -/
theorem WritesUnless.andThen {α β : Type} {long long' : Prop} {first : Except Fault α}
    {next : α → Except Fault β} (writes : WritesUnless long first)
    (writes' : ∀ a, WritesUnless long' (next a)) :
    WritesUnless (long ∨ long') (first >>= next) := by
  cases writes with
  | written a short => exact (writes' a).congr (by simp [short])
  | tooLong holds => exact .tooLong (Or.inl holds)

theorem Number.exceedsDigitLimit_of_digit {n : Nat} (digit : n < 10) :
    exceedsDigitLimit n = false :=
  exceedsDigitLimit_of_lt (Nat.lt_of_lt_of_le digit (Nat.le_self_pow (by decide) 10))

/-! ### The parts of a value -/

namespace Value

mutual

/-- A value and everything in it: items, and the keys and values of entries. -/
def parts : Value → List Value
  | .list items => .list items :: partsAll items
  | .tuple items => .tuple items :: partsAll items
  | .dict entries => .dict entries :: partsOfEntries entries
  | value => [value]
termination_by structural value => value

def partsAll : List Value → List Value
  | [] => []
  | item :: rest => parts item ++ partsAll rest
termination_by structural items => items

def partsOfEntries : List (Value × Value) → List Value
  | [] => []
  | (key, value) :: rest => parts key ++ (parts value ++ partsOfEntries rest)
termination_by structural entries => entries

end

mutual

/-- The keys of the mappings in a value, and everything in them. -/
def keyParts : Value → List Value
  | .list items | .tuple items => keyPartsAll items
  | .dict entries => keyPartsOfEntries entries
  | _ => []
termination_by structural value => value

def keyPartsAll : List Value → List Value
  | [] => []
  | item :: rest => keyParts item ++ keyPartsAll rest
termination_by structural items => items

def keyPartsOfEntries : List (Value × Value) → List Value
  | [] => []
  | (key, value) :: rest => parts key ++ (keyParts value ++ keyPartsOfEntries rest)
termination_by structural entries => entries

end

/-- A value is a number with too many digits, of whatever subtype. -/
def IsOverlong : Value → Prop
  | .int n | .taggedInt _ n => Number.exceedsDigitLimit n = true
  | _ => False

/-- A value is no float and no number with too many digits. -/
def IsPortable (value : Value) : Prop := (∀ x, value ≠ .float x) ∧ ¬ value.IsOverlong

/-- A value is a number or a text of a subtype. -/
def IsTagged : Value → Prop
  | .taggedInt _ _ | .taggedText _ _ => True
  | _ => False

/-- A value is no container. -/
def IsLeaf : Value → Prop
  | .list _ | .tuple _ | .dict _ => False
  | _ => True

/-! ### Texts of values -/

private theorem number_writes (n : Int) :
    WritesUnless (Number.exceedsDigitLimit n = true) (writeInt n) := by
  rw [writeInt]
  split_ifs with exceeds
  · exact .tooLong exceeds
  · exact .written _ exceeds

mutual

/-- A value shows its structure unless a number in it has too many digits. -/
theorem inspect_writes : ∀ value : Value,
    WritesUnless (∃ part ∈ value.parts, part.IsOverlong) value.inspect
  | .null | .bool _ | .text _ | .taggedText _ _ | .float _ | .object _ =>
    .written _ (by simp [parts, IsOverlong])
  | .int n | .taggedInt _ n => (number_writes n).congr (by simp [parts, IsOverlong])
  | .list items =>
    ((inspectItems_writes items).bind _).congr (by simp [parts, IsOverlong])
  | .tuple items =>
    -- Written out, since what stands around the items depends on how many there are.
    ((inspectItems_writes items).bind fun shown =>
      let inner := ", ".intercalate shown
      if shown.length = 1 then "(" ++ inner ++ ",)" else "(" ++ inner ++ ")").congr
        (by simp [parts, IsOverlong])
  | .dict entries =>
    ((inspectEntries_writes entries).bind _).congr (by simp [parts, IsOverlong])

theorem inspectItems_writes : ∀ items : List Value,
    WritesUnless (∃ part ∈ partsAll items, part.IsOverlong) (inspectItems items)
  | [] => .written [] (by simp [partsAll])
  | item :: rest =>
    ((inspect_writes item).andThen fun shown => (inspectItems_writes rest).bind (shown :: ·)).congr
      (by simp [partsAll, or_and_right, exists_or])

theorem inspectEntries_writes : ∀ entries : List (Value × Value),
    WritesUnless (∃ part ∈ partsOfEntries entries, part.IsOverlong) (inspectEntries entries)
  | [] => .written [] (by simp [partsOfEntries])
  | (key, value) :: rest =>
    ((inspect_writes key).andThen fun shown => (inspect_writes value).andThen fun shown' =>
      (inspectEntries_writes rest).bind ((shown ++ ": " ++ shown') :: ·)).congr
      (by simp [partsOfEntries, or_and_right, exists_or])

end

/-- A text is itself and an object has a name, so only what shows its structure can be too long. -/
theorem display_writes (value : Value) :
    WritesUnless (∃ part ∈ value.parts, part.IsOverlong) value.display := by
  cases value with
  | text s => exact .written s (by simp [parts, IsOverlong])
  | taggedText subtype s => exact .written s (by simp [parts, IsOverlong])
  | object o => exact .written o.display (by simp [parts, IsOverlong])
  | null => exact inspect_writes _
  | bool b => exact inspect_writes _
  | int n => exact inspect_writes _
  | float x => exact inspect_writes _
  | taggedInt subtype n => exact inspect_writes _
  | list items => exact inspect_writes _
  | tuple items => exact inspect_writes _
  | dict entries => exact inspect_writes _

/-- A value in which everything is portable has a text. -/
theorem display_of_portable (value : Value) (each : ∀ part ∈ value.parts, part.IsPortable) :
    ∃ text, value.display = .ok text := by
  have writes := value.display_writes
  cases shown : value.display with
  | ok text => exact ⟨text, rfl⟩
  | error fault =>
    rw [shown] at writes
    cases writes with
    | tooLong holds =>
      obtain ⟨part, member, long⟩ := holds
      exact absurd long (each part member).2

end Value

namespace Document

mutual

/-- A value has a document unless one of its keys has a number with too many digits. -/
theorem ofValue_writes : ∀ value : Value,
    WritesUnless (∃ part ∈ value.keyParts, part.IsOverlong) (ofValue value)
  | .null | .bool _ | .int _ | .text _ | .float _ | .taggedInt _ _ | .taggedText _ _ | .object _ =>
    .written _ (by simp [Value.keyParts])
  | .list items | .tuple items => (ofItems_writes items).bind Document.sequence
  | .dict entries => (ofPairs_writes entries).bind ofEntries

theorem ofItems_writes : ∀ items : List Value,
    WritesUnless (∃ part ∈ Value.keyPartsAll items, part.IsOverlong) (ofItems items)
  | [] => .written [] (by simp [Value.keyPartsAll])
  | item :: rest =>
    ((ofValue_writes item).andThen fun document =>
      (ofItems_writes rest).bind (document :: ·)).congr
      (by simp [Value.keyPartsAll, or_and_right, exists_or])

theorem ofPairs_writes : ∀ entries : List (Value × Value),
    WritesUnless (∃ part ∈ Value.keyPartsOfEntries entries, part.IsOverlong) (ofPairs entries)
  | [] => .written [] (by simp [Value.keyPartsOfEntries])
  | (key, value) :: rest =>
    ((key.display_writes).andThen fun shown => (ofValue_writes value).andThen fun document =>
      (ofPairs_writes rest).bind ((shown, document) :: ·)).congr
      (by simp [Value.keyPartsOfEntries, or_and_right, exists_or])

end

/-! ### Entries -/

/-- The names of the entries of a mapping. -/
def names (entries : List (String × Document)) : List String := entries.map Prod.fst

/-- An entry whose name is new comes last. -/
theorem insertEntry_of_notMem {key : String} {item : Document} {known : List (String × Document)}
    (new : key ∉ names known) : insertEntry key item known = known ++ [(key, item)] := by
  induction known with
  | nil => rfl
  | cons first rest ih =>
    simp only [names, List.map_cons, List.mem_cons, not_or] at new
    rw [insertEntry, if_neg (Ne.symm new.1), ih new.2, List.cons_append]

theorem names_insertEntry_of_mem {key : String} {item : Document}
    {known : List (String × Document)} (present : key ∈ names known) :
    names (insertEntry key item known) = names known := by
  induction known with
  | nil => cases present
  | cons first rest ih =>
    obtain ⟨key', item'⟩ := first
    by_cases same : key' = key
    · simp [insertEntry, names, same]
    · have later : key ∈ names rest := (List.mem_cons.mp present).resolve_left (Ne.symm same)
      rw [insertEntry, if_neg same]
      exact congrArg (key' :: ·) (ih later)

/-- The entries of a mapping after several more. -/
def insertAll (known entries : List (String × Document)) : List (String × Document) :=
  entries.foldl (fun known entry => insertEntry entry.1 entry.2 known) known

theorem insertAll_cons (known : List (String × Document)) (entry : String × Document)
    (rest : List (String × Document)) :
    insertAll known (entry :: rest) = insertAll (insertEntry entry.1 entry.2 known) rest :=
  rfl

theorem nodup_insertAll {known : List (String × Document)} (distinct : (names known).Nodup)
    (entries : List (String × Document)) : (names (insertAll known entries)).Nodup := by
  induction entries generalizing known with
  | nil => exact distinct
  | cons entry rest ih =>
    rw [insertAll_cons]
    apply ih
    -- A known name keeps its place, and a new one comes last.
    by_cases present : entry.1 ∈ names known
    · rwa [names_insertEntry_of_mem present]
    · rw [insertEntry_of_notMem present, names, List.map_append, List.map_singleton,
        List.nodup_append]
      refine ⟨distinct, by simp, fun name member other last same => present ?_⟩
      rwa [← List.mem_singleton.mp last, ← same]

theorem forall_insertEntry {Holds : Document → Prop} {key : String} {item : Document}
    {known : List (String × Document)} (here : Holds item) (each : ∀ entry ∈ known, Holds entry.2) :
    ∀ entry ∈ insertEntry key item known, Holds entry.2 := by
  induction known with
  | nil => simpa [insertEntry] using here
  | cons first rest ih =>
    obtain ⟨first', rest'⟩ := List.forall_mem_cons.mp each
    rw [insertEntry]
    split_ifs
    · exact List.forall_mem_cons.mpr ⟨here, rest'⟩
    · exact List.forall_mem_cons.mpr ⟨first', ih rest'⟩

theorem forall_insertAll {Holds : Document → Prop} {known entries : List (String × Document)}
    (each : ∀ entry ∈ known, Holds entry.2) (each' : ∀ entry ∈ entries, Holds entry.2) :
    ∀ entry ∈ insertAll known entries, Holds entry.2 := by
  induction entries generalizing known with
  | nil => exact each
  | cons entry rest ih =>
    obtain ⟨here, later⟩ := List.forall_mem_cons.mp each'
    rw [insertAll_cons]
    exact ih (forall_insertEntry here each) later

/-- Entries with names that are all different come one after the other. -/
theorem insertAll_of_nodup {known entries : List (String × Document)}
    (distinct : (names (known ++ entries)).Nodup) : insertAll known entries = known ++ entries := by
  induction entries generalizing known with
  | nil => simp [insertAll]
  | cons entry rest ih =>
    -- Since all names differ, each entry goes to the end.
    have new : entry.1 ∉ names known := by
      simp only [names, List.map_append, List.map_cons, List.nodup_append] at distinct
      intro member
      exact distinct.2.2 _ member _ List.mem_cons_self rfl
    rw [insertAll_cons, insertEntry_of_notMem new, ih (by simpa using distinct), List.append_assoc,
      List.singleton_append]

theorem ofEntries_eq (pairs : List (String × Document)) :
    ofEntries pairs = .mapping (insertAll [] pairs) :=
  rfl

/-! ### What all documents of fitting values have -/

/-- Values that fit are portable, and something holds of the documents of all leaves that fit. It
passes on to lists of documents, and to mappings in which no name is there twice. -/
structure Carries (Fits : Value → Prop) (Holds : Document → Prop) : Prop where
  portable : ∀ value, Fits value → value.IsPortable
  leaf : ∀ value, value.IsLeaf → Fits value → ∃ document, ofValue value = .ok document ∧
    Holds document
  sequence : ∀ items, (∀ item ∈ items, Holds item) → Holds (.sequence items)
  mapping : ∀ entries, (∀ entry ∈ entries, Holds entry.2) → (names entries).Nodup →
    Holds (.mapping entries)

namespace Carries

variable {Fits : Value → Prop} {Holds : Document → Prop}

/-- Entries that are put together have no name twice. -/
theorem ofEntries (carries : Carries Fits Holds) {pairs : List (String × Document)}
    (each : ∀ pair ∈ pairs, Holds pair.2) : Holds (Document.ofEntries pairs) := by
  rw [ofEntries_eq]
  exact carries.mapping _ (forall_insertAll (by simp) each)
    (nodup_insertAll (by simp [names]) pairs)

mutual

/-- A value of fitting parts has a document, of which the same holds as of those of its parts. -/
theorem ofValue (carries : Carries Fits Holds) : ∀ {value : Value},
    (∀ part ∈ value.parts, Fits part) →
    ∃ document, Document.ofValue value = .ok document ∧ Holds document
  | .null, each | .bool _, each | .int _, each | .text _, each | .float _, each
  | .taggedInt _ _, each | .taggedText _ _, each | .object _, each =>
    carries.leaf _ trivial (each _ List.mem_cons_self)
  | .list items, each | .tuple items, each => by
    obtain ⟨documents, made, holds⟩ := carries.ofItems (List.forall_mem_cons.mp each).2
    exact ⟨.sequence documents, by simp only [Document.ofValue, made]; rfl,
      carries.sequence documents holds⟩
  | .dict entries, each => by
    obtain ⟨pairs, made, holds⟩ := carries.ofPairs (List.forall_mem_cons.mp each).2
    exact ⟨Document.ofEntries pairs, by simp only [Document.ofValue, made]; rfl,
      carries.ofEntries holds⟩

theorem ofItems (carries : Carries Fits Holds) : ∀ {items : List Value},
    (∀ part ∈ Value.partsAll items, Fits part) →
    ∃ documents, Document.ofItems items = .ok documents ∧ ∀ document ∈ documents, Holds document
  | [], _ => ⟨[], rfl, by simp⟩
  | item :: rest, each => by
    obtain ⟨here, later⟩ := List.forall_mem_append.mp each
    obtain ⟨document, made, holds⟩ := carries.ofValue here
    obtain ⟨documents, made', holds'⟩ := carries.ofItems later
    exact ⟨document :: documents, by simp only [Document.ofItems, made, made']; rfl,
      List.forall_mem_cons.mpr ⟨holds, holds'⟩⟩

theorem ofPairs (carries : Carries Fits Holds) : ∀ {entries : List (Value × Value)},
    (∀ part ∈ Value.partsOfEntries entries, Fits part) →
    ∃ pairs, Document.ofPairs entries = .ok pairs ∧ ∀ pair ∈ pairs, Holds pair.2
  | [], _ => ⟨[], rfl, by simp⟩
  | (key, value) :: rest, each => by
    obtain ⟨ofKey, others⟩ := List.forall_mem_append.mp each
    obtain ⟨here, later⟩ := List.forall_mem_append.mp others
    -- Keys are only shown, so of their parts it matters that they can be.
    obtain ⟨shown, written⟩ :=
      key.display_of_portable fun part member => carries.portable part (ofKey part member)
    obtain ⟨document, made, holds⟩ := carries.ofValue here
    obtain ⟨pairs, made', holds'⟩ := carries.ofPairs later
    exact ⟨(shown, document) :: pairs, by simp only [Document.ofPairs, written, made, made']; rfl,
      List.forall_mem_cons.mpr ⟨holds, holds'⟩⟩

end

end Carries

/-! ### What is portable -/

/-- A document without floats and without numbers that are too long, in which no mapping has one
name twice. -/
inductive Portable : Document → Prop
  | null : Portable .null
  | bool (b : Bool) : Portable (.bool b)
  | int (n : Int) (fits : Number.exceedsDigitLimit n = false) : Portable (.int n)
  | text (s : String) : Portable (.text s)
  | taggedInt (subtype : String) (n : Int) (fits : Number.exceedsDigitLimit n = false) :
    Portable (.taggedInt subtype n)
  | taggedText (subtype s : String) : Portable (.taggedText subtype s)
  | sequence (items : List Document) (each : ∀ item ∈ items, Portable item) :
    Portable (.sequence items)
  | mapping (entries : List (String × Document)) (each : ∀ entry ∈ entries, Portable entry.2)
    (distinct : (names entries).Nodup) : Portable (.mapping entries)

theorem carries_portable : Carries Value.IsPortable Portable where
  portable _ fits := fits
  sequence := .sequence
  mapping := .mapping
  leaf value leaf fits := by
    cases value with
    | null => exact ⟨_, rfl, .null⟩
    | bool b => exact ⟨_, rfl, .bool b⟩
    | int n => exact ⟨_, rfl, .int n (by simpa [Value.IsOverlong] using fits.2)⟩
    | text s => exact ⟨_, rfl, .text s⟩
    | float x => exact absurd rfl (fits.1 x)
    | taggedInt subtype n =>
      exact ⟨_, rfl, .taggedInt subtype n (by simpa [Value.IsOverlong] using fits.2)⟩
    | taggedText subtype s => exact ⟨_, rfl, .taggedText subtype s⟩
    | object o => exact ⟨_, rfl, .text o.display⟩
    | list items => cases leaf
    | tuple items => cases leaf
    | dict entries => cases leaf

theorem ofValue_portable {value : Value} (each : ∀ part ∈ value.parts, part.IsPortable) :
    ∃ document, ofValue value = .ok document ∧ document.Portable :=
  carries_portable.ofValue each

mutual

/-- A document as a value again. -/
def toValue : Document → Value
  | .null => .null
  | .bool b => .bool b
  | .int n => .int n
  | .text s => .text s
  | .float x => .float x
  | .taggedInt subtype n => .taggedInt subtype n
  | .taggedText subtype s => .taggedText subtype s
  | .sequence items => .list (toValues items)
  | .mapping entries => .dict (toEntries entries)
termination_by structural document => document

def toValues : List Document → List Value
  | [] => []
  | item :: rest => toValue item :: toValues rest
termination_by structural items => items

def toEntries : List (String × Document) → List (Value × Value)
  | [] => []
  | (key, item) :: rest => (.text key, toValue item) :: toEntries rest
termination_by structural entries => entries

end

/-- Where no mapping has one name twice, a document is the document of itself. -/
theorem Portable.ofValue_toValue {document : Document} (portable : document.Portable) :
    ofValue document.toValue = .ok document := by
  induction portable with
  | null => rfl
  | bool b => rfl
  | int n fits => rfl
  | text s => rfl
  | taggedInt subtype n fits => rfl
  | taggedText subtype s => rfl
  | sequence items each ih =>
    have made : ofItems (toValues items) = .ok items := by
      -- The list alone is taken apart, so nothing may speak of it as a whole.
      clear each
      induction items with
      | nil => rfl
      | cons item rest ih' =>
        obtain ⟨here, later⟩ := List.forall_mem_cons.mp ih
        simp only [toValues, ofItems, here, ih' later]
        rfl
    simp only [toValue, ofValue, made]
    rfl
  -- A mapping whose names differ is put together as it was.
  | mapping entries each distinct ih =>
    have made : ofPairs (toEntries entries) = .ok entries := by
      clear each distinct
      induction entries with
      | nil => rfl
      | cons entry rest ih' =>
        obtain ⟨here, later⟩ := List.forall_mem_cons.mp ih
        simp only [toEntries, ofPairs, Value.display, here, ih' later]
        rfl
    have whole : insertAll [] entries = entries := insertAll_of_nodup distinct
    simp only [toValue, ofValue, made]
    exact congrArg (Except.ok ∘ Document.mapping) whole

end Document

/-! ### What is kept -/

/-- A document has everything that a value holds, in its place: a sequence has its items one by one,
and a mapping its entries one by one, each under the text of its key. -/
inductive Value.Keeps : Value → Document → Prop
  | null : Keeps .null .null
  | bool (b : Bool) : Keeps (.bool b) (.bool b)
  | int (n : Int) : Keeps (.int n) (.int n)
  | text (s : String) : Keeps (.text s) (.text s)
  | float (x : Number.Binary64) : Keeps (.float x) (.float x)
  | taggedInt (subtype : String) (n : Int) : Keeps (.taggedInt subtype n) (.taggedInt subtype n)
  | taggedText (subtype s : String) : Keeps (.taggedText subtype s) (.taggedText subtype s)
  | object (o : HostObject) : Keeps (.object o) (.text o.display)
  | list {items : List Value} {documents : List Document}
    (each : List.Forall₂ Keeps items documents) : Keeps (.list items) (.sequence documents)
  | tuple {items : List Value} {documents : List Document}
    (each : List.Forall₂ Keeps items documents) : Keeps (.tuple items) (.sequence documents)
  | dict {entries : List (Value × Value)} {pairs : List (String × Document)}
    (texts : entries.map (fun entry => entry.1.display) = pairs.map fun pair => .ok pair.1)
    (each : List.Forall₂ Keeps (entries.map Prod.snd) (pairs.map Prod.snd)) :
    Keeps (.dict entries) (.mapping pairs)

namespace Value

mutual

/-- In no mapping, on whatever level, do two keys have the same text. -/
def KeysApart : Value → Prop
  | .list items | .tuple items => KeysApartAll items
  | .dict entries => (entries.map fun entry => entry.1.display).Nodup ∧ KeysApartEntries entries
  | _ => True
termination_by structural value => value

def KeysApartAll : List Value → Prop
  | [] => True
  | item :: rest => KeysApart item ∧ KeysApartAll rest
termination_by structural items => items

def KeysApartEntries : List (Value × Value) → Prop
  | [] => True
  | (_, value) :: rest => KeysApart value ∧ KeysApartEntries rest
termination_by structural entries => entries

end

end Value

namespace Document

theorem sequence_of_ofItems {items : List Value} {document : Document}
    (made : (do let documents ← ofItems items; .ok (.sequence documents)) = Except.ok document) :
    ∃ documents, ofItems items = .ok documents ∧ document = .sequence documents := by
  cases inner : ofItems items with
  | ok documents =>
    rw [inner] at made
    cases made
    exact ⟨documents, rfl, rfl⟩
  | error fault =>
    rw [inner] at made
    cases made

theorem mapping_of_ofPairs {entries : List (Value × Value)} {document : Document}
    (made : ofValue (.dict entries) = .ok document) :
    ∃ pairs, ofPairs entries = .ok pairs ∧ document = ofEntries pairs := by
  rw [ofValue] at made
  cases inner : ofPairs entries with
  | ok pairs =>
    rw [inner] at made
    cases made
    exact ⟨pairs, rfl, rfl⟩
  | error fault =>
    rw [inner] at made
    cases made

theorem ofPairs_cons_eq_ok {key value : Value} {rest : List (Value × Value)}
    {pairs : List (String × Document)} : ofPairs ((key, value) :: rest) = .ok pairs ↔
      ∃ shown document more, key.display = .ok shown ∧ ofValue value = .ok document ∧
        ofPairs rest = .ok more ∧ pairs = (shown, document) :: more := by
  rw [ofPairs]
  cases key.display <;> cases ofValue value <;> cases ofPairs rest
  all_goals simp [bind, Except.bind, eq_comm]

theorem ofItems_cons_eq_ok {item : Value} {rest : List Value} {documents : List Document} :
    ofItems (item :: rest) = .ok documents ↔ ∃ document more, ofValue item = .ok document ∧
      ofItems rest = .ok more ∧ documents = document :: more := by
  rw [ofItems]
  cases ofValue item <;> cases ofItems rest
  all_goals simp [bind, Except.bind, eq_comm]

/-- The pairs of a mapping stand under the texts of the keys. -/
theorem texts_ofPairs {entries : List (Value × Value)} {pairs : List (String × Document)}
    (made : ofPairs entries = .ok pairs) :
    entries.map (fun entry => entry.1.display) = pairs.map fun pair => .ok pair.1 := by
  induction entries generalizing pairs with
  | nil =>
    cases made
    rfl
  | cons entry rest ih =>
    obtain ⟨shown, document, more, written, -, made', rfl⟩ := ofPairs_cons_eq_ok.mp made
    simp [written, ih made']

/-- Texts of keys are all different exactly if the names of the pairs are. -/
theorem nodup_names_iff {entries : List (Value × Value)} {pairs : List (String × Document)}
    (texts : entries.map (fun entry => entry.1.display) = pairs.map fun pair => .ok pair.1) :
    (entries.map fun entry => entry.1.display).Nodup ↔ (names pairs).Nodup := by
  have mapped : pairs.map (fun pair => (.ok pair.1 : Except Fault String)) =
      (names pairs).map .ok := by
    simp [names]
  rw [texts, mapped]
  exact List.nodup_map_iff fun _ _ same => Except.ok.inj same

mutual

/-- A document has everything that its value holds exactly if keys are told apart by their texts. -/
theorem keeps_iff : ∀ {value : Value} {document : Document}, ofValue value = .ok document →
    (value.Keeps document ↔ value.KeysApart)
  | .null, _, made => by cases made; exact iff_of_true .null trivial
  | .bool b, _, made => by cases made; exact iff_of_true (.bool b) trivial
  | .int n, _, made => by cases made; exact iff_of_true (.int n) trivial
  | .text s, _, made => by cases made; exact iff_of_true (.text s) trivial
  | .float x, _, made => by cases made; exact iff_of_true (.float x) trivial
  | .taggedInt subtype n, _, made => by cases made; exact iff_of_true (.taggedInt subtype n) trivial
  | .taggedText subtype s, _, made => by
    cases made
    exact iff_of_true (.taggedText subtype s) trivial
  | .object o, _, made => by cases made; exact iff_of_true (.object o) trivial
  | .list items, document, made => by
    obtain ⟨documents, inner, rfl⟩ := sequence_of_ofItems made
    rw [Value.KeysApart, ← keeps_all_iff inner]
    exact ⟨fun | .list each => each, .list⟩
  | .tuple items, document, made => by
    obtain ⟨documents, inner, rfl⟩ := sequence_of_ofItems made
    rw [Value.KeysApart, ← keeps_all_iff inner]
    exact ⟨fun | .tuple each => each, .tuple⟩
  | .dict entries, document, made => by
    obtain ⟨pairs, inner, rfl⟩ := mapping_of_ofPairs made
    have texts := texts_ofPairs inner
    rw [ofEntries_eq]
    constructor
    · intro keeps
      cases keeps with
      | dict texts' each =>
        -- Both lists stand under the texts of the keys, and the one that is put together has no
        -- name twice. So it is the other one.
        have distinct : (names (insertAll [] pairs)).Nodup :=
          nodup_insertAll (by simp [names]) pairs
        have apart := (nodup_names_iff texts').mpr distinct
        have whole : insertAll [] pairs = pairs :=
          insertAll_of_nodup ((nodup_names_iff texts).mp apart)
        rw [whole] at each
        exact ⟨apart, (keeps_entries_iff inner).mp each⟩
    · rintro ⟨apart, each⟩
      have whole : insertAll [] pairs = pairs :=
        insertAll_of_nodup ((nodup_names_iff texts).mp apart)
      rw [whole]
      exact .dict texts ((keeps_entries_iff inner).mpr each)

theorem keeps_all_iff : ∀ {items : List Value} {documents : List Document},
    ofItems items = .ok documents →
      (List.Forall₂ Value.Keeps items documents ↔ Value.KeysApartAll items)
  | [], _, made => by cases made; exact iff_of_true .nil trivial
  | item :: rest, _, made => by
    obtain ⟨document, more, first, made', rfl⟩ := ofItems_cons_eq_ok.mp made
    rw [List.forall₂_cons, Value.KeysApartAll, keeps_iff first, keeps_all_iff made']

theorem keeps_entries_iff : ∀ {entries : List (Value × Value)} {pairs : List (String × Document)},
    ofPairs entries = .ok pairs →
      (List.Forall₂ Value.Keeps (entries.map Prod.snd) (pairs.map Prod.snd) ↔
        Value.KeysApartEntries entries)
  | [], _, made => by cases made; exact iff_of_true .nil trivial
  | (key, value) :: rest, _, made => by
    obtain ⟨shown, document, more, -, first, made', rfl⟩ := ofPairs_cons_eq_ok.mp made
    rw [List.map_cons, List.map_cons, List.forall₂_cons, Value.KeysApartEntries, keeps_iff first,
      keeps_entries_iff made']

end

end Document

/-- A value is walked to its last part, and what is made of it has everything that it holds - of a
sequence each item, of a mapping each entry under the text of its key, in order and on every level -
exactly if no mapping has two keys with the same text. No document is made only where a key has a
number with too many digits, and then the fault says so. -/
theorem containers_walked (value : Value) :
    (∃ document, Document.ofValue value = .ok document ∧
      (value.Keeps document ↔ value.KeysApart)) ∨
    (Document.ofValue value = .error .tooManyDigitsToWrite ∧
      ∃ part ∈ value.keyParts, part.IsOverlong) := by
  have writes := Document.ofValue_writes value
  cases made : Document.ofValue value with
  | ok document => exact Or.inl ⟨document, rfl, Document.keeps_iff made⟩
  | error fault =>
    rw [made] at writes
    cases writes with
    | tooLong holds => exact Or.inr ⟨rfl, holds⟩

/-- A number and a text are different keys, and of two entries one is left. -/
theorem containers_walked_lossy :
    let value : Value := .dict [(.int 1, .text "a"), (.text "1", .text "b")]
    Value.equals (.int 1) (.text "1") = false ∧
      Document.ofValue value = .ok (.mapping [("1", .text "b")]) ∧
      ¬ value.Keeps (.mapping [("1", .text "b")]) := by
  intro value
  have shown : writeInt 1 = .ok "1" := writeInt_eq_ok (Nat.one_lt_pow (by decide) (by decide))
  have made : Document.ofValue value = .ok (.mapping [("1", .text "b")]) := by
    simp only [value, Document.ofValue, Document.ofPairs, Value.display, Value.inspect, shown]
    rfl
  -- The document has one entry, and the value has two.
  refine ⟨rfl, made, fun keeps => ?_⟩
  dsimp only [value] at keeps
  cases keeps with
  | dict texts each => simp at texts

end HostLisp
