import HostLisp.Proofs.Leaves
import HostLisp.Proofs.Spelling
import HostLisp.Proofs.WrittenValues

/-!
# Escapes in string literals

Reading decides where a string literal ends, and its text what it means. Both take its body apart
into the same units: characters that stand for themselves, and backslashes with the character that
each of them passes on.

## Main results

`LiteralUnit.spell_injective`: units are told apart by the body that they make up.

`LiteralUnit.exists_unit_at`: each character of a body is in one of its units.

`literals_made_up`: what the literals of a tree are made of, what their texts are, and that a
printed text is a literal of that text.

## Proof strategy

A literal that is read stands between its quotes and has a body in which each backslash and each
quote has its place, so it is made up of units. What holds of units holds of it.
-/

namespace HostLisp

/-- A unit of the body of a string literal: a character that stands for itself, or a backslash and
the character that it passes on. -/
inductive LiteralUnit
  | plain (c : Char) (notBackslash : c ≠ '\\') (notQuote : c ≠ '"')
  | escaped (c : Char)
  deriving DecidableEq

namespace LiteralUnit

def chars : LiteralUnit → List Char
  | .plain c _ _ => [c]
  | .escaped c => ['\\', c]

/-- The character that a unit stands for. -/
def payload : LiteralUnit → Char
  | .plain c _ _ | .escaped c => c

def isEscaped : LiteralUnit → Bool
  | .plain _ _ _ => false
  | .escaped _ => true

/-- The body that units make up. -/
def spell (units : List LiteralUnit) : List Char := units.flatMap chars

/-- The unit in which a character is printed. -/
def ofChar (c : Char) : LiteralUnit :=
  if special : c = '\\' ∨ c = '"' then .escaped c
  else .plain c (fun same => special (Or.inl same)) (fun same => special (Or.inr same))

@[simp] theorem spell_nil : spell [] = [] := rfl

@[simp] theorem spell_cons (unit : LiteralUnit) (units : List LiteralUnit) :
    spell (unit :: units) = unit.chars ++ spell units := rfl

/-! ### Bodies -/

theorem isBody_iff (body : List Char) : IsBody body ↔ ∃ units, body = spell units := by
  constructor
  · intro closed
    induction closed with
    | nil => exact ⟨[], rfl⟩
    | escape c _ ih =>
      obtain ⟨units, rfl⟩ := ih
      exact ⟨.escaped c :: units, rfl⟩
    | plain c notBackslash notQuote _ ih =>
      obtain ⟨units, rfl⟩ := ih
      exact ⟨.plain c notBackslash notQuote :: units, rfl⟩
  · rintro ⟨units, rfl⟩
    induction units with
    | nil => exact .nil
    | cons unit units ih =>
      cases unit with
      | plain c notBackslash notQuote => exact .plain c notBackslash notQuote ih
      | escaped c => exact .escape c ih

/-- A body comes apart in one way: its first character says which unit is first. -/
theorem spell_injective : Function.Injective spell := by
  intro units others same
  induction units generalizing others with
  | nil =>
    cases others with
    | nil => rfl
    | cons other others => cases other <;> cases same
  | cons unit units ih =>
    cases others with
    | nil => cases unit <;> cases same
    | cons other others =>
      -- Units of different kinds differ at once, as only one of the two begins with a backslash.
      cases unit with
      | plain c notBackslash notQuote =>
        cases other with
        | plain d _ _ =>
          obtain ⟨rfl, rest⟩ := List.cons.inj same
          rw [ih rest]
        | escaped d => exact absurd (List.cons.inj same).1 notBackslash
      | escaped c =>
        cases other with
        | plain d notBackslash _ => exact absurd (List.cons.inj same).1.symm notBackslash
        | escaped d =>
          obtain ⟨rfl, rest⟩ := List.cons.inj (List.cons.inj same).2
          rw [ih rest]

theorem unescape_spell (units : List LiteralUnit) :
    Span.unescape (spell units) = units.map payload := by
  induction units with
  | nil => rfl
  | cons unit units ih =>
    cases unit with
    | escaped c => exact congrArg (c :: ·) ih
    | plain c notBackslash notQuote =>
      have first : spell (.plain c notBackslash notQuote :: units) = c :: spell units := rfl
      rw [first, Span.unescape, ih]
      · rfl
      · exact fun same => absurd same notBackslash
      · exact fun _ _ same => absurd same notBackslash

/-- A body is longer than its units are many by the backslashes that pass a character on. -/
theorem length_spell (units : List LiteralUnit) :
    (spell units).length = units.length + units.countP isEscaped := by
  induction units with
  | nil => rfl
  | cons unit units ih =>
    have first : unit.chars.length = 1 + if unit.isEscaped then 1 else 0 := by
      cases unit <;> rfl
    rw [spell_cons, List.length_append, ih, first, List.length_cons, List.countP_cons]
    omega

/-- Each character of a body is in one of its units. -/
theorem exists_unit_at {units : List LiteralUnit} {front back : List Char} {c : Char}
    (split : spell units = front ++ c :: back) : ∃ earlier unit later before after,
      units = earlier ++ unit :: later ∧ unit.chars = before ++ c :: after ∧
      front = spell earlier ++ before ∧ back = after ++ spell later := by
  induction units generalizing front with
  | nil => simp at split
  | cons unit units ih =>
    rw [spell_cons] at split
    -- The character is in the first unit, or behind it in the body of the others.
    rcases List.append_eq_append_iff.mp split with ⟨between, rfl, rest⟩ | ⟨between, first, rest⟩
    · obtain ⟨earlier, unit', later, before, after, rfl, inside, rfl, rfl⟩ := ih rest
      exact ⟨unit :: earlier, unit', later, before, after, rfl, inside, by simp, rfl⟩
    · cases between with
      | nil =>
        -- The front is all of the first unit, so the others begin with the character.
        rw [List.nil_append] at rest
        rw [List.append_nil] at first
        obtain ⟨earlier, unit', later, before, after, rfl, inside, none, rfl⟩ :=
          @ih [] rest.symm
        exact ⟨unit :: earlier, unit', later, before, after, rfl, inside, by simp [← first, none],
          rfl⟩
      | cons d between =>
        obtain ⟨rfl, rfl⟩ := List.cons.inj rest
        exact ⟨[], unit, units, front, between, rfl, first, rfl, rfl⟩

/-- A character of a unit is the first one, or the one that a backslash passes on. -/
theorem chars_split {unit : LiteralUnit} {before after : List Char} {c : Char}
    (split : unit.chars = before ++ c :: after) :
    (before = [] ∧ unit.chars = c :: after) ∨ (unit = .escaped c ∧ before = ['\\'] ∧ after = []) := by
  cases before with
  | nil => exact Or.inl ⟨rfl, split⟩
  | cons b before =>
    cases unit with
    | plain d _ _ => simp [chars] at split
    | escaped d =>
      obtain ⟨rfl, rest⟩ := List.cons.inj split
      cases before with
      | nil =>
        obtain ⟨rfl, rfl⟩ := List.cons.inj rest
        exact Or.inr ⟨rfl, rfl, rfl⟩
      | cons e before => simp at rest

/-- A quote in a body is one that a backslash passes on. -/
theorem escaped_quote {units : List LiteralUnit} {front back : List Char}
    (split : spell units = front ++ '"' :: back) : ∃ earlier later,
      units = earlier ++ .escaped '"' :: later ∧ front = spell earlier ++ ['\\'] := by
  obtain ⟨earlier, unit, later, before, after, rfl, inside, rfl, -⟩ := exists_unit_at split
  rcases chars_split inside with ⟨-, first⟩ | ⟨rfl, rfl, -⟩
  · cases unit with
    | plain c _ notQuote => exact absurd (List.cons.inj first).1 notQuote
    | escaped c => exact absurd (List.cons.inj first).1 (by decide)
  · exact ⟨earlier, later, rfl, rfl⟩

/-- A backslash at the end of a body is one that another backslash passes on. -/
theorem escaped_last {units : List LiteralUnit} {front : List Char}
    (split : spell units = front ++ ['\\']) : ∃ earlier, units = earlier ++ [.escaped '\\'] := by
  obtain ⟨earlier, unit, later, before, after, rfl, inside, -, ended⟩ := exists_unit_at split
  obtain ⟨rfl, none⟩ := List.append_eq_nil_iff.mp ended.symm
  obtain rfl : later = [] := spell_injective none
  -- A backslash that begins a unit has a character behind it, and nothing is behind this one.
  rcases chars_split inside with ⟨-, first⟩ | ⟨rfl, -, -⟩
  · cases unit with
    | plain c notBackslash _ => exact absurd (List.cons.inj first).1 notBackslash
    | escaped c => cases first
  · exact ⟨earlier, rfl⟩

/-- Units for the characters of a text print it. -/
theorem spell_ofChar (text : List Char) : spell (text.map ofChar) = escape text := by
  have each (c : Char) :
      (ofChar c).chars = if c = '\\' || c = '"' then ['\\', c] else [c] := by
    by_cases special : c = '\\' ∨ c = '"' <;> simp [ofChar, special, chars]
  rw [spell, List.flatMap_map, escape]
  exact List.flatMap_congr fun c _ => each c

/-! ### Literals -/

/-- Units make up the string literal at a span of a source. -/
structure MakeUp (units : List LiteralUnit) (source : List Char) (span : Span) : Prop where
  body : span.slice source = spell units
  /-- Its body comes apart in no other way. -/
  only : ∀ others, span.slice source = spell others → others = units
  text : (Node.stringText span source).toList = units.map payload
  length : (Node.stringText span source).length + units.countP isEscaped =
    (span.slice source).length
  /-- No backslash at the end of the body is lost. -/
  last : ∀ front, span.slice source = front ++ ['\\'] → ∃ earlier, units = earlier ++ [.escaped '\\']
  inside : 0 ≤ span.start ∧ span.length = (spell units).length
  closing : source[span.stop.toNat]? = some '"'
  /-- A quote before the closing one is in a unit. -/
  earlier : ∀ place : Nat, span.start ≤ place → place < span.stop → source[place]? = some '"' →
    ∃ earlier later, units = earlier ++ .escaped '"' :: later ∧
      place = span.start + (spell earlier).length + 1

private theorem slice_string (before body after : List Char) :
    (⟨before.length + 1, body.length⟩ : Span).slice (before ++ '"' :: (body ++ '"' :: after)) =
      body := by
  have formed := Node.form?_string_middle before body after
  rw [Node.form?] at formed
  exact (Form.string.inj (Option.some.inj formed)).2

/-- The characters of a body stand behind the opening quote. -/
private theorem getElem?_string (before body after : List Char) (place : Nat) :
    (before ++ '"' :: (body ++ '"' :: after))[before.length + 1 + place]? =
      (body ++ '"' :: after)[place]? := by
  have index : before.length + 1 + place = before.length + (place + 1) := by omega
  rw [index, List.getElem?_append_right (Nat.le_add_right _ _), Nat.add_sub_cancel_left,
    List.getElem?_cons_succ]

theorem exists_makeUp {source : List Char} {span : Span}
    (within : (Token.string span).Within source) : ∃ units, MakeUp units source span := by
  obtain ⟨before, body, after, rfl, rfl, closed⟩ := within
  obtain ⟨units, rfl⟩ := (isBody_iff body).mp closed
  have sliced := slice_string before (spell units) after
  have text : (Node.stringText ⟨before.length + 1, (spell units).length⟩
      (before ++ '"' :: (spell units ++ '"' :: after))).toList = units.map payload := by
    rw [Node.stringText_eq, sliced, String.toList_ofList, unescape_spell]
  refine ⟨units, ⟨sliced, ?_, text, ?_, ?_, ⟨?_, rfl⟩, ?_, ?_⟩⟩
  -- The spelling can be taken apart in one way only.
  · intro others same
    exact spell_injective (same.symm.trans sliced)
  · rw [← String.length_toList, text, List.length_map, sliced, length_spell]
  · intro front ended
    exact escaped_last (sliced.symm.trans ended)
  · simp only
    omega
  · have stop : ((before.length + 1 : Int) + (spell units).length).toNat =
        before.length + 1 + (spell units).length := by omega
    rw [Span.stop, stop, getElem?_string]
    simp
  · intro place above below quote
    simp only [Span.stop] at above below
    -- Places are counted from the quote that opens the literal.
    obtain ⟨index, rfl⟩ : ∃ index, place = before.length + 1 + index :=
      ⟨place - (before.length + 1), by omega⟩
    have short : index < (spell units).length := by omega
    rw [getElem?_string, List.getElem?_append_left short, List.getElem?_eq_getElem short,
      Option.some.injEq] at quote
    -- The body splits at the quote, which a unit therefore holds.
    have split : spell units = (spell units).take index ++ '"' :: (spell units).drop (index + 1) := by
      rw [← quote, ← List.drop_eq_getElem_cons, List.take_append_drop]
    obtain ⟨earlier, later, whole, front⟩ := escaped_quote split
    refine ⟨earlier, later, whole, ?_⟩
    have length := congrArg List.length front
    simp only [List.length_take, List.length_append, List.length_singleton] at length ⊢
    omega

end LiteralUnit

/-- The string literals of a tree are made up of units, each in one way: their texts are what the
units stand for, nothing at their ends is lost, and the quotes that close them are the first ones
outside of a unit. A literal without a backslash has the text that walking through it gives, at any
span of any source. A printed text is a literal of that text. -/
theorem literals_made_up :
    (∀ (source : List Char) (root : Node) (span : Span), parse source = .ok root →
      root.Has (.string span) → ∃ units, LiteralUnit.MakeUp units source span) ∧
    (∀ (span : Span) (source : List Char), Node.stringText span source =
      String.ofList (Span.unescape (span.slice source))) ∧
    ∀ text : String, ∃ body, (Value.text text).print = .ok (String.ofList ('"' :: (body ++ ['"']))) ∧
      body = LiteralUnit.spell (text.toList.map LiteralUnit.ofChar) ∧
      Span.unescape body = text.toList ∧
      parse ('"' :: (body ++ ['"'])) = .ok (.string ⟨1, body.length⟩) ∧
      Node.stringText ⟨1, body.length⟩ ('"' :: (body ++ ['"'])) = text := by
  refine ⟨?_, Node.stringText_eq, ?_⟩
  · intro source root span parsed has
    exact LiteralUnit.exists_makeUp (has.literal_within parsed)
  · intro text
    have begins : BeginsWith ('"' :: (escape text.toList ++ ['"']))
        (.string (0 + 1) (escape text.toList)) :=
      ⟨[], _, [], by simp, by simp, .leaf (.string _ (isBody_escape text.toList)), trivial⟩
    -- The body is what stands between the two quotes.
    have sliced : (⟨1, (escape text.toList).length⟩ : Span).slice
        ('"' :: (escape text.toList ++ ['"'])) = escape text.toList :=
      LiteralUnit.slice_string [] (escape text.toList) []
    refine ⟨escape text.toList, rfl, (LiteralUnit.spell_ofChar text.toList).symm,
      unescape_escape text.toList, begins.parse, ?_⟩
    rw [Node.stringText_eq, sliced, unescape_escape, String.ofList_toList]

/-- A literal inside of a list, with escapes of a quote, of a letter and of a backslash at its end. -/
theorem literals_made_up_nested :
    parse "(f \"a\\\"\\b\\\\\")".toList = .ok (.list (some 0) [.symbol ⟨1, 1⟩, .string ⟨4, 7⟩]) ∧
    ∃ units, LiteralUnit.MakeUp units "(f \"a\\\"\\b\\\\\")".toList ⟨4, 7⟩ ∧
      units.map LiteralUnit.payload = "a\"b\\".toList := by
  have parsed : parse "(f \"a\\\"\\b\\\\\")".toList =
      .ok (.list (some 0) [.symbol ⟨1, 1⟩, .string ⟨4, 7⟩]) := rfl
  obtain ⟨units, made⟩ := literals_made_up.1 _ _ ⟨4, 7⟩ parsed
    (.inside (.tail _ List.mem_cons_self) (.self _))
  refine ⟨parsed, units, made, ?_⟩
  rw [← made.text]
  rfl

end HostLisp
