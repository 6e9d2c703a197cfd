import HostLisp.Proofs.RoundTrip

/-!
# How sources spell forms

A grammar of sources: which texts, standing at an offset, spell which forms. Unlike the reader it
has no cursor, so a text can be taken apart, changed inside and put together again.

## Main results

`Spells.read`: a text that spells a form is read as the node of that form, whatever follows.

`form_spelled`: what is read was spelled, or was a closing parenthesis in the place of a form.

`Spells.form?`: the node has the form in every source in which the text stands at its offset.

## Proof strategy

Soundness is an induction on the grammar. Completeness is an induction on the characters that are
left, along the reader.
-/

namespace HostLisp

open Reader (Cursor)

namespace Form

mutual

/-- The node of a form that stands where its marks say. -/
def node : Form Int → Node
  | .symbol mark text => .symbol ⟨mark, text.length⟩
  | .string mark body => .string ⟨mark, body.length⟩
  | .list mark items => .list (some mark) (nodes items)
termination_by structural form => form

def nodes : List (Form Int) → List Node
  | [] => []
  | form :: rest => node form :: nodes rest
termination_by structural forms => forms

end

variable {α : Type}

/-- What follows leaves a form as it is: a symbol needs something that ends it. -/
def EndsBefore (after : List Char) : Form α → Prop
  | .symbol _ _ => Stops after
  | _ => True

/-- The cursor that reading a form leaves: a symbol takes a space that follows. -/
def cursorAfter (offset : Nat) (after : List Char) : Form α → Cursor
  | .symbol _ _ =>
    match after with
    | ' ' :: rest => ⟨offset + 1, rest⟩
    | _ => ⟨offset, after⟩
  | _ => ⟨offset, after⟩

/-- What ends a symbol may follow any form. -/
theorem endsBefore_of_stops (form : Form α) {after : List Char} (stops : Stops after) :
    form.EndsBefore after := by
  cases form with
  | symbol mark text => exact stops
  | string mark body => trivial
  | list mark items => trivial

/-- A form that ends before a text ends before it whatever comes after, as long as an empty text is
followed by what ends a symbol. -/
theorem endsBefore_append {form : Form α} {after more : List Char} (ends : form.EndsBefore after)
    (stops : Stops more) : form.EndsBefore (after ++ more) := by
  cases form with
  | symbol mark text =>
    cases after with
    | nil => exact stops
    | cons c rest => exact ends
  | string mark body => trivial
  | list mark items => trivial

theorem endsBefore_append_right {form : Form α} {after : List Char} (ends : form.EndsBefore after)
    (left : after ≠ []) (more : List Char) : form.EndsBefore (after ++ more) := by
  cases form with
  | symbol mark text =>
    obtain ⟨c, rest, rfl⟩ := List.exists_cons_of_ne_nil left
    exact ends
  | string mark body => trivial
  | list mark items => trivial

/-- A form ends before a text if it ends before more of it. -/
theorem endsBefore_of_append {form : Form α} {after more : List Char}
    (ends : form.EndsBefore (after ++ more)) : form.EndsBefore after := by
  cases form with
  | symbol mark text =>
    cases after with
    | nil => exact nofun
    | cons c rest => exact ends
  | string mark body => trivial
  | list mark items => trivial

end Form

/-! ### The grammar -/

/-- A text at an offset spells a symbol or a string literal. -/
inductive SpellsLeaf (offset : Nat) : List Char → Form Int → Prop
  | symbol (text : List Char) (filled : text ≠ []) (whole : IsSymbolText text) :
      SpellsLeaf offset text (.symbol offset text)
  | string (body : List Char) (closed : IsBody body) :
      SpellsLeaf offset ('"' :: (body ++ ['"'])) (.string (offset + 1) body)

/-- A text at an offset spells what stands between the parentheses of a list: forms with gaps before
each and at the end. A line break in the last gap is a symbol without characters. -/
inductive SpellsRow : Nat → List Char → List (Form Int) → Prop
  | gap {offset : Nat} (gap : List Char) (plain : ∀ c ∈ gap, Reader.isGap c = true) :
      SpellsRow offset gap []
  | broken {offset : Nat} (gap : List Char) (spaces : ∀ c ∈ gap, Reader.isSpace c = true)
      (breaks : ∃ c ∈ gap, Reader.isGap c = false) :
      SpellsRow offset gap [.symbol (offset + gap.length : Nat) []]
  | leaf {offset : Nat} {text rest : List Char} {form : Form Int} {forms : List (Form Int)}
      (gap : List Char) (spaces : ∀ c ∈ gap, Reader.isSpace c = true)
      (first : SpellsLeaf (offset + gap.length) text form) (ends : form.EndsBefore rest)
      (others : SpellsRow (offset + gap.length + text.length) rest forms) :
      SpellsRow offset (gap ++ (text ++ rest)) (form :: forms)
  | group {offset : Nat} {inner rest : List Char} {items forms : List (Form Int)}
      (gap : List Char) (spaces : ∀ c ∈ gap, Reader.isSpace c = true)
      (inside : SpellsRow (offset + gap.length + 1) inner items)
      (others : SpellsRow (offset + gap.length + (inner.length + 2)) rest forms) :
      SpellsRow offset (gap ++ ('(' :: (inner ++ [')']) ++ rest))
        (.list (offset + gap.length : Nat) items :: forms)

/-- A text at an offset spells a form, with its quotes or parentheses and nothing around it. -/
inductive Spells (offset : Nat) : List Char → Form Int → Prop
  | leaf {text : List Char} {form : Form Int} (spelled : SpellsLeaf offset text form) :
      Spells offset text form
  | group {inner : List Char} {items : List (Form Int)} (inside : SpellsRow (offset + 1) inner items) :
      Spells offset ('(' :: (inner ++ [')'])) (.list offset items)

/-! ### Cursors -/

namespace Reader

/-- Skipping what is skipped anyway changes nothing. -/
theorem Cursor.skip_skip {kind kind' : Char → Bool} (among : ∀ c, kind c = true → kind' c = true)
    (cursor : Cursor) : (cursor.skip kind).skip kind' = cursor.skip kind' := by
  obtain ⟨offset, chars⟩ := cursor
  induction chars generalizing offset with
  | nil => rfl
  | cons c rest ih =>
    cases skipped : kind c with
    | true =>
      rw [skip_of_kind kind _ _ _ skipped, skip_of_kind kind' _ _ _ (among c skipped), ih]
    | false => rw [skip_of_not_kind kind _ _ _ skipped]

theorem isSpace_of_isGap (c : Char) (gap : isGap c = true) : isSpace c = true := by
  simp [isSpace, gap]

/-- Skipping blanks that a form would skip first does not change what is read. -/
theorem form_skip {kind : Char → Bool} (among : ∀ c, kind c = true → isSpace c = true)
    (cursor : Cursor) : form (cursor.skip kind) = form cursor := by
  have same := Cursor.skip_skip among cursor
  cases chars : (cursor.skip isSpace).rest with
  | nil => rw [form_ended cursor chars, form_ended _ (by rw [same, chars]), same]
  | cons c rest =>
    by_cases quote : c = '"'
    · subst quote
      rw [form_string cursor rest chars, form_string _ rest (by rw [same, chars]), same]
    by_cases opening : c = '('
    · subst opening
      rw [form_list cursor rest chars, form_list _ rest (by rw [same, chars]), same]
    · rw [form_symbol cursor c rest chars quote opening,
        form_symbol _ c rest (by rw [same, chars]) quote opening, same]

/-- Skipping a gap that a list would skip first does not change what is read. -/
theorem list_skip (cursor : Cursor) : list (cursor.skip isGap) = list cursor := by
  have same : (cursor.skip isGap).skip isGap = cursor.skip isGap :=
    Cursor.skip_skip (fun _ gap => gap) cursor
  cases chars : (cursor.skip isGap).rest with
  | nil => rw [list_ended cursor chars, list_ended _ (by rw [same, chars]), same]
  | cons c rest =>
    by_cases closing : c = ')'
    · subst closing
      rw [list_closed cursor rest chars, list_closed _ rest (by rw [same, chars]), same]
    · rw [list_item cursor c rest chars closing,
        list_item _ c rest (by rw [same, chars]) closing, same]

/-- Blanks before a form do not matter to it. -/
theorem form_append_spaces (offset : Nat) (gap rest : List Char)
    (spaces : ∀ c ∈ gap, isSpace c = true) (stops : ∀ c ∈ rest.head?, isSpace c = false) :
    form ⟨offset, gap ++ rest⟩ = form ⟨offset + gap.length, rest⟩ := by
  rw [← form_skip (fun _ space => space) ⟨offset, gap ++ rest⟩,
    Cursor.skip_append isSpace offset gap rest spaces stops]

/-- A list that does not end here has a form next. -/
theorem list_form (cursor : Cursor) (c : Char) (rest : List Char)
    (stopped : (cursor.skip isGap).rest = c :: rest) (notClosing : c ≠ ')') :
    list cursor = (do
      let (node, next) ← form cursor
      let (nodes, last) ← list next
      .ok (node :: nodes, last)) := by
  rw [list_item cursor c rest stopped notClosing, form_skip isSpace_of_isGap]

/-- The space that a symbol takes is one that a list would skip. -/
theorem list_cursorAfter {α : Type} (form : Form α) (offset : Nat) (after : List Char) :
    list (form.cursorAfter offset after) = list ⟨offset, after⟩ := by
  cases form with
  | string mark body => rfl
  | list mark items => rfl
  | symbol mark text =>
    simp only [Form.cursorAfter]
    split
    next rest =>
      rw [← list_skip ⟨offset, ' ' :: rest⟩, Cursor.skip_of_kind isGap _ _ _ (by decide), list_skip]
    next => rfl

/-- Blanks before a form do not matter in a list, unless it ends there. A closing parenthesis ends
it only where no line break comes before. -/
theorem list_next (offset : Nat) (gap : List Char) (c : Char) (rest : List Char)
    (spaces : ∀ d ∈ gap, isSpace d = true) (notSpace : isSpace c = false)
    (unclosed : c = ')' → ∃ d ∈ gap, isGap d = false) :
    list ⟨offset, gap ++ c :: rest⟩ = (do
      let (node, next) ← form ⟨offset + gap.length, c :: rest⟩
      let (nodes, last) ← list next
      .ok (node :: nodes, last)) := by
  -- The list stops at a line break among the blanks or at the character after them.
  have stopped : ∃ d rest', ((Cursor.mk offset (gap ++ c :: rest)).skip isGap).rest = d :: rest' ∧
      d ≠ ')' := by
    induction gap generalizing offset with
    | nil =>
      have notGap : isGap c = false := by
        simp only [isSpace, Bool.or_eq_false_iff] at notSpace
        exact notSpace.1.1
      refine ⟨c, rest, ?_, fun closing => by simpa using unclosed closing⟩
      rw [List.nil_append, Cursor.skip_of_not_kind _ _ _ _ notGap]
    | cons d gap ih =>
      obtain ⟨space, spaces'⟩ := List.forall_mem_cons.mp spaces
      cases skipped : isGap d with
      | true =>
        rw [List.cons_append, Cursor.skip_of_kind _ _ _ _ skipped]
        exact ih (offset + 1) spaces' (by simpa [skipped] using unclosed)
      | false =>
        rw [List.cons_append, Cursor.skip_of_not_kind _ _ _ _ skipped]
        exact ⟨d, _, rfl, (Token.ne_of_isSpace space).2.1⟩
  obtain ⟨d, rest', reached, notClosing⟩ := stopped
  rw [list_form _ d rest' reached notClosing, form_append_spaces offset gap (c :: rest) spaces]
  rintro e ⟨⟩
  exact notSpace

/-! What a form is at its first character. -/

section

variable (offset : Nat) (c : Char) (rest : List Char)

private theorem stays (notSpace : isSpace c = false) :
    (Cursor.mk offset (c :: rest)).skip isSpace = ⟨offset, c :: rest⟩ :=
  Cursor.skip_of_not_kind _ _ _ _ notSpace

theorem form_quote : form ⟨offset, '"' :: rest⟩ = string ⟨offset + 1, rest⟩ := by
  rw [form_string _ rest (by rw [stays _ _ _ rfl]), stays _ _ _ rfl]

theorem form_opening : form ⟨offset, '(' :: rest⟩ = (do
    let (children, next) ← list ⟨offset + 1, rest⟩
    .ok (.list (some (offset : Int)) children, next)) := by
  rw [form_list _ rest (by rw [stays _ _ _ rfl]), stays _ _ _ rfl]

theorem form_plain (notSpace : isSpace c = false) (notQuote : c ≠ '"') (notOpening : c ≠ '(') :
    form ⟨offset, c :: rest⟩ = .ok (symbol ⟨offset, c :: rest⟩) := by
  rw [form_symbol _ c rest (by rw [stays _ _ _ notSpace]) notQuote notOpening, stays _ _ _ notSpace]

/-- A closing parenthesis in the place of a form is left where it is. -/
theorem form_closing :
    form ⟨offset, ')' :: rest⟩ = .ok (.symbol ⟨offset, 0⟩, ⟨offset, ')' :: rest⟩) := by
  have empty : (Cursor.mk offset (')' :: rest)).skip (!endsSymbol ·) = ⟨offset, ')' :: rest⟩ :=
    Cursor.skip_of_not_kind _ _ _ _ (by decide)
  rw [form_plain _ _ _ rfl (by decide) (by decide)]
  simp [symbol, empty]

end

end Reader

/-! ### What is spelled is read -/

theorem closing_stops (after : List Char) : Stops (')' :: after) := by
  rintro c ⟨⟩
  decide

theorem space_stops (after : List Char) : Stops (' ' :: after) := by
  rintro c ⟨⟩
  decide

theorem opening_stops (after : List Char) : Stops ('(' :: after) := by
  rintro c ⟨⟩
  decide

namespace SpellsLeaf

variable {offset : Nat} {text : List Char} {form : Form Int}

/-- A leaf begins with a character that no gap has, so reading it starts where it stands. -/
theorem head (spelled : SpellsLeaf offset text form) :
    ∃ c rest, text = c :: rest ∧ Reader.isSpace c = false ∧ c ≠ ')' := by
  cases spelled with
  | symbol text filled whole =>
    obtain ⟨c, rest, rfl⟩ := List.exists_cons_of_ne_nil filled
    have inside := whole.inside c List.mem_cons_self
    simp only [Reader.endsSymbol, Bool.or_eq_false_iff, decide_eq_false_iff_not] at inside
    exact ⟨c, rest, rfl, inside.1.1, inside.2⟩
  | string body closed => exact ⟨'"', _, rfl, rfl, by decide⟩

/-- A leaf is read as the node of its form, and a symbol takes one space more. -/
theorem read (spelled : SpellsLeaf offset text form) {after : List Char}
    (ends : form.EndsBefore after) : Reader.form ⟨offset, text ++ after⟩ =
      .ok (form.node, form.cursorAfter (offset + text.length) after) := by
  -- A character that is no blank is where reading starts.
  obtain ⟨c, rest, chars, notSpace, notClosing⟩ := spelled.head
  cases spelled with
  | symbol text filled whole =>
    have notQuote : c ≠ '"' := fun same => whole.unquoted (by rw [chars, same]; rfl)
    have inside := whole.inside c (by simp [chars])
    -- A character of a symbol is none of those that end one.
    have notOpening : c ≠ '(' := by rintro rfl; simp [Reader.endsSymbol] at inside
    have passed := Cursor.skip_append (!Reader.endsSymbol ·) offset text after
      (fun d member => by simp [whole.inside d member]) (fun d first => by simp [ends d first])
    have symbol := Reader.form_plain offset c (rest ++ after) notSpace notQuote notOpening
    rw [← List.cons_append, ← chars] at symbol
    have length : ((offset + text.length : Nat) : Int) - offset = text.length := by omega
    simp only [symbol, Reader.symbol, passed, length, Form.node, Form.cursorAfter]
    rcases after with - | ⟨d, more⟩
    · rfl
    · by_cases space : d = ' '
      · subst space
        rfl
      · simp [space]
  | string body closed =>
    rw [List.cons_append, List.append_assoc, List.singleton_append, Reader.form_quote, Reader.string]
    simp only [stringEnd_body _ body after closed, bind, Except.bind, Except.ok.injEq, Prod.mk.injEq,
      Form.node, Form.cursorAfter, Node.string.injEq, Span.mk.injEq, Cursor.mk.injEq, and_true,
      List.length_cons, List.length_append, List.length_nil]
    omega

/-- A leaf spells the same form at another place, but for its mark. -/
theorem move (spelled : SpellsLeaf offset text form) (offset' : Nat) : ∃ form' : Form Int,
    SpellsLeaf offset' text form' ∧ form'.erase = form.erase ∧
      ∀ after, form.EndsBefore after → form'.EndsBefore after := by
  cases spelled with
  | symbol text filled whole => exact ⟨_, .symbol text filled whole, rfl, fun _ ends => ends⟩
  | string body closed => exact ⟨_, .string body closed, rfl, fun _ ends => ends⟩

/-- The node of a leaf has the form again in any source that has its text in this place. -/
theorem form? (spelled : SpellsLeaf offset text form) (before : List Char)
    (place : before.length = offset) (after : List Char) :
    form.node.form? (before ++ (text ++ after)) = some form := by
  subst place
  cases spelled with
  | symbol text filled whole => exact Node.form?_symbol_middle before text after filled
  | string body closed =>
    have formed := Node.form?_string_middle before body after
    simpa [Form.node] using formed

end SpellsLeaf

namespace SpellsRow

variable {offset : Nat} {inner : List Char} {forms : List (Form Int)}

/-- A row is read as the nodes of its forms, up to the closing parenthesis. -/
theorem read (row : SpellsRow offset inner forms) (after : List Char) :
    Reader.list ⟨offset, inner ++ ')' :: after⟩ =
      .ok (Form.nodes forms, ⟨offset + inner.length + 1, after⟩) := by
  induction row generalizing after with
  | @gap offset gap plain =>
    have passed := Cursor.skip_append Reader.isGap offset gap (')' :: after) plain
      (by simp [Reader.isGap])
    rw [Reader.list_closed _ after (by rw [passed]), passed]
    rfl
  -- A line break before the parenthesis leaves a symbol of no characters.
  | @broken offset gap spaces breaks =>
    rw [Reader.list_next offset gap ')' after spaces (by decide) (fun _ => breaks),
      Reader.form_closing]
    have closed := Reader.list_closed ⟨offset + gap.length, ')' :: after⟩ after rfl
    simp only [bind, Except.bind, closed]
    rfl
  | @leaf offset text rest form forms gap spaces first ends others ih =>
    obtain ⟨c, chars, text_eq, notSpace, notClosing⟩ := first.head
    have ends' := Form.endsBefore_append ends (closing_stops after)
    have here := first.read ends'
    rw [text_eq, List.cons_append] at here
    rw [List.append_assoc, List.append_assoc, text_eq, List.cons_append,
      Reader.list_next offset gap c _ spaces notSpace (fun same => absurd same notClosing), here]
    simp only [bind, Except.bind, Reader.list_cursorAfter, ← text_eq, ih, Form.nodes,
      Except.ok.injEq, Prod.mk.injEq, Cursor.mk.injEq, and_true, true_and, List.length_append]
    omega
  | @group offset inner rest items forms gap spaces inside others ihInside ihOthers =>
    have shape : gap ++ ('(' :: (inner ++ [')']) ++ rest) ++ ')' :: after =
        gap ++ '(' :: (inner ++ ')' :: (rest ++ ')' :: after)) := by simp
    have opens : '(' ≠ ')' := by decide
    rw [shape, Reader.list_next offset gap '(' _ spaces (by decide) (absurd · opens),
      Reader.form_opening, ihInside]
    have length : offset + gap.length + 1 + inner.length + 1 =
      offset + gap.length + (inner.length + 2) := by omega
    simp only [bind, Except.bind, length, ihOthers, Form.nodes, Form.node, Except.ok.injEq,
      Prod.mk.injEq, Cursor.mk.injEq, and_true, true_and, List.length_append, List.length_cons,
      List.length_nil]
    omega

/-- The nodes of a row have its forms in any source that has its text in this place. -/
theorem forms? (row : SpellsRow offset inner forms) (before : List Char)
    (place : before.length = offset) (after : List Char) :
    Node.forms? (before ++ (inner ++ after)) (Form.nodes forms) = some forms := by
  induction row generalizing before after with
  | gap gap plain => rfl
  | broken gap spaces breaks =>
    simp [Form.nodes, Form.node, Node.forms?, Node.form?]
  | @leaf offset text rest form forms gap spaces first ends others ih =>
    have here := first.form? (before ++ gap) (by simp [place]) (rest ++ after)
    have there := ih (before ++ gap ++ text) (by simp [place, Nat.add_assoc]) after
    simp only [List.append_assoc] at here there ⊢
    exact Node.forms?_cons_eq_some.mpr ⟨form, forms, here, there, rfl⟩
  | @group offset inner rest items forms gap spaces inside others ihInside ihOthers =>
    have within := ihInside (before ++ gap ++ ['(']) (by simp [place, Nat.add_assoc])
      (')' :: (rest ++ after))
    have there := ihOthers (before ++ gap ++ '(' :: (inner ++ [')']))
      (by simp [place, Nat.add_assoc]) after
    simp only [List.append_assoc, List.cons_append, List.nil_append] at within there ⊢
    refine Node.forms?_cons_eq_some.mpr ⟨_, forms, ?_, there, rfl⟩
    simp [Form.node, Node.form?, within]

end SpellsRow

namespace Spells

variable {offset : Nat} {text : List Char} {form : Form Int}

/-- A text that spells a form is read as the node of that form, whatever follows. -/
theorem read (spelled : Spells offset text form) {after : List Char} (ends : form.EndsBefore after) :
    Reader.form ⟨offset, text ++ after⟩ =
      .ok (form.node, form.cursorAfter (offset + text.length) after) := by
  cases spelled with
  | leaf spelled => exact spelled.read ends
  | @group inner items inside =>
    rw [List.cons_append, List.append_assoc, List.singleton_append, Reader.form_opening, inside.read]
    simp only [bind, Except.bind, Form.node, Form.cursorAfter, Except.ok.injEq, Prod.mk.injEq,
      Cursor.mk.injEq, and_true, true_and, List.length_cons, List.length_append, List.length_nil]
    omega

/-- The node of a spelled form has the form again in its place. -/
theorem form? (spelled : Spells offset text form) (before : List Char) (place : before.length = offset)
    (after : List Char) : form.node.form? (before ++ (text ++ after)) = some form := by
  cases spelled with
  | leaf spelled => exact spelled.form? before place after
  | @group inner items inside =>
    have within := inside.forms? (before ++ ['(']) (by simp [place]) (')' :: after)
    simp only [List.append_assoc, List.cons_append, List.nil_append] at within ⊢
    simp [Form.node, Node.form?, within]

/-- A spelled form begins with a character that no gap has. -/
theorem head (spelled : Spells offset text form) :
    ∃ c rest, text = c :: rest ∧ Reader.isSpace c = false ∧ c ≠ ')' := by
  cases spelled with
  | leaf spelled => exact spelled.head
  | group inside => exact ⟨'(', _, rfl, rfl, by decide⟩

/-- A form is read after blanks, and reading ends behind it. -/
theorem read_after {gap after : List Char} (spelled : Spells (offset + gap.length) text form)
    (spaces : ∀ c ∈ gap, Reader.isSpace c = true) (ends : form.EndsBefore after) :
    Reader.form ⟨offset, gap ++ (text ++ after)⟩ =
      .ok (form.node, form.cursorAfter (offset + gap.length + text.length) after) := by
  obtain ⟨c, rest, filled, notSpace, -⟩ := spelled.head
  rw [Reader.form_append_spaces offset gap _ spaces, spelled.read ends]
  rw [filled]
  rintro d ⟨⟩
  exact notSpace

end Spells

/-- A form after a gap, before a row. -/
theorem SpellsRow.item {offset : Nat} {text rest : List Char} {form : Form Int}
    {forms : List (Form Int)} (gap : List Char) (spaces : ∀ c ∈ gap, Reader.isSpace c = true)
    (first : Spells (offset + gap.length) text form) (ends : form.EndsBefore rest)
    (others : SpellsRow (offset + gap.length + text.length) rest forms) :
    SpellsRow offset (gap ++ (text ++ rest)) (form :: forms) := by
  cases first with
  | leaf spelled => exact .leaf gap spaces spelled ends others
  | @group inner items inside =>
    have length : offset + gap.length + ('(' :: (inner ++ [')'])).length =
        offset + gap.length + (inner.length + 2) := by simp
    exact .group gap spaces inside (length ▸ others)

/-! ### What is read was spelled -/

/-- A literal that is read to its end was a body and a quote. -/
theorem stringEnd_spelled (offset : Nat) (chars : List Char) (next : Cursor)
    (returned : Reader.stringEnd offset chars = .ok next) :
    ∃ body, chars = body ++ '"' :: next.rest ∧ IsBody body := by
  induction offset, chars using Reader.stringEnd.induct with
  | case1 offset => simp [Reader.stringEnd] at returned
  | case2 offset => simp [Reader.stringEnd] at returned
  | case3 offset c rest ih =>
    obtain ⟨body, rfl, closed⟩ := ih (by simpa [Reader.stringEnd] using returned)
    exact ⟨'\\' :: c :: body, rfl, .escape c closed⟩
  | case4 offset rest =>
    simp only [Reader.stringEnd, Except.ok.injEq] at returned
    subst returned
    exact ⟨[], rfl, .nil⟩
  | case5 offset c rest plain notLast notQuote ih =>
    obtain ⟨body, rfl, closed⟩ := ih (by rwa [Reader.stringEnd] at returned <;> assumption)
    have notBackslash : c ≠ '\\' := by
      rintro rfl
      cases body with
      | nil => exact notLast _ _ rfl rfl
      | cons d body => exact notLast _ _ rfl rfl
    exact ⟨c :: body, rfl, .plain c notBackslash (fun same => notQuote same) closed⟩

/-- A text is a stretch of one kind of character and what ends the stretch. -/
theorem exists_stretch (kind : Char → Bool) (chars : List Char) : ∃ stretch rest,
    chars = stretch ++ rest ∧ (∀ c ∈ stretch, kind c = true) ∧ ∀ c ∈ rest.head?, kind c = false := by
  refine ⟨chars.takeWhile kind, chars.dropWhile kind, List.takeWhile_append_dropWhile.symm,
    fun c member => List.mem_takeWhile_imp member, fun c first => ?_⟩
  simpa [Option.mem_def.mp first] using List.head?_dropWhile_not kind chars

/-- A symbol takes as many characters as it can, and what it leaves cannot be part of it. -/
theorem symbol_spelled (offset : Nat) (c : Char) (rest : List Char)
    (inside : Reader.endsSymbol c = false) (notQuote : c ≠ '"') : ∃ text after,
    c :: rest = text ++ after ∧ SpellsLeaf offset text (.symbol offset text) ∧ Stops after := by
  obtain ⟨others, after, rfl, within, ends⟩ := exists_stretch (!Reader.endsSymbol ·) rest
  refine ⟨c :: others, after, rfl, .symbol _ (List.cons_ne_nil _ _) ⟨?_, by simpa using notQuote⟩, ?_⟩
  · exact List.forall_mem_cons.mpr ⟨inside, fun d member => by simpa using within d member⟩
  · exact fun d first => by simpa using ends d first

/-- What reading a form leaves of a source: blanks, then a closing parenthesis that no form takes or
a text that spells the form. -/
inductive Found (cursor : Cursor) : Node → Cursor → Prop
  | closing {gap after : List Char} (rest : cursor.rest = gap ++ ')' :: after)
      (spaces : ∀ c ∈ gap, Reader.isSpace c = true) :
      Found cursor (.symbol ⟨(cursor.offset + gap.length : Nat), 0⟩)
        ⟨cursor.offset + gap.length, ')' :: after⟩
  | spelled {gap text after : List Char} {form : Form Int}
      (rest : cursor.rest = gap ++ (text ++ after)) (spaces : ∀ c ∈ gap, Reader.isSpace c = true)
      (spelled : Spells (cursor.offset + gap.length) text form) (ends : form.EndsBefore after) :
      Found cursor form.node (form.cursorAfter (cursor.offset + gap.length + text.length) after)

/-- Where reading ends is told by the spelling, because the same text is read in one way only. -/
theorem Found.of_spells {cursor next : Cursor} {node : Node} {gap text after : List Char}
    {form : Form Int} (returned : Reader.form cursor = .ok (node, next))
    (rest : cursor.rest = gap ++ (text ++ after)) (spaces : ∀ c ∈ gap, Reader.isSpace c = true)
    (spelled : Spells (cursor.offset + gap.length) text form) (ends : form.EndsBefore after) :
    Found cursor node next := by
  have found := Found.spelled rest spaces spelled ends
  have shape : cursor = ⟨cursor.offset, gap ++ (text ++ after)⟩ := by rw [← rest]
  rw [shape, spelled.read_after spaces ends] at returned
  obtain ⟨rfl, rfl⟩ := Prod.mk.inj (Except.ok.inj returned)
  exact found

/-- What reading the items of a list leaves of a source: a row that spells them, and the closing
parenthesis. -/
structure FoundRow (cursor : Cursor) (nodes : List Node) (next : Cursor) (inner : List Char)
    (forms : List (Form Int)) : Prop where
  rest : cursor.rest = inner ++ ')' :: next.rest
  row : SpellsRow cursor.offset inner forms
  nodes : nodes = Form.nodes forms
  offset : next.offset = cursor.offset + inner.length + 1

/-- A form that is read was spelled, if the rows inside of it are known to have been. -/
private theorem found_of_form (cursor next : Cursor) (node : Node)
    (returned : Reader.form cursor = .ok (node, next))
    (rows : ∀ inside : Cursor, inside.rest.length < cursor.rest.length → ∀ nodes last,
      Reader.list inside = .ok (nodes, last) → ∃ inner forms, FoundRow inside nodes last inner forms) :
    Found cursor node next := by
  obtain ⟨offset, chars⟩ := cursor
  -- The blanks before the form, and what stands after them.
  obtain ⟨gap, ahead, rfl, spaces, stops⟩ := exists_stretch Reader.isSpace chars
  have there := returned
  rw [Reader.form_append_spaces offset gap ahead spaces stops] at there
  cases ahead with
  | nil =>
    rw [Reader.form_ended _ rfl] at there
    cases there
  | cons c rest =>
    -- The first character after the blanks tells what kind of form it is.
    by_cases quote : c = '"'
    · subst quote
      rw [Reader.form_quote, Reader.string] at there
      cases ended : Reader.stringEnd (offset + gap.length + 1) rest with
      | error place => simp [ended, bind, Except.bind] at there
      | ok last =>
        obtain ⟨body, rfl, closed⟩ := stringEnd_spelled _ _ _ ended
        have shape : '"' :: (body ++ '"' :: last.rest) = '"' :: (body ++ ['"']) ++ last.rest := by
          simp
        exact .of_spells returned (by rw [shape]) spaces (.leaf (.string body closed)) trivial
    by_cases opening : c = '('
    · subst opening
      rw [Reader.form_opening] at there
      cases inside : Reader.list ⟨offset + gap.length + 1, rest⟩ with
      | error place => simp [inside, bind, Except.bind] at there
      | ok pair =>
        obtain ⟨inner, forms, found⟩ := rows _ (by simp; omega) _ _ inside
        have shape : '(' :: rest = '(' :: (inner ++ [')']) ++ pair.2.rest := by
          simp [show rest = _ from found.rest]
        exact .of_spells returned (by rw [shape]) spaces (.group found.row) trivial
    by_cases closing : c = ')'
    · subst closing
      rw [Reader.form_closing] at there
      obtain ⟨rfl, rfl⟩ := Prod.mk.inj (Except.ok.inj there)
      -- The parenthesis is not taken, so it is read once more as the end of the list.
      exact .closing rfl spaces
    · have inside : Reader.endsSymbol c = false := by
        simp [Reader.endsSymbol, stops c rfl, opening, closing]
      obtain ⟨text, after, whole, spelled, ends⟩ :=
        symbol_spelled (offset + gap.length) c rest inside quote
      exact .of_spells returned (by rw [whole]) spaces (.leaf spelled) ends

/-- A list that is read ends after a gap, or has a form and is read on after it. -/
private theorem list_cases {cursor next : Cursor} {nodes : List Node}
    (returned : Reader.list cursor = .ok (nodes, next)) :
    (∃ gap, cursor.rest = gap ++ ')' :: next.rest ∧ (∀ c ∈ gap, Reader.isGap c = true) ∧
      nodes = [] ∧ next.offset = cursor.offset + gap.length + 1) ∨
    ∃ node middle others, Reader.form cursor = .ok (node, middle) ∧
      Reader.list middle = .ok (others, next) ∧ nodes = node :: others ∧
      ∀ gap after, cursor.rest = gap ++ ')' :: after → ∃ c ∈ gap, Reader.isGap c = false := by
  obtain ⟨offset, chars⟩ := cursor
  obtain ⟨gap, ahead, rfl, plain, stops⟩ := exists_stretch Reader.isGap chars
  have passed := Cursor.skip_append Reader.isGap offset gap ahead plain stops
  cases ahead with
  | nil =>
    rw [Reader.list_ended _ (congrArg Cursor.rest passed)] at returned
    cases returned
  | cons c rest =>
    by_cases closing : c = ')'
    · subst closing
      rw [Reader.list_closed _ rest (by rw [passed]), passed] at returned
      obtain ⟨rfl, rfl⟩ := Prod.mk.inj (Except.ok.inj returned)
      exact Or.inl ⟨gap, rfl, plain, rfl, rfl⟩
    rw [Reader.list_form _ c rest (by rw [passed]) closing] at returned
    cases first : Reader.form ⟨offset, gap ++ c :: rest⟩ with
    | error place => simp [first, bind, Except.bind] at returned
    | ok pair =>
      cases others : Reader.list pair.2 with
      | error place => simp [first, others, bind, Except.bind] at returned
      | ok pair' =>
        simp only [first, others, bind, Except.bind, Except.ok.injEq, Prod.mk.injEq] at returned
        obtain ⟨rfl, rfl⟩ := returned
        refine Or.inr ⟨_, _, _, rfl, others, rfl, fun blanks after same => ?_⟩
        -- With gaps alone before it the parenthesis would have ended the list.
        by_contra unbroken
        simp only [not_exists, not_and, Bool.not_eq_false] at unbroken
        have reached := Cursor.skip_append Reader.isGap offset blanks (')' :: after) unbroken
          (by rintro d ⟨⟩; decide)
        rw [← same, passed] at reached
        exact closing (List.cons.inj (congrArg Cursor.rest reached)).1

/-- The items of a list that is read were spelled, up to its closing parenthesis. The induction is
on the characters that are left. -/
theorem list_spelled (cursor next : Cursor) (nodes : List Node)
    (returned : Reader.list cursor = .ok (nodes, next)) :
    ∃ inner forms, FoundRow cursor nodes next inner forms := by
  induction size : cursor.rest.length using Nat.strong_induction_on generalizing cursor next nodes with
  | _ size ih =>
  subst size
  -- A list ends after a gap or has a first item. In the second case the rest is shorter by that
  -- item.
  rcases list_cases returned with ⟨gap, rest, plain, rfl, ended⟩ |
    ⟨node, middle, others, first, later, rfl, broken⟩
  · exact ⟨gap, [], rest, .gap gap plain, rfl, ended⟩
  have found := found_of_form cursor middle node first fun inside shorter _ _ returned =>
    ih _ shorter _ _ _ returned rfl
  cases found with
  | @closing gap after rest spaces =>
    rw [Reader.list_closed ⟨_, ')' :: after⟩ after rfl] at later
    obtain ⟨rfl, rfl⟩ := Prod.mk.inj (Except.ok.inj later)
    exact ⟨gap, _, rest, .broken gap spaces (broken gap after rest), rfl, rfl⟩
  | @spelled gap text after form rest spaces spelled ends =>
    obtain ⟨c, chars, filled, -, -⟩ := spelled.head
    have shorter : after.length < cursor.rest.length := by simp [rest, filled]; omega
    rw [Reader.list_cursorAfter] at later
    obtain ⟨inner, forms, found⟩ := ih _ shorter _ _ _ later rfl
    have split : after = inner ++ ')' :: next.rest := found.rest
    have ends' := Form.endsBefore_of_append (split ▸ ends)
    refine ⟨gap ++ (text ++ inner), form :: forms, ?_,
      .item gap spaces spelled ends' found.row, ?_, ?_⟩
    · simp [rest, split]
    · rw [found.nodes]
      rfl
    · simp only [found.offset, List.length_append]
      omega

/-- What is read was spelled, or was a closing parenthesis in the place of a form. -/
theorem form_spelled (cursor next : Cursor) (node : Node)
    (returned : Reader.form cursor = .ok (node, next)) : Found cursor node next :=
  found_of_form cursor next node returned fun inside _ _ _ => list_spelled inside _ _

/-! ### Sources -/

/-- Reading a source that begins with a spelled form gives the node of the form and the place behind
it. -/
theorem read_spelled {gap text after : List Char} {form : Form Int}
    (spaces : ∀ c ∈ gap, Reader.isSpace c = true) (spelled : Spells gap.length text form)
    (ends : form.EndsBefore after) : HostLisp.read (gap ++ (text ++ after)) =
      .ok (form.node, (form.cursorAfter (gap.length + text.length) after).offset) := by
  have spelled' : Spells (0 + gap.length) text form := by rwa [Nat.zero_add]
  have returned := spelled'.read_after spaces ends
  rw [Nat.zero_add] at returned
  simp only [HostLisp.read, Cursor.start, returned, bind, Except.bind]

/-- A source begins with a form, after blanks and before something that ends it. -/
def BeginsWith (source : List Char) (form : Form Int) : Prop :=
  ∃ gap text after, source = gap ++ (text ++ after) ∧ (∀ c ∈ gap, Reader.isSpace c = true) ∧
    Spells gap.length text form ∧ form.EndsBefore after

namespace BeginsWith

variable {source : List Char} {form : Form Int}

theorem form? (begins : BeginsWith source form) : form.node.form? source = some form := by
  obtain ⟨gap, text, after, rfl, -, spelled, -⟩ := begins
  exact spelled.form? gap rfl after

/-- What comes after the first form of a source does not matter to its tree. -/
theorem parse (begins : BeginsWith source form) : HostLisp.parse source = .ok form.node := by
  obtain ⟨gap, text, after, rfl, spaces, spelled, ends⟩ := begins
  rw [HostLisp.parse, read_spelled spaces spelled ends]

end BeginsWith

/-- A closing parenthesis that opens nothing is a symbol of no characters. -/
theorem read_closing {gap : List Char} (spaces : ∀ c ∈ gap, Reader.isSpace c = true)
    (after : List Char) :
    read (gap ++ ')' :: after) = .ok (.symbol ⟨gap.length, 0⟩, gap.length) := by
  have returned := Reader.form_append_spaces 0 gap (')' :: after) spaces (by rintro c ⟨⟩; decide)
  rw [Nat.zero_add, Reader.form_closing] at returned
  simp only [read, Cursor.start, returned, bind, Except.bind]

/-- A source that has a tree begins with a form, or with a closing parenthesis after blanks. -/
theorem parse_begins {source : List Char} {root : Node} (parsed : parse source = .ok root) :
    (∃ form, root = form.node ∧ BeginsWith source form) ∨
    ∃ gap after, source = gap ++ ')' :: after ∧ (∀ c ∈ gap, Reader.isSpace c = true) ∧
      root = .symbol ⟨(gap.length : Nat), 0⟩ := by
  cases returned : Reader.form (.start source) with
  | error place => simp [parse, read, returned, bind, Except.bind] at parsed
  | ok pair =>
    obtain ⟨node, next⟩ := pair
    obtain rfl : node = root := by simpa [parse, read, returned, bind, Except.bind] using parsed
    have found := form_spelled _ _ _ returned
    generalize start : Cursor.start source = cursor at found
    cases found with
    | @closing gap after rest spaces =>
      subst start
      exact Or.inr ⟨gap, after, rest, spaces, by simp [Cursor.start]⟩
    | @spelled gap text after form rest spaces spelled ends =>
      subst start
      have spelled' : Spells gap.length text form := by simpa [Cursor.start] using spelled
      exact Or.inl ⟨form, rfl, gap, text, after, rest, spaces, spelled', ends⟩

/-! ### Moving and gaps -/

namespace SpellsRow

variable {offset : Nat} {inner : List Char} {forms : List (Form Int)}

/-- Blanks that a list skips can stand before a row. -/
theorem gap_append (row : SpellsRow offset inner forms) {earlier : Nat} {gap : List Char}
    (plain : ∀ c ∈ gap, Reader.isGap c = true) (place : earlier + gap.length = offset) :
    SpellsRow earlier (gap ++ inner) forms := by
  subst place
  have spaces : ∀ c ∈ gap, Reader.isSpace c = true :=
    fun c member => Reader.isSpace_of_isGap c (plain c member)
  have length (later : List Char) : earlier + (gap ++ later).length =
      earlier + gap.length + later.length := by
    rw [List.length_append]
    omega
  cases row with
  | gap _ plain' => exact .gap _ (List.forall_mem_append.mpr ⟨plain, plain'⟩)
  | broken _ spaces' breaks =>
    obtain ⟨c, member, breaks⟩ := breaks
    rw [← length inner]
    exact .broken _ (List.forall_mem_append.mpr ⟨spaces, spaces'⟩)
      ⟨c, List.mem_append_right gap member, breaks⟩
  | @leaf _ text rest form forms later spaces' first ends others =>
    rw [← length later] at first others
    rw [← List.append_assoc]
    exact .leaf _ (List.forall_mem_append.mpr ⟨spaces, spaces'⟩) first ends others
  | @group _ inside rest items forms later spaces' within others =>
    rw [← length later] at within others ⊢
    rw [← List.append_assoc]
    exact .group _ (List.forall_mem_append.mpr ⟨spaces, spaces'⟩) within others

/-- A row spells the same forms at another offset, but for their marks. -/
theorem move (row : SpellsRow offset inner forms) (offset' : Nat) : ∃ forms',
    SpellsRow offset' inner forms' ∧
      Form.mapAll (fun _ => ()) forms' = Form.mapAll (fun _ => ()) forms := by
  induction row generalizing offset' with
  | gap gap plain => exact ⟨[], .gap gap plain, rfl⟩
  | broken gap spaces breaks => exact ⟨_, .broken gap spaces breaks, rfl⟩
  | leaf gap spaces first ends others ih =>
    obtain ⟨form', first', same, ends'⟩ := first.move (offset' + gap.length)
    obtain ⟨forms', others', sames⟩ := ih _
    exact ⟨_, .leaf gap spaces first' (ends' _ ends) others', congrArg₂ List.cons same sames⟩
  | group gap spaces inside others ihInside ihOthers =>
    obtain ⟨items', inside', same⟩ := ihInside _
    obtain ⟨forms', others', sames⟩ := ihOthers _
    exact ⟨_, .group gap spaces inside' others',
      congrArg₂ List.cons (congrArg (Form.list ()) same) sames⟩

end SpellsRow

end HostLisp
