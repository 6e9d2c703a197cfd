import HostLisp.Proofs.BracketStructure
import HostLisp.Proofs.Form
import Mathlib.Tactic.SplitIfs

/-!
# The forms of sources

Every tree that is read has a form, and its texts are those that symbols and literals can have.

## Main result

`parse_form`: the tree of a source has a readable form.

## Proof strategy

The scan keeps that its phase describes the characters read so far, so each token is in its place in
the source. The tree is made of those tokens.
-/

namespace HostLisp

/-! ### The texts of leaves -/

/-- The texts that symbols can have: no character ends the symbol, and no quote begins it. -/
structure IsSymbolText (text : List Char) : Prop where
  inside : ∀ c ∈ text, Reader.endsSymbol c = false
  unquoted : text.head? ≠ some '"'

/-- The bodies that string literals can have: each backslash has a character that it protects, and
each quote is protected. -/
inductive IsBody : List Char → Prop
  | nil : IsBody []
  | escape {body} (c : Char) (rest : IsBody body) : IsBody ('\\' :: c :: body)
  | plain {body} (c : Char) (notBackslash : c ≠ '\\') (notQuote : c ≠ '"') (rest : IsBody body) :
      IsBody (c :: body)

theorem IsBody.append {body body' : List Char} (first : IsBody body) (second : IsBody body') :
    IsBody (body ++ body') := by
  induction first with
  | nil => exact second
  | escape c _ ih => exact .escape c ih
  | plain c notBackslash notQuote _ ih => exact .plain c notBackslash notQuote ih

theorem IsSymbolText.append_singleton {text : List Char} {c : Char} (whole : IsSymbolText text)
    (filled : text ≠ []) (inside : Reader.endsSymbol c = false) : IsSymbolText (text ++ [c]) := by
  constructor
  · intro d member
    rcases List.mem_append.mp member with before | last
    · exact whole.inside d before
    · rwa [List.mem_singleton.mp last]
  · obtain ⟨first, rest, rfl⟩ := List.exists_cons_of_ne_nil filled
    exact whole.unquoted

/-- Forms whose leaves have texts that symbols and literals can have. -/
inductive Form.Readable {α : Type} : Form α → Prop
  | symbol (mark : α) (text : List Char) (whole : IsSymbolText text) : Readable (.symbol mark text)
  | string (mark : α) (body : List Char) (closed : IsBody body) : Readable (.string mark body)
  | list (mark : α) (items : List (Form α)) (each : ∀ item ∈ items, Readable item) :
      Readable (.list mark items)

/-! ### Tokens in their source -/

namespace Token

/-- A token is in its place in a source. -/
def Within (source : List Char) : Token → Prop
  | .opening offset => ∃ before after, source = before ++ '(' :: after ∧ offset = before.length
  | .closing offset _ => ∃ before after, source = before ++ ')' :: after ∧ offset = before.length
  | .symbol span => ∃ before text after, source = before ++ (text ++ after) ∧
      span = ⟨before.length, text.length⟩ ∧ text ≠ [] ∧ IsSymbolText text
  | .string span => ∃ before body after, source = before ++ '"' :: (body ++ '"' :: after) ∧
      span = ⟨before.length + 1, body.length⟩ ∧ IsBody body
  | .unfinished start => ∃ before after, source = before ++ '"' :: after ∧ start = before.length + 1

/-- A phase describes the characters before it. -/
def Phase.Holds (before : List Char) : Phase → Prop
  | .gap _ => True
  | .symbol start => ∃ earlier text, before = earlier ++ text ∧ start = earlier.length ∧
      text ≠ [] ∧ IsSymbolText text
  | .string start false => ∃ earlier body, before = earlier ++ '"' :: body ∧
      start = earlier.length + 1 ∧ IsBody body
  | .string start true => ∃ earlier body, before = earlier ++ '"' :: (body ++ ['\\']) ∧
      start = earlier.length + 1 ∧ IsBody body

private theorem span_of_append (earlier text : List Char) :
    (⟨earlier.length, (earlier ++ text).length - earlier.length⟩ : Span) =
      ⟨earlier.length, text.length⟩ := by
  simp only [List.length_append, Span.mk.injEq, true_and]
  omega

private theorem enter_holds (broken : Bool) (before rest : List Char) (c : Char) :
    (enter broken before.length c).2.Holds (before ++ [c]) ∧
      ∀ token ∈ (enter broken before.length c).1, token.Within (before ++ c :: rest) := by
  -- Only a character that begins a token of more than itself says something of the phase after it.
  unfold enter
  split_ifs with opening closing quote space
  · subst opening
    refine ⟨trivial, ?_⟩
    rintro token ⟨⟩
    exact ⟨before, rest, rfl, rfl⟩
  · subst closing
    refine ⟨trivial, ?_⟩
    rintro token ⟨⟩
    exact ⟨before, rest, rfl, rfl⟩
  · subst quote
    exact ⟨⟨before, [], rfl, rfl, .nil⟩, by simp⟩
  · exact ⟨trivial, by simp⟩
  · have inside : Reader.endsSymbol c = false := by
      simp [Reader.endsSymbol, space, opening, closing]
    exact ⟨⟨before, [c], rfl, rfl, by simp, by simpa using inside, by simpa using quote⟩, by simp⟩

private theorem step_holds (phase : Phase) (before rest : List Char) (c : Char)
    (holds : phase.Holds before) : (step phase before.length c).2.Holds (before ++ [c]) ∧
      ∀ token ∈ (step phase before.length c).1, token.Within (before ++ c :: rest) := by
  cases phase with
  | gap broken => simpa [step] using enter_holds broken before rest c
  | symbol start =>
    obtain ⟨earlier, text, rfl, rfl, filled, whole⟩ := holds
    simp only [step]
    split
    -- A character that ends the symbol completes its token and may be one itself.
    next ends =>
      have entered := enter_holds false (earlier ++ text) rest c
      refine ⟨entered.1, ?_⟩
      intro token member
      rcases List.mem_cons.mp member with rfl | found
      · exact ⟨earlier, text, c :: rest, by simp, span_of_append earlier text, filled, whole⟩
      · exact entered.2 token (by simpa using found)
    next inside =>
      refine ⟨⟨earlier, text ++ [c], by simp, rfl, by simp, ?_⟩, by simp⟩
      exact whole.append_singleton filled (by simpa using inside)
  | string start escaped =>
    cases escaped with
    | true =>
      -- Whatever the character is, the backslash before it protects it.
      obtain ⟨earlier, body, rfl, rfl, closed⟩ := holds
      refine ⟨⟨earlier, body ++ ['\\', c], by simp, rfl, ?_⟩, by simp [step]⟩
      exact closed.append (.escape c .nil)
    | false =>
      obtain ⟨earlier, body, rfl, rfl, closed⟩ := holds
      simp only [step]
      split_ifs with backslash quote
      · subst backslash
        exact ⟨⟨earlier, body, by simp, rfl, closed⟩, by simp⟩
      · subst quote
        refine ⟨trivial, ?_⟩
        intro token member
        rw [List.mem_singleton.mp member]
        refine ⟨earlier, body, rest, by simp, ?_, closed⟩
        simp only [List.length_append, List.length_cons, Span.mk.injEq]
        omega
      · refine ⟨⟨earlier, body ++ [c], by simp, rfl, ?_⟩, by simp⟩
        exact closed.append (.plain c backslash quote .nil)

private theorem finish_within (phase : Phase) (before : List Char) (holds : phase.Holds before) :
    ∀ token ∈ finish phase before.length, token.Within before := by
  intro token member
  -- The end of the source completes a symbol, and leaves a literal without its quote.
  cases phase with
  | gap broken => simp [finish] at member
  | symbol start =>
    obtain ⟨earlier, text, rfl, rfl, filled, whole⟩ := holds
    rw [List.mem_singleton.mp member]
    exact ⟨earlier, text, [], by simp, span_of_append earlier text, filled, whole⟩
  | string start escaped =>
    rw [List.mem_singleton.mp member]
    cases escaped with
    | true =>
      obtain ⟨earlier, body, rfl, rfl, closed⟩ := holds
      exact ⟨earlier, _, rfl, rfl⟩
    | false =>
      obtain ⟨earlier, body, rfl, rfl, closed⟩ := holds
      exact ⟨earlier, _, rfl, rfl⟩

private theorem scanFrom_within (phase : Phase) (before chars : List Char)
    (holds : phase.Holds before) :
    ∀ token ∈ scanFrom phase before.length chars, token.Within (before ++ chars) := by
  induction chars generalizing phase before with
  | nil => simpa [scanFrom] using finish_within phase before holds
  | cons c rest ih =>
    obtain ⟨kept, found⟩ := step_holds phase before rest c holds
    intro token member
    -- The tokens are those of this character and those of the others, one character on.
    rw [scanFrom_cons] at member
    rcases List.mem_append.mp member with here | later
    · exact found token here
    · have inRest := ih _ (before ++ [c]) kept token (by simpa using later)
      simpa using inRest

theorem scan_within (source : List Char) : ∀ token ∈ scan source, token.Within source :=
  scanFrom_within (.gap false) [] source trivial

end Token

/-! ### Forms of trees -/

/-- The stretch of a source between what is before and after it. -/
theorem Span.slice_middle (before text after : List Char) :
    (⟨before.length, text.length⟩ : Span).slice (before ++ (text ++ after)) = text := by
  -- Neither end of the span is before the source or beyond it.
  have first : Span.offset (before ++ (text ++ after)).length before.length = before.length := by
    unfold Span.offset
    rw [if_neg (by omega), List.length_append]
    omega
  have last : Span.offset (before ++ (text ++ after)).length (before.length + text.length) =
      before.length + text.length := by
    unfold Span.offset
    rw [if_neg (by omega), List.length_append, List.length_append]
    omega
  rw [Span.slice, Span.stop, first, last]
  simp

theorem Node.form?_symbol_middle (before text after : List Char) (filled : text ≠ []) :
    Node.form? (before ++ (text ++ after)) (.symbol ⟨before.length, text.length⟩) =
      some (.symbol before.length text) := by
  have length : (text.length : Int) ≠ 0 := by simpa using filled
  rw [Node.form?, if_neg length, Span.slice_middle]
  cases text with
  | nil => exact absurd rfl filled
  | cons c text => rfl

theorem Node.form?_string_middle (before body after : List Char) :
    Node.form? (before ++ '"' :: (body ++ '"' :: after)) (.string ⟨before.length + 1, body.length⟩) =
      some (.string (before.length + 1) body) := by
  have sliced := Span.slice_middle (before ++ ['"']) body ('"' :: after)
  simp only [List.length_append, List.length_singleton, Int.natCast_add, Int.natCast_one,
    List.append_assoc, List.singleton_append] at sliced
  rw [Node.form?, sliced]

private theorem symbol_form {source : List Char} {span : Span}
    (within : (Token.symbol span).Within source) :
    ∃ text, Node.form? source (.symbol span) = some (.symbol span.start text) ∧
      IsSymbolText text := by
  obtain ⟨before, text, after, rfl, rfl, filled, whole⟩ := within
  exact ⟨text, Node.form?_symbol_middle before text after filled, whole⟩

private theorem string_form {source : List Char} {span : Span}
    (within : (Token.string span).Within source) :
    ∃ body, Node.form? source (.string span) = some (.string span.start body) ∧ IsBody body := by
  obtain ⟨before, body, after, rfl, rfl, closed⟩ := within
  exact ⟨body, Node.form?_string_middle before body after, closed⟩

private theorem isSymbolText_nil : IsSymbolText [] := ⟨by simp, by simp⟩

private theorem ending_forms (source : List Char) (stop : Nat) (broken : Bool) :
    ∃ forms, Node.forms? source (Token.ending stop broken) = some forms ∧
      ∀ form ∈ forms, form.Readable := by
  cases broken with
  | false => exact ⟨[], rfl, by simp⟩
  | true => exact ⟨[.symbol stop []], rfl, by simpa using .symbol _ _ isSymbolText_nil⟩

/-- A row of nodes made of tokens in their place has readable forms. -/
theorem Structure.forms {tokens : List Token} {nodes : List Node} (made : Structure tokens nodes)
    (source : List Char) (within : ∀ token ∈ tokens, token.Within source) :
    ∃ forms, Node.forms? source nodes = some forms ∧ ∀ form ∈ forms, form.Readable := by
  induction made with
  | nil => exact ⟨[], rfl, by simp⟩
  | symbol span _ ih =>
    obtain ⟨text, formed, whole⟩ := symbol_form (within _ List.mem_cons_self)
    obtain ⟨others, rest, readable⟩ := ih fun token member => within token (.tail _ member)
    refine ⟨_, Node.forms?_cons_eq_some.mpr ⟨_, others, formed, rest, rfl⟩, ?_⟩
    exact List.forall_mem_cons.mpr ⟨.symbol _ text whole, readable⟩
  | string span _ ih =>
    obtain ⟨body, formed, closed⟩ := string_form (within _ List.mem_cons_self)
    obtain ⟨others, rest, readable⟩ := ih fun token member => within token (.tail _ member)
    refine ⟨_, Node.forms?_cons_eq_some.mpr ⟨_, others, formed, rest, rfl⟩, ?_⟩
    exact List.forall_mem_cons.mpr ⟨.string _ body closed, readable⟩
  | @group _ children _ _ start stop broken _ _ ihInside ihRest =>
    obtain ⟨items, inner, readableItems⟩ := ihInside fun token member =>
      within token (by simp [member])
    obtain ⟨others, rest, readableOthers⟩ := ihRest fun token member =>
      within token (by simp [member])
    -- A line break before the parenthesis gives the list one more symbol, without characters.
    obtain ⟨last, ended, readableLast⟩ := ending_forms source stop broken
    have formed : Node.form? source (.list (some start) (children ++ Token.ending stop broken)) =
        some (.list start (items ++ last)) := by
      simp [Node.form?, Node.forms?_append inner ended]
    refine ⟨_, Node.forms?_cons_eq_some.mpr ⟨_, others, formed, rest, rfl⟩, ?_⟩
    refine List.forall_mem_cons.mpr ⟨.list _ _ ?_, readableOthers⟩
    intro item member
    rcases List.mem_append.mp member with first | second
    · exact readableItems item first
    · exact readableLast item second

/-- The tree of a source has a readable form. -/
theorem parse_form (source : List Char) (root : Node) (parsed : parse source = .ok root) :
    ∃ form, root.form? source = some form ∧ form.Readable := by
  have within := Token.scan_within source
  have leading := (parse_iff_leading source root).mp parsed
  -- The tree is that of the first token or of the group that it opens.
  generalize Token.scan source = tokens at within leading
  cases leading with
  | symbol span rest =>
    obtain ⟨text, formed, whole⟩ := symbol_form (within _ List.mem_cons_self)
    exact ⟨_, formed, .symbol _ text whole⟩
  | string span rest =>
    obtain ⟨body, formed, closed⟩ := string_form (within _ List.mem_cons_self)
    exact ⟨_, formed, .string _ body closed⟩
  | closing offset broken rest => exact ⟨_, rfl, .symbol _ [] isSymbolText_nil⟩
  | group start stop broken inside rest =>
    have row : Structure _ [_] := .group start stop broken inside .nil
    obtain ⟨forms, formed, readable⟩ := row.forms source fun token member => by
      apply within
      simp only [List.mem_cons, List.mem_append, List.not_mem_nil, or_false] at member ⊢
      rcases member with same | among | same
      · exact Or.inl same
      · exact Or.inr (Or.inl among)
      · exact Or.inr (Or.inr (Or.inl same))
    obtain ⟨form, others, here, -, rfl⟩ := Node.forms?_cons_eq_some.mp formed
    exact ⟨form, here, readable form List.mem_cons_self⟩

end HostLisp
