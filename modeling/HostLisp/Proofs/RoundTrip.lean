import HostLisp.Proofs.ParsedForm

/-!
# Printing and reading

Reading the characters of a form gives the form back, but for symbols without characters.

## Main results

`read_chars`: what reading the characters of a form gives, offsets included.

`read_print`: printing the tree of a source and reading the text loses nothing else.

## Proof strategy

`Written` says of a stretch of text that it stands for certain forms, whatever surrounds it. It is
composed along the text, so no step looks at more than one pair of neighbours.
-/

namespace HostLisp

open Reader (Cursor)
open Token (scanAt)

/-! ### Where printed forms stand -/

namespace Form

variable {α : Type}

mutual

/-- A form marked with the offsets at which its characters stand from an offset on. -/
def place (offset : Nat) : Form α → Form Int
  | .symbol _ text => .symbol offset text
  | .string _ body => .string (offset + 1) body
  | .list _ [] => .list offset []
  | .list _ (first :: rest) =>
    .list offset (place (offset + 1) first :: placeSpaced (offset + 1 + first.chars.length) rest)
termination_by structural form => form

/-- Forms marked with the offsets at which they stand from an offset on, each after a space. -/
def placeSpaced (offset : Nat) : List (Form α) → List (Form Int)
  | [] => []
  | form :: rest => place (offset + 1) form :: placeSpaced (offset + 1 + form.chars.length) rest
termination_by structural forms => forms

end

mutual

theorem map_place {β : Type} (change : Int → β) (change' : α → β)
    (constant : ∀ offset mark, change offset = change' mark) : ∀ (offset : Nat) (form : Form α),
    (form.place offset).map change = form.map change'
  | offset, .symbol mark text => congrArg (Form.symbol · text) (constant offset mark)
  | offset, .string mark body => congrArg (Form.string · body) (constant (offset + 1) mark)
  | offset, .list mark [] => congrArg (Form.list · []) (constant offset mark)
  | offset, .list mark (first :: rest) => by
    rw [place, map, map, mapAll, mapAll, constant offset mark,
      map_place change change' constant _ first, mapAll_placeSpaced change change' constant _ rest]

theorem mapAll_placeSpaced {β : Type} (change : Int → β) (change' : α → β)
    (constant : ∀ offset mark, change offset = change' mark) :
    ∀ (offset : Nat) (forms : List (Form α)),
    mapAll change (placeSpaced offset forms) = mapAll change' forms
  | _, [] => rfl
  | offset, form :: rest => by
    rw [placeSpaced, mapAll, mapAll, map_place change change' constant _ form,
      mapAll_placeSpaced change change' constant _ rest]

end

theorem erase_place (offset : Nat) (form : Form α) : (form.place offset).erase = form.erase :=
  map_place _ _ (fun _ _ => rfl) offset form

theorem pruneAll_cons (form : Form α) (rest : List (Form α)) :
    pruneAll (form :: rest) = pruneAll [form] ++ pruneAll rest := by
  cases empty : form.isEmpty <;> simp [pruneAll, empty]

end Form

/-! ### Stretches of text -/

/-- A stretch of text between two others stands for forms. -/
def Written (before chars after : List Char) (forms : List (Form Int)) : Prop :=
  ∃ tokens nodes, scanAt false ⟨before.length, chars ++ after⟩ =
      tokens ++ scanAt false ⟨before.length + chars.length, after⟩ ∧
    Structure tokens nodes ∧ Node.forms? (before ++ (chars ++ after)) nodes = some forms

theorem stringEnd_body (offset : Nat) (body rest : List Char) (closed : IsBody body) :
    Reader.stringEnd offset (body ++ '"' :: rest) = .ok ⟨offset + body.length + 1, rest⟩ := by
  induction closed generalizing offset with
  | nil => rfl
  | escape c _ ih =>
    -- A protected character is taken together with its backslash.
    rw [List.cons_append, List.cons_append, Reader.stringEnd, ih]
    simp only [List.length_cons, Except.ok.injEq, Cursor.mk.injEq, and_true]
    omega
  | plain c notBackslash notQuote _ ih =>
    rw [List.cons_append, Reader.stringEnd, ih]
    · simp only [List.length_cons, Except.ok.injEq, Cursor.mk.injEq, and_true]
      omega
    all_goals simp [notBackslash, notQuote]

namespace Written

theorem nil (before after : List Char) : Written before [] after [] :=
  ⟨[], [], by simp, .nil, rfl⟩

theorem append {before chars chars' after : List Char} {forms forms' : List (Form Int)}
    (first : Written before chars (chars' ++ after) forms)
    (second : Written (before ++ chars) chars' after forms') :
    Written before (chars ++ chars') after (forms ++ forms') := by
  obtain ⟨tokens, nodes, scanned, made, formed⟩ := first
  obtain ⟨tokens', nodes', scanned', made', formed'⟩ := second
  refine ⟨tokens ++ tokens', nodes ++ nodes', ?_, made.append made', ?_⟩
  · rw [List.length_append] at scanned'
    rw [List.append_assoc, scanned, scanned', List.append_assoc, List.length_append, Nat.add_assoc]
  · rw [List.append_assoc] at formed' ⊢
    exact Node.forms?_append formed formed'

theorem space (before after : List Char) : Written before [' '] after [] := by
  refine ⟨[], [], ?_, .nil, rfl⟩
  exact Token.scanAt_space false before.length ' ' after (by decide)

theorem symbol (before text after : List Char) (filled : text ≠ []) (whole : IsSymbolText text)
    (ended : ∀ c ∈ after.head?, Reader.endsSymbol c = true) :
    Written before text after [.symbol before.length text] := by
  refine ⟨[.symbol ⟨before.length, text.length⟩], _, ?_, .symbol _ .nil, ?_⟩
  · have passed := Cursor.skip_append (!Reader.endsSymbol ·) before.length text after
      (fun c member => by simp [whole.inside c member]) (fun c first => by simp [ended c first])
    obtain ⟨c, rest, rfl⟩ := List.exists_cons_of_ne_nil filled
    -- The first character decides that it is a symbol, the one after the last that it ends.
    have inside := whole.inside c List.mem_cons_self
    have notQuote : c ≠ '"' := fun same => whole.unquoted (by rw [same]; rfl)
    have scanned := Token.scanAt_symbol false before.length c (rest ++ after) inside notQuote
    rw [← List.cons_append, passed] at scanned
    rw [scanned, List.singleton_append]
    congr 3
    dsimp only
    omega
  · rw [Node.forms?, Node.form?_symbol_middle before text after filled]
    rfl

theorem string (before body after : List Char) (closed : IsBody body) :
    Written before ('"' :: (body ++ ['"'])) after [.string (before.length + 1) body] := by
  refine ⟨[.string ⟨before.length + 1, body.length⟩], _, ?_, .string _ .nil, ?_⟩
  · have scanned := Token.scanAt_string false before.length (body ++ '"' :: after)
    rw [stringEnd_body _ _ _ closed] at scanned
    rw [List.cons_append, List.append_assoc, List.singleton_append, scanned, List.singleton_append]
    simp only [List.length_cons, List.length_append, List.length_nil]
    congr 2
    · simp only [Span.mk.injEq]
      omega
    · simp only [Cursor.mk.injEq, and_true]
      omega
  · have formed := Node.form?_string_middle before body after
    rw [Node.forms?, List.cons_append, List.append_assoc, List.singleton_append, formed]
    rfl

/-- The tokens of a stretch in parentheses. -/
theorem group_tokens {before inner after : List Char} {forms : List (Form Int)}
    (inside : Written (before ++ ['(']) inner (')' :: after) forms) :
    ∃ tokens nodes, scanAt false ⟨before.length, '(' :: (inner ++ ')' :: after)⟩ =
        .opening before.length :: (tokens ++ .closing (before.length + inner.length + 1) false ::
          scanAt false ⟨before.length + inner.length + 2, after⟩) ∧
      Structure tokens nodes ∧
      Node.forms? (before ++ '(' :: (inner ++ ')' :: after)) nodes = some forms := by
  obtain ⟨tokens, nodes, scanned, made, formed⟩ := inside
  refine ⟨tokens, nodes, ?_, made, by simpa using formed⟩
  -- The opening parenthesis is in front of what is inside.
  have length : (before ++ ['(']).length + inner.length = before.length + inner.length + 1 := by
    simp only [List.length_append, List.length_singleton]
    omega
  rw [length, List.length_append, List.length_singleton, Token.scanAt_closing] at scanned
  rw [Token.scanAt_opening, scanned]

theorem group {before inner after : List Char} {forms : List (Form Int)}
    (inside : Written (before ++ ['(']) inner (')' :: after) forms) :
    Written before ('(' :: (inner ++ [')'])) after [.list before.length forms] := by
  obtain ⟨tokens, nodes, scanned, made, formed⟩ := inside.group_tokens
  refine ⟨_, _, ?_, .group before.length (before.length + inner.length + 1) false made .nil, ?_⟩
  · rw [List.cons_append, List.append_assoc, List.singleton_append, scanned]
    simp [Nat.add_assoc]
  · rw [List.cons_append, List.append_assoc, List.singleton_append]
    simp [Node.forms?, Node.form?, Token.ending, formed]

end Written

/-! ### Reading printed forms -/

/-- What follows a stretch of text ends a symbol at its end. -/
def Stops (after : List Char) : Prop := ∀ c ∈ after.head?, Reader.endsSymbol c = true

/-- A form stands where it is printed, without its empty symbols. -/
private def StandsInPlace {α : Type} (form : Form α) : Prop :=
  ∀ before after, Stops after →
    Written before form.chars after (Form.pruneAll [form.place before.length])

private theorem spaced_written {α : Type} (forms : List (Form α))
    (each : ∀ form ∈ forms, StandsInPlace form) (before after : List Char) (stops : Stops after) :
    Written before (Form.spaced forms) after
      (Form.pruneAll (Form.placeSpaced before.length forms)) := by
  induction forms generalizing before with
  | nil => exact .nil before after
  | cons form rest ih =>
    -- Between two forms stands a space, which ends a symbol.
    have stops' : Stops (Form.spaced rest ++ after) := by
      cases rest with
      | nil => exact stops
      | cons next rest => rintro c ⟨⟩; decide
    have here := each form List.mem_cons_self (before ++ [' ']) _ stops'
    have others := ih (fun other member => each other (List.mem_cons_of_mem _ member))
      (before ++ [' '] ++ form.chars)
    -- A space, the form and the forms after it, each written where the one before ends.
    have whole := (Written.space before _).append (here.append others)
    rw [Form.placeSpaced, Form.pruneAll_cons]
    simpa [Form.spaced, Nat.add_assoc, Nat.add_comm 1 form.chars.length] using whole

/-- What stands between the parentheses of a list. -/
private theorem items_written {α : Type} (mark : α) (items : List (Form α))
    (each : ∀ item ∈ items, StandsInPlace item) (before after : List Char) : ∃ inner placed,
      (Form.list mark items).chars = '(' :: (inner ++ [')']) ∧
      (Form.list mark items).place before.length = .list before.length placed ∧
      Written (before ++ ['(']) inner (')' :: after) (Form.pruneAll placed) := by
  cases items with
  | nil => exact ⟨[], [], rfl, rfl, .nil _ _⟩
  | cons first rest =>
    have stops : Stops (Form.spaced rest ++ ')' :: after) := by
      cases rest with
      | nil => rintro c ⟨⟩; decide
      | cons next rest => rintro c ⟨⟩; decide
    -- What ends the last item is the closing parenthesis.
    have closing : Stops (')' :: after) := by rintro c ⟨⟩; decide
    have here := each first List.mem_cons_self (before ++ ['(']) _ stops
    have others := spaced_written rest (fun form member => each form (List.mem_cons_of_mem _ member))
      (before ++ ['('] ++ first.chars) (')' :: after) closing
    have whole := here.append others
    rw [← Form.pruneAll_cons] at whole
    refine ⟨first.chars ++ Form.spaced rest, _, by simp [Form.chars], rfl, ?_⟩
    simpa [Nat.add_assoc, Nat.add_comm 1 first.chars.length] using whole

/-- Each readable form stands where it is printed. The induction is on the form; a list is put
together from its items and the spaces between them. -/
theorem Form.Readable.printed {α : Type} {form : Form α} (readable : form.Readable) :
    ∀ before after, Stops after →
      Written before form.chars after (Form.pruneAll [form.place before.length]) := by
  induction readable with
  | symbol mark text whole =>
    intro before after stops
    -- A symbol without characters prints as nothing and is left out.
    cases text with
    | nil => exact .nil before after
    | cons c text => exact .symbol before (c :: text) after (by simp) whole stops
  | string mark body closed =>
    intro before after _
    exact .string before body after closed
  | list mark items _ ih =>
    intro before after _
    obtain ⟨inner, placed, text, place, inside⟩ := items_written mark items ih before after
    rw [text, place]
    exact inside.group

theorem read_eq_ok {source : List Char} {root : Node} {next : Cursor}
    (returned : Reader.form (.start source) = .ok (root, next)) :
    read source = .ok (root, next.offset) := by
  simp [read, returned, bind, Except.bind]

/-- A symbol that makes up a whole source. -/
theorem form_of_symbol (text : List Char) (filled : text ≠ []) (whole : IsSymbolText text) :
    Reader.form (.start text) = .ok (.symbol ⟨0, text.length⟩, ⟨text.length, []⟩) := by
  have passed := Cursor.skip_append (!Reader.endsSymbol ·) 0 text []
    (fun c member => by simp [whole.inside c member]) (by simp)
  rw [List.append_nil, Nat.zero_add] at passed
  obtain ⟨c, rest, rfl⟩ := List.exists_cons_of_ne_nil filled
  have inside := whole.inside c List.mem_cons_self
  -- The first character is no blank, quote or parenthesis, so the reader takes a symbol.
  have notSpace : Reader.isSpace c = false := by
    simp only [Reader.endsSymbol, Bool.or_eq_false_iff] at inside
    exact inside.1.1
  have stays := Cursor.skip_of_not_kind Reader.isSpace 0 c rest notSpace
  have notQuote : c ≠ '"' := fun same => whole.unquoted (by rw [same]; rfl)
  have notOpening : c ≠ '(' := by rintro rfl; simp [Reader.endsSymbol] at inside
  rw [Cursor.start, Reader.form_symbol _ c rest (by rw [stays]) notQuote notOpening, stays]
  simp [Reader.symbol, passed]

/-- A string literal that makes up a whole source. -/
theorem form_of_string (body : List Char) (closed : IsBody body) :
    Reader.form (.start ('"' :: (body ++ ['"']))) =
      .ok (.string ⟨1, body.length⟩, ⟨body.length + 2, []⟩) := by
  have stays := Cursor.skip_of_not_kind Reader.isSpace 0 '"' (body ++ ['"']) rfl
  rw [Cursor.start, Reader.form_string _ (body ++ ['"']) (by rw [stays]), stays, Reader.string]
  simp only [stringEnd_body _ body [] closed, bind, Except.bind, Except.ok.injEq, Prod.mk.injEq,
    Node.string.injEq, Span.mk.injEq, Cursor.mk.injEq, and_true]
  omega

/-- Reading the characters of a form uses them all and gives the form where they stand, but for
symbols without characters. -/
theorem read_chars {α : Type} (form : Form α) (readable : form.Readable)
    (filled : form.isEmpty = false) : ∃ root, read form.chars = .ok (root, form.chars.length) ∧
      root.form? form.chars = some (form.place 0).prune := by
  cases readable with
  | symbol mark text whole =>
    have some' : text ≠ [] := by rintro rfl; cases filled
    refine ⟨_, read_eq_ok (form_of_symbol text some' whole), ?_⟩
    have formed := Node.form?_symbol_middle [] text [] some'
    rw [List.append_nil, List.nil_append] at formed
    exact formed
  | string mark body closed =>
    refine ⟨.string ⟨1, body.length⟩, ?_, ?_⟩
    · exact (read_eq_ok (form_of_string body closed)).trans (by simp [Form.chars])
    · exact Node.form?_string_middle [] body []
  | list mark items each =>
    obtain ⟨inner, placed, text, place, inside⟩ :=
      items_written mark items (fun item member => (each item member).printed) [] []
    obtain ⟨tokens, nodes, scanned, made, formed⟩ := inside.group_tokens
    obtain ⟨next, returned, -, stopped⟩ := form_of_group false ⟨0, _⟩ _ _ false _ _ _ made scanned
    have whole : Reader.form (.start ('(' :: (inner ++ [')']))) = .ok (.list (some 0) nodes, next) := by
      simpa [Token.ending, Cursor.start] using returned
    refine ⟨.list (some 0) nodes, ?_, ?_⟩
    · rw [text, read_eq_ok whole, stopped]
      simp [Nat.add_assoc]
    · simp only [List.length_nil, List.nil_append] at place formed
      rw [text, place, Node.form?, formed]
      rfl

/-! ### Printing trees -/

/-- Whether a node is a symbol without characters. -/
def Node.isEmpty : Node → Bool
  | .symbol span => span.length = 0
  | _ => false

theorem Node.isEmpty_form {source : List Char} {node : Node} {form : Form Int}
    (formed : node.form? source = some form) : form.isEmpty = node.isEmpty := by
  cases node with
  | symbol span =>
    rcases Node.form?_symbol_eq_some formed with ⟨empty, rfl⟩ | ⟨filled, outside, rfl⟩
    · simp [Form.isEmpty, Node.isEmpty, empty]
    · obtain ⟨c, rest, sliced⟩ := List.exists_cons_of_ne_nil outside
      simp [Form.isEmpty, Node.isEmpty, filled, sliced]
  | string span => cases formed; rfl
  | list start children =>
    obtain ⟨offset, items, rfl, inner, rfl⟩ := Node.form?_list_eq_some formed
    rfl
  | value v => cases formed

/-- A tree of a source prints as a text that reads as the same tree without its empty symbols, and
reading uses the whole text. Without such symbols the text prints as itself again. A tree that is
an empty symbol prints as no text at all. -/
theorem read_print (source : List Char) (root : Node) (parsed : parse source = .ok root) :
    (root.isEmpty = false → ∃ text form root' form', root.print source = .ok text ∧
      root.form? source = some form ∧ read text.toList = .ok (root', text.length) ∧
      root'.form? text.toList = some form' ∧ form'.erase = form.erase.prune ∧
      (form.isSolid = true → root'.print text.toList = .ok text)) ∧
    (root.isEmpty = true →
      root.print source = .ok "" ∧ parse "".toList = .error (.inputEnded 0)) := by
  obtain ⟨form, formed, readable⟩ := parse_form source root parsed
  have printed := Form.print_eq source root form formed
  constructor
  · intro filled
    rw [← Node.isEmpty_form formed] at filled
    obtain ⟨root', returned, formed'⟩ := read_chars form readable filled
    refine ⟨_, form, root', (form.place 0).prune, printed, formed, ?_, ?_, ?_, ?_⟩
    · simpa using returned
    · simpa using formed'
    · rw [Form.erase_prune, Form.erase_place]
    · intro solid
      -- Nothing is left out, so the second tree has the form of the first.
      have same : (form.place 0).prune.erase = form.erase := by
        rw [Form.erase_prune, Form.erase_place, ← Form.erase_prune, Form.prune_of_isSolid _ solid]
      rw [String.toList_ofList, Form.print_eq _ root' _ formed', Form.chars_of_erase_eq same]
  · intro empty
    -- An empty root is a symbol without characters, and nothing is printed for it.
    rw [← Node.isEmpty_form formed] at empty
    refine ⟨?_, rfl⟩
    cases form with
    | symbol mark text =>
      cases text with
      | nil => exact printed
      | cons c text => cases empty
    | string mark body => cases empty
    | list mark items => cases empty

/-- A list with a line break before its end, a symbol that holds a quote and an escaped quote. -/
theorem read_print_nested :
    parse "(a\"b \"c\\\"\" (d\n))e".toList = .ok (.list (some 0) [.symbol ⟨1, 3⟩, .string ⟨6, 3⟩,
      .list (some 11) [.symbol ⟨12, 1⟩, .symbol ⟨14, 0⟩]]) ∧
    ∃ text form root' form', Node.print "(a\"b \"c\\\"\" (d\n))e".toList
        (.list (some 0) [.symbol ⟨1, 3⟩, .string ⟨6, 3⟩,
          .list (some 11) [.symbol ⟨12, 1⟩, .symbol ⟨14, 0⟩]]) = .ok text ∧
      Node.form? "(a\"b \"c\\\"\" (d\n))e".toList (.list (some 0) [.symbol ⟨1, 3⟩, .string ⟨6, 3⟩,
        .list (some 11) [.symbol ⟨12, 1⟩, .symbol ⟨14, 0⟩]]) = some form ∧
      read text.toList = .ok (root', text.length) ∧ root'.form? text.toList = some form' ∧
      form'.erase = form.erase.prune ∧ (form.isSolid = true → root'.print text.toList = .ok text) :=
  have parsed : parse "(a\"b \"c\\\"\" (d\n))e".toList = .ok (.list (some 0) [.symbol ⟨1, 3⟩,
      .string ⟨6, 3⟩, .list (some 11) [.symbol ⟨12, 1⟩, .symbol ⟨14, 0⟩]]) := rfl
  ⟨parsed, (read_print _ _ parsed).1 rfl⟩

end HostLisp
