import HostLisp.Proofs.Token

/-!
# The bracket structure of a source

Reading finds the tree that the parentheses among a source's tokens give, and nothing else.

## Main result

`parse_iff_bracket_structure`: which sources have a tree, and which tree it is.

## Proof strategy

`Start` sets what reading does at a cursor beside the tokens there. Reading a list is sound by
induction on the characters that are left, and complete by induction on the structure of its tokens.
-/

namespace HostLisp

open Reader (Cursor)
open Token (scanAt breaks ending)

/-! ### One form -/

/-- What a form that is read at a cursor has to do with the tokens there. -/
private inductive Start (broken : Bool) (cursor : Cursor) : Prop
  | ended (offset : Nat) (tokens : scanAt broken cursor = [])
      (result : Reader.form cursor = .error offset)
  | unfinished (start offset : Nat) (tokens : scanAt broken cursor = [.unfinished start])
      (result : Reader.form cursor = .error offset)
  | symbol (span : Span) (next : Cursor)
      (tokens : scanAt broken cursor = .symbol span :: scanAt false next)
      (result : Reader.form cursor = .ok (.symbol span, next))
  | string (span : Span) (next : Cursor)
      (tokens : scanAt broken cursor = .string span :: scanAt false next)
      (result : Reader.form cursor = .ok (.string span, next))
  | closing (offset : Nat) (rest : List Char)
      (reached : (cursor.skip Reader.isSpace).rest = ')' :: rest)
      (tokens : scanAt broken cursor =
        .closing offset (broken || breaks cursor) :: scanAt false ⟨offset + 1, rest⟩)
      (result : Reader.form cursor = .ok (.symbol ⟨offset, 0⟩, ⟨offset, ')' :: rest⟩))
  | opening (offset : Nat) (rest : List Char) (shorter : rest.length < cursor.rest.length)
      (tokens : scanAt broken cursor = .opening offset :: scanAt false ⟨offset + 1, rest⟩)
      (result : Reader.form cursor = (do
        let (children, next) ← Reader.list ⟨offset + 1, rest⟩
        .ok (.list (some offset) children, next)))

/-- The space that a symbol swallows is no token. -/
private theorem scanAt_symbol_after (cursor : Cursor) :
    scanAt false (Reader.symbol cursor).2 = scanAt false (cursor.skip (!Reader.endsSymbol ·)) := by
  rcases Reader.symbol_after cursor with same | ⟨rest, spaced, same⟩
  · rw [same]
  · have unfolded : cursor.skip (!Reader.endsSymbol ·) =
        ⟨(cursor.skip (!Reader.endsSymbol ·)).offset, ' ' :: rest⟩ := by rw [← spaced]
    rw [same, unfolded, Token.scanAt_space _ _ _ _ (by decide)]
    rfl

private theorem start_of_symbol (broken : Bool) (cursor : Cursor) (c : Char) (rest : List Char)
    (reached : (cursor.skip Reader.isSpace).rest = c :: rest) (notQuote : c ≠ '"')
    (notOpening : c ≠ '(') (notClosing : c ≠ ')') : Start broken cursor := by
  have notSpace : Reader.isSpace c = false := Cursor.head_skip _ _ _ _ reached
  -- Of the characters that end a symbol all have been excluded.
  have inside : Reader.endsSymbol c = false := by
    simp [Reader.endsSymbol, notSpace, notOpening, notClosing]
  have unfolded : cursor.skip Reader.isSpace = ⟨(cursor.skip Reader.isSpace).offset, c :: rest⟩ := by
    rw [← reached]
  have read := Reader.form_symbol cursor c rest reached notQuote notOpening
  refine .symbol _ _ ?_ (read.trans (congrArg Except.ok (Prod.ext (Reader.symbol_node _) rfl)))
  rw [scanAt_symbol_after, Token.scanAt_skip_space, unfolded,
    Token.scanAt_symbol _ _ _ _ inside notQuote]

private theorem start_of (broken : Bool) (cursor : Cursor) : Start broken cursor := by
  have skipped := Token.scanAt_skip_space broken cursor
  -- Reader and scan both look at the first character that is no blank.
  cases chars : (cursor.skip Reader.isSpace).rest with
  | nil =>
    refine .ended _ ?_ (Reader.form_ended cursor chars)
    rw [skipped, scanAt, chars]
    rfl
  | cons c rest =>
    have unfolded : cursor.skip Reader.isSpace =
        ⟨(cursor.skip Reader.isSpace).offset, c :: rest⟩ := by rw [← chars]
    have shorter := Cursor.length_skip_le Reader.isSpace cursor
    rw [chars, List.length_cons] at shorter
    by_cases quote : c = '"'
    · subst quote
      have read := Reader.form_string cursor rest chars
      rw [unfolded, Token.scanAt_string] at skipped
      cases ended : Reader.stringEnd ((cursor.skip Reader.isSpace).offset + 1) rest with
      | error offset =>
        rw [ended] at skipped
        refine .unfinished _ offset skipped (read.trans ?_)
        simp [Reader.string, ended, bind, Except.bind]
      | ok next =>
        rw [ended] at skipped
        refine .string _ next skipped (read.trans ?_)
        simp [Reader.string, ended, bind, Except.bind]
    by_cases opening : c = '('
    · subst opening
      rw [unfolded, Token.scanAt_opening] at skipped
      exact .opening _ rest shorter skipped (Reader.form_list cursor rest chars)
    by_cases closing : c = ')'
    · subst closing
      rw [unfolded, Token.scanAt_closing] at skipped
      refine .closing _ rest chars skipped ?_
      -- The parenthesis ends the symbol before it has a character.
      rw [Reader.form_symbol cursor _ rest chars quote opening, unfolded]
      have stays := Cursor.skip_of_not_kind (!Reader.endsSymbol ·)
        (cursor.skip Reader.isSpace).offset ')' rest rfl
      simp [Reader.symbol, stays]
    · exact start_of_symbol broken cursor c rest chars quote opening closing

/-! ### The items of a list -/

/-- Tokens that end a list: a row of nodes, the closing parenthesis and what follows a cursor. -/
private def Closed (tokens : List Token) (nodes : List Node) (next : Cursor) : Prop :=
  ∃ inner children stop broken, tokens = inner ++ .closing stop broken :: scanAt false next ∧
    Structure inner children ∧ nodes = children ++ ending stop broken ∧ next.offset = stop + 1

private theorem Closed.prepend {first tokens : List Token} {made nodes : List Node} {next : Cursor}
    (closed : Closed tokens nodes next) (before : Structure first made) :
    Closed (first ++ tokens) (made ++ nodes) next := by
  obtain ⟨inner, children, stop, broken, rfl, inside, rfl, stopped⟩ := closed
  exact ⟨first ++ inner, made ++ children, stop, broken, by simp, before.append inside, by simp,
    stopped⟩

/-- What the items that are read at a cursor have to do with the tokens there. -/
private inductive ItemStart (cursor : Cursor) : Prop
  | failed (offset : Nat) (result : Reader.list cursor = .error offset)
      (tokens : ∀ inner stop broken rest children, Structure inner children →
        scanAt false cursor ≠ inner ++ .closing stop broken :: rest)
  | closed (offset : Nat) (broken : Bool) (rest : List Char)
      (tokens : scanAt false cursor = .closing offset broken :: scanAt false ⟨offset + 1, rest⟩)
      (result : Reader.list cursor = .ok (ending offset broken, ⟨offset + 1, rest⟩))
  | leaf (token : Token) (node : Node) (next : Cursor)
      (shorter : next.rest.length < cursor.rest.length)
      (tokens : scanAt false cursor = token :: scanAt false next)
      (made : Structure [token] [node])
      (result : Reader.list cursor = (do
        let (nodes, last) ← Reader.list next
        .ok (node :: nodes, last)))
  | opening (offset : Nat) (rest : List Char) (shorter : rest.length < cursor.rest.length)
      (tokens : scanAt false cursor = .opening offset :: scanAt false ⟨offset + 1, rest⟩)
      (result : Reader.list cursor = (do
        let (children, next) ← Reader.list ⟨offset + 1, rest⟩
        let (nodes, last) ← Reader.list next
        .ok (.list (some offset) children :: nodes, last)))

private theorem itemStart_of (cursor : Cursor) : ItemStart cursor := by
  have skipped := Token.scanAt_skip_gap false cursor
  cases chars : (cursor.skip Reader.isGap).rest with
  | nil =>
    refine .failed _ (Reader.list_ended cursor chars) ?_
    intro inner stop broken rest children _ tokens
    rw [skipped, scanAt, chars] at tokens
    cases inner <;> cases tokens
  | cons c rest =>
    have shorter := Cursor.length_skip_le Reader.isGap cursor
    by_cases closing : c = ')'
    · subst closing
      have unfolded : cursor.skip Reader.isGap = ⟨(cursor.skip Reader.isGap).offset, ')' :: rest⟩ := by
        rw [← chars]
      rw [unfolded, Token.scanAt_closing] at skipped
      exact .closed _ false rest skipped (Reader.list_closed cursor rest chars)
    -- From here on the list reads a form, so the cases are those of the form.
    have item := Reader.list_item cursor c rest chars closing
    cases start_of false (cursor.skip Reader.isGap) with
    | ended offset tokens result =>
      refine .failed offset (by rw [item, result]; rfl) ?_
      intro inner stop broken rest children _ same
      rw [skipped, tokens] at same
      cases inner <;> cases same
    | unfinished start offset tokens result =>
      refine .failed offset (by rw [item, result]; rfl) ?_
      intro inner stop broken rest children _ same
      rw [skipped, tokens] at same
      rcases inner with - | ⟨token, inner⟩
      · cases same
      · cases inner <;> cases same
    | symbol span next tokens result =>
      have less := (Reader.form_length _ _ _ result).2
        (fun _ closed => closing (List.cons.inj (chars.symm.trans closed)).1)
      exact .leaf _ _ next (by omega) (skipped.trans tokens) (.symbol span .nil)
        (by rw [item, result]; rfl)
    | string span next tokens result =>
      have less := (Reader.form_length _ _ _ result).2
        (fun _ closed => closing (List.cons.inj (chars.symm.trans closed)).1)
      exact .leaf _ _ next (by omega) (skipped.trans tokens) (.string span .nil)
        (by rw [item, result]; rfl)
    | closing offset rest' reached tokens result =>
      -- The form was a symbol without characters; the list goes on at the parenthesis it left.
      have notGap := Cursor.head_skip _ _ _ _ chars
      have broken := Token.breaks_of_not_gap _ c rest rest' chars notGap closing reached
      rw [broken, Bool.or_true] at tokens
      refine .closed offset true rest' (skipped.trans tokens) ?_
      have stays := Cursor.skip_of_not_kind Reader.isGap offset ')' rest' rfl
      have closed := Reader.list_closed ⟨offset, ')' :: rest'⟩ rest' (by rw [stays])
      rw [item, result]
      simp [bind, Except.bind, closed, stays, ending]
    | opening offset rest' less tokens result =>
      refine .opening offset rest' (by omega) (skipped.trans tokens) ?_
      rw [item, result]
      cases Reader.list ⟨offset + 1, rest'⟩ <;> rfl

/-! ### Soundness -/

private theorem list_sound (cursor : Cursor) (nodes : List Node) (next : Cursor)
    (returned : Reader.list cursor = .ok (nodes, next)) :
    Closed (scanAt false cursor) nodes next := by
  induction size : cursor.rest.length using Nat.strong_induction_on
    generalizing cursor nodes next with
  | h size ih =>
    cases itemStart_of cursor with
    | failed offset result => simp [result] at returned
    | closed offset broken rest tokens result =>
      rw [result] at returned
      cases returned
      exact ⟨[], [], offset, broken, tokens, .nil, rfl, rfl⟩
    | leaf token node middle shorter tokens made result =>
      rw [result] at returned
      cases others : Reader.list middle with
      | error offset => simp [others, bind, Except.bind] at returned
      | ok pair =>
        simp only [others, bind, Except.bind] at returned
        cases returned
        rw [tokens]
        exact (ih _ (by omega) middle _ _ others rfl).prepend made
    | opening offset rest shorter tokens result =>
      rw [result] at returned
      cases inside : Reader.list ⟨offset + 1, rest⟩ with
      | error offset => simp [inside, bind, Except.bind] at returned
      | ok pair =>
        obtain ⟨children, middle⟩ := pair
        -- The induction serves twice: for the items inside, and for those after the list.
        have less : middle.rest.length < rest.length := Reader.list_length _ _ _ inside
        cases others : Reader.list middle with
        | error offset => simp [inside, others, bind, Except.bind] at returned
        | ok pair =>
          simp only [inside, others, bind, Except.bind] at returned
          cases returned
          obtain ⟨inner, items, stop, broken, split, made, rfl, -⟩ :=
            ih rest.length (by omega) _ _ _ inside rfl
          have closed := (ih _ (by omega) middle _ _ others rfl).prepend
            (.group offset stop broken made .nil)
          rw [tokens, split]
          simpa using closed

/-! ### Completeness -/

private theorem leaf_cases {token : Token} {node : Node} (made : Structure [token] [node]) :
    (∃ span, token = .symbol span ∧ node = .symbol span) ∨
      ∃ span, token = .string span ∧ node = .string span := by
  generalize single : [token] = tokens at made
  cases made with
  | symbol span rest => exact Or.inl ⟨span, (List.cons.inj single).1, rfl⟩
  | string span rest => exact Or.inr ⟨span, (List.cons.inj single).1, rfl⟩
  | group start stop broken inside rest => simp at single

private theorem leaf_unique {token : Token} {node node' : Node} (made : Structure [token] [node])
    (made' : Structure [token] [node']) : node = node' := by
  rcases leaf_cases made with ⟨span, rfl, rfl⟩ | ⟨span, rfl, rfl⟩
  · rcases leaf_cases made' with ⟨span', same, rfl⟩ | ⟨span', same, rfl⟩
    · rw [Token.symbol.inj same]
    · cases same
  · rcases leaf_cases made' with ⟨span', same, rfl⟩ | ⟨span', same, rfl⟩
    · cases same
    · rw [Token.string.inj same]

/-- A token that is a node of its own is read as that node. -/
private theorem list_leaf {token : Token} {node : Node} (made : Structure [token] [node])
    (cursor : Cursor) (tail : List Token) (tokens : scanAt false cursor = token :: tail)
    (closes : ∃ inner stop broken rest children, Structure inner children ∧
      token :: tail = inner ++ .closing stop broken :: rest) :
    ∃ next, scanAt false next = tail ∧ Reader.list cursor = (do
      let (nodes, last) ← Reader.list next
      .ok (node :: nodes, last)) := by
  cases itemStart_of cursor with
  | failed offset result never =>
    obtain ⟨inner, stop, broken, rest, children, inside, split⟩ := closes
    exact absurd (tokens.trans split) (never inner stop broken rest children inside)
  -- A parenthesis alone does not balance, so it is no node of its own.
  | closed offset broken rest first result =>
    obtain ⟨rfl, -⟩ := List.cons.inj (tokens.symm.trans first)
    have level := made.level_eq
    simp [Token.level, Token.weight] at level
  | opening offset rest shorter first result =>
    obtain ⟨rfl, -⟩ := List.cons.inj (tokens.symm.trans first)
    have level := made.level_eq
    simp [Token.level, Token.weight] at level
  | leaf token' node' next shorter first made' result =>
    obtain ⟨rfl, same⟩ := List.cons.inj (tokens.symm.trans first)
    obtain rfl := leaf_unique made made'
    exact ⟨next, same.symm, result⟩

private theorem list_complete {inner : List Token} {children : List Node}
    (made : Structure inner children) (cursor : Cursor) (stop : Nat) (broken : Bool)
    (rest : List Token) (tokens : scanAt false cursor = inner ++ .closing stop broken :: rest) :
    ∃ next, Reader.list cursor = .ok (children ++ ending stop broken, next) ∧
      scanAt false next = rest ∧ next.offset = stop + 1 := by
  induction made generalizing cursor stop broken rest with
  | nil =>
    cases itemStart_of cursor with
    | failed offset result never => exact absurd tokens (never [] stop broken rest [] .nil)
    | closed offset broken' after first result =>
      simp only [first, List.nil_append, List.cons.injEq, Token.closing.injEq] at tokens
      obtain ⟨⟨rfl, rfl⟩, rfl⟩ := tokens
      exact ⟨_, result, rfl, rfl⟩
    | leaf token node next shorter first made result =>
      obtain ⟨rfl, -⟩ := List.cons.inj (first.symm.trans tokens)
      have level := made.level_eq
      simp [Token.level, Token.weight] at level
    | opening offset after shorter first result => cases first.symm.trans tokens
  -- The list reads this token alone and goes on with the others.
  | symbol span inside ih =>
    obtain ⟨middle, tail, result⟩ := list_leaf (.symbol span .nil) cursor _ tokens
      ⟨_, stop, broken, rest, _, .symbol span inside, rfl⟩
    obtain ⟨next, others, after, stopped⟩ := ih middle stop broken rest tail
    exact ⟨next, by simp [result, others, bind, Except.bind], after, stopped⟩
  | string span inside ih =>
    obtain ⟨middle, tail, result⟩ := list_leaf (.string span .nil) cursor _ tokens
      ⟨_, stop, broken, rest, _, .string span inside, rfl⟩
    obtain ⟨next, others, after, stopped⟩ := ih middle stop broken rest tail
    exact ⟨next, by simp [result, others, bind, Except.bind], after, stopped⟩
  | group start stop' broken' inside others ihInside ihOthers =>
    cases itemStart_of cursor with
    | failed offset result never =>
      exact absurd tokens
        (never _ stop broken rest _ (.group start stop' broken' inside others))
    | closed offset broken'' after first result => cases first.symm.trans tokens
    | leaf token node next shorter first made result =>
      obtain ⟨rfl, -⟩ := List.cons.inj (first.symm.trans tokens)
      have level := made.level_eq
      simp [Token.level, Token.weight] at level
    | opening offset after shorter first result =>
      have split := first.symm.trans tokens
      simp only [List.cons_append, List.append_assoc, List.cons.injEq, Token.opening.injEq] at split
      obtain ⟨rfl, split⟩ := split
      -- The parenthesis of the inner list ends its items; the outer one is still ahead.
      obtain ⟨middle, read, tail, -⟩ := ihInside _ stop' broken' _ split
      obtain ⟨next, more, after, stopped⟩ := ihOthers middle stop broken rest tail
      exact ⟨next, by simp [result, read, more, bind, Except.bind], after, stopped⟩

/-! ### The tree of a source -/

/-- The tree that tokens begin with, which leaves the others alone. -/
inductive Token.Leading : List Token → Node → Prop
  | symbol (span : Span) (rest : List Token) : Leading (.symbol span :: rest) (.symbol span)
  | string (span : Span) (rest : List Token) : Leading (.string span :: rest) (.string span)
  /-- A closing parenthesis is taken for a symbol without characters. -/
  | closing (offset : Nat) (broken : Bool) (rest : List Token) :
      Leading (.closing offset broken :: rest) (.symbol ⟨offset, 0⟩)
  | group {inner children} (start stop : Nat) (broken : Bool) (inside : Structure inner children)
      (rest : List Token) :
      Leading (.opening start :: (inner ++ .closing stop broken :: rest))
        (.list (some start) (children ++ ending stop broken))

/-- Tokens that begin with a tree: a symbol, a literal that is closed, a closing parenthesis, or an
opening one whose partner follows, with all literals between the two closed. -/
inductive Token.Readable : List Token → Prop
  | symbol (span : Span) (rest : List Token) : Readable (.symbol span :: rest)
  | string (span : Span) (rest : List Token) : Readable (.string span :: rest)
  | closing (offset : Nat) (broken : Bool) (rest : List Token) :
      Readable (.closing offset broken :: rest)
  | group {inner} (start stop : Nat) (broken : Bool) (balanced : Token.Balanced inner)
      (finished : ∀ token ∈ inner, token.isFinished = true) (rest : List Token) :
      Readable (.opening start :: (inner ++ .closing stop broken :: rest))

theorem Token.readable_iff (tokens : List Token) :
    Token.Readable tokens ↔ ∃ root, Token.Leading tokens root := by
  constructor
  · rintro (⟨span, rest⟩ | ⟨span, rest⟩ | ⟨offset, broken, rest⟩ |
      ⟨start, stop, broken, balanced, finished, rest⟩)
    · exact ⟨_, .symbol span rest⟩
    · exact ⟨_, .string span rest⟩
    · exact ⟨_, .closing offset broken rest⟩
    · obtain ⟨children, inside⟩ := Structure.of_balanced _ finished balanced
      exact ⟨_, .group start stop broken inside rest⟩
  · rintro ⟨root, leading⟩
    cases leading with
    | symbol span rest => exact .symbol span rest
    | string span rest => exact .string span rest
    | closing offset broken rest => exact .closing offset broken rest
    | group start stop broken inside rest =>
      exact .group start stop broken inside.balanced inside.finished rest

theorem form_leading (broken : Bool) (cursor next : Cursor) (node : Node)
    (returned : Reader.form cursor = .ok (node, next)) :
    Token.Leading (scanAt broken cursor) node := by
  cases start_of broken cursor with
  | ended offset tokens result => simp [result] at returned
  | unfinished start offset tokens result => simp [result] at returned
  | symbol span after tokens result =>
    cases result.symm.trans returned
    rw [tokens]
    exact .symbol span _
  | string span after tokens result =>
    cases result.symm.trans returned
    rw [tokens]
    exact .string span _
  | closing offset rest reached tokens result =>
    cases result.symm.trans returned
    rw [tokens]
    exact .closing offset _ _
  | opening offset rest shorter tokens result =>
    rw [result] at returned
    cases inside : Reader.list ⟨offset + 1, rest⟩ with
    | error offset => simp [inside, bind, Except.bind] at returned
    | ok pair =>
      simp only [inside, bind, Except.bind] at returned
      cases returned
      -- The list ends at a closing token, and what comes before it is its row.
      obtain ⟨inner, items, stop, broken', split, made, same, -⟩ := list_sound _ _ _ inside
      rw [tokens, split, same]
      exact .group offset stop broken' made _

theorem form_of_group (broken : Bool) (cursor : Cursor) (start stop : Nat) (broken' : Bool)
    (inner rest : List Token) (children : List Node) (inside : Structure inner children)
    (tokens : scanAt broken cursor = .opening start :: (inner ++ .closing stop broken' :: rest)) :
    ∃ next, Reader.form cursor =
        .ok (.list (some start) (children ++ ending stop broken'), next) ∧
      scanAt false next = rest ∧ next.offset = stop + 1 := by
  cases start_of broken cursor with
  | ended offset first result => cases first.symm.trans tokens
  | unfinished start' offset first result => cases first.symm.trans tokens
  | symbol span after first result => cases first.symm.trans tokens
  | string span after first result => cases first.symm.trans tokens
  | closing offset after reached first result => cases first.symm.trans tokens
  | opening offset after shorter first result =>
    have split := first.symm.trans tokens
    simp only [List.cons.injEq, Token.opening.injEq] at split
    obtain ⟨rfl, split⟩ := split
    obtain ⟨next, read, tail, stopped⟩ := list_complete inside _ stop broken' rest split
    exact ⟨next, by simp [result, read, bind, Except.bind], tail, stopped⟩

theorem form_of_leading (broken : Bool) (cursor : Cursor) (node : Node)
    (leading : Token.Leading (scanAt broken cursor) node) :
    ∃ next, Reader.form cursor = .ok (node, next) := by
  -- The first token tells which of the cases the reader is in.
  generalize same : scanAt broken cursor = tokens at leading
  cases leading with
  | symbol span rest =>
    cases start_of broken cursor with
    | symbol span' next first result => cases first.symm.trans same; exact ⟨next, result⟩
    | _ => simp_all
  | string span rest =>
    cases start_of broken cursor with
    | string span' next first result => cases first.symm.trans same; exact ⟨next, result⟩
    | _ => simp_all
  | closing offset broken' rest =>
    cases start_of broken cursor with
    | closing offset' after reached first result => cases first.symm.trans same; exact ⟨_, result⟩
    | _ => simp_all
  | group start stop broken' inside rest =>
    obtain ⟨next, read, -⟩ := form_of_group broken cursor start stop broken' _ rest _ inside same
    exact ⟨next, read⟩

theorem parse_eq_ok_iff (source : List Char) (root : Node) :
    parse source = .ok root ↔ ∃ next, Reader.form (.start source) = .ok (root, next) := by
  unfold parse read
  cases Reader.form (.start source) with
  | error offset => simp [bind, Except.bind]
  | ok pair =>
    obtain ⟨node, next⟩ := pair
    simp [bind, Except.bind]

theorem parse_iff_leading (source : List Char) (root : Node) :
    parse source = .ok root ↔ Token.Leading (Token.scan source) root := by
  rw [parse_eq_ok_iff]
  constructor
  · rintro ⟨next, returned⟩
    exact form_leading false _ next root returned
  · exact form_of_leading false _ root

/-- A source has a tree exactly if its tokens begin with one, and then it is that tree. -/
theorem parse_iff_bracket_structure (source : List Char) :
    ((∃ root, parse source = .ok root) ↔ Token.Readable (Token.scan source)) ∧
      ∀ root, parse source = .ok root ↔ Token.Leading (Token.scan source) root := by
  refine ⟨?_, parse_iff_leading source⟩
  rw [Token.readable_iff]
  exact exists_congr (parse_iff_leading source)

end HostLisp
