import HostLisp.Syntax.Reader
import Mathlib.Data.List.TakeWhile

/-!
# Reading without a bound

Reading a list never runs out of steps, so a list and a form can be described by each other alone.

## Main results

`Reader.form_list`, `Reader.list_item`: the two readers in terms of one another, with no bound left.

`Reader.form_length`, `Reader.list_length`: what is left after a form or a list is shorter, but for
a closing parenthesis in the place of a form.
-/

namespace HostLisp.Reader

/-! ### Skipping -/

namespace Cursor

theorem skip_of_kind (kind : Char → Bool) (offset : Nat) (c : Char) (rest : List Char)
    (skipped : kind c = true) : skip kind ⟨offset, c :: rest⟩ = skip kind ⟨offset + 1, rest⟩ := by
  simp only [skip, List.takeWhile_cons_of_pos skipped, List.dropWhile_cons_of_pos skipped,
    List.length_cons, Cursor.mk.injEq, and_true]
  omega

theorem skip_of_not_kind (kind : Char → Bool) (offset : Nat) (c : Char) (rest : List Char)
    (kept : kind c = false) : skip kind ⟨offset, c :: rest⟩ = ⟨offset, c :: rest⟩ := by
  simp [skip, kept]

/-- A cursor at which skipping stops is one that skipping leaves in place. -/
theorem skip_eq_self (kind : Char → Bool) (cursor : Cursor)
    (kept : ∀ c rest, cursor.rest = c :: rest → kind c = false) : cursor.skip kind = cursor := by
  obtain ⟨offset, rest⟩ := cursor
  cases rest with
  | nil => rfl
  | cons c rest => exact skip_of_not_kind kind offset c rest (kept c rest rfl)

/-- The character at which skipping stops is of another kind. -/
theorem head_skip (kind : Char → Bool) (cursor : Cursor) (c : Char) (rest : List Char)
    (stopped : (cursor.skip kind).rest = c :: rest) : kind c = false := by
  have head := List.head?_dropWhile_not kind cursor.rest
  simp only [skip] at stopped
  simpa [stopped] using head

/-- Skipping passes a stretch of the kind that something else ends. -/
theorem skip_append (kind : Char → Bool) (offset : Nat) (passed rest : List Char)
    (skipped : ∀ c ∈ passed, kind c = true) (kept : ∀ c ∈ rest.head?, kind c = false) :
    skip kind ⟨offset, passed ++ rest⟩ = ⟨offset + passed.length, rest⟩ := by
  induction passed generalizing offset with
  | nil => exact skip_eq_self kind _ (fun c _ first => kept c (by simp at first; simp [first]))
  | cons c passed ih =>
    rw [List.cons_append, skip_of_kind _ _ _ _ (skipped c List.mem_cons_self),
      ih _ (fun d member => skipped d (List.mem_cons_of_mem _ member)), List.length_cons]
    congr 1
    omega

theorem length_skip_le (kind : Char → Bool) (cursor : Cursor) :
    (cursor.skip kind).rest.length ≤ cursor.rest.length :=
  List.length_dropWhile_le _ _

end Cursor

/-! ### What each reader leaves -/

theorem stringEnd_length (offset : Nat) (chars : List Char) (next : Cursor)
    (returned : stringEnd offset chars = .ok next) : next.rest.length < chars.length := by
  -- The cases are those of the reader: two ends of the source, a character that a backslash
  -- protects, the closing quote, and any other character.
  induction offset, chars using stringEnd.induct with
  | case1 offset => simp [stringEnd] at returned
  | case2 offset => simp [stringEnd] at returned
  | case3 offset c rest ih =>
    have shorter := ih (by simpa [stringEnd] using returned)
    simp only [List.length_cons]
    omega
  | case4 offset rest =>
    simp only [stringEnd, Except.ok.injEq] at returned
    subst returned
    simp
  | case5 offset c rest plain notLast notQuote ih =>
    have shorter := ih (by rwa [stringEnd] at returned <;> assumption)
    simp only [List.length_cons]
    omega

theorem string_length (cursor next : Cursor) (node : Node)
    (returned : string cursor = .ok (node, next)) : next.rest.length < cursor.rest.length := by
  unfold string at returned
  cases ended : stringEnd cursor.offset cursor.rest with
  | error offset => simp [ended, bind, Except.bind] at returned
  | ok after =>
    simp only [ended, bind, Except.bind, Except.ok.injEq, Prod.mk.injEq] at returned
    obtain ⟨-, rfl⟩ := returned
    exact stringEnd_length _ _ _ ended

/-- The cursor after a symbol: the end of its characters, or one past a space that follows. -/
theorem symbol_after (cursor : Cursor) :
    (symbol cursor).2 = cursor.skip (!endsSymbol ·) ∨
      ∃ rest, (cursor.skip (!endsSymbol ·)).rest = ' ' :: rest ∧
        (symbol cursor).2 = ⟨(cursor.skip (!endsSymbol ·)).offset + 1, rest⟩ := by
  simp only [symbol]
  split
  next rest spaced => exact Or.inr ⟨rest, spaced, rfl⟩
  next => exact Or.inl rfl

theorem symbol_node (cursor : Cursor) :
    (symbol cursor).1 =
      .symbol ⟨cursor.offset, (cursor.skip (!endsSymbol ·)).offset - cursor.offset⟩ := by
  simp only [symbol]
  split <;> rfl

theorem symbol_length_le (cursor : Cursor) :
    (symbol cursor).2.rest.length ≤ (cursor.skip (!endsSymbol ·)).rest.length := by
  rcases symbol_after cursor with same | ⟨rest, spaced, same⟩
  · rw [same]
  · rw [same, spaced]
    simp

theorem symbol_length (offset : Nat) (c : Char) (rest : List Char) (inside : endsSymbol c = false) :
    (symbol ⟨offset, c :: rest⟩).2.rest.length < (c :: rest).length := by
  have below := symbol_length_le ⟨offset, c :: rest⟩
  rw [Cursor.skip_of_kind _ _ _ _ (by simp [inside])] at below
  have shorter := Cursor.length_skip_le (!endsSymbol ·) ⟨offset + 1, rest⟩
  simp only [List.length_cons] at *
  omega

/-- What is left after a form is no longer than before, and shorter unless a closing parenthesis
stands there. -/
theorem formWith_length (read : Cursor → Except Nat (List Node × Cursor))
    (shrinks : ∀ cursor nodes next, read cursor = .ok (nodes, next) →
      next.rest.length < cursor.rest.length)
    (cursor next : Cursor) (node : Node) (returned : formWith read cursor = .ok (node, next)) :
    next.rest.length ≤ cursor.rest.length ∧
      ((∀ rest, cursor.rest ≠ ')' :: rest) → next.rest.length < cursor.rest.length) := by
  have skipped := Cursor.length_skip_le isSpace cursor
  simp only [formWith] at returned
  split at returned
  · cases returned
  -- A string literal and a list take at least the character that they begin with.
  next rest quoted =>
    have shorter : next.rest.length < rest.length := string_length _ _ _ returned
    simp only [quoted, List.length_cons] at skipped
    exact ⟨by omega, fun _ => by omega⟩
  next rest opened =>
    simp only [bind, Except.bind] at returned
    split at returned
    · cases returned
    next pair inner =>
      simp only [Except.ok.injEq, Prod.mk.injEq] at returned
      obtain ⟨-, rfl⟩ := returned
      have shorter : pair.2.rest.length < rest.length := shrinks _ _ _ inner
      simp only [opened, List.length_cons] at skipped
      exact ⟨by omega, fun _ => by omega⟩
  next noEnd noQuote noOpening =>
    simp only [Except.ok.injEq] at returned
    have below := symbol_length_le (cursor.skip isSpace)
    have passed := Cursor.length_skip_le (!endsSymbol ·) (cursor.skip isSpace)
    simp only [returned] at below
    refine ⟨by omega, fun notClosing => ?_⟩
    -- A symbol takes nothing only at a closing parenthesis, and then blanks were skipped before it.
    obtain ⟨offset, chars⟩ := cursor
    cases chars with
    | nil => exact absurd rfl noEnd
    | cons c rest =>
      cases space : isSpace c with
      | true =>
        rw [Cursor.skip_of_kind _ _ _ _ space] at below passed
        have left := Cursor.length_skip_le isSpace ⟨offset + 1, rest⟩
        simp only [List.length_cons] at *
        omega
      | false =>
        rw [Cursor.skip_of_not_kind _ _ _ _ space] at returned noOpening
        have notEnd : endsSymbol c = false := by
          have notOpening : c ≠ '(' := fun same => noOpening rest (by rw [same])
          have notClose : c ≠ ')' := fun same => notClosing rest (by rw [same])
          simp [endsSymbol, space, notOpening, notClose]
        have shorter := symbol_length offset c rest notEnd
        rw [returned] at shorter
        exact shorter

theorem items_length (bound : Nat) (cursor : Cursor) (nodes : List Node) (next : Cursor)
    (returned : items bound cursor = .ok (nodes, next)) :
    next.rest.length < cursor.rest.length := by
  induction bound generalizing cursor nodes next with
  | zero => cases returned
  | succ bound ih =>
    have skipped := Cursor.length_skip_le isGap cursor
    simp only [items] at returned
    split at returned
    · cases returned
    next rest closed =>
      simp only [Except.ok.injEq, Prod.mk.injEq] at returned
      obtain ⟨-, rfl⟩ := returned
      simp only [closed, List.length_cons] at skipped
      exact skipped
    next noEnd noClosing =>
      cases first : formWith (items bound) (cursor.skip isGap) with
      | error offset => simp [first, bind, Except.bind] at returned
      | ok pair =>
        obtain ⟨node, middle⟩ := pair
        cases others : items bound middle with
        | error offset => simp [first, others, bind, Except.bind] at returned
        | ok more =>
          obtain ⟨nodes', last⟩ := more
          simp only [first, others, bind, Except.bind, Except.ok.injEq, Prod.mk.injEq] at returned
          obtain ⟨-, rfl⟩ := returned
          -- The item may take nothing, but what follows it still closes the list.
          have later := ih _ _ _ others
          have earlier := (formWith_length _ ih _ _ _ first).1
          omega

/-! ### The bound is never reached -/

/-- A form looks at how items are read only where less is left. -/
theorem formWith_congr (read read' : Cursor → Except Nat (List Node × Cursor)) (cursor : Cursor)
    (same : ∀ inner : Cursor, inner.rest.length < cursor.rest.length → read inner = read' inner) :
    formWith read cursor = formWith read' cursor := by
  have skipped := Cursor.length_skip_le isSpace cursor
  simp only [formWith]
  split
  · rfl
  · rfl
  next rest opened =>
    simp only [opened, List.length_cons] at skipped
    rw [same ⟨_, rest⟩ (by simp only; omega)]
  · rfl

/-- More steps than characters that are left are as good as any other number of them. -/
theorem items_bound (bound bound' : Nat) (cursor : Cursor) (enough : cursor.rest.length < bound)
    (enough' : cursor.rest.length < bound') : items bound cursor = items bound' cursor := by
  induction bound generalizing bound' cursor with
  | zero => omega
  | succ bound ih =>
    cases bound' with
    | zero => omega
    | succ bound' =>
      have skipped := Cursor.length_skip_le isGap cursor
      simp only [items]
      split
      · rfl
      · rfl
      next noEnd noClosing =>
        have firsts : formWith (items bound) (cursor.skip isGap) =
            formWith (items bound') (cursor.skip isGap) :=
          formWith_congr _ _ _ (fun inner shorter => ih bound' inner (by omega) (by omega))
        rw [firsts]
        cases first : formWith (items bound') (cursor.skip isGap) with
        | error offset => rfl
        | ok pair =>
          obtain ⟨node, middle⟩ := pair
          -- No closing parenthesis stands here, so the item pays for the step.
          have shorter := (formWith_length _ (items_length bound') _ _ _ first).2
            (fun rest closed => noClosing rest closed)
          have others := ih bound' middle (by omega) (by omega)
          simp only [bind, Except.bind, others]

/-- Reads the items of a list and its closing parenthesis. -/
def list (cursor : Cursor) : Except Nat (List Node × Cursor) :=
  items (cursor.rest.length + 1) cursor

theorem form_eq (cursor : Cursor) : form cursor = formWith list cursor := by
  apply formWith_congr
  intro inner shorter
  exact items_bound _ _ inner (by omega) (by omega)

theorem form_ended (cursor : Cursor) (ended : (cursor.skip isSpace).rest = []) :
    form cursor = .error (cursor.skip isSpace).offset := by
  simp [form, formWith, ended]

theorem form_string (cursor : Cursor) (rest : List Char)
    (quoted : (cursor.skip isSpace).rest = '"' :: rest) :
    form cursor = string ⟨(cursor.skip isSpace).offset + 1, rest⟩ := by
  simp [form, formWith, quoted]

theorem form_list (cursor : Cursor) (rest : List Char)
    (opened : (cursor.skip isSpace).rest = '(' :: rest) :
    form cursor = (do
      let (children, next) ← list ⟨(cursor.skip isSpace).offset + 1, rest⟩
      .ok (.list (some (cursor.skip isSpace).offset) children, next)) := by
  rw [form_eq]
  simp [formWith, opened]

theorem form_symbol (cursor : Cursor) (c : Char) (rest : List Char)
    (stopped : (cursor.skip isSpace).rest = c :: rest) (notQuote : c ≠ '"') (notOpening : c ≠ '(') :
    form cursor = .ok (symbol (cursor.skip isSpace)) := by
  simp [form, formWith, stopped, notQuote, notOpening]

theorem list_ended (cursor : Cursor) (ended : (cursor.skip isGap).rest = []) :
    list cursor = .error (cursor.skip isGap).offset := by
  simp [list, items, ended]

theorem list_closed (cursor : Cursor) (rest : List Char)
    (closed : (cursor.skip isGap).rest = ')' :: rest) :
    list cursor = .ok ([], ⟨(cursor.skip isGap).offset + 1, rest⟩) := by
  simp [list, items, closed]

theorem list_item (cursor : Cursor) (c : Char) (rest : List Char)
    (stopped : (cursor.skip isGap).rest = c :: rest) (notClosing : c ≠ ')') :
    list cursor = (do
      let (node, next) ← form (cursor.skip isGap)
      let (nodes, last) ← list next
      .ok (node :: nodes, last)) := by
  have skipped := Cursor.length_skip_le isGap cursor
  -- One step of the bound is used up; what remains still exceeds what the item leaves.
  have firsts : formWith (items cursor.rest.length) (cursor.skip isGap) =
      form (cursor.skip isGap) :=
    formWith_congr _ _ _ (fun inner shorter => items_bound _ _ inner (by omega) (by omega))
  have opened : list cursor = (do
      let (node, next) ← formWith (items cursor.rest.length) (cursor.skip isGap)
      let (nodes, last) ← items cursor.rest.length next
      .ok (node :: nodes, last)) := by
    simp [list, items, stopped, notClosing]
  rw [opened, firsts]
  cases first : form (cursor.skip isGap) with
  | error offset => rfl
  | ok pair =>
    obtain ⟨node, middle⟩ := pair
    have shorter := (formWith_length _ (items_length _) _ _ _ first).2
      (fun rest closed => notClosing (List.cons.inj (stopped.symm.trans closed)).1)
    have others : items cursor.rest.length middle = list middle :=
      items_bound _ _ middle (by omega) (by omega)
    simp only [bind, Except.bind, others]

theorem list_length (cursor : Cursor) (nodes : List Node) (next : Cursor)
    (returned : list cursor = .ok (nodes, next)) : next.rest.length < cursor.rest.length :=
  items_length _ _ _ _ returned

theorem form_length (cursor next : Cursor) (node : Node)
    (returned : form cursor = .ok (node, next)) :
    next.rest.length ≤ cursor.rest.length ∧
      ((∀ rest, cursor.rest ≠ ')' :: rest) → next.rest.length < cursor.rest.length) :=
  formWith_length _ (items_length _) _ _ _ returned

end HostLisp.Reader
