import HostLisp.Proofs.ParsedForm

/-!
# Places in a source

The marks of the form of a source say where its parts stand, and a source without a tree is read to
its end.

## Main results

`parse_inPlace`: each part of the form of a source stands where its mark says.

`parse_error`: reading fails at the end of the source only.

## Proof strategy

Tokens are found in the order of their offsets, so the tokens of a group come after the parenthesis
that opens it.
-/

namespace HostLisp

open Reader (Cursor)

/-! ### The order of tokens -/

namespace Token

/-- Where a token stands; a literal stands behind its quote. -/
def offset : Token → Int
  | .opening offset | .closing offset _ | .unfinished offset => offset
  | .symbol span | .string span => span.start

/-- The least offset that a token can have which is completed in a phase or later. -/
def Phase.start (offset : Nat) : Phase → Nat
  | .gap _ => offset
  | .symbol start | .string start _ => start

@[simp] theorem Phase.start_gap (offset : Nat) (broken : Bool) :
    (Phase.gap broken).start offset = offset := rfl

@[simp] theorem Phase.start_symbol (offset start : Nat) :
    (Phase.symbol start).start offset = start := rfl

@[simp] theorem Phase.start_string (offset start : Nat) (escaped : Bool) :
    (Phase.string start escaped).start offset = start := rfl

def Phase.Began (offset : Nat) : Phase → Prop
  | .gap _ => True
  | .symbol start => start < offset
  | .string start _ => start ≤ offset

/-- What a character does keeps tokens in order: those that it completes come after what was before
and before what is still to come. -/
private structure StepOrdered (phase : Phase) (offset : Nat) (found : List Token) (next : Phase) :
    Prop where
  ordered : found.Pairwise fun first second => first.offset < second.offset
  above : ∀ token ∈ found, (phase.start offset : Int) ≤ token.offset
  below : ∀ token ∈ found, token.offset < next.start (offset + 1)
  forward : phase.start offset ≤ next.start (offset + 1)
  began : next.Began (offset + 1)

/-- A character that is read between tokens makes tokens at its own place, or begins one there. -/
private theorem enter_ordered (broken broken' : Bool) (offset : Nat) (c : Char) :
    StepOrdered (.gap broken') offset (enter broken offset c).1.toList (enter broken offset c).2 := by
  have below : (offset : Int) < (offset + 1 : Nat) := Int.ofNat_lt.mpr (Nat.lt_succ_self offset)
  -- There are five kinds of characters: brackets either way, quotes, blanks, and those that begin a
  -- symbol.
  unfold enter
  split_ifs
  · exact ⟨by simp, by simp [Token.offset], List.forall_mem_singleton.mpr below,
      Nat.le_succ offset, trivial⟩
  · exact ⟨by simp, by simp [Token.offset], List.forall_mem_singleton.mpr below,
      Nat.le_succ offset, trivial⟩
  · exact ⟨by simp, by simp, by simp, Nat.le_succ offset, Nat.le_refl _⟩
  · exact ⟨by simp, by simp, by simp, Nat.le_succ offset, trivial⟩
  · exact ⟨by simp, by simp, by simp, Nat.le_refl offset, Nat.lt_succ_self offset⟩

/-- One step of the scanner makes tokens in order. They stand between the place where the phase
began and the character that was read. -/
private theorem step_ordered (phase : Phase) (offset : Nat) (c : Char)
    (began : phase.Began offset) :
    StepOrdered phase offset (step phase offset c).1 (step phase offset c).2 := by
  cases phase with
  | gap broken => simpa [step] using enter_ordered broken broken offset c
  | symbol start =>
    simp only [Phase.Began] at began
    simp only [step]
    split
    · -- The symbol began before the character that ends it.
      have entered := enter_ordered false false offset c
      have forward := entered.forward
      simp only [Phase.start_gap] at forward
      refine ⟨List.pairwise_cons.mpr ⟨?_, entered.ordered⟩, ?_, ?_, ?_, entered.began⟩
      · intro token member
        have above := entered.above token (by simpa using member)
        simp only [Phase.start_gap, Token.offset] at above ⊢
        omega
      · intro token member
        rcases List.mem_cons.mp member with rfl | found
        · exact Int.le_refl _
        · have above := entered.above token (by simpa using found)
          simp only [Phase.start_gap, Phase.start_symbol] at above ⊢
          omega
      · intro token member
        rcases List.mem_cons.mp member with rfl | found
        · simp only [Token.offset]
          omega
        · exact entered.below token (by simpa using found)
      · simp only [Phase.start_symbol]
        omega
    · exact ⟨by simp, by simp, by simp, Nat.le_refl start, Nat.lt_succ_of_lt began⟩
  | string start escaped =>
    simp only [Phase.Began] at began
    -- After a backslash the literal goes on whatever comes next.
    cases escaped with
    | true => exact ⟨by simp [step], by simp [step], by simp [step], Nat.le_refl start,
        Nat.le_succ_of_le began⟩
    | false =>
      simp only [step]
      split_ifs
      · exact ⟨by simp, by simp, by simp, Nat.le_refl start, Nat.le_succ_of_le began⟩
      · refine ⟨by simp, by simp [Token.offset], ?_, ?_, trivial⟩
        · simp only [List.mem_singleton, forall_eq, Token.offset, Phase.start_gap]
          omega
        · simp only [Phase.start_string, Phase.start_gap]
          omega
      · exact ⟨by simp, by simp, by simp, Nat.le_refl start, Nat.le_succ_of_le began⟩

/-- At the end of the source a symbol may be left to be ended, which began before. -/
private theorem finish_above (phase : Phase) (offset : Nat) :
    (finish phase offset).Pairwise (fun first second => first.offset < second.offset) ∧
      ∀ token ∈ finish phase offset, (phase.start offset : Int) ≤ token.offset := by
  cases phase <;> simp [finish, Token.offset]

/-- From any phase on tokens are made in order, and none of them before the place where the phase
began. -/
private theorem scanFrom_ordered (phase : Phase) (offset : Nat) (chars : List Char)
    (began : phase.Began offset) :
    (scanFrom phase offset chars).Pairwise (fun first second => first.offset < second.offset) ∧
      ∀ token ∈ scanFrom phase offset chars, (phase.start offset : Int) ≤ token.offset := by
  induction chars generalizing phase offset with
  | nil => exact finish_above phase offset
  | cons c rest ih =>
    have step := step_ordered phase offset c began
    obtain ⟨ordered, above⟩ := ih _ _ step.began
    have forward := step.forward
    rw [scanFrom_cons]
    refine ⟨List.pairwise_append.mpr ⟨step.ordered, ordered, ?_⟩, ?_⟩
    -- A token of this step stands before the next character, and those to come at it or after it.
    · intro token here later there
      exact Int.lt_of_lt_of_le (step.below token here) (above later there)
    · intro token member
      rcases List.mem_append.mp member with here | later
      · exact step.above token here
      · have after := above token later
        omega

theorem scan_ordered (source : List Char) :
    (scan source).Pairwise fun first second => first.offset < second.offset :=
  (scanFrom_ordered (.gap false) 0 source trivial).1

end Token

/-! ### Forms in their places -/

namespace Form

/-- Where a form stands. -/
def mark {α : Type} : Form α → α
  | .symbol mark _ | .string mark _ | .list mark _ => mark

/-- A form stands in a source where its marks say. A symbol without characters stands before a
closing parenthesis, a literal behind its quote and a list before its items. -/
inductive InPlace (source : List Char) : Form Int → Prop
  | symbol (before text after : List Char) (split : source = before ++ (text ++ after))
      (filled : text ≠ []) : InPlace source (.symbol before.length text)
  | empty (before after : List Char) (split : source = before ++ ')' :: after) :
      InPlace source (.symbol before.length [])
  | string (before body after : List Char) (split : source = before ++ '"' :: (body ++ '"' :: after)) :
      InPlace source (.string (before.length + 1) body)
  | list (before after : List Char) (items : List (Form Int)) (split : source = before ++ '(' :: after)
      (later : ∀ item ∈ items, before.length < item.mark) (each : ∀ item ∈ items, InPlace source item) :
      InPlace source (.list before.length items)

end Form

/-- A symbol whose token lies in the source stands where the token does. -/
private theorem symbol_inPlace {source : List Char} {span : Span}
    (within : (Token.symbol span).Within source) : ∃ form,
      Node.form? source (.symbol span) = some form ∧ form.InPlace source ∧
      form.mark = (Token.symbol span).offset := by
  obtain ⟨before, text, after, rfl, rfl, filled, -⟩ := within
  exact ⟨_, Node.form?_symbol_middle before text after filled, .symbol before text after rfl filled,
    rfl⟩

/-- A literal whose token lies in the source stands behind its quote. -/
private theorem string_inPlace {source : List Char} {span : Span}
    (within : (Token.string span).Within source) : ∃ form,
      Node.form? source (.string span) = some form ∧ form.InPlace source ∧
      form.mark = (Token.string span).offset := by
  obtain ⟨before, body, after, rfl, rfl, -⟩ := within
  exact ⟨_, Node.form?_string_middle before body after, .string before body after rfl, rfl⟩

/-- A closing parenthesis leaves a symbol of no characters before it, or nothing. -/
private theorem ending_inPlace {source : List Char} {stop : Nat} {broken : Bool}
    (within : (Token.closing stop broken).Within source) : ∃ forms,
      Node.forms? source (Token.ending stop broken) = some forms ∧
      ∀ form ∈ forms, form.InPlace source ∧ form.mark = stop := by
  cases broken with
  | false => exact ⟨[], rfl, by simp⟩
  | true =>
    obtain ⟨before, after, split, rfl⟩ := within
    refine ⟨[.symbol before.length []], rfl, ?_⟩
    simpa [Form.mark] using Form.InPlace.empty before after split

/-- Nodes have forms that stand in their places, each where a token does. -/
private def StandAt (source : List Char) (tokens : List Token) (nodes : List Node) : Prop :=
  ∃ forms, Node.forms? source nodes = some forms ∧
    ∀ form ∈ forms, form.InPlace source ∧ ∃ token ∈ tokens, form.mark = token.offset

/-- A node that stands in its place comes before a row that does. -/
private theorem StandAt.cons {source : List Char} {tokens tokens' : List Token} {token : Token}
    {node : Node} {rest : List Node} (others : StandAt source tokens rest)
    (first : ∃ form, node.form? source = some form ∧ form.InPlace source ∧ form.mark = token.offset)
    (member : token ∈ tokens') (more : ∀ token ∈ tokens, token ∈ tokens') :
    StandAt source tokens' (node :: rest) := by
  obtain ⟨form, formed, placed, mark⟩ := first
  obtain ⟨forms, formed', each⟩ := others
  refine ⟨form :: forms, Node.forms?_cons_eq_some.mpr ⟨form, forms, formed, formed', rfl⟩, ?_⟩
  refine List.forall_mem_cons.mpr ⟨⟨placed, token, member, mark⟩, fun other inside => ?_⟩
  obtain ⟨placed', token', among, mark'⟩ := each other inside
  exact ⟨placed', token', more token' among, mark'⟩

/-- A list stands at its opening parenthesis if its items stand in their places behind it. -/
private theorem group_inPlace {source : List Char} {inner : List Token} {children : List Node}
    {start stop : Nat} {broken : Bool} (inside : StandAt source inner children)
    (opens : (Token.opening start).Within source) (closes : (Token.closing stop broken).Within source)
    (first : ∀ token ∈ inner, start < token.offset) (last : (start : Int) < stop) : ∃ form,
      Node.form? source (.list (some start) (children ++ Token.ending stop broken)) = some form ∧
      form.InPlace source ∧ form.mark = (Token.opening start).offset := by
  obtain ⟨items, formed, placed⟩ := inside
  obtain ⟨gap, ended, placedGap⟩ := ending_inPlace closes
  obtain ⟨before, after, split, rfl⟩ := opens
  refine ⟨.list before.length (items ++ gap), ?_, .list before after _ split ?_ ?_, rfl⟩
  · simp [Node.form?, Node.forms?_append formed ended]
  · -- The parenthesis comes before each token of its group.
    intro item member
    rcases List.mem_append.mp member with within | atEnd
    · obtain ⟨-, token, among, mark⟩ := placed item within
      rw [mark]
      exact first token among
    · rw [(placedGap item atEnd).2]
      exact last
  · intro item member
    rcases List.mem_append.mp member with within | atEnd
    · exact (placed item within).1
    · exact (placedGap item atEnd).1

/-- A row of nodes made of tokens in order and in their places stands where these do. -/
private theorem Structure.standAt {tokens : List Token} {nodes : List Node}
    (made : Structure tokens nodes) (source : List Char)
    (within : ∀ token ∈ tokens, token.Within source)
    (ordered : tokens.Pairwise fun first second => first.offset < second.offset) :
    StandAt source tokens nodes := by
  induction made with
  | nil => exact ⟨[], rfl, by simp⟩
  | symbol span _ ih =>
    have others := ih (fun token member => within token (.tail _ member))
      (List.pairwise_cons.mp ordered).2
    exact others.cons (symbol_inPlace (within _ List.mem_cons_self)) List.mem_cons_self
      fun _ member => .tail _ member
  | string span _ ih =>
    have others := ih (fun token member => within token (.tail _ member))
      (List.pairwise_cons.mp ordered).2
    exact others.cons (string_inPlace (within _ List.mem_cons_self)) List.mem_cons_self
      fun _ member => .tail _ member
  | @group inner children tokens nodes start stop broken _ _ ihInside ihRest =>
    obtain ⟨first, ordered'⟩ := List.pairwise_cons.mp ordered
    obtain ⟨inOrder, restOrder, -⟩ := List.pairwise_append.mp ordered'
    have inside := ihInside (fun token member => within token (by simp [member])) inOrder
    have others := ihRest (fun token member => within token (by simp [member]))
      (List.pairwise_cons.mp restOrder).2
    have group := group_inPlace inside (within (.opening start) List.mem_cons_self)
      (within (.closing stop broken) (by simp)) (fun token member => first token (by simp [member]))
      (first (.closing stop broken) (by simp))
    have opens : Token.opening start ∈ .opening start :: (inner ++ .closing stop broken :: tokens) :=
      List.mem_cons_self
    exact others.cons group opens fun _ member => by simp [member]

/-- Each part of the form of a source stands where its mark says. -/
theorem parse_inPlace {source : List Char} {root : Node} {form : Form Int}
    (parsed : parse source = .ok root) (formed : root.form? source = some form) :
    form.InPlace source := by
  have within := Token.scan_within source
  have ordered := Token.scan_ordered source
  have leading := (parse_iff_leading source root).mp parsed
  -- The tree is told by the tokens alone from here on, so the source is no longer scanned.
  generalize Token.scan source = tokens at within ordered leading
  cases leading with
  | symbol span rest =>
    obtain ⟨_, formed', placed, -⟩ := symbol_inPlace (within _ List.mem_cons_self)
    exact Option.some.inj (formed'.symm.trans formed) ▸ placed
  | string span rest =>
    obtain ⟨_, formed', placed, -⟩ := string_inPlace (within _ List.mem_cons_self)
    exact Option.some.inj (formed'.symm.trans formed) ▸ placed
  | closing offset broken rest =>
    obtain ⟨before, after, split, rfl⟩ := within _ List.mem_cons_self
    cases formed
    exact .empty before after split
  | @group inner _ start stop broken inside rest =>
    -- The group is a row of its own, whose tokens are the first of the source.
    have row : Structure _ [_] := .group start stop broken inside .nil
    have front : (Token.opening start :: (inner ++ [.closing stop broken])).Sublist
        (.opening start :: (inner ++ .closing stop broken :: rest)) := by simp
    obtain ⟨forms, formed', placed⟩ := row.standAt source
      (fun token member => within token (front.subset member)) (ordered.sublist front)
    obtain ⟨_, others, here, -, rfl⟩ := Node.forms?_cons_eq_some.mp formed'
    have same := Option.some.inj (here.symm.trans formed)
    exact same ▸ (placed _ List.mem_cons_self).1

/-! ### Where reading fails -/

namespace Reader

def Cursor.stop (cursor : Cursor) : Nat := cursor.offset + cursor.rest.length

/-- A reader fails at the end of the source, or leaves a place in the same source. -/
private def StaysWithin {α : Type} (cursor : Cursor) : Except Nat (α × Cursor) → Prop
  | .ok (_, next) => next.stop = cursor.stop
  | .error offset => offset = cursor.stop

/-- What holds of a reader at one place holds at an earlier place of the same source. -/
private theorem StaysWithin.from_earlier {α : Type} {earlier cursor : Cursor}
    {result : Except Nat (α × Cursor)} (stays : StaysWithin cursor result)
    (same : cursor.stop = earlier.stop) : StaysWithin earlier result := by
  cases result with
  | error offset => exact Eq.trans stays same
  | ok pair => exact Eq.trans stays same

/-- Skipping characters leads to no other source. -/
theorem Cursor.stop_skip (kind : Char → Bool) (cursor : Cursor) :
    (cursor.skip kind).stop = cursor.stop := by
  have lengths := congrArg List.length (List.takeWhile_append_dropWhile (p := kind) (l := cursor.rest))
  rw [List.length_append] at lengths
  simp only [stop, skip]
  omega

/-- A literal is read to its quote, or to the end of the source. -/
private theorem stringEnd_stop (offset : Nat) (chars : List Char) :
    match stringEnd offset chars with
    | .ok next => next.stop = offset + chars.length
    | .error stop => stop = offset + chars.length := by
  induction offset, chars using stringEnd.induct with
  | case1 offset => rfl
  | case2 offset => rfl
  | case3 offset c rest ih =>
    rw [stringEnd]
    have length : offset + 2 + rest.length = offset + ('\\' :: c :: rest).length := by
      simp only [List.length_cons]
      omega
    rwa [length] at ih
  | case4 offset rest =>
    simp only [stringEnd, Cursor.stop, List.length_cons]
    omega
  | case5 offset c rest plain notLast notQuote ih =>
    have length : offset + 1 + rest.length = offset + (c :: rest).length := by
      simp only [List.length_cons]
      omega
    rw [stringEnd]
    · rwa [length] at ih
    all_goals assumption

private theorem string_stays (cursor : Cursor) : StaysWithin cursor (string cursor) := by
  have ended := stringEnd_stop cursor.offset cursor.rest
  rw [string]
  cases result : stringEnd cursor.offset cursor.rest with
  | error offset =>
    rw [result] at ended
    exact ended
  | ok next =>
    rw [result] at ended
    exact ended

/-- A symbol never fails, and it takes characters from the front. -/
private theorem symbol_stop (cursor : Cursor) : (symbol cursor).2.stop = cursor.stop := by
  have passed := Cursor.stop_skip (!endsSymbol ·) cursor
  rcases symbol_after cursor with same | ⟨rest, spaced, same⟩
  · rw [same, passed]
  · rw [same, ← passed, Cursor.stop, Cursor.stop, spaced]
    simp only [List.length_cons]
    omega

/-- Passing one character leads to no other source. -/
private theorem Cursor.stop_next {kind : Char → Bool} {cursor : Cursor} {c : Char}
    {rest : List Char} (reached : (cursor.skip kind).rest = c :: rest) :
    (⟨(cursor.skip kind).offset + 1, rest⟩ : Cursor).stop = cursor.stop := by
  rw [← Cursor.stop_skip kind cursor, Cursor.stop, Cursor.stop, reached]
  simp only [List.length_cons]
  omega

private theorem Cursor.stop_ended {kind : Char → Bool} {cursor : Cursor}
    (ended : (cursor.skip kind).rest = []) : (cursor.skip kind).offset = cursor.stop := by
  rw [← Cursor.stop_skip kind cursor, Cursor.stop, ended]
  rfl

/-- A form is read within its source if the lists inside of it are. These are shorter than the form,
so this is the step of an induction on what is left to read. -/
private theorem form_stays_of (cursor : Cursor)
    (inside : ∀ inner : Cursor, inner.rest.length < cursor.rest.length →
      StaysWithin inner (list inner)) : StaysWithin cursor (form cursor) := by
  have skipped := Cursor.length_skip_le isSpace cursor
  cases chars : (cursor.skip isSpace).rest with
  | nil =>
    rw [form_ended cursor chars]
    exact Cursor.stop_ended chars
  | cons c rest =>
    -- What the form begins with decides how the rest is read.
    have next := Cursor.stop_next chars
    rw [chars, List.length_cons] at skipped
    by_cases quote : c = '"'
    · subst quote
      rw [form_string cursor rest chars]
      exact (string_stays _).from_earlier next
    by_cases opening : c = '('
    · subst opening
      have stays := inside ⟨(cursor.skip isSpace).offset + 1, rest⟩ (by simp only; omega)
      rw [form_list cursor rest chars]
      cases result : list ⟨(cursor.skip isSpace).offset + 1, rest⟩ with
      | error offset =>
        rw [result] at stays
        exact Eq.trans stays next
      | ok pair =>
        rw [result] at stays
        exact Eq.trans stays next
    · rw [form_symbol cursor c rest chars quote opening]
      exact (symbol_stop _).trans (Cursor.stop_skip isSpace cursor)

/-- A list is read within its source. -/
private theorem list_stays (cursor : Cursor) : StaysWithin cursor (list cursor) := by
  -- The induction is on how much is left to read, which the items of a list and its rest both make
  -- less.
  induction size : cursor.rest.length using Nat.strong_induction_on generalizing cursor with
  | h size ih =>
    have skipped := Cursor.length_skip_le isGap cursor
    cases chars : (cursor.skip isGap).rest with
    | nil =>
      rw [list_ended cursor chars]
      exact Cursor.stop_ended chars
    | cons c rest =>
      by_cases closing : c = ')'
      · subst closing
        rw [list_closed cursor rest chars]
        exact Cursor.stop_next chars
      have inner := form_stays_of (cursor.skip isGap) fun inner shorter =>
        ih inner.rest.length (by omega) inner rfl
      rw [list_item cursor c rest chars closing]
      cases first : form (cursor.skip isGap) with
      | error offset =>
        rw [first] at inner
        exact Eq.trans inner (Cursor.stop_skip isGap cursor)
      | ok pair =>
        obtain ⟨node, middle⟩ := pair
        rw [first] at inner
        have kept : middle.stop = cursor.stop := Eq.trans inner (Cursor.stop_skip isGap cursor)
        -- The item is no closing parenthesis, so it leaves less for the rest of the list.
        have shorter := (form_length _ _ _ first).2
          (fun rest' closed => closing (List.cons.inj (chars.symm.trans closed)).1)
        have others := (ih middle.rest.length (by omega) middle rfl).from_earlier kept
        simp only [bind, Except.bind]
        cases result : list middle with
        | error offset =>
          rw [result] at others
          exact others
        | ok pair =>
          rw [result] at others
          exact others

end Reader

/-- Reading a source fails at its end only. -/
theorem parse_error {source : List Char} {fault : Fault} (failed : parse source = .error fault) :
    fault = .inputEnded source.length := by
  have stays := Reader.form_stays_of (.start source) fun inner _ => Reader.list_stays inner
  rw [parse, read] at failed
  cases result : Reader.form (.start source) with
  | error offset =>
    rw [result] at failed stays
    cases failed
    have atEnd : offset = 0 + source.length := stays
    rw [atEnd, Nat.zero_add]
  | ok pair =>
    rw [result] at failed
    cases failed

end HostLisp
