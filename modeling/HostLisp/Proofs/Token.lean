import HostLisp.Proofs.Reading

/-!
# Tokens

The tokens of a source, found character by character with no regard to how parentheses nest, and
the structure that the parentheses among them give.

## Main results

`Structure.of_balanced`, `Structure.balanced`: tokens make up a row of nodes exactly if every
literal among them is closed and the parentheses balance.
-/

namespace HostLisp

open Reader (Cursor)

/-- A token of a source. -/
inductive Token
  | opening (offset : Nat)
  /-- A closing parenthesis, and whether a line break stands in the gap before it. -/
  | closing (offset : Nat) (broken : Bool)
  | symbol (span : Span)
  /-- A string literal; the span leaves out the quotes. -/
  | string (span : Span)
  /-- A string literal that the source ends inside of, and where it starts. -/
  | unfinished (start : Nat)
  deriving DecidableEq, Repr

namespace Token

/-! ### The scan -/

def isBreak (c : Char) : Bool := c = '\r' || c = '\n'

/-- Where a scan is: in a gap between tokens, with or without a line break so far, in a symbol, or
in a string literal, perhaps right after a backslash that protects what follows. -/
inductive Phase
  | gap (broken : Bool)
  | symbol (start : Nat)
  | string (start : Nat) (escaped : Bool)
  deriving DecidableEq, Repr

/-- What a character does in a gap: the token that it is, if it is one, and the phase after it. -/
def enter (broken : Bool) (offset : Nat) (c : Char) : Option Token × Phase :=
  if c = '(' then (some (.opening offset), .gap false)
  else if c = ')' then (some (.closing offset broken), .gap false)
  else if c = '"' then (none, .string (offset + 1) false)
  else if Reader.isSpace c then (none, .gap (broken || isBreak c))
  else (none, .symbol offset)

/-- What a character does in a phase: the tokens that it completes, and the phase after it. -/
def step (phase : Phase) (offset : Nat) (c : Char) : List Token × Phase :=
  match phase with
  | .gap broken =>
    let (found, next) := enter broken offset c
    (found.toList, next)
  | .symbol start =>
    if Reader.endsSymbol c then
      let (found, next) := enter false offset c
      (.symbol ⟨start, offset - start⟩ :: found.toList, next)
    else ([], .symbol start)
  | .string start true => ([], .string start false)
  | .string start false =>
    if c = '\\' then ([], .string start true)
    else if c = '"' then ([.string ⟨start, offset - start⟩], .gap false)
    else ([], .string start false)

/-- What the end of the source does in a phase. -/
def finish (phase : Phase) (offset : Nat) : List Token :=
  match phase with
  | .gap _ => []
  | .symbol start => [.symbol ⟨start, offset - start⟩]
  | .string start _ => [.unfinished start]

/-- The tokens of characters from an offset on, in a phase. -/
def scanFrom (phase : Phase) (offset : Nat) : List Char → List Token
  | [] => finish phase offset
  | c :: rest =>
    let (found, next) := step phase offset c
    found ++ scanFrom next (offset + 1) rest

/-- The tokens from a cursor on, in a gap with or without a line break so far. -/
def scanAt (broken : Bool) (cursor : Cursor) : List Token :=
  scanFrom (.gap broken) cursor.offset cursor.rest

/-- The tokens of a source. -/
def scan (source : List Char) : List Token := scanAt false (.start source)

theorem scanFrom_cons (phase : Phase) (offset : Nat) (c : Char) (rest : List Char) :
    scanFrom phase offset (c :: rest) =
      (step phase offset c).1 ++ scanFrom (step phase offset c).2 (offset + 1) rest := rfl

theorem scanAt_opening (broken : Bool) (offset : Nat) (rest : List Char) :
    scanAt broken ⟨offset, '(' :: rest⟩ = .opening offset :: scanAt false ⟨offset + 1, rest⟩ := rfl

theorem scanAt_closing (broken : Bool) (offset : Nat) (rest : List Char) :
    scanAt broken ⟨offset, ')' :: rest⟩ =
      .closing offset broken :: scanAt false ⟨offset + 1, rest⟩ := rfl

theorem ne_of_isSpace {c : Char} (space : Reader.isSpace c = true) :
    c ≠ '(' ∧ c ≠ ')' ∧ c ≠ '"' := by
  refine ⟨?_, ?_, ?_⟩ <;> rintro rfl <;> revert space <;> decide

theorem scanAt_space (broken : Bool) (offset : Nat) (c : Char) (rest : List Char)
    (space : Reader.isSpace c = true) :
    scanAt broken ⟨offset, c :: rest⟩ = scanAt (broken || isBreak c) ⟨offset + 1, rest⟩ := by
  obtain ⟨notOpening, notClosing, notQuote⟩ := ne_of_isSpace space
  simp [scanAt, scanFrom, step, enter, notOpening, notClosing, notQuote, space]

/-- Characters that are all blank only decide whether the gap holds a line break. -/
theorem scanAt_append_spaces (broken : Bool) (offset : Nat) (passed rest : List Char)
    (spaces : ∀ c ∈ passed, Reader.isSpace c = true) :
    scanAt broken ⟨offset, passed ++ rest⟩ =
      scanAt (broken || passed.any isBreak) ⟨offset + passed.length, rest⟩ := by
  induction passed generalizing broken offset with
  | nil => simp
  | cons c passed ih =>
    have space := spaces c List.mem_cons_self
    rw [List.cons_append, scanAt_space _ _ _ _ space,
      ih _ _ (fun d member => spaces d (List.mem_cons_of_mem _ member))]
    simp only [List.any_cons, List.length_cons, Bool.or_assoc]
    congr 2
    omega

/-- Whether a line break stands in the gap at a cursor. -/
def breaks (cursor : Cursor) : Bool := (cursor.rest.takeWhile Reader.isSpace).any isBreak

theorem scanAt_skip_space (broken : Bool) (cursor : Cursor) :
    scanAt broken cursor = scanAt (broken || breaks cursor) (cursor.skip Reader.isSpace) := by
  have merged := scanAt_append_spaces broken cursor.offset (cursor.rest.takeWhile Reader.isSpace)
    (cursor.rest.dropWhile Reader.isSpace) (fun _ member => List.mem_takeWhile_imp member)
  rw [List.takeWhile_append_dropWhile] at merged
  exact merged

/-- A gap without line breaks leaves no trace. -/
theorem scanAt_skip_gap (broken : Bool) (cursor : Cursor) :
    scanAt broken cursor = scanAt broken (cursor.skip Reader.isGap) := by
  -- What is skipped is the longest front of spaces and tabs.
  have gap : ∀ c ∈ cursor.rest.takeWhile Reader.isGap, Reader.isGap c = true :=
    fun _ member => List.mem_takeWhile_imp member
  -- Spaces and tabs break no line.
  have unbroken : (cursor.rest.takeWhile Reader.isGap).any isBreak = false := by
    rw [List.any_eq_false]
    intro c member
    have spaceOrTab := gap c member
    simp only [Reader.isGap, Bool.or_eq_true, decide_eq_true_eq] at spaceOrTab
    rcases spaceOrTab with rfl | rfl <;> decide
  have merged := scanAt_append_spaces broken cursor.offset (cursor.rest.takeWhile Reader.isGap)
    (cursor.rest.dropWhile Reader.isGap) (fun c member => by simp [Reader.isSpace, gap c member])
  rw [List.takeWhile_append_dropWhile, unbroken, Bool.or_false] at merged
  exact merged

/-- A gap at which the characters between list items have been skipped holds a line break, if it
holds anything. -/
theorem breaks_of_not_gap (cursor : Cursor) (c : Char) (rest rest' : List Char)
    (stopped : cursor.rest = c :: rest) (notGap : Reader.isGap c = false) (notClosing : c ≠ ')')
    (reached : (cursor.skip Reader.isSpace).rest = ')' :: rest') : breaks cursor = true := by
  cases space : Reader.isSpace c with
  | false =>
    -- Nothing was skipped, so the first character would be the parenthesis itself.
    rw [Cursor.skip_eq_self _ cursor (by simp [stopped, space]), stopped] at reached
    exact absurd (List.cons.inj reached).1 notClosing
  | true =>
    have isBreak : isBreak c = true := by
      simpa [Reader.isSpace, notGap, Token.isBreak] using space
    simp [breaks, stopped, space, isBreak]

/-- Inside a symbol the scan goes on to the end of its characters. -/
theorem scanFrom_symbol (start : Nat) (cursor : Cursor) :
    scanFrom (.symbol start) cursor.offset cursor.rest =
      .symbol ⟨start, (cursor.skip (!Reader.endsSymbol ·)).offset - start⟩ ::
        scanAt false (cursor.skip (!Reader.endsSymbol ·)) := by
  obtain ⟨offset, chars⟩ := cursor
  induction chars generalizing offset with
  | nil => rfl
  | cons c rest ih =>
    cases ends : Reader.endsSymbol c with
    | true =>
      -- The character that ends a symbol is scanned again, as the first of what follows.
      rw [Cursor.skip_of_not_kind _ _ _ _ (by simp [ends])]
      simp [scanAt, scanFrom, step, ends]
    | false =>
      rw [Cursor.skip_of_kind _ _ _ _ (by simp [ends]), ← ih]
      simp [scanFrom, step, ends]

theorem scanAt_symbol (broken : Bool) (offset : Nat) (c : Char) (rest : List Char)
    (inside : Reader.endsSymbol c = false) (notQuote : c ≠ '"') :
    scanAt broken ⟨offset, c :: rest⟩ =
      .symbol ⟨offset, ((Cursor.mk offset (c :: rest)).skip (!Reader.endsSymbol ·)).offset - offset⟩ ::
        scanAt false ((Cursor.mk offset (c :: rest)).skip (!Reader.endsSymbol ·)) := by
  rw [Cursor.skip_of_kind _ _ _ _ (by simp [inside]), ← scanFrom_symbol]
  simp only [Reader.endsSymbol, Bool.or_eq_false_iff, decide_eq_false_iff_not] at inside
  obtain ⟨⟨notSpace, notOpening⟩, notClosing⟩ := inside
  simp [scanAt, scanFrom, step, enter, notOpening, notClosing, notQuote, notSpace]

/-- Inside a string literal the scan goes on to the quote that closes it. -/
theorem scanFrom_string (start offset : Nat) (chars : List Char) :
    scanFrom (.string start false) offset chars =
      (match Reader.stringEnd offset chars with
      | .ok next => .string ⟨start, next.offset - start - 1⟩ :: scanAt false next
      | .error _ => [.unfinished start]) := by
  induction offset, chars using Reader.stringEnd.induct with
  | case1 offset => simp [scanFrom, finish, Reader.stringEnd]
  | case2 offset => simp [scanFrom, step, finish, Reader.stringEnd]
  | case3 offset c rest ih =>
    simp only [scanFrom, step, if_true, List.nil_append, Reader.stringEnd]
    exact ih
  | case4 offset rest =>
    -- The scan counts up to the quote, the reader to the place after it.
    have length : (offset : Int) - start = ↑(offset + 1) - start - 1 := by omega
    simp [scanFrom, step, Reader.stringEnd, scanAt, length]
  | case5 offset c rest plain notLast notQuote ih =>
    have notBackslash : c ≠ '\\' := by
      rintro rfl
      cases rest with
      | nil => exact plain rfl rfl
      | cons d rest => exact notLast d rest rfl rfl
    have closes : c ≠ '"' := fun same => notQuote same
    simp only [scanFrom, step, notBackslash, closes, if_false, List.nil_append]
    rw [ih, Reader.stringEnd] <;> assumption

theorem scanAt_string (broken : Bool) (offset : Nat) (rest : List Char) :
    scanAt broken ⟨offset, '"' :: rest⟩ =
      (match Reader.stringEnd (offset + 1) rest with
      | .ok next => .string ⟨↑(offset + 1), next.offset - ↑(offset + 1) - 1⟩ :: scanAt false next
      | .error _ => [.unfinished (offset + 1)]) := by
  rw [← scanFrom_string]
  rfl

/-! ### How parentheses balance -/

/-- How a token changes the number of open parentheses. -/
def weight : Token → Int
  | .opening _ => 1
  | .closing _ _ => -1
  | _ => 0

/-- The number of parentheses that tokens leave open, less those that they close without opening. -/
def level : List Token → Int
  | [] => 0
  | token :: tokens => token.weight + level tokens

/-- Each parenthesis has its partner among the tokens. -/
structure Balanced (tokens : List Token) : Prop where
  none_open : level tokens = 0
  none_stray : ∀ count, 0 ≤ level (tokens.take count)

/-- Whether a token is anything but a literal without its closing quote. -/
def isFinished : Token → Bool
  | .unfinished _ => false
  | _ => true

theorem level_cons (token : Token) (tokens : List Token) :
    level (token :: tokens) = token.weight + level tokens := rfl

theorem level_append (first second : List Token) :
    level (first ++ second) = level first + level second := by
  induction first with
  | nil => simp [level]
  | cons token first ih => rw [List.cons_append, level_cons, level_cons, ih, Int.add_assoc]

/-- The nodes that a closing parenthesis adds to its group: a line break before it makes a symbol
without characters. -/
def ending (offset : Nat) (broken : Bool) : List Node :=
  if broken then [.symbol ⟨offset, 0⟩] else []

end Token

/-- A row of nodes that tokens make up: each is a token or a group in parentheses. -/
inductive Structure : List Token → List Node → Prop
  | nil : Structure [] []
  | symbol {tokens nodes} (span : Span) (rest : Structure tokens nodes) :
      Structure (.symbol span :: tokens) (.symbol span :: nodes)
  | string {tokens nodes} (span : Span) (rest : Structure tokens nodes) :
      Structure (.string span :: tokens) (.string span :: nodes)
  | group {inner children tokens nodes} (start stop : Nat) (broken : Bool)
      (inside : Structure inner children) (rest : Structure tokens nodes) :
      Structure (.opening start :: (inner ++ .closing stop broken :: tokens))
        (.list (some start) (children ++ Token.ending stop broken) :: nodes)

namespace Structure

open Token

theorem append {first second : List Token} {nodes nodes' : List Node}
    (left : Structure first nodes) (right : Structure second nodes') :
    Structure (first ++ second) (nodes ++ nodes') := by
  induction left with
  | nil => exact right
  | symbol span _ ih => exact .symbol span ih
  | string span _ ih => exact .string span ih
  | group start stop broken inside _ _ ih =>
    rw [List.cons_append, List.append_assoc]
    exact .group start stop broken inside ih

theorem finished {tokens : List Token} {nodes : List Node} (made : Structure tokens nodes) :
    ∀ token ∈ tokens, token.isFinished = true := by
  induction made with
  | nil => simp
  | symbol span _ ih => simpa [isFinished] using ih
  | string span _ ih => simpa [isFinished] using ih
  | group start stop broken _ _ ihInside ihRest =>
    intro token member
    simp only [List.mem_cons, List.mem_append] at member
    rcases member with rfl | inner | rfl | after
    · rfl
    · exact ihInside token inner
    · rfl
    · exact ihRest token after

theorem level_eq {tokens : List Token} {nodes : List Node} (made : Structure tokens nodes) :
    level tokens = 0 := by
  induction made with
  | nil => rfl
  | symbol span _ ih => simpa [level_cons, weight] using ih
  | string span _ ih => simpa [level_cons, weight] using ih
  | group start stop broken _ _ ihInside ihRest =>
    rw [level_cons, level_append, level_cons, ihInside, ihRest]
    rfl

theorem balanced {tokens : List Token} {nodes : List Node} (made : Structure tokens nodes) :
    Balanced tokens := by
  refine ⟨made.level_eq, ?_⟩
  induction made with
  | nil => simp [level]
  | symbol span _ ih =>
    rintro (_ | count)
    · simp [level]
    · simpa [level_cons, weight] using ih count
  | string span _ ih =>
    rintro (_ | count)
    · simp [level]
    · simpa [level_cons, weight] using ih count
  | @group inner _ _ _ start stop broken inside _ ihInside ihRest =>
    rintro (_ | count)
    · simp [level]
    rw [List.take_succ_cons, level_cons, List.take_append, level_append]
    -- What the parenthesis adds is taken away again at its partner.
    have within := ihInside count
    -- The prefix ends in the group, or has the whole group and a prefix of what follows it.
    cases left : count - inner.length with
    | zero =>
      simp only [List.take_zero, level, weight] at *
      omega
    | succ left' =>
      have beyond := ihRest left'
      have whole := inside.level_eq
      rw [List.take_succ_cons, level_cons, List.take_of_length_le (by omega), whole]
      simp only [weight]
      omega

/-- Tokens that close so many groups that were opened before them, each after a row of nodes. -/
private inductive Closes : Nat → List Token → Prop
  | done {tokens nodes} (made : Structure tokens nodes) : Closes 0 tokens
  | next {inner nodes tokens open'} (stop : Nat) (broken : Bool) (made : Structure inner nodes)
      (rest : Closes open' tokens) : Closes (open' + 1) (inner ++ .closing stop broken :: tokens)

private theorem Closes.prepend {open' : Nat} {tokens first : List Token} {nodes : List Node}
    (closes : Closes open' tokens) (made : Structure first nodes) :
    Closes open' (first ++ tokens) := by
  cases closes with
  | done rest => exact .done (made.append rest)
  | next stop broken inside rest =>
    rw [← List.append_assoc]
    exact .next stop broken (made.append inside) rest

/-- The induction follows the tokens; the number of groups still open moves with it. -/
private theorem closes_of_level (open' : Nat) (tokens : List Token)
    (finished : ∀ token ∈ tokens, token.isFinished = true) (total : level tokens = -open')
    (above : ∀ count, -(open' : Int) ≤ level (tokens.take count)) : Closes open' tokens := by
  induction tokens generalizing open' with
  | nil =>
    cases open' with
    | zero => exact .done .nil
    | succ open' => simp [level] at total; omega
  | cons token tokens ih =>
    have restFinished : ∀ token ∈ tokens, token.isFinished = true :=
      fun other member => finished other (List.mem_cons_of_mem _ member)
    -- The first token moves each prefix of the others by its own weight.
    have shifted (count : Nat) : -(open' : Int) ≤ token.weight + level (tokens.take count) := by
      simpa [level_cons] using above (count + 1)
    rw [level_cons] at total
    cases token with
    | symbol span =>
      simp only [weight, Int.zero_add] at total shifted
      exact (ih open' restFinished total shifted).prepend (.symbol span .nil)
    | string span =>
      simp only [weight, Int.zero_add] at total shifted
      exact (ih open' restFinished total shifted).prepend (.string span .nil)
    | unfinished start => exact absurd (finished _ List.mem_cons_self) (by simp [isFinished])
    | closing stop broken =>
      -- The prefix of this token alone rules out a parenthesis that nothing opened.
      have start := shifted 0
      simp only [weight, List.take_zero, level] at start
      cases open' with
      | zero => simp at start
      | succ open' =>
        have closes := ih open' restFinished
          (by simp only [weight] at total; omega)
          (fun count => by have := shifted count; simp only [weight] at this; omega)
        exact Closes.next stop broken Structure.nil closes
    | opening start =>
      -- The first parenthesis that is closed among the others is the partner of this one.
      have closes := ih (open' + 1) restFinished
        (by simp only [weight] at total; omega)
        (fun count => by have := shifted count; simp only [weight] at this; omega)
      cases closes with
      | next stop broken inside rest =>
        have grouped := rest.prepend (.group start stop broken inside .nil)
        simpa using grouped

/-- Tokens that are all finished and whose parentheses balance make up a row of nodes. -/
theorem of_balanced (tokens : List Token) (finished : ∀ token ∈ tokens, token.isFinished = true)
    (balanced : Balanced tokens) : ∃ nodes, Structure tokens nodes := by
  have closes := closes_of_level 0 tokens finished (by simpa using balanced.none_open)
    (by simpa using balanced.none_stray)
  cases closes with
  | done made => exact ⟨_, made⟩

end Structure

end HostLisp
