import HostLisp.Output.Format
import HostLisp.Proofs.FoldedScalars
import HostLisp.Proofs.PatternMatching

/-!
# YAML without marks

What a value is written as in YAML is one document without the mark of its end, and no line of it
can be taken for a mark. So what is left out of the stream is the mark alone, and only after a bare
scalar. Texts are never written as the words of other scalars are.

## Main results

`Yaml.write_block`: no line of a document but the first can be a mark, and no line feed ends it.

`Yaml.dropMarker_stream`: what is left out of a stream is the mark of its end.

`Yaml.single_document`: what is written of a value, and that texts are told from other scalars.

## Proof strategy

Each function on nodes gets the lemma that the text it writes is a block of lines. At an indentation
of zero a line is an item, a key or a value, and these begin with something that no mark begins with
or have a colon.
-/

namespace HostLisp.Yaml

/-! ### Words -/

/-- The words of null, of truth values and of numbers. -/
inductive IsWord : List Char → Prop
  | null : IsWord "null".toList
  | bool (b : Bool) : IsWord (if b then "true".toList else "false".toList)
  | int (n : Int) : IsWord (Number.decimalText n).toList

namespace IsWord

variable {chars : List Char}

theorem readsAsOther (word : IsWord chars) : readsAsOther chars = true := by
  cases word with
  | null => decide +kernel
  | bool b => cases b <;> decide +kernel
  | int n => exact readsAsOther_decimalText n

theorem filled (word : IsWord chars) : chars ≠ [] := by
  cases word with
  | null => decide
  | bool b => cases b <;> decide
  | int n =>
    rw [Number.decimalText, String.toList_ofList]
    split
    · simp
    · exact Nat.toDigits_ne_nil

/-- The characters of a word are neither line feeds nor quotes. -/
theorem ordinary (word : IsWord chars) : ∀ c ∈ chars, c ≠ '\n' ∧ c ≠ '\x27' ∧ c ≠ '"' := by
  cases word with
  | null => simp
  | bool b => cases b <;> simp
  | int n =>
    -- A number is written with digits and perhaps a sign in front.
    have digits : ∀ c ∈ Nat.toDigits 10 n.natAbs, c ≠ '\n' ∧ c ≠ '\x27' ∧ c ≠ '"' := by
      intro c member
      have digit := Nat.isDigit_of_mem_toDigits (by decide) (by decide) member
      refine ⟨?_, ?_, ?_⟩ <;> (rintro rfl; exact absurd digit (by decide))
    rw [Number.decimalText, String.toList_ofList]
    split
    · exact List.forall_mem_cons.mpr ⟨by decide, digits⟩
    · exact digits

theorem flat (word : IsWord chars) : '\n' ∉ chars := fun member => (word.ordinary _ member).1 rfl

end IsWord

/-! ### Trees of documents -/

/-- Every word in a tree is one of null, of truth values or of numbers. -/
inductive Node.Worded : Node → Prop
  | word {chars : List Char} (known : IsWord chars) : Worded (.word chars)
  | text (chars : List Char) : Worded (.text chars)
  | sequence {items : List Node} (each : ∀ item ∈ items, Worded item) : Worded (.sequence items)
  | mapping {entries : List (List Char × Node)} (each : ∀ entry ∈ entries, Worded entry.2) :
      Worded (.mapping entries)

/-- A document has a tree, in which every word is known. -/
def HasTree (document : Document) : Prop :=
  ∃ node, Node.ofDocument document = .ok node ∧ node.Worded

theorem hasTree_int {n : Int} (fits : Number.exceedsDigitLimit n = false) : HasTree (.int n) := by
  refine ⟨.word (Number.decimalText n).toList, ?_, .word (.int n)⟩
  simp only [Node.ofDocument, writeInt_of_fits fits]
  rfl

theorem hasTree_sequence {items : List Document} (each : ∀ item ∈ items, HasTree item) :
    HasTree (.sequence items) := by
  -- The items have trees one by one.
  have made : ∃ nodes, Node.ofItems items = .ok nodes ∧ ∀ node ∈ nodes, node.Worded := by
    induction items with
    | nil => exact ⟨[], rfl, by simp⟩
    | cons item rest ih =>
      obtain ⟨⟨node, here, worded⟩, later⟩ := List.forall_mem_cons.mp each
      obtain ⟨nodes, there, worded'⟩ := ih later
      exact ⟨node :: nodes, by simp only [Node.ofItems, here, there]; rfl,
        List.forall_mem_cons.mpr ⟨worded, worded'⟩⟩
  obtain ⟨nodes, made, worded⟩ := made
  exact ⟨.sequence nodes, by simp only [Node.ofDocument, made]; rfl, .sequence worded⟩

theorem hasTree_mapping {entries : List (String × Document)}
    (each : ∀ entry ∈ entries, HasTree entry.2) : HasTree (.mapping entries) := by
  have made : ∃ pairs, Node.ofEntries entries = .ok pairs ∧ ∀ pair ∈ pairs, pair.2.Worded := by
    induction entries with
    | nil => exact ⟨[], rfl, by simp⟩
    | cons entry rest ih =>
      obtain ⟨⟨node, here, worded⟩, later⟩ := List.forall_mem_cons.mp each
      obtain ⟨pairs, there, worded'⟩ := ih later
      exact ⟨(entry.1.toList, node) :: pairs, by simp only [Node.ofEntries, here, there]; rfl,
        List.forall_mem_cons.mpr ⟨worded, worded'⟩⟩
  obtain ⟨pairs, made, worded⟩ := made
  exact ⟨.mapping pairs, by simp only [Node.ofDocument, made]; rfl, .mapping worded⟩

/-- A value of a subtype has no tree, and every other portable value has one. -/
theorem carries_hasTree :
    Document.Carries (fun value => value.IsPortable ∧ ¬ value.IsTagged) HasTree where
  portable _ fits := fits.1
  sequence _ := hasTree_sequence
  mapping _ each _ := hasTree_mapping each
  leaf value leaf fits := by
    cases value with
    | null => exact ⟨_, rfl, _, rfl, .word .null⟩
    | bool b => exact ⟨_, rfl, _, rfl, .word (.bool b)⟩
    | int n => exact ⟨_, rfl, hasTree_int (by simpa [Value.IsOverlong] using fits.1.2)⟩
    -- Texts always have a tree, because the way of quoting is chosen later.
    | text s => exact ⟨_, rfl, _, rfl, .text s.toList⟩
    | float x => exact absurd rfl (fits.1.1 x)
    | taggedInt subtype n => exact absurd trivial fits.2
    | taggedText subtype s => exact absurd trivial fits.2
    | object o => exact ⟨_, rfl, _, rfl, .text o.display.toList⟩
    | list items => cases leaf
    | tuple items => cases leaf
    | dict entries => cases leaf

/-! ### Blocks -/

/-- Lines of which none can be a mark, wherever they stand. -/
structure IsOpenBlock (text : List Char) : Prop extends IsBlock text where
  opens : Opens text

/-- Blocks one below the other are one. -/
theorem stack_openBlock (indent : Nat) {blocks : List (List Char)} (filled : blocks ≠ [])
    (each : ∀ block ∈ blocks, IsOpenBlock block) : IsOpenBlock (stack indent blocks) := by
  induction blocks with
  | nil => exact absurd rfl filled
  | cons block rest ih =>
    obtain ⟨here, later⟩ := List.forall_mem_cons.mp each
    cases rest with
    | nil => simpa [stack] using here
    | cons next rest =>
      -- The blocks below are one block, and it begins a line of its own.
      have below := ih (by simp) later
      have whole : stack indent (block :: next :: rest) =
          block ++ (newLine indent ++ stack indent (next :: rest)) := by
        simp [stack, List.intercalate_cons_cons]
      rw [whole]
      exact ⟨(below.toIsBlock.newLine (below.opens.indent indent)).prepend here.lined,
        here.opens.append _⟩

/-- What follows the mark of an item begins with a space. -/
theorem afterMark_space (indent : Nat) (node : Node) :
    ∃ rest, afterMark indent node = ' ' :: rest := by
  cases node with
  | word chars => exact ⟨_, rfl⟩
  | text chars => exact ⟨_, rfl⟩
  | sequence items => cases items <;> exact ⟨_, rfl⟩
  | mapping entries => cases entries <;> exact ⟨_, rfl⟩

theorem item_opens (indent : Nat) (node : Node) : Opens ('-' :: afterMark indent node) := by
  obtain ⟨rest, same⟩ := afterMark_space indent node
  rw [same]
  exact .item rest (by decide)

theorem unbroken_of_isSimpleKey {key : List Char} (simple : isSimpleKey key = true) :
    ∀ c ∈ key, isBreak c = false := by
  simp only [isSimpleKey, Bool.and_eq_true, Bool.not_eq_true', List.any_eq_false] at simple
  exact fun c member => by simpa using simple.2 c member

private theorem writeItems_filled (indent : Nat) (item : Node) (rest : List Node) :
    writeItems indent (item :: rest) ≠ [] := by
  simp [writeItems]

private theorem writeEntries_filled (indent : Nat) (entry : List Char × Node)
    (rest : List (List Char × Node)) : writeEntries indent (entry :: rest) ≠ [] := by
  simp [writeEntries]

private theorem brackets_block {text : List Char}
    (same : text = " []".toList ∨ text = " \x7b\x7d".toList) : IsBlock text := by
  rcases same with rfl | rfl <;> exact .flat (by decide) (by decide)

mutual

theorem afterMark_block (indent : Nat) :
    ∀ node : Node, node.Worded → IsBlock (afterMark indent node)
  | .word chars, worded => by
    cases worded with
    | word known => exact (IsBlock.flat known.flat known.filled).cons (by decide)
  | .text chars, _ => (writeText_block (Nat.succ_pos _)).cons (by decide)
  | .sequence [], _ => brackets_block (Or.inl rfl)
  | .mapping [], _ => brackets_block (Or.inr rfl)
  | .sequence (item :: rest), worded => by
    cases worded with
    | sequence each =>
      have blocks := writeItems_blocks (indent + 2) (item :: rest) each
      exact (stack_openBlock _ (writeItems_filled _ item rest) blocks).toIsBlock.cons (by decide)
  | .mapping (entry :: rest), worded => by
    cases worded with
    | mapping each =>
      have blocks := writeEntries_blocks (indent + 2) (entry :: rest) each
      exact (stack_openBlock _ (writeEntries_filled _ entry rest) blocks).toIsBlock.cons (by decide)

theorem afterKey_block (indent column : Nat) :
    ∀ node : Node, node.Worded → IsBlock (afterKey indent column node)
  | .word chars, worded => by
    cases worded with
    | word known => exact (IsBlock.flat known.flat known.filled).cons (by decide)
  | .text chars, _ => (writeText_block (Nat.succ_pos _)).cons (by decide)
  | .sequence [], _ => brackets_block (Or.inl rfl)
  | .mapping [], _ => brackets_block (Or.inr rfl)
  | .sequence (item :: rest), worded => by
    cases worded with
    | sequence each =>
      have blocks := writeItems_blocks indent (item :: rest) each
      have below := stack_openBlock indent (writeItems_filled _ item rest) blocks
      exact below.toIsBlock.newLine (below.opens.indent _)
  | .mapping (entry :: rest), worded => by
    cases worded with
    | mapping each =>
      have blocks := writeEntries_blocks (indent + 2) (entry :: rest) each
      have below := stack_openBlock (indent + 2) (writeEntries_filled _ entry rest) blocks
      exact below.toIsBlock.newLine (below.opens.indent _)

/-- Items are blocks that begin with a hyphen and a space. -/
theorem writeItems_blocks (indent : Nat) : ∀ items : List Node, (∀ item ∈ items, item.Worded) →
    ∀ block ∈ writeItems indent items, IsOpenBlock block
  | [], _ => by simp [writeItems]
  | item :: rest, each => by
    obtain ⟨here, later⟩ := List.forall_mem_cons.mp each
    refine List.forall_mem_cons.mpr
      ⟨⟨?_, item_opens indent item⟩, writeItems_blocks indent rest later⟩
    exact (afterMark_block indent item here).cons (by decide)

/-- Entries are blocks that begin with a line with a colon, or with the mark of a key. -/
theorem writeEntries_blocks (indent : Nat) : ∀ entries : List (List Char × Node),
    (∀ entry ∈ entries, entry.2.Worded) → ∀ block ∈ writeEntries indent entries, IsOpenBlock block
  | [], _ => by simp [writeEntries]
  | (key, node) :: rest, each => by
    obtain ⟨here, later⟩ := List.forall_mem_cons.mp each
    refine List.forall_mem_cons.mpr ⟨?_, writeEntries_blocks indent rest later⟩
    dsimp only
    split
    -- A short key stands on the line of its value.
    next simple =>
      have flat : '\n' ∉ writeText (indent + 2) false indent key :=
        writeText_flat (unbroken_of_isSimpleKey simple)
      refine ⟨?_, .key _ flat⟩
      exact ((afterKey_block indent _ node here).cons (by decide)).prepend (lined_of_flat flat)
    -- A key that is long or broken gets a mark and lines of its own.
    next =>
      have marked : IsBlock (writeText (indent + 2) true (indent + 2) key) :=
        writeText_block (Nat.succ_pos _)
      have valued : IsBlock (':' :: afterMark indent node) :=
        (afterMark_block indent node here).cons (by decide)
      have colon : Opens (':' :: afterMark indent node) := .other _ (by decide) (by decide)
      have below := valued.newLine (colon.indent indent)
      have whole := ((below.prepend marked.lined).cons (c := ' ') (by decide)).cons (c := '?')
        (by decide)
      exact ⟨by simpa using whole, .other _ (by decide) (by decide)⟩

end

/-- No line of a document but the first can be a mark, and no line feed ends it. -/
theorem write_block {node : Node} (worded : node.Worded) : IsBlock (write node) := by
  cases worded with
  | word known => exact .flat known.flat known.filled
  | text chars => exact writeText_block (by decide)
  | @sequence items each =>
    cases items with
    | nil => exact .flat (by decide) (by decide)
    | cons item rest =>
      exact (stack_openBlock 0 (writeItems_filled _ item rest)
        (writeItems_blocks 0 _ each)).toIsBlock
  | @mapping entries each =>
    cases entries with
    | nil => exact .flat (by decide) (by decide)
    | cons entry rest =>
      exact (stack_openBlock 0 (writeEntries_filled _ entry rest)
        (writeEntries_blocks 0 _ each)).toIsBlock

/-! ### Marks -/

/-- The lines that mark the start and the end of a document. -/
def marks : List (List Char) := ["...".toList, "---".toList]

def firstLine (text : List Char) : List Char := text.takeWhile (· ≠ '\n')

theorem Opens.firstLine_notMark {text : List Char} (opens : Opens text) :
    firstLine text ∉ marks := by
  cases opens with
  | @other c rest notDot notDash =>
    by_cases feed : c = '\n'
    · simp [firstLine, marks, feed]
    · simp [firstLine, marks, feed, notDot, notDash]
  | @item c rest notDash =>
    by_cases feed : c = '\n'
    · simp [firstLine, marks, feed]
    · simp [firstLine, marks, feed, notDash]
  | @key line rest flat =>
    -- The colon is in the first line, and it is in no mark.
    have kept : firstLine (line ++ ':' :: rest) = line ++ ':' :: firstLine rest := by
      rw [firstLine, List.takeWhile_append_of_pos]
      · simp [firstLine]
      · exact fun c member => decide_eq_true fun same => flat (same ▸ member)
    have plain : ∀ mark ∈ marks, ':' ∉ mark := by decide
    intro member
    rw [kept] at member
    exact plain _ member (by simp)

theorem word_notMark {chars : List Char} (word : IsWord chars) : firstLine chars ∉ marks := by
  -- Marks would be read as texts, and words would not.
  have plain : ∀ mark ∈ marks, readsAsOther mark = false := by decide +kernel
  have whole : firstLine chars = chars :=
    List.takeWhile_eq_self_iff.mpr fun c member => decide_eq_true (word.ordinary c member).1
  intro member
  rw [whole] at member
  exact absurd word.readsAsOther (by simp [plain chars member])

theorem startsWithMark_mark {mark : List Char} (member : mark ∈ marks) (rest : List Char) :
    startsWithMark (mark ++ rest) = true := by
  simp only [marks, List.mem_cons, List.not_mem_nil, or_false] at member
  rcases member with rfl | rfl
  · simp [startsWithMark]
  · simp [startsWithMark]

theorem text_notMark (text : List Char) : firstLine (writeText 2 true 0 text) ∉ marks := by
  -- A plain text is written as it is, and anything else begins with a quote.
  by_cases style : styleOf text = .plain
  · have folded : Folded 2 text (writeText 2 true 0 text) := writeText_folded style
    obtain ⟨rest, same⟩ := folded.firstLine
    -- The text itself would begin with the mark.
    intro member
    have marked := startsWithMark_mark member rest
    rw [firstLine, ← same, (styleOf_plain style).unmarked] at marked
    cases marked
  · obtain ⟨c, rest, same, quote⟩ := writeText_quoted 2 0 true style
    rw [same]
    refine (Opens.other rest ?_ ?_).firstLine_notMark
    · rcases quote with rfl | rfl <;> decide
    · rcases quote with rfl | rfl <;> decide

/-- The first line of a document is no mark. -/
theorem write_firstLine {node : Node} (worded : node.Worded) : firstLine (write node) ∉ marks := by
  cases worded with
  | word known => exact word_notMark known
  | text chars => exact text_notMark chars
  | @sequence items each =>
    cases items with
    | nil => decide
    | cons item rest =>
      exact (stack_openBlock 0 (writeItems_filled _ item rest)
        (writeItems_blocks 0 _ each)).opens.firstLine_notMark
  | @mapping entries each =>
    cases entries with
    | nil => decide
    | cons entry rest =>
      exact (stack_openBlock 0 (writeEntries_filled _ entry rest)
        (writeEntries_blocks 0 _ each)).opens.firstLine_notMark

/-- The lines of a text are the first one and those that come right after a line feed. -/
theorem splitOn_lines (text : List Char) : ∃ others, text.splitOn '\n' = firstLine text :: others ∧
    ∀ line ∈ others, ∃ before after, text = before ++ '\n' :: after ∧ line = firstLine after := by
  induction text with
  | nil => exact ⟨[], by simp [firstLine], by simp⟩
  | cons c rest ih =>
    obtain ⟨others, same, after⟩ := ih
    rw [List.splitOn_eq_splitOnP] at same ⊢
    rw [List.splitOnP_cons_eq_if_modifyHead]
    by_cases feed : c = '\n'
    · subst feed
      refine ⟨firstLine rest :: others, by simp [firstLine, same],
        List.forall_mem_cons.mpr ⟨?_, ?_⟩⟩
      · exact ⟨[], rest, rfl, rfl⟩
      · intro line member
        obtain ⟨before, later, rfl, first⟩ := after line member
        exact ⟨'\n' :: before, later, rfl, first⟩
    · refine ⟨others, by simp [firstLine, same, feed], fun line member => ?_⟩
      obtain ⟨before, later, rfl, first⟩ := after line member
      exact ⟨c :: before, later, rfl, first⟩

theorem firstLine_append_feed (text more : List Char) :
    firstLine (text ++ '\n' :: more) = firstLine text := by
  induction text with
  | nil => simp [firstLine]
  | cons c rest ih =>
    by_cases feed : c = '\n'
    · simp [firstLine, feed]
    · simpa [firstLine, feed] using ih

/-- No line of a document is a mark. -/
theorem lines_notMarks {node : Node} (worded : node.Worded) :
    ∀ line ∈ (write node ++ ['\n']).splitOn '\n', line ∉ marks := by
  obtain ⟨others, same, after⟩ := splitOn_lines (write node ++ ['\n'])
  rw [same, firstLine_append_feed]
  refine List.forall_mem_cons.mpr ⟨write_firstLine worded, fun line member => ?_⟩
  obtain ⟨before, later, split, rfl⟩ := after line member
  rcases List.eq_nil_or_concat' later with rfl | ⟨later, last, rfl⟩
  · decide
  · -- What comes after the line feed begins a line of the document.
    have parts : write node ++ ['\n'] = before ++ '\n' :: later ++ [last] := by simp [split]
    obtain ⟨inside, -⟩ := List.append_inj' parts rfl
    exact (((write_block worded).lined before later inside).append [last]).firstLine_notMark

theorem dropMarker_marked (front : List Char) :
    dropMarker (front ++ '\n' :: endMarker) = front ++ ['\n'] := by
  have ended : ('\n' :: endMarker).isSuffixOf (front ++ '\n' :: endMarker) = true := by
    rw [List.isSuffixOf_iff_suffix]
    exact List.suffix_append front _
  have split : front ++ '\n' :: endMarker = front ++ ['\n'] ++ endMarker := by simp
  rw [dropMarker, if_pos ended, split, List.length_append, Nat.add_sub_cancel, List.take_left]

/-- What is left out of a stream is the mark of its end. -/
theorem dropMarker_stream {node : Node} (worded : node.Worded) :
    dropMarker (stream node) = write node ++ ['\n'] := by
  -- Only a bare scalar is followed by the mark of its end.
  cases bare : node.isBare with
  | true => simpa [stream, bare] using dropMarker_marked (write node)
  | false =>
    have unmarked : ¬ ('\n' :: endMarker).isSuffixOf (write node ++ ['\n']) = true := by
      rw [List.isSuffixOf_iff_suffix]
      rintro ⟨front, split⟩
      -- A last line of three dots would be one of the lines of the document.
      have parts : front ++ '\n' :: "...".toList ++ ['\n'] = write node ++ ['\n'] := by
        simpa [endMarker] using split
      have opens := (write_block worded).lined front _ (List.append_cancel_right parts).symm
      exact opens.firstLine_notMark (by decide)
    simp only [stream, bare, dropMarker]
    exact if_neg unmarked

theorem render_eq {document : Document} {node : Node} (made : Node.ofDocument document = .ok node)
    (worded : node.Worded) : render document = .ok (String.ofList (write node ++ ['\n'])) := by
  rw [render, safeDump, made]
  exact congrArg (Except.ok ∘ String.ofList) (dropMarker_stream worded)

/-- A text is never written as a word is. -/
theorem writeText_ne_word (text : List Char) {chars : List Char} (word : IsWord chars) :
    writeText 2 true 0 text ≠ chars := by
  intro same
  by_cases style : styleOf text = .plain
  · -- A text on one line is itself, and the word would not be read as a text.
    have folded : Folded 2 text (writeText 2 true 0 text) := writeText_folded style
    rw [same] at folded
    have own := (styleOf_plain style).own
    rw [← folded.eq_of_flat word.flat, word.readsAsOther] at own
    cases own
  · obtain ⟨c, rest, quoted, quote⟩ := writeText_quoted 2 0 true style
    have ordinary := word.ordinary c (by rw [← same, quoted]; exact List.mem_cons_self)
    rcases quote with rfl | rfl
    · exact ordinary.2.1 rfl
    · exact ordinary.2.2 rfl

/-! ### Values -/

theorem yaml_named : Format.ofName? (Text.lower "yaml") = some .yaml := by decide +kernel

theorem writeAs_eq {value : Value} {document : Document} {node : Node}
    (made : Document.ofValue value = .ok document) (tree : Node.ofDocument document = .ok node)
    (worded : node.Worded) (pretty : Bool) :
    value.writeAs (some "yaml") pretty = .ok (String.ofList (write node ++ ['\n'])) := by
  simp [Value.writeAs, made, yaml_named, Document.render, render_eq tree worded, bind, Except.bind]

/-- Null, a truth value or a number, of any length. -/
inductive IsScalar : Value → Prop
  | null : IsScalar .null
  | bool (b : Bool) : IsScalar (.bool b)
  | int (n : Int) : IsScalar (.int n)

/-- Such a scalar is written as a word, unless it is too long to be written. -/
theorem IsScalar.written {scalar : Value} (known : IsScalar scalar) (pretty : Bool) :
    (∃ chars, IsWord chars ∧
      scalar.writeAs (some "yaml") pretty = .ok (String.ofList (chars ++ ['\n']))) ∨
    ∃ fault, scalar.writeAs (some "yaml") pretty = .error fault := by
  cases known with
  | null => exact Or.inl ⟨_, .null, writeAs_eq rfl rfl (.word .null) pretty⟩
  | bool b => exact Or.inl ⟨_, .bool b, writeAs_eq rfl rfl (.word (.bool b)) pretty⟩
  | int n =>
    cases long : Number.exceedsDigitLimit n with
    | false =>
      have tree : Node.ofDocument (.int n) = .ok (.word (Number.decimalText n).toList) := by
        simp only [Node.ofDocument, writeInt_of_fits long]
        rfl
      exact Or.inl ⟨_, .int n, writeAs_eq rfl tree (.word (.int n)) pretty⟩
    | true =>
      have failed : render (.int n) = .error .tooManyDigitsToWrite := by
        simp [render, safeDump, Node.ofDocument, writeInt, long, bind, Except.bind]
      refine Or.inr ⟨.tooManyDigitsToWrite, ?_⟩
      simp [Value.writeAs, Document.ofValue, yaml_named, Document.render, failed, bind, Except.bind]

/-- A text and another scalar are written differently. -/
theorem text_ne_scalar (s : String) {scalar : Value} (known : IsScalar scalar)
    (pretty pretty' : Bool) :
    (Value.text s).writeAs (some "yaml") pretty ≠ scalar.writeAs (some "yaml") pretty' := by
  have made : Document.ofValue (.text s) = .ok (.text s) := rfl
  have written := writeAs_eq made rfl (.text s.toList) pretty
  rw [written]
  rcases known.written pretty' with ⟨chars, word, other⟩ | ⟨fault, failed⟩
  · rw [other]
    intro same
    have lists := String.ofList_injective (Except.ok.inj same)
    exact writeText_ne_word _ word (List.append_cancel_right lists)
  · rw [failed]
    exact nofun

/-- A value without floats, numbers that are too long and subtypes is written as YAML. The text
ends in one line feed, none of its lines is the mark of the start or the end of a document, and the
stream of the document is this text, with the mark of its end after it exactly if the document is a
scalar without quotes. A text is never written as null, a truth value or a number is. -/
theorem single_document (value : Value) (portable : ∀ part ∈ value.parts, part.IsPortable)
    (untagged : ∀ part ∈ value.parts, ¬ part.IsTagged) :
    (∃ document node text, Document.ofValue value = .ok document ∧
      Node.ofDocument document = .ok node ∧
      (∀ pretty, value.writeAs (some "yaml") pretty = .ok text) ∧
      (∃ front c, text.toList = front ++ [c, '\n'] ∧ c ≠ '\n') ∧
      (∀ line ∈ text.toList.splitOn '\n', line ≠ "...".toList ∧ line ≠ "---".toList) ∧
      stream node = text.toList ++ if node.isBare then "...\n".toList else []) ∧
    ∀ s scalar, IsScalar scalar → ∀ pretty pretty',
      (Value.text s).writeAs (some "yaml") pretty ≠ scalar.writeAs (some "yaml") pretty' := by
  obtain ⟨document, made, node, tree, worded⟩ := carries_hasTree.ofValue
    fun part member => ⟨portable part member, untagged part member⟩
  obtain ⟨front, c, closed, notFeed⟩ := (write_block worded).closes
  refine ⟨⟨document, node, String.ofList (write node ++ ['\n']), made, tree,
    writeAs_eq made tree worded, ⟨front, c, by simp [closed], notFeed⟩, fun line member => ?_, ?_⟩,
    fun s scalar known pretty pretty' => text_ne_scalar s known pretty pretty'⟩
  · have unmarked := lines_notMarks worded line (by simpa using member)
    simpa [marks] using unmarked
  · simp [stream, endMarker]

/-- A text of dots in a list under a key, beside a mapping without entries. -/
def dotted : Value := .dict [(.text "...", .list [.text "---", .null]), (.null, .dict [])]

theorem single_document_dotted : (∀ part ∈ dotted.parts, part.IsPortable ∧ ¬ part.IsTagged) ∧
    ∃ text, dotted.writeAs (some "yaml") true = .ok text ∧
      ∀ line ∈ text.toList.splitOn '\n', line ≠ "...".toList ∧ line ≠ "---".toList := by
  have writable : ∀ part ∈ dotted.parts, part.IsPortable ∧ ¬ part.IsTagged := by
    simp [dotted, Value.parts, Value.partsAll, Value.partsOfEntries, Value.IsPortable,
      Value.IsOverlong, Value.IsTagged]
  obtain ⟨⟨document, node, text, -, -, written, -, lines, -⟩, -⟩ := single_document dotted
    (fun part member => (writable part member).1) fun part member => (writable part member).2
  exact ⟨writable, text, written true, lines⟩

end HostLisp.Yaml
