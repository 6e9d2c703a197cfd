import HostLisp.Proofs.CoupledForms
import HostLisp.Proofs.Spelling
import HostLisp.Proofs.StandardMeaning

/-!
# Indented sources

Blanks before a source move everything in it along by their number, and nothing else happens.

## Main results

`read_indented`: the tree, the place where reading stops and the place where it fails move along.

`evaluate_indented`: with the standard operations alone the outcome is the same, but for the
positions of the fault and of the calls in progress.

## Proof strategy

Reading only ever adds to the offset it started from. Evaluation only hands marks on, so the
evaluations of a form here and further along are coupled.
-/

namespace HostLisp

open Reader (Cursor)

/-- A stretch that starts further along. -/
def Span.shift (distance : Nat) (span : Span) : Span := { span with start := span.start + distance }

namespace Node

mutual

/-- A tree of which every part stands further along. -/
def shift (distance : Nat) : Node → Node
  | .symbol span => .symbol (span.shift distance)
  | .string span => .string (span.shift distance)
  | .list start children => .list (start.map (· + distance)) (shiftAll distance children)
  | .value v => .value v
termination_by structural node => node

def shiftAll (distance : Nat) : List Node → List Node
  | [] => []
  | first :: rest => shift distance first :: shiftAll distance rest
termination_by structural nodes => nodes

end

end Node

/-! ### Reading -/

namespace Reader

def Cursor.shift (distance : Nat) (cursor : Cursor) : Cursor :=
  { cursor with offset := cursor.offset + distance }

/-- What reading gives, further along. -/
def shifted {α : Type} (distance : Nat) (move : α → α) :
    Except Nat (α × Cursor) → Except Nat (α × Cursor)
  | .ok (found, next) => .ok (move found, next.shift distance)
  | .error offset => .error (offset + distance)

variable (distance : Nat)

theorem skip_shift (kind : Char → Bool) (cursor : Cursor) :
    (cursor.shift distance).skip kind = (cursor.skip kind).shift distance := by
  simp only [Cursor.skip, Cursor.shift, Cursor.mk.injEq, and_true]
  omega

/-- A literal ends after the same characters wherever it begins. -/
theorem stringEnd_shift (offset : Nat) (chars : List Char) : stringEnd (offset + distance) chars =
    match stringEnd offset chars with
    | .ok next => .ok (next.shift distance)
    | .error last => .error (last + distance) := by
  induction offset, chars using stringEnd.induct with
  | case1 offset => rfl
  | case2 offset => simp [stringEnd, Nat.add_right_comm]
  | case3 offset c rest ih => simp only [stringEnd, ← ih, Nat.add_right_comm]
  | case4 offset rest => simp [stringEnd, Cursor.shift, Nat.add_right_comm]
  | case5 offset c rest plain notLast notQuote ih =>
    rw [stringEnd, stringEnd, ← ih, Nat.add_right_comm] <;> assumption

/-- A literal moves along. -/
theorem string_shift (cursor : Cursor) :
    string (cursor.shift distance) = shifted distance (Node.shift distance) (string cursor) := by
  have moved := stringEnd_shift distance cursor.offset cursor.rest
  simp only [string, Cursor.shift, moved]
  cases stringEnd cursor.offset cursor.rest with
  | error last => rfl
  | ok next =>
    simp only [bind, Except.bind, shifted, Node.shift, Span.shift, Cursor.shift, Except.ok.injEq,
      Prod.mk.injEq, Node.string.injEq, Span.mk.injEq, and_true]
    omega

/-- A symbol moves along, and its length stays. -/
theorem symbol_shift (cursor : Cursor) : symbol (cursor.shift distance) =
    ((symbol cursor).1.shift distance, (symbol cursor).2.shift distance) := by
  have length (stop : Nat) : ((stop + distance : Nat) : Int) - (cursor.offset + distance : Nat) =
      stop - cursor.offset := by
    omega
  simp only [symbol, skip_shift]
  -- The two sides look at the same characters after the symbol.
  obtain ⟨stop, rest⟩ := cursor.skip (!endsSymbol ·)
  simp only [Cursor.shift, length]
  split <;> simp_all [Node.shift, Span.shift, Nat.add_right_comm]

/-- A form moves along if the items of lists do. -/
theorem formWith_shift {read : Cursor → Except Nat (List Node × Cursor)}
    (each : ∀ cursor : Cursor, read (cursor.shift distance) =
      shifted distance (Node.shiftAll distance) (read cursor)) (cursor : Cursor) :
    formWith read (cursor.shift distance) =
      shifted distance (Node.shift distance) (formWith read cursor) := by
  -- The blanks before the form are passed on both sides, and then the same character is met.
  simp only [formWith, skip_shift]
  obtain ⟨offset, rest⟩ := cursor.skip isSpace
  have inside := each ⟨offset + 1, rest.tail⟩
  have quoted := string_shift distance ⟨offset + 1, rest.tail⟩
  have plain := symbol_shift distance ⟨offset, rest⟩
  simp only [Cursor.shift, Nat.add_right_comm offset 1] at inside quoted plain ⊢
  split
  · rfl
  · exact quoted
  · simp only [List.tail_cons] at inside
    rw [inside]
    cases read ⟨offset + 1, _⟩ with
    | error last => rfl
    | ok pair => simp [bind, Except.bind, shifted, Node.shift, Cursor.shift]
  · exact congrArg Except.ok plain

/-- The items of a list move along, at any bound. -/
theorem items_shift (bound : Nat) (cursor : Cursor) : items bound (cursor.shift distance) =
    shifted distance (Node.shiftAll distance) (items bound cursor) := by
  induction bound generalizing cursor with
  | zero => rfl
  | succ bound ih =>
    simp only [items, skip_shift, formWith_shift distance ih]
    obtain ⟨offset, rest⟩ := cursor.skip isGap
    simp only [Cursor.shift]
    split
    · rfl
    · simp [shifted, Node.shiftAll, Cursor.shift, Nat.add_right_comm]
    · cases formWith (items bound) ⟨offset, rest⟩ with
      | error last => rfl
      | ok pair =>
        simp only [bind, Except.bind, shifted, ih]
        cases items bound pair.2 with
        | error last => rfl
        | ok pair' => rfl

theorem form_shift (cursor : Cursor) : form (cursor.shift distance) =
    shifted distance (Node.shift distance) (form cursor) :=
  formWith_shift distance (items_shift distance _) cursor

/-- Reading a form starts after the blanks before it. -/
theorem form_prepend {gap : List Char} (blank : ∀ c ∈ gap, isSpace c = true) (offset : Nat)
    (chars : List Char) : form ⟨offset, gap ++ chars⟩ = form ⟨offset + gap.length, chars⟩ := by
  rw [← form_skip (fun _ space => space), ← form_skip (fun _ space => space) ⟨_, chars⟩]
  induction gap generalizing offset with
  | nil => rfl
  | cons c gap ih =>
    obtain ⟨first, others⟩ := List.forall_mem_cons.mp blank
    rw [List.cons_append, Cursor.skip_of_kind _ _ _ _ first, ih others, List.length_cons,
      Nat.add_right_comm, Nat.add_assoc]

end Reader

/-- Blanks before a source move along what is read, and where reading stops or fails. -/
theorem read_indented {gap : List Char} (blank : ∀ c ∈ gap, Reader.isSpace c = true)
    (source : List Char) : read (gap ++ source) =
      match read source with
      | .ok (root, next) => .ok (root.shift gap.length, next + gap.length)
      | .error offset => .error (offset + gap.length) := by
  have moved := Reader.form_shift gap.length (.start source)
  rw [Cursor.start, Cursor.shift] at moved
  rw [read, read, Cursor.start, Reader.form_prepend blank, moved, Cursor.start]
  cases Reader.form ⟨0, source⟩ with
  | error offset => rfl
  | ok pair => rfl

/-! ### Forms -/

/-- A leaf spells the form with its mark moved. -/
theorem SpellsLeaf.shift {offset : Nat} {text : List Char} {form : Form Int}
    (spelled : SpellsLeaf offset text form) (distance : Nat) :
    SpellsLeaf (offset + distance) text (form.map (· + distance)) := by
  cases spelled with
  | symbol text filled whole => exact .symbol text filled whole
  | string body closed =>
    rw [Form.map, Int.add_right_comm]
    exact .string body closed

/-- Where a form ends does not depend on marks. -/
theorem Form.endsBefore_map {α β : Type} {form : Form α} {after : List Char}
    (ends : form.EndsBefore after) (change : α → β) : (form.map change).EndsBefore after := by
  cases form with
  | symbol mark text => exact ends
  | string mark body => trivial
  | list mark items => trivial

/-- A row spells its forms with all marks moved. -/
theorem SpellsRow.shift {offset : Nat} {inner : List Char} {forms : List (Form Int)}
    (row : SpellsRow offset inner forms) (distance : Nat) :
    SpellsRow (offset + distance) inner (Form.mapAll (· + distance) forms) := by
  -- Marks are integers and offsets are not, so the sum is taken on either side.
  have place (offset length : Nat) : ((offset + length : Nat) : Int) + distance =
      (offset + distance + length : Nat) := by
    omega
  induction row with
  | gap gap plain => exact .gap gap plain
  | broken gap spaces breaks =>
    rw [Form.mapAll, Form.map, place]
    exact .broken gap spaces breaks
  | @leaf offset text rest form forms gap spaces first ends others ih =>
    have first := first.shift distance
    rw [Nat.add_right_comm] at first
    rw [Nat.add_right_comm, Nat.add_right_comm offset] at ih
    exact .leaf gap spaces first (Form.endsBefore_map ends _) ih
  | @group offset inner rest items forms gap spaces inside others ihInside ihOthers =>
    rw [Nat.add_right_comm, Nat.add_right_comm offset] at ihInside ihOthers
    rw [Form.mapAll, Form.map, place]
    exact .group gap spaces ihInside ihOthers

/-- A text spells its form with all marks moved. -/
theorem Spells.shift {offset : Nat} {text : List Char} {form : Form Int}
    (spelled : Spells offset text form) (distance : Nat) :
    Spells (offset + distance) text (form.map (· + distance)) := by
  cases spelled with
  | leaf spelled => exact .leaf (spelled.shift distance)
  | group inside =>
    have inside := inside.shift distance
    rw [Nat.add_right_comm] at inside
    exact .group inside

/-- A source that begins with a form still does after blanks. -/
theorem BeginsWith.indented {source : List Char} {form : Form Int} (begins : BeginsWith source form)
    {gap : List Char} (blank : ∀ c ∈ gap, Reader.isSpace c = true) :
    BeginsWith (gap ++ source) (form.map (· + gap.length)) := by
  obtain ⟨gap', text, after, rfl, blank', spelled, ends⟩ := begins
  refine ⟨gap ++ gap', text, after, (List.append_assoc _ _ _).symm,
    List.forall_mem_append.mpr ⟨blank, blank'⟩, ?_, Form.endsBefore_map ends _⟩
  rw [List.length_append, Nat.add_comm]
  exact spelled.shift gap.length

/-! ### Evaluation -/

variable {σ : Type}

def Frame.shift (distance : Nat) (frame : Frame) : Frame :=
  { frame with position := frame.position.map (· + distance) }

/-- A fault that is reported further along, if it has a place. -/
def Fault.shift (distance : Nat) : Fault → Fault
  | .endOfInput message position => .endOfInput message (position.map (· + distance))
  | .evaluation cause position => .evaluation cause (position.map (· + distance))
  | .language message position => .language message (position.map (· + distance))
  | fault => fault

namespace Fault

variable (distance : Nat) (fault : Fault)

/-- The class of a fault does not depend on its position. -/
@[simp] theorem className_shift : (fault.shift distance).className = fault.className := by
  cases fault <;> rfl

@[simp] theorem message_shift : (fault.shift distance).message = fault.message := by
  cases fault <;> rfl

@[simp] theorem symbol_shift : (fault.shift distance).symbol = fault.symbol := by
  cases fault <;> rfl

@[simp] theorem position_shift :
    (fault.shift distance).position = fault.position.map (· + (distance : Int)) := by
  cases fault <;> rfl

end Fault

/-- The machine with the calls in progress further along. -/
def Machine.shift (distance : Nat) (machine : Machine σ) : Machine σ :=
  { machine with stack := machine.stack.map (Frame.shift distance) }

namespace Eval

/-- Two evaluations of which the second is further along, with operations that only give values. -/
def moving (σ : Type) (distance : Nat) :
    Coupling (Runs.state (Machine σ)) (Runs.state (Machine σ)) where
  Kept machine machine' :=
    machine' = machine.shift distance ∧ machine.registry.Each Operation.Gives
  Fails fault fault' := fault' = fault.shift distance

variable {distance : Nat} {reenter : String → Eval σ Value}

/-- Each frame on the one side is that on the other, further along. -/
theorem moving_stacked :
    (moving σ distance).Stacked fun frame frame' => frame.shift distance = id frame' where
  stack := by
    rintro machine _ ⟨rfl, -⟩
    exact Coupling.forall₂_seen.mpr (List.map_id _).symm
  with_stack := by
    rintro machine _ stack stack' ⟨rfl, gives⟩ framed
    have moved : stack.map (Frame.shift distance) = stack' :=
      (Coupling.forall₂_seen.mp framed).trans (List.map_id _)
    exact ⟨moved ▸ rfl, gives⟩
  with_args := by
    rintro frame _ args rfl
    rfl
  listIndex := rfl

/-- Calls are made further along as they are where they stand. -/
theorem evaluates_moving : (moving σ distance).Evaluates reenter reenter
    (fun mark mark' => mark' = mark + distance) fun _ known known' =>
      known' = known ∧ ∀ operation ∈ known.operations, operation.Gives := by
  refine .of_each moving_stacked ?_ ?_ ?_ ?_ ?_ ?_
  · rintro name mark _ rfl
    rfl
  · rintro machine _ ⟨rfl, gives⟩
    exact ⟨rfl, gives⟩
  · intro event
    apply Coupling.Holds.modify
    rintro machine _ ⟨rfl, gives⟩
    exact ⟨rfl, gives⟩
  · intro operation args gives
    obtain ⟨value, gives⟩ := gives args
    rw [gives]
    exact .pure value
  · rintro cause mark _ rfl
    rfl
  · exact fun _ => rfl

end Eval

/-- An indented source has the same tree further along, or none either. -/
theorem parse_indented {gap : List Char} (blank : ∀ c ∈ gap, Reader.isSpace c = true)
    (source : List Char) : parse (gap ++ source) =
      ((parse source).map (Node.shift gap.length)).mapError (Fault.shift gap.length) := by
  rw [parse, parse, read_indented blank]
  cases read source with
  | error offset => rfl
  | ok pair => rfl

/-- The forms of a source and of the indented one differ in their marks. -/
theorem forms_indented {gap : List Char} (blank : ∀ c ∈ gap, Reader.isSpace c = true)
    {source : List Char} {root : Node} (parsed : parse source = .ok root) :
    ∃ form, root.form? source = some form ∧
      (root.shift gap.length).form? (gap ++ source) = some (form.map (· + (gap.length : Int))) := by
  have moved := parse_indented blank source
  rw [parsed] at moved
  -- A tree is that of a form or of a stray parenthesis.
  rcases parse_begins parsed with ⟨form, rfl, begins⟩ | ⟨gap', after, rfl, -, rfl⟩
  · have begins' := begins.indented blank
    have same := Except.ok.inj (begins'.parse.symm.trans moved)
    exact ⟨form, begins.form?, same ▸ begins'.form?⟩
  · -- A closing parenthesis gives a symbol without characters, of which only the mark is left.
    exact ⟨.symbol (gap'.length : Nat) [], rfl, by simp [Node.shift, Span.shift, Node.form?, Form.map]⟩

/-- With operations that only give values an indented source is evaluated as the source is, further
along. -/
theorem Machine.evaluate_prepend (machine : Machine σ)
    (gives : machine.registry.Each Operation.Gives) {gap : List Char}
    (blank : ∀ c ∈ gap, Reader.isSpace c = true) (source : List Char) :
    machine.evaluate (String.ofList (gap ++ source)) =
      ((machine.evaluate (String.ofList source)).1.mapError (Fault.shift gap.length),
        (machine.evaluate (String.ofList source)).2.shift gap.length) := by
  have moved := parse_indented blank source
  rw [← @String.toList_ofList (gap ++ source)] at moved
  cases parsed : parse source with
  | error fault =>
    rw [parsed] at moved
    rw [← @String.toList_ofList source] at parsed
    rw [machine.evaluate_of_error parsed, machine.evaluate_of_error moved]
    rfl
  | ok root =>
    obtain ⟨form, formed, formed'⟩ := forms_indented blank parsed
    rw [parsed] at moved
    rw [← @String.toList_ofList source] at parsed formed
    rw [← @String.toList_ofList (gap ++ source)] at formed'
    have evaluated := machine.evaluate_of_form parsed formed
    have evaluated' := machine.evaluate_of_form moved formed'
    -- Before the form is evaluated no call is in progress, so nothing is further along yet.
    have start : (Eval.moving σ gap.length).Kept { machine with stack := [] }
        { machine with stack := [] } := ⟨rfl, gives⟩
    cases Eval.evaluates_moving.form form _ (form.beside_map _) _ _ start with
    | value ran ran' kept =>
      rw [evaluated.trans ran, evaluated'.trans ran', kept.1]
      rfl
    | fault ran ran' further kept =>
      rw [evaluated.trans ran, evaluated'.trans ran', kept.1, further]
      rfl
    | pardoned _ never => exact never.elim

/-- Blanks before a source only move offsets along. The tree and the place where reading stops or
fails move, and with the standard operations alone the outcome is the same but for the positions of
the fault and of the calls in progress. -/
theorem evaluate_indented (machine : Machine σ) (loaded : machine.registry = Standard.registry)
    {gap : List Char} (blank : ∀ c ∈ gap, Reader.isSpace c = true) (source : List Char) :
    read (gap ++ source) = (match read source with
      | .ok (root, next) => .ok (root.shift gap.length, next + gap.length)
      | .error offset => .error (offset + gap.length)) ∧
    ∃ outcome outcome' after after',
      machine.evaluate (String.ofList source) = (outcome, after) ∧
      machine.evaluate (String.ofList (gap ++ source)) = (outcome', after') ∧
      ((∃ value, outcome = .ok value ∧ outcome' = .ok value) ∨
        ∃ fault fault', outcome = .error fault ∧ outcome' = .error fault' ∧
          fault'.className = fault.className ∧ fault'.message = fault.message ∧
          fault'.symbol = fault.symbol ∧
          fault'.position = fault.position.map (· + (gap.length : Int))) ∧
      after'.frames = after.frames.map (Frame.shift gap.length) := by
  refine ⟨read_indented blank source, ?_⟩
  have moved := machine.evaluate_prepend (by rw [loaded]; exact Standard.registry_gives) blank source
  cases ran : machine.evaluate (String.ofList source) with
  | mk outcome after =>
    rw [ran] at moved
    refine ⟨outcome, _, after, _, rfl, moved, ?_, ?_⟩
    · cases outcome with
      | ok value => exact Or.inl ⟨value, rfl, rfl⟩
      | error fault =>
        refine Or.inr ⟨fault, fault.shift gap.length, rfl, rfl, ?_⟩
        simp
    · simp [Machine.frames, Machine.shift, List.map_reverse]

/-- The place of an argument that has no value, and of the call that it stands in. -/
theorem evaluate_indented_lines :
    (Machine.fresh Standard.registry ()).registry = Standard.registry ∧
    (∀ c ∈ ['\n', '\t'], Reader.isSpace c = true) ∧
    ∃ fault after, (Machine.fresh Standard.registry ()).evaluate "\n\t(add 1 x)" =
        (.error fault, after) ∧
      fault.message = .ok "Unexpected symbol 'x'" ∧ fault.position = some 9 ∧
      after.frames = [⟨"add", [], some 2⟩] := by
  have blank : ∀ c ∈ ['\n', '\t'], Reader.isSpace c = true := List.all_eq_true.mp rfl
  have plain : (Machine.fresh Standard.registry ()).evaluate "(add 1 x)" =
      (.error (.evaluation (.unexpectedSymbol "x") (some 7)),
        { Machine.fresh Standard.registry () with stack := [⟨"add", [], some 0⟩] }) := by
    have parsed : parse "(add 1 x)".toList =
      .ok (.list (some 0) [.symbol ⟨1, 3⟩, .symbol ⟨5, 1⟩, .symbol ⟨7, 1⟩]) := rfl
    have formed : Node.form? "(add 1 x)".toList
      (.list (some 0) [.symbol ⟨1, 3⟩, .symbol ⟨5, 1⟩, .symbol ⟨7, 1⟩]) =
        some (.list 0 [.symbol 1 "add".toList, .symbol 5 "1".toList, .symbol 7 "x".toList]) := rfl
    obtain ⟨known, found⟩ : ∃ known, (Standard.registry (σ := Unit)).lookup "add" = some known :=
      ⟨_, rfl⟩
    rw [Machine.evaluate_of_form _ parsed formed, Eval.form_run_known found]
    exact Eval.run_bind_error rfl
  obtain ⟨-, outcome, outcome', after, after', ran, ran', same, framed⟩ :=
    evaluate_indented (Machine.fresh Standard.registry ()) rfl blank "(add 1 x)".toList
  obtain ⟨rfl, rfl⟩ := Prod.mk.inj (plain.symm.trans ran)
  rcases same with ⟨value, ended, -⟩ | ⟨first, fault, ended, rfl, -, message, -, position⟩
  · cases ended
  · cases ended
    exact ⟨rfl, blank, fault, after', ran', message, position, framed⟩

end HostLisp
