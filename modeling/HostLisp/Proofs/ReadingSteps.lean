import HostLisp.Proofs.Placement
import Mathlib.Logic.Function.Iterate

/-!
# Reading step by step

The readers call each other. Here reading is a run of a machine instead, which looks at one
character in each step and keeps the lists that it is inside of beside its cursor, so that there is
something to be said about every place where reading comes by, and about its end.

## Main results

`Reader.leads_read`: each run ends, with what the readers return.

`Reader.State.advances`: a step leaves the cursor where it is or takes the next character.

`Reader.called_form`: a form that a list calls for ends the run or takes characters.

## Proof strategy

Each reader is a stretch of the run. That a list comes to its end is an induction on the characters
that are left, as for the readers themselves.
-/

namespace HostLisp.Reader

/-! ### The machine -/

/-- A list that is being read: where it starts, and its items so far. -/
structure Pending where
  start : Nat
  items : List Node

/-- What is being read at a cursor. Of a string literal and a symbol the start is known, and of a
literal whether the next character follows a backslash that protects it. -/
inductive Task
  | form
  | items (pending : Pending)
  | string (start : Nat) (escaping : Bool)
  | symbol (start : Nat)
  /-- A form has been read, and is handed to the list around it. -/
  | give (node : Node)

/-- A state of reading: the task at the cursor, and the lists that wait for a form, innermost first. -/
structure State where
  task : Task
  cursor : Cursor
  around : List Pending

/-- A run of reading goes on or has ended, with what it returns. -/
inductive Run
  | going (state : State)
  | ended (result : Except Nat (Node × Nat))

def formStep (cursor : Cursor) (around : List Pending) : Run :=
  match cursor.rest with
  | [] => .ended (.error cursor.offset)
  | c :: rest =>
    let next : Cursor := ⟨cursor.offset + 1, rest⟩
    if c = '"' then .going ⟨.string next.offset false, next, around⟩
    else if c = '(' then .going ⟨.items ⟨cursor.offset, []⟩, next, around⟩
    else if isSpace c then .going ⟨.form, next, around⟩
    else .going ⟨.symbol cursor.offset, cursor, around⟩

/-- A list calls for a form without taking a character itself. -/
def itemsStep (pending : Pending) (cursor : Cursor) (around : List Pending) : Run :=
  match cursor.rest with
  | [] => .ended (.error cursor.offset)
  | c :: rest =>
    let next : Cursor := ⟨cursor.offset + 1, rest⟩
    if c = ')' then .going ⟨.give (.list (some (pending.start : Int)) pending.items), next, around⟩
    else if isGap c then .going ⟨.items pending, next, around⟩
    else .going ⟨.form, cursor, pending :: around⟩

def stringStep (start : Nat) (escaping : Bool) (cursor : Cursor) (around : List Pending) : Run :=
  match cursor.rest with
  | [] => .ended (.error cursor.offset)
  | c :: rest =>
    let next : Cursor := ⟨cursor.offset + 1, rest⟩
    if escaping then .going ⟨.string start false, next, around⟩
    else if c = '\\' then .going ⟨.string start true, next, around⟩
    else if c = '"' then
      .going ⟨.give (.string ⟨start, (next.offset : Int) - start - 1⟩), next, around⟩
    else .going ⟨.string start false, next, around⟩

/-- A symbol takes the one space that may follow it, and leaves any other character that ends it. -/
def symbolStep (start : Nat) (cursor : Cursor) (around : List Pending) : Run :=
  let node := .symbol ⟨start, (cursor.offset : Int) - start⟩
  match cursor.rest with
  | [] => .going ⟨.give node, cursor, around⟩
  | c :: rest =>
    let next : Cursor := ⟨cursor.offset + 1, rest⟩
    if c = ' ' then .going ⟨.give node, next, around⟩
    else if endsSymbol c then .going ⟨.give node, cursor, around⟩
    else .going ⟨.symbol start, next, around⟩

def giveStep (node : Node) (cursor : Cursor) : List Pending → Run
  | [] => .ended (.ok (node, cursor.offset))
  | pending :: around => .going ⟨.items ⟨pending.start, pending.items ++ [node]⟩, cursor, around⟩

def State.step (state : State) : Run :=
  match state.task with
  | .form => formStep state.cursor state.around
  | .items pending => itemsStep pending state.cursor state.around
  | .string start escaping => stringStep start escaping state.cursor state.around
  | .symbol start => symbolStep start state.cursor state.around
  | .give node => giveStep node state.cursor state.around

namespace Run

def step : Run → Run
  | .going state => state.step
  | .ended result => .ended result

/-- The run at the start of a source. -/
def start (source : List Char) : Run := .going ⟨.form, .start source, []⟩

/-- A run comes to another after some steps. -/
def Leads (run run' : Run) : Prop := ∃ count, step^[count] run = run'

theorem Leads.refl (run : Run) : run.Leads run := ⟨0, rfl⟩

theorem Leads.trans {run run' run'' : Run} (first : run.Leads run') (second : run'.Leads run'') :
    run.Leads run'' := by
  obtain ⟨count, rfl⟩ := first
  obtain ⟨count', rfl⟩ := second
  exact ⟨count' + count, Function.iterate_add_apply step count' count run⟩

theorem Leads.after {run run' : Run} (rest : run.step.Leads run') : run.Leads run' :=
  Leads.trans ⟨1, rfl⟩ rest

end Run

/-! ### Stretches of a run -/

/-- A run that hands over what a reader returns, or ends where it fails. -/
def given (around : List Pending) : Except Nat (Node × Cursor) → Run
  | .ok (node, next) => .going ⟨.give node, next, around⟩
  | .error offset => .ended (.error offset)

open Run (Leads)

section

variable (around : List Pending)

theorem form_skip_leads (cursor : Cursor) :
    Leads (.going ⟨.form, cursor, around⟩) (.going ⟨.form, cursor.skip isSpace, around⟩) := by
  obtain ⟨offset, chars⟩ := cursor
  induction chars generalizing offset with
  | nil => exact .refl _
  | cons c rest ih =>
    cases space : isSpace c with
    | false =>
      rw [Cursor.skip_of_not_kind _ _ _ _ space]
      exact .refl _
    | true =>
      obtain ⟨notOpening, -, notQuote⟩ := Token.ne_of_isSpace space
      rw [Cursor.skip_of_kind _ _ _ _ space]
      apply Leads.after
      -- A blank keeps the task, and the run goes on from the character after it.
      simpa [Run.step, State.step, formStep, notOpening, notQuote, space] using ih (offset + 1)

theorem items_skip_leads (pending : Pending) (cursor : Cursor) :
    Leads (.going ⟨.items pending, cursor, around⟩)
      (.going ⟨.items pending, cursor.skip isGap, around⟩) := by
  obtain ⟨offset, chars⟩ := cursor
  induction chars generalizing offset with
  | nil => exact .refl _
  | cons c rest ih =>
    cases gap : isGap c with
    | false =>
      rw [Cursor.skip_of_not_kind _ _ _ _ gap]
      exact .refl _
    | true =>
      -- The machine asks for a closing parenthesis first, and no gap is one.
      have notClosing : c ≠ ')' := (Token.ne_of_isSpace (by simp [isSpace, gap])).2.1
      rw [Cursor.skip_of_kind _ _ _ _ gap]
      apply Leads.after
      simpa [Run.step, State.step, itemsStep, notClosing, gap] using ih (offset + 1)

theorem string_leads (start offset : Nat) (chars : List Char) :
    Leads (.going ⟨.string start false, ⟨offset, chars⟩, around⟩)
      (given around ((stringEnd offset chars).map fun next =>
        (.string ⟨start, (next.offset : Int) - start - 1⟩, next))) := by
  -- The cases are those of the reader, which takes a backslash and what it protects at once.
  induction offset, chars using stringEnd.induct with
  | case1 offset => exact .after (.refl _)
  | case2 offset => exact .after (.after (.refl _))
  | case3 offset c rest ih =>
    rw [stringEnd]
    exact .after (.after ih)
  | case4 offset rest => exact .after (.refl _)
  | case5 offset c rest plain notLast notQuote ih =>
    have notBackslash : c ≠ '\\' := by
      rintro rfl
      cases rest with
      | nil => exact plain rfl rfl
      | cons d rest => exact notLast d rest rfl rfl
    have closes : c ≠ '"' := fun same => notQuote same
    rw [stringEnd]
    · apply Leads.after
      simpa [Run.step, State.step, stringStep, notBackslash, closes] using ih
    all_goals assumption

theorem symbol_leads (start : Nat) (cursor : Cursor) :
    Leads (.going ⟨.symbol start, cursor, around⟩)
      (.going ⟨.give (.symbol ⟨start, ((cursor.skip (!endsSymbol ·)).offset : Int) - start⟩),
        (symbol cursor).2, around⟩) := by
  obtain ⟨offset, chars⟩ := cursor
  induction chars generalizing offset with
  | nil => exact .after (.refl _)
  | cons c rest ih =>
    cases ends : endsSymbol c with
    | true =>
      have stays := Cursor.skip_of_not_kind (!endsSymbol ·) offset c rest (by simp [ends])
      rw [stays]
      apply Leads.after
      -- Reader and machine take the space, although the symbol has ended in front of it.
      by_cases space : c = ' '
      · subst space
        simpa [Run.step, State.step, symbolStep, symbol, stays] using Leads.refl _
      · simpa [Run.step, State.step, symbolStep, symbol, stays, ends, space] using Leads.refl _
    | false =>
      have passed := Cursor.skip_of_kind (!endsSymbol ·) offset c rest (by simp [ends])
      have same : (symbol ⟨offset, c :: rest⟩).2 = (symbol ⟨offset + 1, rest⟩).2 := by
        simp only [symbol, passed]
        split <;> rfl
      -- Only a space ends a symbol and is taken with it.
      have notSpace : c ≠ ' ' := by
        rintro rfl
        simp [endsSymbol, isSpace, isGap] at ends
      rw [passed, same]
      apply Leads.after
      simpa [Run.step, State.step, symbolStep, notSpace, ends] using ih (offset + 1)

end

/-- What the reader of a list returns, as the list with the items that were read before. -/
def closed (pending : Pending) :
    Except Nat (List Node × Cursor) → Except Nat (Node × Cursor) :=
  Except.map fun (nodes, next) => (.list (some (pending.start : Int)) (pending.items ++ nodes), next)

/-- A form is read as by its reader, if a list of which less is left is. -/
private theorem form_leads_of (around : List Pending) (cursor : Cursor)
    (inside : ∀ inner : Cursor, inner.rest.length < cursor.rest.length → ∀ pending,
      Leads (.going ⟨.items pending, inner, around⟩) (given around (closed pending (list inner)))) :
    Leads (.going ⟨.form, cursor, around⟩) (given around (form cursor)) := by
  have skipped := Cursor.length_skip_le isSpace cursor
  apply (form_skip_leads around cursor).trans
  cases chars : (cursor.skip isSpace).rest with
  | nil =>
    rw [form_ended cursor chars]
    apply Leads.after
    simp only [Run.step, State.step, formStep, chars]
    exact .refl _
  | cons c rest =>
    rw [chars, List.length_cons] at skipped
    apply Leads.after
    by_cases quote : c = '"'
    · subst quote
      rw [form_string cursor rest chars]
      simp only [Run.step, State.step, formStep, chars, if_true]
      exact string_leads around _ _ rest
    by_cases opening : c = '('
    · subst opening
      have items := inside ⟨(cursor.skip isSpace).offset + 1, rest⟩ (by simp only; omega)
        ⟨(cursor.skip isSpace).offset, []⟩
      rw [form_list cursor rest chars]
      simp only [Run.step, State.step, formStep, chars, quote, if_false, if_true]
      -- The list has no items yet, so its items are those that are read.
      cases result : list ⟨(cursor.skip isSpace).offset + 1, rest⟩ with
      | error offset => rwa [result] at items
      | ok pair => rwa [result] at items
    · have notSpace : isSpace c = false := Cursor.head_skip _ _ _ _ chars
      rw [form_symbol cursor c rest chars quote opening, given, symbol_node]
      simp only [Run.step, State.step, formStep, chars, quote, opening, notSpace, if_false,
        Bool.false_eq_true]
      exact symbol_leads around _ _

/-- A list is read as by its reader. The induction is on the characters that are left. -/
theorem list_leads (around : List Pending) (cursor : Cursor) (pending : Pending) :
    Leads (.going ⟨.items pending, cursor, around⟩)
      (given around (closed pending (list cursor))) := by
  induction size : cursor.rest.length using Nat.strong_induction_on
    generalizing around cursor pending with
  | h size ih =>
    have skipped := Cursor.length_skip_le isGap cursor
    apply (items_skip_leads around pending cursor).trans
    cases chars : (cursor.skip isGap).rest with
    | nil =>
      rw [list_ended cursor chars]
      apply Leads.after
      simp only [Run.step, State.step, itemsStep, chars]
      exact .refl _
    | cons c rest =>
      apply Leads.after
      by_cases closing : c = ')'
      · subst closing
        rw [list_closed cursor rest chars]
        simp only [Run.step, State.step, itemsStep, chars, if_true, closed, Except.map, given,
          List.append_nil]
        exact .refl _
      have notGap : isGap c = false := Cursor.head_skip _ _ _ _ chars
      -- The form is read above the list that waits for it, with less of the source to read.
      have first := form_leads_of (pending :: around) (cursor.skip isGap) fun inner shorter =>
        fun pending' => ih inner.rest.length (by omega) _ inner pending' rfl
      rw [list_item cursor c rest chars closing]
      simp only [Run.step, State.step, itemsStep, chars, closing, notGap, if_false,
        Bool.false_eq_true]
      apply first.trans
      cases result : form (cursor.skip isGap) with
      | error offset => exact .refl _
      | ok pair =>
        obtain ⟨node, middle⟩ := pair
        -- The item is no closing parenthesis, so it leaves less for the rest of the list.
        have shorter := (form_length _ _ _ result).2
          (fun rest' closes => closing (List.cons.inj (chars.symm.trans closes)).1)
        have others := ih middle.rest.length (by omega) around middle
          ⟨pending.start, pending.items ++ [node]⟩ rfl
        apply Leads.after
        simp only [bind, Except.bind]
        cases later : list middle with
        | error offset => rwa [later] at others
        | ok pair =>
          rw [later] at others
          simpa [Run.step, State.step, giveStep, given, closed, Except.map] using others

theorem form_leads (around : List Pending) (cursor : Cursor) :
    Leads (.going ⟨.form, cursor, around⟩) (given around (form cursor)) :=
  form_leads_of around cursor fun inner _ pending => list_leads around inner pending

/-- The run of a source ends with what reading it returns. -/
theorem leads_read (source : List Char) : (Run.start source).Leads (.ended (read source)) := by
  have first := form_leads [] (.start source)
  apply first.trans
  rw [read]
  cases form (.start source) with
  | error offset => exact .refl _
  | ok pair => exact .after (.refl _)

/-! ### The cursor -/

/-- What a step does to the cursor: it leaves it, takes the next character or ends the run, and it
fails at the end of the source only. -/
inductive Advances (cursor : Cursor) : Run → Prop
  | stays {state : State} (same : state.cursor = cursor) : Advances cursor (.going state)
  | takes {state : State} {c : Char} {rest : List Char} (next : cursor.rest = c :: rest)
      (passed : state.cursor = ⟨cursor.offset + 1, rest⟩) : Advances cursor (.going state)
  | returned (node : Node) : Advances cursor (.ended (.ok (node, cursor.offset)))
  | failed (ended : cursor.rest = []) : Advances cursor (.ended (.error cursor.offset))

theorem State.advances (state : State) : Advances state.cursor state.step := by
  obtain ⟨task, ⟨offset, chars⟩, around⟩ := state
  cases task with
  | form =>
    cases chars with
    | nil => exact .failed rfl
    | cons c rest =>
      simp only [State.step, formStep]
      split_ifs
      all_goals first | exact .takes rfl rfl | exact .stays rfl
  | items pending =>
    cases chars with
    | nil => exact .failed rfl
    | cons c rest =>
      simp only [State.step, itemsStep]
      split_ifs
      all_goals first | exact .takes rfl rfl | exact .stays rfl
  | string start escaping =>
    cases chars with
    | nil => exact .failed rfl
    | cons c rest =>
      simp only [State.step, stringStep]
      split_ifs
      -- Inside of a literal every character is taken, the closing quote as well.
      all_goals exact .takes rfl rfl
  | symbol start =>
    cases chars with
    | nil => exact .stays rfl
    | cons c rest =>
      simp only [State.step, symbolStep]
      split_ifs
      all_goals first | exact .takes rfl rfl | exact .stays rfl
  | give node =>
    cases around with
    | nil => exact .returned node
    | cons pending around => exact .stays rfl

namespace Run

/-- The offset at which a run is, or that at which it has ended. -/
def offset : Run → Nat
  | .going state => state.cursor.offset
  | .ended (.ok (_, offset)) => offset
  | .ended (.error offset) => offset

/-- A run is in a source of a size. One that fails has come to the end of the source. -/
def Within (size : Nat) : Run → Prop
  | .going state => state.cursor.stop = size
  | .ended (.ok (_, offset)) => offset ≤ size
  | .ended (.error offset) => offset = size

variable {size : Nat} {run run' : Run}

theorem Within.offset_le (within : run.Within size) : run.offset ≤ size := by
  cases run with
  | going state =>
    have stop : state.cursor.offset + state.cursor.rest.length = size := within
    exact stop ▸ Nat.le_add_right _ _
  | ended result =>
    cases result with
    | ok pair => exact within
    | error offset => exact Nat.le_of_eq within

end Run

namespace Advances

variable {cursor : Cursor} {run : Run}

theorem offset_le (advances : Advances cursor run) : cursor.offset ≤ run.offset := by
  cases advances with
  | stays same => exact same ▸ Nat.le_refl _
  | takes next passed =>
    rw [Run.offset, passed]
    exact Nat.le_succ _
  | returned node => exact Nat.le_refl _
  | failed ended => exact Nat.le_refl _

theorem within (advances : Advances cursor run) : run.Within cursor.stop := by
  cases advances with
  | stays same => exact congrArg Cursor.stop same
  | takes next passed =>
    rw [Run.Within, passed]
    simp only [Cursor.stop, next, List.length_cons]
    omega
  | returned node => exact Nat.le_add_right _ _
  | failed ended =>
    rw [Run.Within, Cursor.stop, ended]
    rfl

end Advances

namespace Run

variable {size : Nat} {run run' : Run}

theorem offset_le_step (run : Run) : run.offset ≤ run.step.offset := by
  cases run with
  | going state => exact state.advances.offset_le
  | ended result => exact Nat.le_refl _

/-- A step stays in the source. -/
theorem Within.step (within : run.Within size) : run.step.Within size := by
  cases run with
  | going state =>
    obtain rfl : state.cursor.stop = size := within
    exact state.advances.within
  | ended result => exact within

theorem Within.iterate (within : run.Within size) (count : Nat) :
    (Run.step^[count] run).Within size := by
  induction count with
  | zero => exact within
  | succ count ih =>
    rw [Function.iterate_succ_apply']
    exact ih.step

theorem start_within (source : List Char) : (start source).Within source.length :=
  Nat.zero_add _

end Run

/-! ### Calls -/

/-- A list calls for a form where it does not end and no gap stands, and the form is read there. -/
theorem called_form {state inner : State} {pending : Pending} (task : state.task = .items pending)
    (called : state.step = .going inner) (reads : inner.task = .form) :
    inner.cursor = state.cursor ∧ inner.around = pending :: state.around ∧
      ∀ rest, state.cursor.rest ≠ ')' :: rest := by
  obtain ⟨_, ⟨offset, chars⟩, around⟩ := state
  simp only at task
  subst task
  cases chars with
  | nil => cases called
  | cons c rest =>
    simp only [State.step, itemsStep] at called
    -- At a closing parenthesis and at a gap the list reads no form.
    split_ifs at called with closing gap
    · cases called
      cases reads
    · cases called
      cases reads
    · cases called
      exact ⟨rfl, rfl, fun rest' closes => closing (List.cons.inj closes).1⟩

/-- A form that a list calls for ends the run, or is handed back to the list at a later offset. -/
theorem called_advances {state inner : State} {pending : Pending}
    (task : state.task = .items pending) (called : state.step = .going inner)
    (reads : inner.task = .form) :
    match form state.cursor with
    | .error offset => Leads (.going inner) (.ended (.error offset))
    | .ok (node, next) =>
        Leads (.going inner) (.going ⟨.give node, next, pending :: state.around⟩) ∧
        state.cursor.offset < next.offset := by
  obtain ⟨sameCursor, sameAround, notClosing⟩ := called_form task called reads
  obtain ⟨_, cursor, around⟩ := inner
  simp only at sameCursor sameAround reads
  subst sameCursor sameAround reads
  have leads := form_leads (pending :: state.around) state.cursor
  cases result : form state.cursor with
  | error offset =>
    rw [result] at leads
    exact leads
  | ok pair =>
    obtain ⟨node, next⟩ := pair
    rw [result] at leads
    refine ⟨leads, ?_⟩
    -- The run stays in the source, so what is left shrinks as the offset grows.
    obtain ⟨count, reached⟩ := leads
    have start : (Run.going ⟨.form, state.cursor, pending :: state.around⟩).Within
        state.cursor.stop := rfl
    have stop : next.stop = state.cursor.stop := by
      have within := start.iterate count
      rw [reached] at within
      exact within
    have shorter := (form_length _ _ _ result).2 notClosing
    simp only [Cursor.stop] at stop
    omega

end HostLisp.Reader
