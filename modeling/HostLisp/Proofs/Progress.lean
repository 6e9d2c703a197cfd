import HostLisp.Proofs.Leaves
import HostLisp.Proofs.ReadingSteps
import HostLisp.Proofs.Spelling

/-!
# Reading makes progress

A list takes no character before it calls for a form, and a symbol may be read without taking one.
Still reading always comes to its end, because the two never meet at one character, and so a tree
is no larger than what was read for it.

## Main results

`read_size_le`: a tree has no more nodes than characters were read, but for a symbol without
characters, which is one node.

`reading_progresses`: calls move on, the cursor never goes back or beyond the source, reading ends,
and the tree is small and has no two equal leaves.

## Proof strategy

Each node of a tree has a character of its own: a list a parenthesis, a literal a quote, a symbol
one of its characters, and a symbol without characters a line break in front of it. The induction
is on how the tree is spelled.
-/

namespace HostLisp

open Reader (Cursor)

/-! ### The size of a tree -/

namespace Node

mutual

/-- The number of nodes of a tree. -/
def size : Node → Nat
  | .symbol _ => 1
  | .string _ => 1
  | .list _ children => 1 + sizes children
  | .value _ => 1
termination_by structural node => node

def sizes : List Node → Nat
  | [] => 0
  | node :: rest => size node + sizes rest
termination_by structural nodes => nodes

end

end Node

theorem SpellsLeaf.size_le {offset : Nat} {text : List Char} {form : Form Int}
    (spelled : SpellsLeaf offset text form) : form.node.size ≤ text.length := by
  cases spelled with
  | symbol text filled whole => exact List.length_pos_iff.mpr filled
  | string body closed => exact Nat.succ_le_succ (Nat.zero_le _)

/-- The nodes of a row are no more than its characters. -/
theorem SpellsRow.sizes_le {offset : Nat} {inner : List Char} {forms : List (Form Int)}
    (row : SpellsRow offset inner forms) : Node.sizes (Form.nodes forms) ≤ inner.length := by
  induction row with
  | gap gap plain => exact Nat.zero_le _
  | broken gap spaces breaks =>
    -- The line break stands for the symbol that has no character.
    obtain ⟨c, member, -⟩ := breaks
    exact List.length_pos_of_mem member
  | leaf gap spaces first ends others ih =>
    have here := first.size_le
    simp only [Form.nodes, Node.sizes, List.length_append]
    omega
  | group gap spaces inside others ihInside ihOthers =>
    -- The list itself has two parentheses, of which one would do.
    simp only [Form.nodes, Form.node, Node.sizes, Node.size, List.length_append, List.length_cons,
      List.length_nil]
    omega

theorem Spells.size_le {offset : Nat} {text : List Char} {form : Form Int}
    (spelled : Spells offset text form) : form.node.size ≤ text.length := by
  cases spelled with
  | leaf spelled => exact spelled.size_le
  | group inside =>
    have items := inside.sizes_le
    simp only [Form.node, Node.size, List.length_cons, List.length_append, List.length_nil]
    omega

theorem Form.le_cursorAfter {α : Type} (form : Form α) (offset : Nat) (after : List Char) :
    offset ≤ (form.cursorAfter offset after).offset := by
  unfold cursorAfter
  split
  · split
    · exact Nat.le_succ _
    · exact Nat.le_refl _
  · exact Nat.le_refl _

/-- A tree has no more nodes than characters were read, unless it is a symbol without characters. -/
theorem read_size_le {source : List Char} {root : Node} {offset : Nat}
    (returned : read source = .ok (root, offset)) : root.size ≤ max 1 offset := by
  have parsed : parse source = .ok root := by rw [parse, returned]
  -- Either one form is spelled at the front, or the source begins with a closing parenthesis.
  rcases parse_begins parsed with
    ⟨form, rfl, gap, text, after, rfl, spaces, spelled, ends⟩ | ⟨gap, after, rfl, spaces, rfl⟩
  · obtain ⟨-, rfl⟩ := Prod.mk.inj (Except.ok.inj ((read_spelled spaces spelled ends).symm.trans
      returned))
    have small := spelled.size_le
    have passed := form.le_cursorAfter (gap.length + text.length) after
    omega
  · exact Nat.le_max_left 1 offset

/-! ### Progress -/

/-- A form that a list calls for ends the run or is handed back at a later offset, although at a
closing parenthesis a symbol is read without moving. The cursor never goes back and stays in the
source, and each run ends with what reading returns. A tree that it returns has no more nodes than
characters were read, or is one node, and no two of its leaves are equal. -/
theorem reading_progresses (source : List Char) :
    (∀ (state inner : Reader.State) (pending : Reader.Pending), state.task = .items pending →
      state.step = .going inner → inner.task = .form →
      match Reader.form state.cursor with
      | .error offset => Reader.Run.Leads (.going inner) (.ended (.error offset))
      | .ok (node, next) =>
          Reader.Run.Leads (.going inner) (.going ⟨.give node, next, pending :: state.around⟩) ∧
          state.cursor.offset < next.offset) ∧
    (∀ offset rest, Reader.symbol ⟨offset, ')' :: rest⟩ =
      (.symbol ⟨offset, 0⟩, ⟨offset, ')' :: rest⟩)) ∧
    (∀ count, (Reader.Run.step^[count] (.start source)).offset ≤
        (Reader.Run.step^[count + 1] (.start source)).offset ∧
      (Reader.Run.step^[count] (.start source)).offset ≤ source.length) ∧
    (Reader.Run.start source).Leads (.ended (read source)) ∧
    ∀ root offset, read source = .ok (root, offset) → root.size ≤ max 1 offset ∧
      root.leaves.Pairwise fun first second => first.equals second = false := by
  -- The call of a form and the end of the run are known; the rest is one step and what it gives.
  refine ⟨fun _ _ _ => Reader.called_advances, ?_, ?_, Reader.leads_read source, ?_⟩
  · intro offset rest
    have stays := Cursor.skip_of_not_kind (!Reader.endsSymbol ·) offset ')' rest rfl
    simp [Reader.symbol, stays]
  · intro count
    rw [Function.iterate_succ_apply']
    exact ⟨Reader.Run.offset_le_step _, ((Reader.Run.start_within source).iterate count).offset_le⟩
  · intro root offset returned
    have parsed : parse source = .ok root := by rw [parse, returned]
    exact ⟨read_size_le returned, parse_leaves_distinct parsed⟩

/-- A list whose one item has no characters: calling for it takes the line break. -/
theorem reading_progresses_broken :
    read "(\n)".toList = .ok (.list (some 0) [.symbol ⟨2, 0⟩], 3) ∧
    Reader.Run.Leads (.going ⟨.form, ⟨1, ['\n', ')']⟩, [⟨0, []⟩]⟩)
      (.going ⟨.give (.symbol ⟨2, 0⟩), ⟨2, [')']⟩, [⟨0, []⟩]⟩) ∧
    (Node.list (some 0) [.symbol ⟨2, 0⟩]).size ≤ max 1 3 := by
  obtain ⟨calls, -, -, -, trees⟩ := reading_progresses "(\n)".toList
  have returned : read "(\n)".toList = .ok (.list (some 0) [.symbol ⟨2, 0⟩], 3) := rfl
  have called := calls ⟨.items ⟨0, []⟩, ⟨1, ['\n', ')']⟩, []⟩ _ _ rfl rfl rfl
  exact ⟨returned, called.1, (trees _ _ returned).1⟩

end HostLisp
