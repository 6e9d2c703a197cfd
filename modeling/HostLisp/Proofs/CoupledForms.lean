import HostLisp.Proofs.Coupling
import HostLisp.Proofs.FormEvaluation

/-!
# Forms side by side

Two evaluators that go through forms of one shape end alike, if they look up, call and note calls
alike.

## Main definitions

`Form.Beside`: forms that differ in their marks alone.

`Coupling.Evaluates`: what two evaluators have to do alike.

## Main results

`Coupling.Evaluates.form`: the forms are then evaluated side by side.

`Coupling.Evaluates.of_each`: two machines of one registry do what they have to, if its operations
are performed side by side.
-/

namespace HostLisp

/-- Forms that differ in their marks alone, which are related one by one. The marks of literals do
not matter, because no fault is reported at one. -/
inductive Form.Beside (Marks : Int → Int → Prop) : Form Int → Form Int → Prop
  | string (mark mark' : Int) (body : List Char) : Beside Marks (.string mark body) (.string mark' body)
  | symbol {mark mark' : Int} (text : List Char) (marks : Marks mark mark') :
      Beside Marks (.symbol mark text) (.symbol mark' text)
  | list {mark mark' : Int} {items items' : List (Form Int)} (marks : Marks mark mark')
      (each : List.Forall₂ (Beside Marks) items items') :
      Beside Marks (.list mark items) (.list mark' items')

namespace Form

mutual

theorem beside_self : ∀ form : Form Int, form.Beside Eq form
  | .string mark body => .string mark mark body
  | .symbol _ text => .symbol text rfl
  | .list _ items => .list rfl (forall₂_self items)

theorem forall₂_self : ∀ forms : List (Form Int), List.Forall₂ (Beside Eq) forms forms
  | [] => .nil
  | form :: rest => .cons (beside_self form) (forall₂_self rest)

end

mutual

/-- A form stands beside itself with other marks. -/
theorem beside_map (change : Int → Int) : ∀ form : Form Int,
    form.Beside (fun mark mark' => mark' = change mark) (form.map change)
  | .string mark body => .string mark (change mark) body
  | .symbol _ text => .symbol text rfl
  | .list _ items => .list rfl (forall₂_mapAll change items)

theorem forall₂_mapAll (change : Int → Int) : ∀ forms : List (Form Int),
    List.Forall₂ (Beside fun mark mark' => mark' = change mark) forms (mapAll change forms)
  | [] => .nil
  | form :: rest => .cons (beside_map change form) (forall₂_mapAll change rest)

end

end Form

namespace Eval

variable {σ : Type}

/-- Goes on with the set of a name. -/
def find (name : String) (position : Option Int) (next : Overloads σ → Eval σ Value) :
    Eval σ Value := do
  match (← get).registry.lookup name with
  | none => throw (.evaluation (.unknownFunction name) position)
  | some known => next known

/-- Goes on with the set that a name has by now. -/
def findAgain (name : String) (known : Overloads σ) (next : Overloads σ → Eval σ Value) :
    Eval σ Value := do
  next (((← get).registry.lookup name).getD known)

/-- A call is looked up before anything of it is evaluated. -/
theorem form_eq_find (reenter : String → Eval σ Value) (mark head : Int) (name : List Char)
    (arguments : List (Form Int)) :
    form reenter (.list mark (.symbol head name :: arguments)) =
      find (String.ofList name) (some head) (fun known => do
        push ⟨String.ofList name, [], some mark⟩
        let args ← forms reenter arguments
        conclude reenter (String.ofList name) known (some head) args) := by
  rw [form]
  rfl

/-- A call is looked up once more when its arguments are known, and only this finds operations that
the arguments have registered. -/
theorem conclude_eq_findAgain (reenter : String → Eval σ Value) (name : String)
    (known : Overloads σ) (position : Option Int) (args : List Value) :
    conclude reenter name known position args = (do
      setArguments args
      findAgain name known fun overloads => do
        let value ← call reenter overloads args position
        pop
        pure value) := rfl

end Eval

namespace Coupling

open Eval (find findAgain push pop setArguments record perform call conclude)

variable {σ τ ς ς' : Type} {first : Runs (Eval σ) ς} {second : Runs (Eval τ) ς'}

/-- What two evaluators have to do alike to go side by side through forms. A name is found to have
sets that are `Known`. -/
structure Evaluates (C : Coupling first second) (reenter : String → Eval σ Value)
    (reenter' : String → Eval τ Value) (Marks : Int → Int → Prop)
    (Known : String → Overloads σ → Overloads τ → Prop) : Prop where
  fails {mark mark' : Int} (cause : Cause) : Marks mark mark' →
    C.Fails (.evaluation cause (some mark)) (.evaluation cause (some mark'))
  digits (count : Nat) : C.Fails (.tooManyDigitsToRead count) (.tooManyDigitsToRead count)
  find {name : String} {head head' : Int} {next : Overloads σ → Eval σ Value}
    {next' : Overloads τ → Eval τ Value} : Marks head head' →
      (∀ known known', Known name known known' → C.Holds (next known) (next' known')) →
      C.Holds (find name (some head) next) (find name (some head') next')
  findAgain {name : String} {known : Overloads σ} {known' : Overloads τ}
    {next : Overloads σ → Eval σ Value} {next' : Overloads τ → Eval τ Value} :
      Known name known known' →
      (∀ found found', Known name found found' → C.Holds (next found) (next' found')) →
      C.Holds (findAgain name known next) (findAgain name known' next')
  push {mark mark' : Int} (name : String) : Marks mark mark' →
    C.Holds (push ⟨name, [], some mark⟩) (push ⟨name, [], some mark'⟩)
  setArguments (args : List Value) : C.Holds (setArguments args) (setArguments args)
  pop : C.Holds pop pop
  call {name : String} {known : Overloads σ} {known' : Overloads τ} {head head' : Int}
    (args : List Value) : Known name known known' → Marks head head' →
      C.Holds (call reenter known args (some head)) (call reenter' known' args (some head'))

namespace Evaluates

variable {C : Coupling first second} {reenter : String → Eval σ Value}
  {reenter' : String → Eval τ Value} {Marks : Int → Int → Prop}
  {Known : String → Overloads σ → Overloads τ → Prop}

/-- Calls whose arguments are known are ended side by side. -/
theorem conclude (evaluates : C.Evaluates reenter reenter' Marks Known) {name : String}
    {known : Overloads σ} {known' : Overloads τ} (begun : Known name known known')
    {head head' : Int} (heads : Marks head head') (args : List Value) :
    C.Holds (conclude reenter name known (some head) args)
      (conclude reenter' name known' (some head') args) := by
  rw [Eval.conclude_eq_findAgain, Eval.conclude_eq_findAgain]
  apply (evaluates.setArguments args).bind
  intro _
  -- What was known when the call began is what is called if nothing is found now.
  apply evaluates.findAgain begun
  intro found found' later
  apply (evaluates.call args later heads).bind
  intro value
  exact evaluates.pop.bind fun _ => .pure value

/-- Symbols of one text give one value, or fail for one cause. -/
theorem symbol (evaluates : C.Evaluates reenter reenter' Marks Known) {mark mark' : Int}
    (marks : Marks mark mark') (text : List Char) :
    C.Holds (Eval.form reenter (.symbol mark text)) (Eval.form reenter' (.symbol mark' text)) := by
  rw [Eval.form, Eval.form]
  -- Only where a fault is reported depends on the mark.
  rcases Atom.ofText_outcome text with ⟨value, each⟩ | ⟨cause, -, each⟩ | ⟨-, each⟩
  · rw [each, each]
    exact .pure value
  · rw [each, each]
    exact .throw (evaluates.fails cause marks)
  · rw [each, each]
    exact .throw (evaluates.digits _)

mutual

/-- Forms that stand beside each other are evaluated side by side. -/
theorem form (evaluates : C.Evaluates reenter reenter' Marks Known) :
    ∀ item item' : Form Int, item.Beside Marks item' →
      C.Holds (Eval.form reenter item) (Eval.form reenter' item')
  | .string _ _, _, .string _ _ _ => .pure _
  | .symbol _ _, _, .symbol text marks => evaluates.symbol marks text
  | .list _ [], _, .list marks .nil => .throw (evaluates.fails .emptyList marks)
  | .list _ (.string _ _ :: _), _, .list marks (.cons (.string _ _ _) _) =>
    .throw (evaluates.fails .headNotSymbol marks)
  | .list _ (.list _ _ :: _), _, .list marks (.cons (.list _ _) _) =>
    .throw (evaluates.fails .headNotSymbol marks)
  | .list _ (.symbol _ _ :: arguments), _, .list marks (.cons (.symbol name heads) each) => by
    rw [Eval.form_eq_find, Eval.form_eq_find]
    -- The name is looked up, the call begins, its arguments are evaluated, and it is ended.
    apply evaluates.find heads
    intro known known' begun
    apply (evaluates.push _ marks).bind
    intro _
    apply (evaluates.forms arguments _ each).bind
    exact evaluates.conclude begun heads

/-- The same of the parts of a form, each of which begins where the one before it ended. -/
theorem forms (evaluates : C.Evaluates reenter reenter' Marks Known) :
    ∀ items items' : List (Form Int), List.Forall₂ (Form.Beside Marks) items items' →
      C.Holds (Eval.forms reenter items) (Eval.forms reenter' items')
  | [], _, .nil => .pure []
  | first :: rest, _, .cons here there =>
    (evaluates.form first _ here).cons (evaluates.forms rest _ there)

end

end Evaluates

/-- Two machines of one registry go side by side through forms, if its operations are performed side
by side and calls stand in places that are related. -/
theorem Evaluates.of_each {C : Coupling (Runs.state (Machine σ)) (Runs.state (Machine σ))}
    {reenter reenter' : String → Eval σ Value} {Marks : Int → Int → Prop}
    {Framed : Frame → Frame → Prop} {Allowed : Operation σ → Prop} (stacked : C.Stacked Framed)
    (framed : ∀ name mark mark', Marks mark mark' →
      Framed ⟨name, [], some mark⟩ ⟨name, [], some mark'⟩)
    (registry : ∀ machine machine', C.Kept machine machine' →
      machine'.registry = machine.registry ∧ machine.registry.Each Allowed)
    (writes : ∀ event, C.Holds (record event) (record event))
    (acts : ∀ operation args, Allowed operation →
      C.Holds (perform reenter (operation.run args)) (perform reenter' (operation.run args)))
    (fails : ∀ cause mark mark', Marks mark mark' →
      C.Fails (.evaluation cause (some mark)) (.evaluation cause (some mark')))
    (digits : ∀ count, C.Fails (.tooManyDigitsToRead count) (.tooManyDigitsToRead count)) :
    C.Evaluates reenter reenter' Marks fun _ known known' =>
      known' = known ∧ ∀ operation ∈ known.operations, Allowed operation where
  fails cause marks := fails cause _ _ marks
  digits := digits
  find {name head head' next next'} heads each := by
    apply Holds.get
    intro machine machine' kept
    obtain ⟨same, allowed⟩ := registry machine machine' kept
    rw [same]
    cases found : machine.registry.lookup name with
    | none => exact .throw (fails _ _ _ heads)
    | some known => exact each known known ⟨rfl, allowed known (Registry.mem_of_lookup found)⟩
  findAgain {name known known' next next'} begun each := by
    obtain ⟨rfl, begun⟩ := begun
    apply Holds.get
    intro machine machine' kept
    obtain ⟨same, allowed⟩ := registry machine machine' kept
    rw [same]
    -- If the name has lost its set, the one that was known before is called.
    cases found : machine.registry.lookup name with
    | none => exact each _ _ ⟨rfl, begun⟩
    | some later => exact each later later ⟨rfl, allowed later (Registry.mem_of_lookup found)⟩
  push name marks := stacked.push (framed name _ _ marks)
  setArguments := stacked.setArguments
  pop := stacked.pop
  call {name known known' head head'} args begun heads := by
    obtain ⟨rfl, allowed⟩ := begun
    have written : C.Writes known'.name args known'.operations.length known'.operations.length :=
      ⟨writes _, fun _ => writes _, fun _ _ => writes _⟩
    apply written.calls_same
    · exact fun operation member => acts operation args (allowed operation member)
    · exact fun cause => fails cause _ _ heads

end Coupling

end HostLisp
