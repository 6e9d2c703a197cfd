import HostLisp.Host.Binding
import HostLisp.Proofs.NotedRegistrations
import HostLisp.Proofs.RepeatedRuns
import HostLisp.Proofs.ReachedForms
import HostLisp.Standard
import Mathlib.Data.List.Induction

/-!
# The history of a registry

A registry is decided by all that was registered so far, in order, from wherever it came: it lists
each symbol once, and each symbol has the operations that were registered under it. So it only
grows.

## Main results

`Registry.records_registerAll`: a registry records what was registered in it.

`Registry.growsTo_registerAll`: registration keeps symbols and operations where they are.

`registry_history`: after any steps, and at each moment of the evaluation of a source, the registry
of an environment records what was registered in it.

## Proof strategy

`Registry.Records` is kept by one registration. The notes of a host tell what evaluations register,
and `Eval.Passes` follows an evaluation to each of its moments, which are those of the evaluation
with notes.
-/

namespace HostLisp

variable {σ : Type}

/-! ### What a registry records -/

namespace Registry

variable {registry : Registry σ} {made : List (String × Operation σ)}

private theorem names_insert (symbol : String) (operation : Operation σ)
    (sets : List (Overloads σ)) : (insert symbol operation sets).map Overloads.name =
      if symbol ∈ sets.map Overloads.name then sets.map Overloads.name
      else sets.map Overloads.name ++ [symbol] := by
  induction sets with
  | nil => simp [insert]
  | cons first rest ih =>
    rw [insert]
    by_cases same : first.name = symbol
    · simp [same]
    -- The names keep their order, and a new one stands at the end.
    · simp only [if_neg same, List.map_cons, ih, List.mem_cons, Ne.symm same, false_or]
      split_ifs
      · rfl
      · rfl

theorem symbols_register (registry : Registry σ) (symbol : String) (operation : Operation σ) :
    (registry.register symbol operation).symbols =
      if symbol ∈ registry.symbols then registry.symbols else registry.symbols ++ [symbol] :=
  names_insert symbol operation registry.sets

/-- A registry lists each symbol that something was registered under, once and in the order of the
first registrations. A symbol has a set if it is listed, with the operations that were registered
under it, in order. -/
structure Records (registry : Registry σ) (made : List (String × Operation σ)) : Prop where
  symbols : registry.symbols = (made.map Prod.fst).eraseDups
  once : registry.symbols.Nodup
  contains : ∀ symbol, registry.contains symbol = true ↔ symbol ∈ registry.symbols
  size : registry.size = registry.symbols.length
  lookup : ∀ symbol, registry.lookup symbol =
    if symbol ∈ registry.symbols then some ⟨symbol, under symbol made⟩ else none
  sets : ∀ overloads ∈ registry.sets,
    registry.lookup overloads.name = some overloads ∧ overloads.operations ≠ []

theorem under_append (name : String) (first second : List (String × Operation σ)) :
    under name (first ++ second) = under name first ++ under name second := by
  simp [under]

theorem under_eq_nil_iff {name : String} : under name made = [] ↔ name ∉ made.map Prod.fst := by
  simp only [under, List.map_eq_nil_iff, List.filter_eq_nil_iff, List.mem_map]
  grind

/-- The sets of a registry are found under their names if these are all different. -/
theorem lookup_of_mem (once : registry.symbols.Nodup) {overloads : Overloads σ}
    (member : overloads ∈ registry.sets) : registry.lookup overloads.name = some overloads := by
  obtain ⟨before, rest, split⟩ := List.append_of_mem member
  rw [Registry.symbols, split, List.map_append, List.map_cons] at once
  rw [lookup, List.find?_eq_some_iff_append]
  refine ⟨decide_eq_true rfl, before, rest, split, ?_⟩
  intro earlier inside
  -- An earlier set of this name would be what a look-up finds.
  have other : earlier.name ≠ overloads.name := by
    intro same
    have apart := (List.nodup_append.mp once).2.2
    exact apart _ (List.mem_map_of_mem inside) _ List.mem_cons_self same
  simpa using other

theorem Records.mem_symbols (records : registry.Records made) {symbol : String} :
    symbol ∈ registry.symbols ↔ symbol ∈ made.map Prod.fst := by
  rw [records.symbols, List.mem_eraseDups]

theorem records_empty : (empty : Registry σ).Records [] where
  symbols := rfl
  once := List.nodup_nil
  contains := by simp [Registry.contains]
  size := rfl
  lookup _ := rfl
  sets := nofun

private theorem Records.listed (records : registry.Records made) (symbol : String)
    (operation : Operation σ) : (registry.register symbol operation).symbols =
      ((made ++ [(symbol, operation)]).map Prod.fst).eraseDups := by
  rw [symbols_register, List.map_append, List.eraseDups_append, ← records.symbols,
    List.map_singleton]
  simp only [records.mem_symbols, List.removeAll]
  -- A symbol is listed once more only if it is new.
  by_cases known : symbol ∈ made.map Prod.fst
  · simp [known]
  · simp [known, List.eraseDups_cons]

private theorem Records.found (records : registry.Records made) (symbol name : String)
    (operation : Operation σ) : (registry.register symbol operation).lookup name =
      if name ∈ (registry.register symbol operation).symbols then
        some ⟨name, under name (made ++ [(symbol, operation)])⟩ else none := by
  have named : name ∈ (registry.register symbol operation).symbols ↔
      name ∈ registry.symbols ∨ name = symbol := by
    rw [records.listed, List.mem_eraseDups, List.map_append, List.mem_append, records.mem_symbols]
    simp
  rw [lookup_register, under_append, records.lookup, records.lookup]
  simp only [named]
  by_cases same : name = symbol
  · subst same
    by_cases known : name ∈ registry.symbols
    · simp [known, under]
    · -- A symbol that is not listed has nothing under it, so its set begins with this operation.
      have before : under name made = [] :=
        under_eq_nil_iff.mpr (records.mem_symbols.not.mp known)
      rw [before]
      simp [known, under]
  · simp [same, Ne.symm same, under]

/-- One more registration is recorded after those before it. -/
theorem Records.register (records : registry.Records made) (symbol : String)
    (operation : Operation σ) :
    (registry.register symbol operation).Records (made ++ [(symbol, operation)]) := by
  have once : (registry.register symbol operation).symbols.Nodup := by
    rw [symbols_register]
    split_ifs with known
    · exact records.once
    -- A symbol that was not listed differs from all that were.
    · have apart : ∀ listed ∈ registry.symbols, ∀ other ∈ [symbol], listed ≠ other := by
        rintro listed member other inside rfl
        exact known (List.mem_singleton.mp inside ▸ member)
      exact List.nodup_append.mpr ⟨records.once, by simp, apart⟩
  constructor
  case symbols => exact records.listed symbol operation
  case once => exact once
  case contains => simp [Registry.contains]
  case size => simp [Registry.size, Registry.symbols]
  case lookup =>
    intro name
    exact records.found symbol name operation
  case sets =>
    intro overloads member
    have here := lookup_of_mem once member
    refine ⟨here, ?_⟩
    -- A set has what was registered under its name, and its name is listed.
    rw [records.found] at here
    split_ifs at here with named
    rw [records.listed, List.mem_eraseDups] at named
    rw [← Option.some.inj here]
    exact fun none => under_eq_nil_iff.mp none named

/-- A registry records what was registered in it. -/
theorem records_registerAll (made : List (String × Operation σ)) :
    (empty.registerAll made).Records made := by
  induction made using List.reverseRecOn with
  | nil => exact records_empty
  | append_singleton earlier last ih =>
    rw [registerAll_append]
    exact ih.register last.1 last.2

/-! ### Growth -/

/-- A later registry has the symbols of an earlier one in front, and so for the operations of each
symbol. -/
structure GrowsTo (registry later : Registry σ) : Prop where
  symbols : registry.symbols <+: later.symbols
  operations : ∀ symbol overloads, registry.lookup symbol = some overloads →
    ∃ overloads', later.lookup symbol = some overloads' ∧
      overloads.operations <+: overloads'.operations

/-- Registration keeps symbols and operations where they are. -/
theorem growsTo_registerAll (registry : Registry σ) (added : List (String × Operation σ)) :
    registry.GrowsTo (registry.registerAll added) where
  symbols := by
    induction added generalizing registry with
    | nil => exact List.prefix_rfl
    | cons first rest ih =>
      have grown := registry.symbols_register first.1 first.2
      -- One registration lengthens the list by a symbol or leaves it.
      have step : registry.symbols <+: (registry.register first.1 first.2).symbols := by
        rw [grown]
        split_ifs
        · exact List.prefix_rfl
        · exact List.prefix_append _ _
      exact step.trans (ih (registry.register first.1 first.2))
  operations symbol overloads found :=
    ⟨_, lookup_registerAll_of_some found added, List.prefix_append _ _⟩

end Registry

/-! ### Moments of an evaluation -/

theorem Machine.handing_noting (machine : Machine σ) (overloads : Overloads σ) (place : Nat)
    (args : List Value) (made : List (String × Operation σ)) :
    (machine.noting made).handing overloads.noting place args =
      (machine.handing overloads place args).noting made := by
  rw [handing, overloads.noting_length]
  rfl

namespace Eval

/-- Carrying out an action comes to what is left of it, on a machine. -/
inductive Performs (reenter : String → Eval σ Value) :
    Machine σ → Action σ → Machine σ → Action σ → Prop
  | here (machine : Machine σ) (action : Action σ) : Performs reenter machine action machine action
  | frames {machine last : Machine σ} {next : List Frame → Action σ} {left : Action σ}
      (rest : Performs reenter machine (next machine.stack) last left) :
      Performs reenter machine (.frames next) last left
  | evaluate {machine between last : Machine σ} {source : String}
      {next : Except Fault Value → Action σ} {outcome : Except Fault Value} {left : Action σ}
      (answered : (reenter source).run machine = (outcome, between))
      (rest : Performs reenter between (next outcome) last left) :
      Performs reenter machine (.evaluate source next) last left
  | register {machine last : Machine σ} {symbol : String} {operation : Operation σ}
      {next : Nat → Action σ} {left : Action σ}
      (rest : Performs reenter (machine.register symbol operation)
        (next (operationCount (machine.register symbol operation).registry symbol)) last left) :
      Performs reenter machine (.register symbol operation next) last left
  | readState {machine last : Machine σ} {next : σ → Action σ} {left : Action σ}
      (rest : Performs reenter machine (next machine.state) last left) :
      Performs reenter machine (.readState next) last left
  | writeState {machine last : Machine σ} {state : σ} {next left : Action σ}
      (rest : Performs reenter { machine with state } next last left) :
      Performs reenter machine (.writeState state next) last left

/-- The evaluation of a form carries out an action up to what is left of it. -/
def Carries (reenter : String → Eval σ Value) (machine : Machine σ) (form : Form Int)
    (last : Machine σ) (left : Action σ) : Prop :=
  ∃ here call action entered, Reaches reenter machine form here (Form.Call.form call) ∧
    Invokes reenter here call action entered ∧ Performs reenter entered action last left

/-- The evaluation of a source, to a depth of nesting, passes through a machine: there a form comes
to be evaluated, or an operation has done a part of what it does, in that source or in one that is
evaluated within it. -/
inductive Passes : Nat → Machine σ → String → Machine σ → Prop
  | form {depth : Nat} {machine last : Machine σ} {text : String} {root : Node}
      {form point : Form Int} (parsed : parse text.toList = .ok root)
      (formed : root.form? text.toList = some form)
      (reaches : Reaches (sourceWithin depth) { machine with stack := [] } form last point) :
      Passes (depth + 1) machine text last
  | action {depth : Nat} {machine last : Machine σ} {text : String} {root : Node} {form : Form Int}
      {left : Action σ} (parsed : parse text.toList = .ok root)
      (formed : root.form? text.toList = some form)
      (carries : Carries (sourceWithin depth) { machine with stack := [] } form last left) :
      Passes (depth + 1) machine text last
  | within {depth : Nat} {machine between last : Machine σ} {text source : String} {root : Node}
      {form : Form Int} {next : Except Fault Value → Action σ}
      (parsed : parse text.toList = .ok root) (formed : root.form? text.toList = some form)
      (carries : Carries (sourceWithin depth) { machine with stack := [] } form between
        (.evaluate source next))
      (inner : Passes depth between source last) : Passes (depth + 1) machine text last

variable {reenter : String → Eval σ Value} {reenter' : String → Eval (Noted σ) Value}
  {machine last : Machine σ}

theorem Reaches.tracks (reentry : ∀ source, Notes (reenter source) (reenter' source))
    {form point : Form Int} (reaches : Reaches reenter machine form last point) :
    Machine.Tracks (fun start here => Reaches reenter' start form here point) machine last := by
  induction reaches with
  | here machine form => exact .still (fun made => .here (machine.noting made) form) rfl
  | @argument machine between last call known before rest item point values found split evaluated
      inner ih =>
    -- The arguments before the one that is reached are evaluated as without notes.
    have begun := forms_note reentry before _ _ _ evaluated
    obtain ⟨more, same, grown⟩ := begun.trans ih fun start middle here evaluated' inner' =>
      (⟨middle, evaluated', inner'⟩ : ∃ middle, (forms reenter' before).run start =
        (.ok values, middle) ∧ Reaches reenter' middle item here point)
    refine ⟨more, fun made => ?_, grown⟩
    obtain ⟨middle, evaluated', inner'⟩ := same made
    have found' : (machine.noting made).registry.lookup call.symbol = some known.noting := by
      rw [Machine.noting, Registry.lookup_noting, found]
      rfl
    exact .argument found' split evaluated' inner'

theorem Invokes.tracks (reentry : ∀ source, Notes (reenter source) (reenter' source))
    {call : Form.Call} {action : Action σ} (invokes : Invokes reenter machine call action last) :
    Machine.Tracks (fun start entered => Invokes reenter' start call action.noting entered) machine
      last := by
  cases invokes with
  | @intro known args between ready place operation found evaluated noted chosen =>
    have begun := forms_note reentry call.arguments _ _ _ evaluated
    obtain ⟨more, same, grown⟩ := begun.trans (notes_setArguments args _ _ _ noted)
      fun start middle here evaluated' noted' => (⟨middle, evaluated', noted'⟩ : ∃ middle,
        (forms reenter' call.arguments).run start = (.ok args, middle) ∧
          (setArguments args).run middle = (.ok (), here))
    refine ⟨more, fun made => ?_, grown⟩
    obtain ⟨middle, evaluated', noted'⟩ := same made
    have found' : (machine.noting made).registry.lookup call.symbol = some known.noting := by
      rw [Machine.noting, Registry.lookup_noting, found]
      rfl
    -- After its arguments the call is dispatched over the operations that are there by then.
    have later : ((ready.noting (made ++ more)).registry.lookup call.symbol).getD known.noting =
        ((ready.registry.lookup call.symbol).getD known).noting := by
      rw [Machine.noting, Registry.lookup_noting, Option.getD_map]
    have chosen' : (((ready.noting (made ++ more)).registry.lookup call.symbol).getD
        known.noting).choose? args = some (place, operation.noting) := by
      rw [later, Overloads.choose?_noting, chosen]
      rfl
    have invokes := Invokes.intro found' evaluated' noted' chosen'
    rw [Operation.run_noting, later, Machine.handing_noting] at invokes
    exact invokes

theorem Performs.tracks (reentry : ∀ source, Notes (reenter source) (reenter' source))
    {action left : Action σ} (performs : Performs reenter machine action last left) :
    Machine.Tracks (fun start here => Performs reenter' start action.noting here left.noting)
      machine last := by
  induction performs with
  | here machine action => exact .still (fun made => .here (machine.noting made) action.noting) rfl
  -- What touches no registration is done in the same way beside the notes.
  | frames rest ih => exact ih.imp fun made _ rest' => .frames rest'
  | evaluate answered rest ih =>
    exact (reentry _ _ _ _ answered).trans ih fun _ _ _ answered' rest' => .evaluate answered' rest'
  | @register machine last symbol operation next left rest ih =>
    obtain ⟨more, same, grown⟩ := ih
    refine ⟨(symbol, operation) :: more, fun made => ?_, grown⟩
    -- The notes are written first, and then the operation is registered.
    have registered := machine.register_noting symbol operation (made ++ [(symbol, operation)])
    have told : operationCount ((machine.noting (made ++ [(symbol, operation)])).register symbol
        operation.noting).registry symbol =
          operationCount (machine.register symbol operation).registry symbol := by
      rw [registered]
      exact operationCount_noting _ _
    have rest' := same (made ++ [(symbol, operation)])
    rw [List.append_assoc, List.singleton_append, ← registered, ← told] at rest'
    exact .readState (.writeState (.register rest'))
  | readState rest ih => exact ih.imp fun made _ rest' => .readState rest'
  -- A host that writes its state writes the notes back with it.
  | @writeState machine last state next left rest ih =>
    obtain ⟨more, same, grown⟩ := ih
    exact ⟨more, fun made => .readState (.writeState (same made)), grown⟩

theorem Carries.tracks (reentry : ∀ source, Notes (reenter source) (reenter' source))
    {form : Form Int} {left : Action σ} (carries : Carries reenter machine form last left) :
    Machine.Tracks (fun start here => Carries reenter' start form here left.noting) machine
      last := by
  -- The call is reached, then entered, and its action performed up to here; each part keeps track.
  obtain ⟨here, call, action, entered, reaches, invokes, performs⟩ := carries
  have called := (reaches.tracks reentry).trans (invokes.tracks reentry)
    fun start here entered reaches' invokes' => (⟨here, reaches', invokes'⟩ : ∃ here,
      Reaches reenter' start form here call.form ∧
        Invokes reenter' here call action.noting entered)
  apply called.trans (performs.tracks reentry)
  rintro start entered last ⟨here, reaches', invokes'⟩ performs'
  exact ⟨here, call, action.noting, entered, reaches', invokes', performs'⟩

/-- The evaluation with notes passes through the same machines. There the notes tell what has been
registered so far. -/
theorem Passes.tracks {depth : Nat} {text : String} (passes : Passes depth machine text last) :
    Machine.Tracks (fun start here => Passes depth start text here) machine last := by
  induction passes with
  | @form depth machine last text root form point parsed formed reaches =>
    obtain ⟨more, same, grown⟩ := reaches.tracks (sourceWithin_notes depth)
    exact ⟨more, fun made => .form parsed formed (same made), grown⟩
  | @action depth machine last text root form left parsed formed carries =>
    obtain ⟨more, same, grown⟩ := carries.tracks (sourceWithin_notes depth)
    exact ⟨more, fun made => .action parsed formed (same made), grown⟩
  | @within depth machine between last text source root form next parsed formed carries inner ih =>
    obtain ⟨more, same, grown⟩ := (carries.tracks (sourceWithin_notes depth)).trans ih
      fun start middle here carries' inner' => (⟨middle, carries', inner'⟩ : ∃ middle,
        Carries (sourceWithin depth) start form middle (Action.evaluate source next).noting ∧
          Passes depth middle source here)
    refine ⟨more, fun made => ?_, grown⟩
    obtain ⟨middle, carries', inner'⟩ := same made
    exact .within parsed formed carries' inner'

/-! ### Moments of a binding -/

/-- Asks for names one after another, as a host is asked when it is bound. -/
def askAll (ask : String → Action σ) : List String → Eval σ Unit
  | [] => pure ()
  | name :: rest => do
    let _ ← perform source (ask name)
    askAll ask rest

/-- Asking for names passes through a machine: there a part has been done of what answers one of
them, or a source is being evaluated within that. -/
inductive PassesAsking (ask : String → Action σ) : List String → Machine σ → Machine σ → Prop
  | action {name : String} {rest : List String} {machine last : Machine σ} {left : Action σ}
      (performs : Performs source machine (ask name) last left) :
      PassesAsking ask (name :: rest) machine last
  | within {name text : String} {rest : List String} {machine between last : Machine σ}
      {next : Except Fault Value → Action σ}
      (performs : Performs source machine (ask name) between (.evaluate text next))
      (inner : Passes nestingDepth between text last) :
      PassesAsking ask (name :: rest) machine last
  | later {name : String} {rest : List String} {machine between last : Machine σ} {value : Value}
      (answered : (perform source (ask name)).run machine = (.ok value, between))
      (asks : PassesAsking ask rest between last) : PassesAsking ask (name :: rest) machine last

/-- The host with notes is asked through the same machines. -/
theorem PassesAsking.tracks {ask : String → Action σ} {names : List String}
    (asks : PassesAsking ask names machine last) :
    Machine.Tracks (fun start here => PassesAsking (fun name => (ask name).noting) names start here)
      machine last := by
  induction asks with
  | action performs =>
    exact (performs.tracks (sourceWithin_notes _)).imp fun made _ performs' => .action performs'
  | within performs inner =>
    exact (performs.tracks (sourceWithin_notes _)).trans inner.tracks
      fun _ _ _ performs' inner' => .within performs' inner'
  | later answered asks ih =>
    exact (perform_notes (sourceWithin_notes _) _ _ _ _ answered).trans ih
      fun _ _ _ answered' asks' => .later answered' asks'

/-- Collecting the operations of a host registers what its answers register. -/
theorem collect_notes (host : Host σ) (names : List String) :
    Notes (do let _ ← host.collect names; pure ())
      (askAll (fun name => (host.answer name).noting) names) := by
  induction names with
  | nil => exact notes_of fun _ => .pure ()
  | cons name rest ih =>
    -- Asking a name gives an answer and a registry; only the registry is asked about here.
    rw [Host.collect, askAll, bind_assoc]
    apply notes_of
    intro base
    apply (perform_noting (sourceWithin_notes _) _).bind
    intro answered
    simp only [bind_assoc, pure_bind]
    exact ih.holds

end Eval

/-! ### Environments -/

/-- What binding a host registers, in order: what its answers register, and then its operations,
unless it refuses a name. -/
def Machine.boundBy (machine : Machine σ) (host : Host σ) : List (String × Operation σ) :=
  let asked := (Eval.askAll (fun name => (host.answer name).noting) host.bound).run
    (machine.noting [])
  asked.2.state.made ++ (host.operations.run machine).1.toOption.getD []

theorem Machine.bind_registry (machine : Machine σ) (host : Host σ) :
    (host.bind.run machine).2.registry = machine.registry.registerAll (machine.boundBy host) := by
  have notes := Eval.collect_notes host host.bound machine
  have bound : machine.boundBy host = ((Eval.askAll (fun name => (host.answer name).noting)
      host.bound).run (machine.noting [])).2.state.made ++
        (host.operations.run machine).1.toOption.getD [] := rfl
  cases collected : (host.collect host.bound).run machine with
  | mk outcome after =>
    have collected' : host.operations.run machine = (outcome, after) := collected
    rw [bound, collected']
    cases outcome with
    | error fault =>
      -- Where an answer fails nothing is bound, but what was registered on the way stays.
      obtain ⟨more, same, grown⟩ := notes _ _ (Eval.run_bind_error collected)
      rw [same [], Host.bind, Eval.run_bind_error collected', grown]
      simp [noting, Except.toOption]
    | ok operations =>
      obtain ⟨more, same, grown⟩ := notes _ _ (Eval.run_bind_ok collected)
      -- The operations of the host come after everything its answers registered.
      have added : (host.bind.run machine).2.registry = after.registry.registerAll operations := by
        rw [Host.bind, Eval.run_bind_ok collected']
        rfl
      rw [added, same [], grown, ← Registry.registerAll_append]
      simp [noting, Except.toOption]

/-- What an environment is made with: the standard operations or not, a host or none, and operations
of its own. -/
structure Founding (σ : Type) where
  standard : Bool
  host : Option (Host σ)
  operations : List (String × Operation σ)

namespace Founding

/-- The machine before the host is bound. -/
def supplied (founding : Founding σ) (state : σ) : Machine σ :=
  let bare : Machine σ := .fresh .empty state
  if founding.standard then bare.registerAll Standard.operations else bare

/-- The machine of the environment. A host that refuses a name ends the making of an environment, so
nothing has this machine then; what is said below of machines holds of it all the same. -/
def machine (founding : Founding σ) (state : σ) : Machine σ :=
  let hosted := match founding.host with
    | some host => (host.bind.run (founding.supplied state)).2
    | none => founding.supplied state
  hosted.registerAll founding.operations

/-- What is registered when the environment is made, in order. -/
def made (founding : Founding σ) (state : σ) : List (String × Operation σ) :=
  (if founding.standard then Standard.operations else []) ++
    founding.host.elim [] (founding.supplied state).boundBy ++ founding.operations

theorem machine_registry (founding : Founding σ) (state : σ) :
    (founding.machine state).registry = Registry.empty.registerAll (founding.made state) := by
  -- The built-in operations come first, if they are wanted at all.
  have supplied : (founding.supplied state).registry =
      Registry.empty.registerAll (if founding.standard then Standard.operations else []) := by
    rw [Founding.supplied]
    split_ifs <;> rfl
  simp only [made, Registry.registerAll_append, ← supplied]
  rw [machine]
  cases founding.host with
  | none => rfl
  | some host =>
    exact congrArg (Registry.registerAll · _) ((founding.supplied state).bind_registry host)

end Founding

/-- What is done to an environment. -/
inductive Step (σ : Type)
  | request (request : Request σ)
  | bind (host : Host σ)
  | bindStandard

/-- What a step registers, in order. -/
def Step.made (machine : Machine σ) : Step σ → List (String × Operation σ)
  | .request (.run source) | .request (.evaluate source) => machine.registered source
  | .request (.register symbol operation) => [(symbol, operation)]
  | .bind host => machine.boundBy host
  | .bindStandard => Standard.operations

namespace Machine

/-- The machine after a step. Of a host that refuses a name nothing is bound. -/
def take (machine : Machine σ) : Step σ → Machine σ
  | .request request => machine.handle request
  | .bind host => (host.bind.run machine).2
  | .bindStandard => machine.registerAll Standard.operations

def takeAll (machine : Machine σ) (steps : List (Step σ)) : Machine σ := steps.foldl take machine

/-- What several steps register, in order. -/
def history (machine : Machine σ) : List (Step σ) → List (String × Operation σ)
  | [] => []
  | step :: rest => step.made machine ++ (machine.take step).history rest

/-- A step adds what it registers, whether it succeeds or fails. -/
theorem take_registry (machine : Machine σ) (step : Step σ) :
    (machine.take step).registry = machine.registry.registerAll (step.made machine) := by
  cases step with
  | request request =>
    cases request with
    | run source =>
      rw [take, handle, run_after]
      exact machine.evaluate_registered source
    | evaluate source => exact machine.evaluate_registered source
    | register symbol operation => rfl
  | bind host => exact machine.bind_registry host
  | bindStandard => rfl

theorem takeAll_registry (machine : Machine σ) (steps : List (Step σ)) :
    (machine.takeAll steps).registry =
      machine.registry.registerAll (machine.history steps) := by
  induction steps generalizing machine with
  | nil => rfl
  | cons step rest ih =>
    rw [takeAll, List.foldl_cons, ← takeAll, ih, take_registry, history,
      Registry.registerAll_append]

end Machine

/-- After any steps the registry of an environment records all that was registered in it, by its
making and by the steps, failing ones included, and one more step only adds to it. While a source is
evaluated, the notes of a host tell at each moment what was registered so far, within whatever call,
and the registry records that; the evaluation ends as it does without notes. The same holds while a
host is asked for its names, before its operations are registered. -/
theorem registry_history (founding : Founding σ) (state : σ) (steps : List (Step σ)) :
    let machine := (founding.machine state).takeAll steps
    let made := founding.made state ++ (founding.machine state).history steps
    machine.registry.Records made ∧
    (∀ step, machine.registry.GrowsTo (machine.take step).registry) ∧
    (∀ text,
      (machine.noting made).evaluate text = ((machine.evaluate text).1,
        (machine.evaluate text).2.noting (made ++ machine.registered text)) ∧
      ∀ last, Eval.Passes Eval.nestingDepth machine text last → ∃ now,
        Eval.Passes Eval.nestingDepth (machine.noting made) text (last.noting (made ++ now)) ∧
        last.registry.Records (made ++ now) ∧ machine.registry.GrowsTo last.registry) ∧
    ∀ (host : Host σ) (last : Machine σ), Eval.PassesAsking host.answer host.bound machine last →
      ∃ now, Eval.PassesAsking (fun name => (host.answer name).noting) host.bound
          (machine.noting made) (last.noting (made ++ now)) ∧
      last.registry.Records (made ++ now) ∧ machine.registry.GrowsTo last.registry := by
  intro machine made
  -- Everything follows from this: the registry is what the history makes out of nothing.
  have holds : machine.registry = Registry.empty.registerAll made := by
    rw [Machine.takeAll_registry, founding.machine_registry, Registry.registerAll_append]
  have recorded {last : Machine σ} {now : List (String × Operation σ)}
      (grown : last.registry = machine.registry.registerAll now) :
      last.registry.Records (made ++ now) ∧ machine.registry.GrowsTo last.registry := by
    rw [grown]
    refine ⟨?_, Registry.growsTo_registerAll _ _⟩
    rw [holds, ← Registry.registerAll_append]
    exact Registry.records_registerAll _
  refine ⟨?_, ?_, ?_, ?_⟩
  · rw [holds]
    exact Registry.records_registerAll made
  · intro step
    rw [machine.take_registry]
    exact Registry.growsTo_registerAll _ _
  · intro text
    refine ⟨machine.evaluate_noting made text, ?_⟩
    intro last passes
    obtain ⟨now, same, grown⟩ := passes.tracks
    exact ⟨now, same made, recorded grown⟩
  · intro host last asks
    obtain ⟨now, same, grown⟩ := asks.tracks
    exact ⟨now, same made, recorded grown⟩

/-- An operation that registers another and then fails has registered it. -/
example :
    let late : Operation Unit := .variadic none none fun _ => .give .null
    let grow : Operation Unit := .variadic none none fun _ =>
      .register "late" late fun _ => .raise (.language "no" none)
    let founding : Founding Unit := ⟨false, none, [("grow", grow)]⟩
    let machine := founding.machine ()
    (machine.history [.request (.run "(grow)"), .request (.run "(late)")]).map Prod.fst = ["late"] ∧
      (machine.take (.request (.run "(grow)"))).registry.symbols = ["grow", "late"] :=
  by decide +kernel

end HostLisp
