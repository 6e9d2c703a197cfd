import HostLisp.Registry

/-!
# What is registered

Registration adds operations and takes none away, so what holds of the operations that were there
and of the one that is added holds of all operations after it.

## Main results

`Registry.Each.register`: registering an operation keeps what holds of each.

`Registry.Each.lookup_getD`: what holds of each operation holds of those that a call finds.

`Registry.lookup_registerAll_of_some`: a set that is there keeps its operations at its front.

`Overloads.choose?_append`: an operation that is called is called from a longer set too.
-/

namespace HostLisp

variable {σ : Type} {Holds : Operation σ → Prop}

/-! ### Operations that take arguments -/

/-- Arguments fit types only if there are as many of them. -/
theorem Operation.length_of_allHold {types : List TypeName} {args : List Value}
    (held : allHold types args = true) : types.length = args.length := by
  -- Types and arguments are held against each other from the front, and both have to end at once.
  induction types generalizing args with
  | nil =>
    cases args with
    | nil => rfl
    | cons value values => cases held
  | cons type types ih =>
    cases args with
    | nil => cases held
    | cons value values =>
      rw [allHold, Bool.and_eq_true] at held
      rw [List.length_cons, List.length_cons, ih held.2]

theorem Operation.admits_of_accepts {operation : Operation σ} {args : List Value}
    (accepted : operation.accepts args = true) : operation.admits args.length = true := by
  cases operation with
  | variadic label type run => rfl
  | fixed label types run => exact decide_eq_true (length_of_allHold accepted)

/-- The operation that is chosen is one of the set. -/
theorem Overloads.mem_of_choose? {overloads : Overloads σ} {args : List Value} {place : Nat}
    {operation : Operation σ} (chosen : overloads.choose? args = some (place, operation)) :
    operation ∈ overloads.operations := by
  rw [choose?, Option.map_eq_some_iff] at chosen
  obtain ⟨⟨found, index⟩, first, same⟩ := chosen
  cases same
  exact List.fst_mem_of_mem_zipIdx (List.mem_of_find?_eq_some first)

/-- No operation of a set is called exactly if none takes the arguments. -/
theorem Overloads.choose?_eq_none_iff {overloads : Overloads σ} {args : List Value} :
    overloads.choose? args = none ↔ ∀ operation ∈ overloads.operations,
      (operation.admits args.length && operation.accepts args) = false := by
  rw [choose?, Option.map_eq_none_iff, List.find?_eq_none]
  constructor
  · intro none operation member
    -- The search is of operations with their places, so each is put at its own.
    obtain ⟨place, inside, rfl⟩ := List.getElem_of_mem member
    have placed : (overloads.operations[place], place) ∈ overloads.operations.zipIdx :=
      List.mem_zipIdx_iff_getElem?.mpr (List.getElem?_eq_getElem inside)
    simpa using none _ placed
  · intro each pair placed
    simpa using each pair.1 (List.fst_mem_of_mem_zipIdx placed)

/-- Operations at the end of a set are not reached where an earlier one takes the arguments. -/
theorem Overloads.choose?_append {name : String} {operations : List (Operation σ)} {args : List Value}
    {found : Nat × Operation σ} (chosen : (Overloads.mk name operations).choose? args = some found)
    (more : List (Operation σ)) :
    (Overloads.mk name (operations ++ more)).choose? args = some found := by
  rw [choose?, Option.map_eq_some_iff] at chosen ⊢
  obtain ⟨pair, first, rfl⟩ := chosen
  refine ⟨pair, ?_, rfl⟩
  rw [List.zipIdx_append, List.find?_append, first, Option.some_or]

namespace Registry

/-- A property holds of each operation that is registered. -/
def Each (Holds : Operation σ → Prop) (registry : Registry σ) : Prop :=
  ∀ overloads ∈ registry.sets, ∀ operation ∈ overloads.operations, Holds operation

theorem name_of_lookup {registry : Registry σ} {symbol : String} {overloads : Overloads σ}
    (found : registry.lookup symbol = some overloads) : overloads.name = symbol := by
  simpa using List.find?_some found

theorem mem_of_lookup {registry : Registry σ} {symbol : String} {overloads : Overloads σ}
    (found : registry.lookup symbol = some overloads) : overloads ∈ registry.sets :=
  List.mem_of_find?_eq_some found

/-- A set that is looked up once more has the symbol under which it was known. -/
theorem name_of_lookup_getD {registry : Registry σ} (later : Registry σ) {symbol : String}
    {known : Overloads σ}
    (found : registry.lookup symbol = some known) :
    ((later.lookup symbol).getD known).name = symbol := by
  cases again : later.lookup symbol with
  | none => exact name_of_lookup found
  | some overloads => exact name_of_lookup again

/-- What holds of all operations of a registry and of one more holds of all after it is registered.
-/
private theorem insert_each (symbol : String) {operation : Operation σ} (added : Holds operation)
    (sets : List (Overloads σ))
    (each : ∀ overloads ∈ sets, ∀ operation ∈ overloads.operations, Holds operation) :
    ∀ overloads ∈ insert symbol operation sets, ∀ operation ∈ overloads.operations,
      Holds operation := by
  induction sets with
  | nil =>
    intro overloads member other inside
    rw [List.mem_singleton.mp member] at inside
    exact List.mem_singleton.mp inside ▸ added
  | cons first rest ih =>
    obtain ⟨here, others⟩ := List.forall_mem_cons.mp each
    rw [insert]
    split
    · -- The operation comes after those that its symbol already has.
      refine List.forall_mem_cons.mpr ⟨?_, others⟩
      intro other inside
      rcases List.mem_append.mp inside with old | new
      · exact here other old
      · exact List.mem_singleton.mp new ▸ added
    · exact List.forall_mem_cons.mpr ⟨here, ih others⟩

namespace Each

variable {registry : Registry σ}

/-- The same of registering, so that a property of operations is kept by a run that registers only
such. -/
theorem register (each : registry.Each Holds) (symbol : String) {operation : Operation σ}
    (added : Holds operation) : (registry.register symbol operation).Each Holds :=
  insert_each symbol added registry.sets each

/-- The same of registering a list of operations. -/
theorem registerAll (each : registry.Each Holds) {added : List (String × Operation σ)}
    (others : ∀ pair ∈ added, Holds pair.2) : (registry.registerAll added).Each Holds := by
  induction added generalizing registry with
  | nil => exact each
  | cons pair rest ih =>
    obtain ⟨here, later⟩ := List.forall_mem_cons.mp others
    exact ih (each.register pair.1 here) later

/-- What holds of each operation now and later holds of those that a second look-up finds. -/
theorem lookup_getD (each : registry.Each Holds) {later : Registry σ} (each' : later.Each Holds)
    {symbol : String} {known : Overloads σ} (found : registry.lookup symbol = some known) :
    ∀ operation ∈ ((later.lookup symbol).getD known).operations, Holds operation := by
  cases again : later.lookup symbol with
  | none => exact each known (mem_of_lookup found)
  | some overloads => exact each' overloads (mem_of_lookup again)

end Each

/-! ### Sets that grow -/

/-- Registering adds to the set of one name and to no other. -/
private theorem find_insert (sets : List (Overloads σ)) (symbol name : String)
    (operation : Operation σ) :
    (insert symbol operation sets).find? (·.name = name) =
      if name = symbol then
        some ⟨symbol, ((sets.find? (·.name = symbol)).elim [] Overloads.operations) ++ [operation]⟩
      else sets.find? (·.name = name) := by
  induction sets with
  | nil =>
    by_cases same : name = symbol
    · simp [insert, same]
    · simp [insert, same, Ne.symm same]
  | cons first rest ih =>
    by_cases here : first.name = symbol
    · -- The set of the symbol grows where it stands.
      -- Each registration is under this name or leaves its set as it was.
      by_cases same : name = symbol
      · simp [insert, here, same]
      · simp [insert, here, same, Ne.symm same]
    · by_cases same : first.name = name
      · have other : name ≠ symbol := fun equal => here (same.trans equal)
        simp [insert, same, other]
      · simp [insert, here, same, ih]

/-- Registration adds an operation at the end of the set of its symbol, and changes no other set. -/
theorem lookup_register (registry : Registry σ) (symbol name : String) (operation : Operation σ) :
    (registry.register symbol operation).lookup name =
      if name = symbol then
        some ⟨symbol, ((registry.lookup symbol).elim [] Overloads.operations) ++ [operation]⟩
      else registry.lookup name :=
  find_insert registry.sets symbol name operation

/-- The operations that are registered under a symbol, in order. -/
def under (name : String) (added : List (String × Operation σ)) : List (Operation σ) :=
  (added.filter (·.1 = name)).map Prod.snd

theorem mem_under {name : String} {added : List (String × Operation σ)} {operation : Operation σ} :
    operation ∈ under name added ↔ (name, operation) ∈ added := by
  simp [under]

/-- The set of a name grows at its end, by what is registered under the name. -/
theorem lookup_registerAll_of_some {registry : Registry σ} {name : String} {overloads : Overloads σ}
    (found : registry.lookup name = some overloads) (added : List (String × Operation σ)) :
    (registry.registerAll added).lookup name =
      some ⟨name, overloads.operations ++ under name added⟩ := by
  induction added generalizing registry overloads with
  | nil =>
    obtain rfl := name_of_lookup found
    simpa [registerAll, under] using found
  | cons pair rest ih =>
    obtain ⟨symbol, operation⟩ := pair
    change ((registry.register symbol operation).registerAll rest).lookup name = _
    by_cases same : name = symbol
    · subst same
      have grown : (registry.register name operation).lookup name =
          some ⟨name, overloads.operations ++ [operation]⟩ := by
        rw [lookup_register, if_pos rfl, found]
        rfl
      rw [ih grown]
      simp [under]
    · have kept : (registry.register symbol operation).lookup name = some overloads := by
        rw [lookup_register, if_neg same, found]
      rw [ih kept]
      simp [under, Ne.symm same]

/-- What is registered is found under its symbol. -/
theorem lookup_registerAll_of_mem {registry : Registry σ} {added : List (String × Operation σ)}
    {pair : String × Operation σ} (member : pair ∈ added) : ∃ overloads,
    (registry.registerAll added).lookup pair.1 = some overloads ∧
      pair.2 ∈ overloads.operations := by
  induction added generalizing registry with
  | nil => cases member
  | cons first rest ih =>
    rcases List.mem_cons.mp member with rfl | later
    · have grown := registry.lookup_register pair.1 pair.1 pair.2
      rw [if_pos rfl] at grown
      exact ⟨_, lookup_registerAll_of_some grown rest, by simp⟩
    · exact ih later

/-- A symbol that had no set has one of all that is registered under it. -/
theorem lookup_registerAll_of_absent {registry : Registry σ} {name : String}
    (absent : registry.lookup name = none) {added : List (String × Operation σ)}
    (filled : under name added ≠ []) :
    (registry.registerAll added).lookup name = some ⟨name, under name added⟩ := by
  induction added generalizing registry with
  | nil => exact absurd rfl filled
  | cons pair rest ih =>
    obtain ⟨symbol, operation⟩ := pair
    change ((registry.register symbol operation).registerAll rest).lookup name = _
    by_cases same : name = symbol
    · subst same
      have begun : (registry.register name operation).lookup name = some ⟨name, [operation]⟩ := by
        rw [lookup_register, if_pos rfl, absent]
        rfl
      rw [lookup_registerAll_of_some begun]
      simp [under]
    · have absent' : (registry.register symbol operation).lookup name = none := by
        rw [lookup_register, if_neg same, absent]
      have others : under name ((symbol, operation) :: rest) = under name rest := by
        simp [under, Ne.symm same]
      rw [others] at filled ⊢
      exact ih absent' filled

/-- A name under which nothing is registered stays unknown. -/
theorem lookup_registerAll_of_none {registry : Registry σ} {name : String}
    (absent : registry.lookup name = none) {added : List (String × Operation σ)}
    (others : under name added = []) : (registry.registerAll added).lookup name = none := by
  induction added generalizing registry with
  | nil => exact absent
  | cons pair rest ih =>
    obtain ⟨symbol, operation⟩ := pair
    have other : name ≠ symbol := by
      rintro rfl
      simp [under] at others
    have absent' : (registry.register symbol operation).lookup name = none := by
      rw [lookup_register, if_neg other, absent]
    exact ih absent' (by simpa [under, Ne.symm other] using others)

end Registry

end HostLisp
