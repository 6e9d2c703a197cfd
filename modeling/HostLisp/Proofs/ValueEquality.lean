import HostLisp.Proofs.StandardMeaning

/-!
# Equality of values without floats

Equality compares numbers by their value and containers by their members, and a mapping has the same
entries in any order. Without floats this is an equivalence, and so is what the standard operations
make of it, which tell booleans from numbers.

## Main results

`Value.Exact.compares`: without floats, equality is reflexive, symmetric and transitive.

`Standard.equality_laws`: the same of calls, which take no null.

## Proof strategy

Mappings are compared in one direction only, and that the other direction holds needs that keys of
one mapping differ from each other. The induction is on one value, while the others are any values
that the claims mention: transitivity is proved with that value first and with that value between
the others.
-/

namespace HostLisp

namespace Value

variable {a b c : Value}

/-! ### Members -/

theorem equalItems_iff {xs ys : List Value} : equalItems xs ys = true ↔
    List.Forall₂ (fun x y => x.equals y = true) xs ys := by
  induction xs generalizing ys with
  | nil => cases ys <;> simp [equalItems]
  | cons x xs ih => cases ys <;> simp [equalItems, ih]

/-- An entry of a mapping equals an entry of another one. -/
def Matches (entry entry' : Value × Value) : Prop :=
  entry.1.equals entry'.1 = true ∧ entry.2.equals entry'.2 = true

/-- Each entry of the one mapping has to have an equal one in the other. -/
theorem equalEntries_iff {entries entries' : List (Value × Value)} :
    equalEntries entries entries' = true ↔
      ∀ entry ∈ entries, ∃ entry' ∈ entries', Matches entry entry' := by
  induction entries with
  | nil => simp [equalEntries]
  | cons entry entries ih => simp [equalEntries, ih, Matches]

/-- If the members of one list are related to members of another that is no longer, no two of them
to the same, then each member of the other one is related to one of them. -/
theorem exists_related {α β : Type} {R : α → β → Prop} {xs : List α} {ys : List β}
    (length : ys.length ≤ xs.length) (each : ∀ x ∈ xs, ∃ y ∈ ys, R x y)
    (apart : xs.Pairwise fun x x' => ∀ y ∈ ys, R x y → ¬ R x' y) : ∀ y ∈ ys, ∃ x ∈ xs, R x y := by
  induction xs generalizing ys with
  | nil =>
    rw [List.length_nil, Nat.le_zero, List.length_eq_zero_iff] at length
    simp [length]
  | cons x xs ih =>
    obtain ⟨first, others⟩ := List.pairwise_cons.mp apart
    obtain ⟨y, member, related⟩ := each x List.mem_cons_self
    obtain ⟨before, after, rfl⟩ := List.append_of_mem member
    -- The other members are related to what is left without this one.
    have rest : ∀ y' ∈ before ++ after, ∃ x' ∈ xs, R x' y' := by
      apply ih
      · simp only [List.length_append, List.length_cons] at length ⊢
        omega
      · intro x' inside
        obtain ⟨y', member', related'⟩ := each x' (List.mem_cons_of_mem x inside)
        have different : y' ≠ y := by
          rintro rfl
          exact first x' inside y' member related related'
        refine ⟨y', ?_, related'⟩
        simpa [different] using member'
      · refine others.imp fun distinct y' inside => distinct y' ?_
        simp only [List.mem_append, List.mem_cons] at inside ⊢
        exact inside.imp_right Or.inr
    intro y' member'
    by_cases same : y' = y
    · exact ⟨x, List.mem_cons_self, same ▸ related⟩
    · obtain ⟨x', inside, related'⟩ := rest y' (by simpa [same] using member')
      exact ⟨x', List.mem_cons_of_mem x inside, related'⟩

/-! ### Values without floats -/

/-- What a value that holds no others is compared by. -/
inductive Scalar
  | null
  | number (n : Int)
  | text (s : String)
  | object (o : HostObject)
  deriving DecidableEq

def scalar? : Value → Option Scalar
  | .null => some .null
  | .bool b => some (.number (if b then 1 else 0))
  | .int n | .taggedInt _ n => some (.number n)
  | .text s | .taggedText _ s => some (.text s)
  | .object o => some (.object o)
  | .float _ | .list _ | .tuple _ | .dict _ => none

/-- A value in which there is no float, and no mapping with one key twice. -/
inductive Exact : Value → Prop
  | scalar {a : Value} {x : Scalar} (is : a.scalar? = some x) : Exact a
  | list (items : List Value) (each : ∀ item ∈ items, Exact item) : Exact (.list items)
  | tuple (items : List Value) (each : ∀ item ∈ items, Exact item) : Exact (.tuple items)
  | dict (entries : List (Value × Value)) (keys : ∀ entry ∈ entries, Exact entry.1)
      (values : ∀ entry ∈ entries, Exact entry.2)
      (distinct : entries.Pairwise fun entry entry' => entry.1.equals entry'.1 = false) :
      Exact (.dict entries)

theorem Exact.ne_float (exact : b.Exact) (x : Number.Binary64) : b ≠ .float x := by
  rintro rfl
  cases exact with
  | scalar is => cases is

/-- Numbers, texts, objects and null are told apart before they are compared. -/
theorem scalarEquals_eq {x : Scalar} (is : a.scalar? = some x) (notFloat : ∀ y, b ≠ .float y) :
    scalarEquals a b = decide (b.scalar? = some x) := by
  cases a <;> cases is <;> cases b
  all_goals simp_all [scalarEquals, scalar?, wholeNumber?, text?, eq_comm]

/-- Without floats the equality of scalars is that of what they stand for, on either side. -/
theorem scalarEquals_comm (notFloat : ∀ x, a ≠ .float x) (notFloat' : ∀ x, b ≠ .float x) :
    scalarEquals a b = scalarEquals b a := by
  cases a <;> cases b
  all_goals simp_all [scalarEquals, wholeNumber?, text?, eq_comm]

/-- A value that holds no others equals exactly those that are compared by the same. -/
theorem equals_scalar {x : Scalar} (is : a.scalar? = some x) (exact : b.Exact) :
    a.equals b = decide (b.scalar? = some x) := by
  rw [← scalarEquals_eq is exact.ne_float]
  cases a <;> cases is <;> rfl

theorem scalar_equals {x : Scalar} (is : a.scalar? = some x) (exact : b.Exact) :
    b.equals a = decide (b.scalar? = some x) := by
  rw [← scalarEquals_eq is exact.ne_float,
    scalarEquals_comm (Exact.scalar is).ne_float exact.ne_float]
  cases a <;> cases is <;> cases b <;> rfl

/-! ### Comparing with one value -/

/-- Equality with a value is as an equivalence has it, as far as values without floats go. -/
structure Compares (a : Value) : Prop where
  refl : a.equals a = true
  symm : ∀ b : Value, b.Exact → (a.equals b = true ↔ b.equals a = true)
  /-- The value stands first. -/
  trans : ∀ b c : Value, b.Exact → c.Exact → a.equals b = true → b.equals c = true →
    a.equals c = true
  /-- The value stands in the middle. -/
  through : ∀ b c : Value, b.Exact → c.Exact → b.equals a = true → a.equals c = true →
    b.equals c = true

/-- Scalars compare as what they stand for, for which equality is the real one. -/
theorem compares_scalar {x : Scalar} (is : a.scalar? = some x) : Compares a := by
  have here : a.Exact := .scalar is
  constructor
  · simp [equals_scalar is here, is]
  · intro b exact
    rw [equals_scalar is exact, scalar_equals is exact]
  · intro b c exact exact' first second
    have is' : b.scalar? = some x := by simpa [equals_scalar is exact] using first
    rw [equals_scalar is' exact'] at second
    rwa [equals_scalar is exact']
  · intro b c exact exact' first second
    have is' : b.scalar? = some x := by simpa [scalar_equals is exact] using first
    rw [equals_scalar is exact'] at second
    rwa [equals_scalar is' exact']

/-- A kind of sequence: one equals the values that are sequences of its kind with equal items. -/
structure IsSequence (wrap : List Value → Value) : Prop where
  left : ∀ xs b, (wrap xs).equals b = true ↔
    ∃ ys, b = wrap ys ∧ List.Forall₂ (fun x y => x.equals y = true) xs ys
  right : ∀ b ys, b.equals (wrap ys) = true ↔
    ∃ xs, b = wrap xs ∧ List.Forall₂ (fun x y => x.equals y = true) xs ys
  items : ∀ xs, (wrap xs).Exact → ∀ x ∈ xs, x.Exact

/-- Lists equal lists alone. -/
theorem isSequence_list : IsSequence .list := by
  constructor
  · intro xs b
    cases b <;> simp [equals, equalItems_iff, scalarEquals, wholeNumber?, text?]
  · intro b ys
    cases b <;> simp [equals, equalItems_iff, scalarEquals, wholeNumber?, text?]
  · intro xs exact
    cases exact with
    | scalar is => cases is
    | list _ each => exact each

/-- Tuples equal tuples alone. -/
theorem isSequence_tuple : IsSequence .tuple := by
  constructor
  · intro xs b
    cases b <;> simp [equals, equalItems_iff, scalarEquals, wholeNumber?, text?]
  · intro b ys
    cases b <;> simp [equals, equalItems_iff, scalarEquals, wholeNumber?, text?]
  · intro xs exact
    cases exact with
    | scalar is => cases is
    | tuple _ each => exact each

/-- A relation between the items of two lists can be read from the other side. -/
private theorem forall₂_flip {α β : Type} {R : α → β → Prop} {S : β → α → Prop} {xs : List α}
    {ys : List β} (pairs : List.Forall₂ R xs ys) (each : ∀ x ∈ xs, ∀ y ∈ ys, R x y → S y x) :
    List.Forall₂ S ys xs := by
  induction pairs with
  | nil => exact .nil
  | cons pair _ ih =>
    refine .cons (each _ List.mem_cons_self _ List.mem_cons_self pair) (ih fun x inX y inY => ?_)
    exact each x (List.mem_cons_of_mem _ inX) y (List.mem_cons_of_mem _ inY)

/-- Relations between the items of three lists are joined in the middle. -/
private theorem forall₂_chain {α : Type} {R S T : α → α → Prop} {xs ys zs : List α}
    (pairs : List.Forall₂ R xs ys) (pairs' : List.Forall₂ S ys zs)
    (each : ∀ x ∈ xs, ∀ y ∈ ys, ∀ z ∈ zs, R x y → S y z → T x z) : List.Forall₂ T xs zs := by
  induction pairs generalizing zs with
  | nil =>
    cases pairs'
    exact .nil
  -- Both lists have an item here, and the rest are related as the whole was.
  | cons pair _ ih =>
    cases pairs' with
    | cons pair' pairs' =>
      have first := each _ List.mem_cons_self _ List.mem_cons_self _ List.mem_cons_self pair pair'
      refine .cons first (ih pairs' fun x inX y inY z inZ => ?_)
      exact each x (List.mem_cons_of_mem _ inX) y (List.mem_cons_of_mem _ inY) z
        (List.mem_cons_of_mem _ inZ)

/-- A sequence compares if its items do, because it is compared item by item. -/
theorem IsSequence.compares {wrap : List Value → Value} (sequence : IsSequence wrap)
    {xs : List Value} (each : ∀ x ∈ xs, Compares x) : Compares (wrap xs) := by
  constructor
  · rw [sequence.left]
    exact ⟨xs, rfl, List.forall₂_same.mpr fun x member => (each x member).refl⟩
  · intro b exact
    rw [sequence.left, sequence.right]
    constructor
    · rintro ⟨ys, rfl, same⟩
      have exacts := sequence.items ys exact
      exact ⟨ys, rfl, forall₂_flip same fun x inX y inY =>
        ((each x inX).symm y (exacts y inY)).mp⟩
    · rintro ⟨ys, rfl, same⟩
      have exacts := sequence.items ys exact
      exact ⟨ys, rfl, forall₂_flip same fun y inY x inX =>
        ((each x inX).symm y (exacts y inY)).mpr⟩
  · intro b c exact exact' first second
    obtain ⟨ys, rfl, same⟩ := (sequence.left _ _).mp first
    obtain ⟨zs, rfl, same'⟩ := (sequence.left _ _).mp second
    refine (sequence.left _ _).mpr ⟨zs, rfl, forall₂_chain same same' ?_⟩
    intro x inX y inY z inZ
    exact (each x inX).trans y z (sequence.items ys exact y inY) (sequence.items zs exact' z inZ)
  · intro b c exact exact' first second
    obtain ⟨ys, rfl, same⟩ := (sequence.right _ _).mp first
    obtain ⟨zs, rfl, same'⟩ := (sequence.left _ _).mp second
    refine (sequence.left _ _).mpr ⟨zs, rfl, forall₂_chain same same' ?_⟩
    intro y inY x inX z inZ
    exact (each x inX).through y z (sequence.items ys exact y inY) (sequence.items zs exact' z inZ)

/-! ### Mappings -/

/-- A mapping equals one of the same size in which each of its entries has an equal one. -/
theorem dict_equals_iff {entries : List (Value × Value)} :
    (Value.dict entries).equals b = true ↔ ∃ entries', b = .dict entries' ∧
      entries.length = entries'.length ∧
      ∀ entry ∈ entries, ∃ entry' ∈ entries', Matches entry entry' := by
  cases b <;> simp [equals, equalEntries_iff, scalarEquals, wholeNumber?, text?]

/-- The same seen from the other side, where it is not the same entries that are looked for. -/
theorem equals_dict_iff {entries : List (Value × Value)} :
    b.equals (.dict entries) = true ↔ ∃ entries', b = .dict entries' ∧
      entries'.length = entries.length ∧
      ∀ entry' ∈ entries', ∃ entry ∈ entries, Matches entry' entry := by
  cases b <;> simp [equals, equalEntries_iff, scalarEquals, wholeNumber?, text?]

/-- The keys and values of an exact mapping are exact, and no two of its keys are equal. -/
theorem Exact.entries {entries : List (Value × Value)} (exact : (Value.dict entries).Exact) :
    (∀ entry ∈ entries, entry.1.Exact ∧ entry.2.Exact) ∧
      entries.Pairwise fun entry entry' => entry.1.equals entry'.1 = false := by
  cases exact with
  | scalar is => cases is
  | dict _ keys values distinct =>
    exact ⟨fun entry member => ⟨keys entry member, values entry member⟩, distinct⟩

section Entries

variable {entry entry' entry'' : Value × Value}
  (compares : Compares entry.1 ∧ Compares entry.2)
  (exact' : entry'.1.Exact ∧ entry'.2.Exact) (exact'' : entry''.1.Exact ∧ entry''.2.Exact)

include compares exact'

theorem matches_comm : Matches entry entry' ↔ Matches entry' entry :=
  and_congr (compares.1.symm _ exact'.1) (compares.2.symm _ exact'.2)

include exact''

theorem Matches.trans (first : Matches entry entry') (second : Matches entry' entry'') :
    Matches entry entry'' :=
  ⟨compares.1.trans _ _ exact'.1 exact''.1 first.1 second.1,
    compares.2.trans _ _ exact'.2 exact''.2 first.2 second.2⟩

theorem Matches.through (first : Matches entry' entry) (second : Matches entry entry'') :
    Matches entry' entry'' :=
  ⟨compares.1.through _ _ exact'.1 exact''.1 first.1 second.1,
    compares.2.through _ _ exact'.2 exact''.2 first.2 second.2⟩

/-- Two entries that equal one whose key compares as it should have equal keys. -/
theorem keys_equal_through (first : Matches entry' entry) (second : Matches entry'' entry) :
    entry'.1.equals entry''.1 = true :=
  compares.1.through _ _ exact'.1 exact''.1 first.1
    ((compares.1.symm _ exact''.1).mpr second.1)

/-- Two entries whose keys compare as they should have equal keys if they equal one entry. -/
theorem keys_equal (compares'' : Compares entry''.1 ∧ Compares entry''.2)
    (first : Matches entry entry') (second : Matches entry'' entry') :
    entry.1.equals entry''.1 = true :=
  compares.1.trans _ _ exact'.1 exact''.1 first.1
    ((compares''.1.symm _ exact'.1).mp second.1)

end Entries

/-- If each entry of one mapping has an equal one in another mapping that is no larger, then each
entry of the other one is that of an entry: as the keys of the first one differ, no two of its
entries have the same. -/
theorem exists_matches {entries entries' : List (Value × Value)}
    (distinct : entries.Pairwise fun entry entry' => entry.1.equals entry'.1 = false)
    (joined : ∀ first ∈ entries, ∀ second ∈ entries, ∀ entry' ∈ entries',
      Matches first entry' → Matches second entry' → first.1.equals second.1 = true)
    (length : entries'.length ≤ entries.length)
    (each : ∀ entry ∈ entries, ∃ entry' ∈ entries', Matches entry entry') :
    ∀ entry' ∈ entries', ∃ entry ∈ entries, Matches entry entry' := by
  have apart : entries.Pairwise fun first second =>
      ∀ entry' ∈ entries', Matches first entry' → ¬ Matches second entry' := by
    refine distinct.imp_of_mem ?_
    intro first second inside inside' different entry' member related related'
    have same := joined first inside second inside' entry' member related related'
    rw [different] at same
    cases same
  exact exists_related length each apart

section Dict

variable {entries : List (Value × Value)}
  (compares : ∀ entry ∈ entries, Compares entry.1 ∧ Compares entry.2)

include compares

/-- That each entry has a match says so of the other mapping too, because both are of one size and
no two entries can share one. -/
theorem dict_comm (exact : (Value.dict entries).Exact) (exact' : b.Exact) :
    (Value.dict entries).equals b = true ↔ b.equals (.dict entries) = true := by
  rw [dict_equals_iff, equals_dict_iff]
  constructor
  · rintro ⟨entries', rfl, length, each⟩
    obtain ⟨exacts, distinct⟩ := exact.entries
    obtain ⟨exacts', -⟩ := exact'.entries
    -- Here the keys that differ are those that are known to compare.
    have joined : ∀ first ∈ entries, ∀ second ∈ entries, ∀ entry' ∈ entries',
        Matches first entry' → Matches second entry' → first.1.equals second.1 = true := by
      intro first inside second inside' entry' member'
      exact keys_equal (compares first inside) (exacts' entry' member') (exacts second inside')
        (compares second inside')
    refine ⟨entries', rfl, length.symm, fun entry' member' => ?_⟩
    obtain ⟨entry, member, related⟩ :=
      exists_matches distinct joined length.ge each entry' member'
    exact ⟨entry, member,
      (matches_comm (compares entry member) (exacts' entry' member')).mp related⟩
  · rintro ⟨entries', rfl, length, each⟩
    obtain ⟨exacts', distinct'⟩ := exact'.entries
    -- Here they are the others, so a key that is known to compare stands between two of them.
    have joined : ∀ first ∈ entries', ∀ second ∈ entries', ∀ entry ∈ entries,
        Matches first entry → Matches second entry → first.1.equals second.1 = true := by
      intro first inside second inside' entry member
      exact keys_equal_through (compares entry member) (exacts' first inside)
        (exacts' second inside')
    refine ⟨entries', rfl, length.symm, fun entry member => ?_⟩
    obtain ⟨entry', member', related⟩ :=
      exists_matches distinct' joined length.ge each entry member
    exact ⟨entry', member',
      (matches_comm (compares entry member) (exacts' entry' member')).mpr related⟩

/-- Matches are joined entry by entry, from the first mapping to the third. -/
theorem dict_trans (exact' : b.Exact) (exact'' : c.Exact)
    (first : (Value.dict entries).equals b = true) (second : b.equals c = true) :
    (Value.dict entries).equals c = true := by
  obtain ⟨entries', rfl, length, each⟩ := dict_equals_iff.mp first
  obtain ⟨entries'', rfl, length', each'⟩ := dict_equals_iff.mp second
  refine dict_equals_iff.mpr ⟨entries'', rfl, length.trans length', fun entry member => ?_⟩
  obtain ⟨entry', member', related⟩ := each entry member
  obtain ⟨entry'', member'', related'⟩ := each' entry' member'
  exact ⟨entry'', member'', related.trans (compares entry member)
    (exact'.entries.1 entry' member') (exact''.entries.1 entry'' member'') related'⟩

/-- A mapping between two others relates them, since it can be read from either side. -/
theorem dict_through (exact' : b.Exact) (exact'' : c.Exact)
    (first : b.equals (.dict entries) = true) (second : (Value.dict entries).equals c = true) :
    b.equals c = true := by
  obtain ⟨entries', rfl, length, each⟩ := equals_dict_iff.mp first
  obtain ⟨entries'', rfl, length', each'⟩ := dict_equals_iff.mp second
  refine dict_equals_iff.mpr ⟨entries'', rfl, length.trans length', fun entry' member' => ?_⟩
  obtain ⟨entry, member, related⟩ := each entry' member'
  obtain ⟨entry'', member'', related'⟩ := each' entry member
  exact ⟨entry'', member'', related.through (compares entry member)
    (exact'.entries.1 entry' member') (exact''.entries.1 entry'' member'') related'⟩

/-- A mapping compares if its keys and values do. -/
theorem compares_dict (exact : (Value.dict entries).Exact) : Compares (.dict entries) := by
  constructor
  · refine dict_equals_iff.mpr ⟨entries, rfl, rfl, fun entry member => ⟨entry, member, ?_⟩⟩
    exact ⟨(compares entry member).1.refl, (compares entry member).2.refl⟩
  · intro b exact'
    exact dict_comm compares exact exact'
  · intro b c exact' exact'' first second
    exact dict_trans compares exact' exact'' first second
  · intro b c exact' exact'' first second
    exact dict_through compares exact' exact'' first second

end Dict

/-- Without floats equality is an equivalence. The induction is on the value that is compared, so
each member compares with any values. -/
theorem Exact.compares (exact : a.Exact) : Compares a := by
  induction exact with
  | scalar is => exact compares_scalar is
  | list items _ ih => exact isSequence_list.compares ih
  | tuple items _ ih => exact isSequence_tuple.compares ih
  | dict entries keys values distinct ihKeys ihValues =>
    exact compares_dict (fun entry member => ⟨ihKeys entry member, ihValues entry member⟩)
      (.dict entries keys values distinct)

/-! ### Booleans and numbers -/

/-- Equality that tells booleans from numbers compares values of which both or none is a boolean. -/
theorem sameValue_iff : sameValue a b = true ↔
    TypeName.bool.holds a = TypeName.bool.holds b ∧ a.equals b = true := by
  have bools (x y : Bool) : (Value.bool x).equals (.bool y) = decide (x = y) := by
    cases x <;> cases y <;> rfl
  cases a <;> cases b
  all_goals simp [sameValue, TypeName.holds, bools]

theorem sameValue_refl (exact : a.Exact) : sameValue a a = true :=
  sameValue_iff.mpr ⟨rfl, exact.compares.refl⟩

theorem sameValue_comm (exact : a.Exact) (exact' : b.Exact) : sameValue a b = sameValue b a := by
  rw [Bool.eq_iff_iff, sameValue_iff, sameValue_iff, eq_comm, exact.compares.symm b exact']

theorem sameValue_trans (exact : a.Exact) (exact' : b.Exact) (exact'' : c.Exact)
    (first : sameValue a b = true) (second : sameValue b c = true) : sameValue a c = true := by
  obtain ⟨kind, equal⟩ := sameValue_iff.mp first
  obtain ⟨kind', equal'⟩ := sameValue_iff.mp second
  exact sameValue_iff.mpr ⟨kind.trans kind', exact.compares.trans b c exact' exact'' equal equal'⟩

end Value

namespace Standard

/-! ### Calls -/

/-- Only a null is not taken as a value of any type. -/
theorem any_holds_iff {a : Value} : TypeName.any.holds a = true ↔ a ≠ .null := by
  cases a <;> simp [TypeName.holds]

variable {name label : String} {verdict : List Value → Bool} {a b : Value}

/-- An operation that compares two values of any kind. -/
def judging (σ : Type) (label : String) (verdict : List Value → Bool) : Operation σ :=
  fixed label [.any, .any] fun args => .bool (verdict args)

def comparing (σ : Type) (name label : String) (verdict : List Value → Bool) : Overloads σ :=
  ⟨name, [judging σ label verdict]⟩

/-- Both values have to be there for the operation to take them. -/
theorem accepts_judging :
    (judging σ label verdict).accepts [a, b] = true ↔ a ≠ .null ∧ b ≠ .null := by
  simp [judging, fixed, Operation.accepts, Operation.allHold, any_holds_iff]

/-- The call gives the verdict, whatever was called before. -/
theorem call_comparing (reenter : String → Eval σ Value) (machine : Machine σ)
    (position : Option Int) (filled : a ≠ .null) (filled' : b ≠ .null) :
    ((Eval.call reenter (comparing σ name label verdict) [a, b] position).run machine).1 =
      .ok (.bool (verdict [a, b])) := by
  have chosen := choose?_single name (judging σ label verdict) [a, b]
  rw [if_pos (accepts_judging.mpr ⟨filled, filled'⟩)] at chosen
  exact congrArg Prod.fst (Eval.call_run_give chosen rfl position)

/-- With a null the call is noted, and no operation is entered. -/
theorem call_comparing_null (reenter : String → Eval σ Value) (machine : Machine σ)
    (position : Option Int) (missing : a = .null ∨ b = .null) :
    (Eval.call reenter (comparing σ name label verdict) [a, b] position).run machine =
      (.error (.evaluation (.notApplicable name [a.kind, b.kind]) position),
        { machine with journal := machine.journal ++ [.call name 2 1] }) := by
  have refuses : ¬ (judging σ label verdict).accepts [a, b] = true := by
    rw [accepts_judging]
    rintro ⟨filled, filled'⟩
    exact missing.elim filled filled'
  have chosen := choose?_single name (judging σ label verdict) [a, b]
  rw [if_neg refuses] at chosen
  exact Eval.call_run_none chosen position

/-- Of values without floats, none of them null, equality is reflexive, symmetric and transitive,
inequality is its negation, and a boolean equals no other value; whatever calls were made before. If
one of two values is null, neither equality nor inequality takes them: the call is noted, and no
operation is entered. -/
theorem equality_laws {equal unequal : Overloads σ}
    (hasEqual : (registry (σ := σ)).lookup "eq" = some equal)
    (hasUnequal : (registry (σ := σ)).lookup "ne" = some unequal)
    (reenter : String → Eval σ Value) (position : Option Int) :
    let outcome (overloads : Overloads σ) (machine : Machine σ) (a b : Value) :=
      ((Eval.call reenter overloads [a, b] position).run machine).1
    (∀ a b c : Value, a.Exact → b.Exact → c.Exact → a ≠ .null → b ≠ .null → c ≠ .null →
      ∀ machine machine' machine'' : Machine σ,
        outcome equal machine a a = .ok (.bool true) ∧
        outcome equal machine a b = outcome equal machine' b a ∧
        (outcome equal machine a b = .ok (.bool true) →
          outcome equal machine' b c = .ok (.bool true) →
          outcome equal machine'' a c = .ok (.bool true)) ∧
        (∃ same, outcome equal machine a b = .ok (.bool same) ∧
          outcome unequal machine' a b = .ok (.bool (!same))) ∧
        (TypeName.bool.holds a ≠ TypeName.bool.holds b →
          outcome equal machine a b = .ok (.bool false))) ∧
    ∀ overloads ∈ [equal, unequal], ∀ (a b : Value) (machine : Machine σ), a = .null ∨ b = .null →
      (Eval.call reenter overloads [a, b] position).run machine =
        (.error (.evaluation (.notApplicable overloads.name [a.kind, b.kind]) position),
          { machine with journal := machine.journal ++ [.call overloads.name 2 1] }) := by
  intro outcome
  -- The two sets are those of the table, of one operation each.
  obtain rfl : comparing σ "eq" "eq" isSame = equal :=
    Option.some.inj ((lookup_listed rfl).symm.trans hasEqual)
  obtain rfl : comparing σ "ne" "ne" (fun args => !isSame args) = unequal :=
    Option.some.inj ((lookup_listed rfl).symm.trans hasUnequal)
  have equals {a b : Value} (machine : Machine σ) (filled : a ≠ .null) (filled' : b ≠ .null) :
      outcome (comparing σ "eq" "eq" isSame) machine a b = .ok (.bool (a.sameValue b)) :=
    call_comparing reenter machine position filled filled'
  constructor
  · intro a b c exact exact' exact'' filled filled' filled'' machine machine' machine''
    rw [equals machine filled filled, equals machine filled filled', equals machine' filled' filled,
      equals machine' filled' filled'', equals machine'' filled filled'']
    refine ⟨?_, ?_, ?_, ⟨a.sameValue b, rfl, ?_⟩, ?_⟩
    · rw [Value.sameValue_refl exact]
    · rw [Value.sameValue_comm exact exact']
    · intro first second
      cases same : a.sameValue b with
      | false => simp [same] at first
      | true =>
        cases same' : b.sameValue c with
        | false => simp [same'] at second
        | true => rw [Value.sameValue_trans exact exact' exact'' same same']
    · exact call_comparing reenter machine' position filled filled'
    -- A boolean and another value are told apart before anything is compared.
    · intro different
      cases same : a.sameValue b with
      | false => rfl
      | true => exact absurd (Value.sameValue_iff.mp same).1 different
  · intro overloads member a b machine missing
    rcases List.mem_pair.mp member with rfl | rfl
    · exact call_comparing_null reenter machine position missing
    · exact call_comparing_null reenter machine position missing

private theorem exact_nested {one key value key' value' : Value} (first : one.Exact)
    (keys : key.Exact ∧ key'.Exact) (values : value.Exact ∧ value'.Exact)
    (distinct : key.equals key' = false) :
    (Value.list [one, .dict [(key, value), (key', value')]]).Exact := by
  have mapping : (Value.dict [(key, value), (key', value')]).Exact := by
    apply Value.Exact.dict
    · simpa using keys
    · simpa using values
    · simpa using distinct
  apply Value.Exact.list
  simpa using ⟨first, mapping⟩

/-- Three lists of a one and a mapping, where the one, the keys and their order differ. -/
theorem equality_laws_nested :
    let a : Value := .list [.bool true, .dict [(.int 1, .null), (.text "k", .tuple [])]]
    let b : Value := .list [.int 1, .dict [(.text "k", .tuple []), (.bool true, .null)]]
    let c : Value := .list [.taggedInt "Num" 1,
      .dict [(.taggedText "Tag" "k", .tuple []), (.int 1, .null)]]
    let equal : Overloads Unit := comparing Unit "eq" "eq" isSame
    let unequal : Overloads Unit := comparing Unit "ne" "ne" fun args => !isSame args
    let machine : Machine Unit := .fresh registry ()
    let outcome (x y : Value) :=
      ((Eval.call (fun _ => throw .nestingLimit) equal [x, y] none).run machine).1
    registry.lookup "eq" = some equal ∧ registry.lookup "ne" = some unequal ∧
      (a.Exact ∧ b.Exact ∧ c.Exact) ∧ (a ≠ .null ∧ b ≠ .null ∧ c ≠ .null) ∧
      outcome a b = .ok (.bool true) ∧ outcome b c = .ok (.bool true) ∧
      outcome a c = .ok (.bool true) ∧
      (Eval.call (fun _ => throw .nestingLimit) equal [.null, a] none).run machine =
        (.error (.evaluation (.notApplicable "eq" [.null, .object]) none),
          { machine with journal := [.call "eq" 2 1] }) := by
  intro a b c equal unequal machine outcome
  have empty : (Value.tuple []).Exact := .tuple [] nofun
  have exact : a.Exact := exact_nested (.scalar rfl) ⟨.scalar rfl, .scalar rfl⟩
    ⟨.scalar rfl, empty⟩ rfl
  have exact' : b.Exact := exact_nested (.scalar rfl) ⟨.scalar rfl, .scalar rfl⟩
    ⟨empty, .scalar rfl⟩ rfl
  have exact'' : c.Exact := exact_nested (.scalar rfl) ⟨.scalar rfl, .scalar rfl⟩
    ⟨empty, .scalar rfl⟩ rfl
  obtain ⟨laws, refusals⟩ :=
    @equality_laws Unit equal unequal rfl rfl (fun _ => throw .nestingLimit) none
  obtain ⟨-, -, joined, -⟩ :=
    laws a b c exact exact' exact'' nofun nofun nofun machine machine machine
  have first : outcome a b = .ok (.bool true) := rfl
  have second : outcome b c = .ok (.bool true) := rfl
  exact ⟨rfl, rfl, ⟨exact, exact', exact''⟩, ⟨nofun, nofun, nofun⟩, first, second,
    joined first second, refusals equal List.mem_cons_self .null a machine (.inl rfl)⟩

end Standard

end HostLisp
