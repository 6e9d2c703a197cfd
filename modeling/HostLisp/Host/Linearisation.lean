/-!
# Merging orders

Several orders of the same things are merged into one that keeps them all: the next item is always
the first head of an order that stands in no other place of any order.
-/

namespace HostLisp.Linearisation

variable {α : Type} [DecidableEq α]

/-- The first items of the orders that still have one. -/
def heads (orders : List (List α)) : List α := orders.filterMap List.head?

/-- The next item: a head that no order has behind its own head. -/
def next? (orders : List (List α)) : Option α :=
  (heads orders).find? fun item => orders.all fun order => !order.tail.contains item

/-- The orders without an item at their head. -/
def advance (item : α) (orders : List (List α)) : List (List α) :=
  orders.map fun order => if order.head? = some item then order.tail else order

/-- The merged order, or the heads at which no item can be next. The first argument is the number
of steps, for which the total length of the orders is enough. -/
def mergeWithin : (steps : Nat) → List (List α) → Except (List α) (List α)
  | 0, _ => .ok []
  | steps + 1, orders =>
    match heads orders, next? orders with
    | [], _ => .ok []
    | stuck, none => .error stuck.eraseDups
    | _, some item => (mergeWithin steps (advance item orders)).map (item :: ·)

/-- The merged order, or the heads at which no item can be next. -/
def merge (orders : List (List α)) : Except (List α) (List α) :=
  mergeWithin orders.flatten.length orders

end HostLisp.Linearisation
