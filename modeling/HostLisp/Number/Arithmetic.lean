import HostLisp.Number.Binary64

/-!
# Arithmetic of binary numbers

The exact result of an operation is a quotient of units, which is rounded to the nearest number.
Floored division is put together from such operations.
-/

namespace HostLisp.Number.Binary64

def one : Binary64 := .finite false unitsPerOne

def isZero : Binary64 → Bool
  | .finite _ units => units = 0
  | _ => false

/-- Whether a number has a minus sign, as a zero can. -/
def isNegative : Binary64 → Bool
  | .finite negative _ | .infinite negative => negative
  | .nan => false

def negate : Binary64 → Binary64
  | .finite negative units => .finite (!negative) units
  | .infinite negative => .infinite (!negative)
  | .nan => .nan

/-- A magnitude in units with its sign. -/
def signed (negative : Bool) (units : Nat) : Int := if negative then -units else units

/-- The sum of two numbers. A sum of zero is negative only if both are. -/
def add : Binary64 → Binary64 → Binary64
  | .finite negative units, .finite negative' units' =>
    let total := signed negative units + signed negative' units'
    if total = 0 then .finite (negative && negative') 0
    else ofQuotient (total < 0) total.natAbs 1
  | .infinite negative, .infinite negative' =>
    if negative = negative' then .infinite negative else .nan
  | .infinite negative, .finite _ _ | .finite _ _, .infinite negative => .infinite negative
  | _, _ => .nan

def subtract (a b : Binary64) : Binary64 := a.add b.negate

/-- The quotient of two numbers, of which the second is not zero. -/
def divide : Binary64 → Binary64 → Binary64
  | .finite negative units, .finite negative' units' =>
    ofQuotient (negative != negative') (units * unitsPerOne) units'
  | .finite negative _, .infinite negative' => .finite (negative != negative') 0
  | .infinite negative, .finite negative' _ => .infinite (negative != negative')
  | _, _ => .nan

/-- What is left of the first number after division by the second, with the sign of the first. -/
def remainder : Binary64 → Binary64 → Binary64
  | .finite negative units, .finite _ units' => .finite negative (units % units')
  | .finite negative units, .infinite _ => .finite negative units
  | _, _ => .nan

/-- The greatest whole number that is not above a number. -/
def floor : Binary64 → Binary64
  | .finite negative units =>
    let up := if negative && units % unitsPerOne ≠ 0 then 1 else 0
    .finite negative ((units / unitsPerOne + up) * unitsPerOne)
  | x => x

def exceedsHalf : Binary64 → Bool
  | .finite negative units => !negative && unitsPerOne < 2 * units
  | .infinite negative => !negative
  | .nan => false

/-- How often the second number, which is not zero, goes into the first, rounded down. The quotient
without the remainder is whole but for rounding, so the nearest whole number is taken. -/
def floorDivide (a b : Binary64) : Binary64 :=
  let rest := a.remainder b
  let whole := (a.subtract rest).divide b
  let quotient :=
    if !rest.isZero && rest.isNegative != b.isNegative then whole.subtract one else whole
  if quotient.isZero then .finite (a.isNegative != b.isNegative) 0
  else
    let below := quotient.floor
    if (quotient.subtract below).exceedsHalf then below.add one else below

end HostLisp.Number.Binary64
