/-!
# Binary floating point

Numbers of the 64-bit binary format. Every finite one is a whole multiple of the smallest, which is
two to the power -1074, so comparison with whole numbers is comparison of such multiples.
-/

namespace HostLisp.Number

/-- A number of the 64-bit binary format. -/
inductive Binary64
  /-- The number of smallest units, and a sign that zero has too. -/
  | finite (negative : Bool) (units : Nat)
  | infinite (negative : Bool)
  /-- Not a number. -/
  | nan
  deriving DecidableEq, Repr, Inhabited

namespace Binary64

/-- The smallest units that make one. -/
def unitsPerOne : Nat := Nat.pow 2 1074

/-- Units that the format cannot reach. -/
def unitsLimit : Nat := Nat.pow 2 (1074 + 1024)

/-- The distance, in units, of neighbouring numbers at a magnitude: 53 bits are kept. -/
def spacing (units : Nat) : Nat := Nat.pow 2 (units.log2 - 52)

/-- The whole number nearest to a quotient, the even one of two. -/
def nearest (numerator denominator : Nat) : Nat :=
  let quotient := numerator / denominator
  let twice := 2 * (numerator % denominator)
  if twice < denominator then quotient
  else if denominator < twice then quotient + 1
  else quotient + quotient % 2

/-- The number nearest to a quotient of units, the even one of two. -/
def ofQuotient (negative : Bool) (numerator denominator : Nat) : Binary64 :=
  let step := spacing (numerator / denominator)
  let units := nearest numerator (denominator * step) * step
  if units < unitsLimit then .finite negative units else .infinite negative

/-- The number nearest to a decimal, digits times a power of ten. -/
def ofDecimal (negative : Bool) (digits : Nat) (exponent : Int) : Binary64 :=
  -- One of the two powers is one, so the quotient is the decimal in units.
  let numerator := digits * Nat.pow 10 exponent.toNat * unitsPerOne
  ofQuotient negative numerator (Nat.pow 10 (-exponent).toNat)

/-- The number nearest to a whole number. -/
def ofInt (n : Int) : Binary64 := ofQuotient (n < 0) (n.natAbs * unitsPerOne) 1

/-- Whether the number equals a whole number. -/
def equalsInt : Binary64 → Int → Bool
  | .finite negative units, n =>
    units = n.natAbs * unitsPerOne && (units = 0 || negative = decide (n < 0))
  | _, _ => false

/-- Whether two numbers are equal: zeros of either sign are, and no number equals `nan`. -/
def equals : Binary64 → Binary64 → Bool
  | .finite negative units, .finite negative' units' =>
    units = units' && (units = 0 || negative = negative')
  | .infinite negative, .infinite negative' => negative = negative'
  | _, _ => false

end Binary64

end HostLisp.Number
