import HostLisp.Number.Binary64

/-!
# Shortest decimals

The decimal with the fewest digits that is read back as a given number, and its text.
-/

namespace HostLisp.Number

/-- Digits times a power of ten. -/
structure Scientific where
  digits : Nat
  exponent : Int
  deriving DecidableEq, Repr

namespace Binary64

/-- The decimals that are read back as a magnitude, as bounds in quarters of a unit. Both bounds
belong to them exactly if the magnitude is an even multiple of its spacing. -/
structure ReadBack where
  low : Nat
  high : Nat
  closed : Bool

/-- The decimals read back as a magnitude: halfway to the neighbour on either side. Below a power
of two the neighbour is nearer. -/
def readBack (units : Nat) : ReadBack :=
  let step := spacing units
  let below := if units = Nat.pow 2 units.log2 && 1 < step then step else 2 * step
  ⟨4 * units - below, 4 * units + 2 * step, units / step % 2 = 0⟩

/-- Whether a quotient, in quarters of a unit, is read back as the magnitude. -/
def ReadBack.holds (range : ReadBack) (numerator denominator : Nat) : Bool :=
  if range.closed then
    range.low * denominator ≤ numerator && numerator ≤ range.high * denominator
  else
    range.low * denominator < numerator && numerator < range.high * denominator

/-- The multiple of a power of ten that lies nearest to the magnitude among those read back as
it. Of two at the same distance it is the one with an even last digit. -/
def onGrid? (units : Nat) (exponent : Int) : Option Scientific :=
  -- A digit of the grid is worth `scale / denominator` quarters of a unit.
  let scale := 4 * unitsPerOne * Nat.pow 10 exponent.toNat
  let denominator := Nat.pow 10 (-exponent).toNat
  let quarters := 4 * units * denominator
  let floor := quarters / scale
  let nearer := nearest quarters scale
  let farther := if nearer = floor then floor + 1 else floor
  let holds (digits : Nat) : Bool := (readBack units).holds (digits * scale) denominator
  ([nearer, farther].find? holds).map (⟨·, exponent⟩)

/-- The first grid of at most `count`, each ten times finer than the one before, that holds a
decimal read back as the magnitude. -/
def coarsest (units : Nat) : (count : Nat) → (exponent : Int) → Scientific
  | 0, exponent => ⟨0, exponent⟩
  | count + 1, exponent => (onGrid? units exponent).getD (coarsest units count (exponent - 1))

/-- The decimal of fewest digits that is read back as a positive magnitude. The search starts above
the leading digit; seventeen digits always suffice. -/
def shortest (units : Nat) : Scientific :=
  coarsest units 22 (((units.log2 : Int) - 1074) * 30103 / 100000 + 2)

end Binary64

/-- How a decimal is laid out: from which exponents it is written with a power of ten, and how wide
that exponent is at least. -/
structure DecimalLayout where
  leastPositional : Int
  leastScientific : Int
  exponentWidth : Nat

/-- Positional notation from a ten-thousandth up to below ten to the sixteenth. -/
def DecimalLayout.standard : DecimalLayout := ⟨-4, 16, 2⟩

def DecimalLayout.render (layout : DecimalLayout) (decimal : Scientific) : List Char :=
  let digits := Nat.toDigits 10 decimal.digits
  let leading : Int := decimal.exponent + digits.length - 1
  if layout.leastPositional ≤ leading && leading < layout.leastScientific then
    if leading < 0 then
      '0' :: '.' :: List.replicate (-leading - 1).toNat '0' ++ digits
    else
      let whole := leading.toNat + 1
      let fraction := digits.drop whole
      digits.take whole ++ List.replicate (whole - digits.length) '0' ++
        '.' :: (if fraction.isEmpty then ['0'] else fraction)
  else
    let size := Nat.toDigits 10 leading.natAbs
    digits.take 1 ++ (if digits.length ≤ 1 then [] else '.' :: digits.drop 1) ++
      'e' :: (if leading < 0 then '-' else '+') ::
        List.replicate (layout.exponentWidth - size.length) '0' ++ size

/-- The text of a number: the shortest that is read back as it, `inf`, or `nan`. -/
def Binary64.render : Binary64 → String
  | .finite negative units =>
    let magnitude :=
      if units = 0 then ['0', '.', '0']
      else DecimalLayout.standard.render (Binary64.shortest units)
    String.ofList (if negative then '-' :: magnitude else magnitude)
  | .infinite negative => if negative then "-inf" else "inf"
  | .nan => "nan"

end HostLisp.Number
