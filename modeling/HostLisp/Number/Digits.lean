/-!
# Whole numbers as decimal digits

Conversion between whole numbers and decimal text, in both directions only up to a limit of digits.
-/

namespace HostLisp.Number

/-- The most digits that are read or written. -/
def digitLimit : Nat := 4300

/-- The value of decimal digits, the most significant first. -/
def ofDigits (digits : List Char) : Nat :=
  digits.foldl (fun value digit => 10 * value + (digit.toNat - '0'.toNat)) 0

def isDigit (c : Char) : Bool := '0' ≤ c && c ≤ '9'

/-- Whether a number has more digits than can be written. -/
def exceedsDigitLimit (n : Int) : Bool := Nat.pow 10 digitLimit ≤ n.natAbs

def decimalText (n : Int) : String :=
  let digits := Nat.toDigits 10 n.natAbs
  String.ofList (if n < 0 then '-' :: digits else digits)

end HostLisp.Number
