/-!
# Hexadecimal digits

Numbers written with a fixed count of hexadecimal digits, as character escapes need them.
-/

namespace HostLisp.Text

/-- The hexadecimal digit of a value below sixteen, its letters starting at `ten`. -/
def hexDigit (ten : Char) (value : Nat) : Char :=
  if value < 10 then Char.ofNat ('0'.toNat + value) else Char.ofNat (ten.toNat + (value - 10))

/-- The last `width` hexadecimal digits of a number, the most significant first. -/
def hexDigits (ten : Char) : (width : Nat) → Nat → List Char
  | 0, _ => []
  | width + 1, n => hexDigits ten width (n / 16) ++ [hexDigit ten (n % 16)]

/-- A character written by its code point: `\x` and two digits, `\u` and four, or `\U` and eight,
whichever is the first that holds it. -/
def escapeByCode (ten : Char) (c : Char) : List Char :=
  let n := c.toNat
  if n < 0x100 then '\\' :: 'x' :: hexDigits ten 2 n
  else if n < 0x10000 then '\\' :: 'u' :: hexDigits ten 4 n
  else '\\' :: 'U' :: hexDigits ten 8 n

end HostLisp.Text
