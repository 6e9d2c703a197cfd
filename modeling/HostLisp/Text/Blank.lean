/-!
# Blank characters

The characters that count as blank at the two ends of a line typed at the prompt.
-/

namespace HostLisp.Text

/-- The blank characters: the ASCII controls that move the cursor, the information separators,
and every space and line separator of Unicode. -/
def isBlank (c : Char) : Bool :=
  let n := c.toNat
  (0x09 ≤ n && n ≤ 0x0d) || (0x1c ≤ n && n ≤ 0x20) || n = 0x85 || n = 0xa0 || n = 0x1680 ||
    (0x2000 ≤ n && n ≤ 0x200a) || n = 0x2028 || n = 0x2029 || n = 0x202f || n = 0x205f ||
    n = 0x3000

def dropTrailing (unwanted : Char → Bool) (text : List Char) : List Char :=
  (text.reverse.dropWhile unwanted).reverse

def trim (text : List Char) : List Char :=
  dropTrailing isBlank (text.dropWhile isBlank)

end HostLisp.Text
