/-!
# File names

Names of files as parts between slashes. Parts that lead nowhere do not count, so that different
names can lead to the same file.
-/

namespace HostLisp.FileName

/-- The parts of a name that lead somewhere: neither empty ones nor single dots do. -/
def parts (name : String) : List (List Char) :=
  (name.toList.splitOn '/').filter fun part => !part.isEmpty && part ≠ ['.']

/-- What a name starts at: two slashes are kept, more of them are as good as one. -/
def anchor (name : String) : List Char :=
  match name.toList.takeWhile (· = '/') with
  | [] => []
  | ['/', '/'] => ['/', '/']
  | _ => ['/']

/-- The shortest name that leads to the same file. -/
def normalize (name : String) : String :=
  let chars := anchor name ++ ['/'].intercalate (parts name)
  if chars.isEmpty then "." else String.ofList chars

/-- Whether two names lead to the same file. -/
def same (a b : String) : Bool := normalize a = normalize b

/-- Whether a file can have the name: no part of it holds the character zero. -/
def isPossible (name : String) : Bool := !name.contains '\x00'

end HostLisp.FileName
