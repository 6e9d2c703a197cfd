/-!
# Patterns

Regular patterns over characters. A text is matched one character at a time: after each, the pattern
is replaced by one for the texts that may follow.
-/

namespace HostLisp.Text

/-- A regular set of texts. -/
inductive Pattern
  | never
  | empty
  /-- One character of one of the ranges. -/
  | oneOf (ranges : List (Char × Char))
  | either (first second : Pattern)
  | both (first second : Pattern)
  | many (repeated : Pattern)
  deriving DecidableEq, Repr

namespace Pattern

/-- Two patterns one after the other, simplified. -/
def followedBy : Pattern → Pattern → Pattern
  | .never, _ | _, .never => .never
  | .empty, second => second
  | first, .empty => first
  | first, second => .both first second

/-- One of two patterns, simplified. -/
def orElse : Pattern → Pattern → Pattern
  | .never, second => second
  | first, .never => first
  | first, second => if first = second then first else .either first second

def matchesEmpty : Pattern → Bool
  | .never | .oneOf _ => false
  | .empty | .many _ => true
  | .either first second => first.matchesEmpty || second.matchesEmpty
  | .both first second => first.matchesEmpty && second.matchesEmpty

def inClass (ranges : List (Char × Char)) (c : Char) : Bool :=
  ranges.any fun (first, last) => first ≤ c && c ≤ last

/-- The pattern for what may follow a character. -/
def after (c : Char) : Pattern → Pattern
  | .never | .empty => .never
  | .oneOf ranges => if inClass ranges c then .empty else .never
  | .either first second => (first.after c).orElse (second.after c)
  | .both first second =>
    let continued := (first.after c).followedBy second
    if first.matchesEmpty then continued.orElse (second.after c) else continued
  | .many repeated => (repeated.after c).followedBy (.many repeated)

def isMatch (pattern : Pattern) (text : List Char) : Bool :=
  (text.foldl (fun pattern c => pattern.after c) pattern).matchesEmpty

def char (c : Char) : Pattern := .oneOf [(c, c)]

def anyOf (chars : String) : Pattern := .oneOf (chars.toList.map fun c => (c, c))

def word (text : String) : Pattern := text.toList.foldr (fun c => followedBy (char c)) .empty

def all (patterns : List Pattern) : Pattern := patterns.foldr followedBy .empty

def any (patterns : List Pattern) : Pattern := patterns.foldr orElse .never

def optional (pattern : Pattern) : Pattern := .either pattern .empty

def some (pattern : Pattern) : Pattern := .both pattern (.many pattern)

end Pattern

end HostLisp.Text
