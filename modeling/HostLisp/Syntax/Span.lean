/-!
# Spans

A stretch of a source, kept as two numbers. It says something only together with its source.
-/

namespace HostLisp

/-- A stretch of a source: the offset where it starts and its length. -/
structure Span where
  start : Int
  length : Int
  deriving DecidableEq, Repr

namespace Span

def stop (span : Span) : Int := span.start + span.length

/-- A bound of a stretch as an offset of a text of the given size: a negative bound counts from the
end, and one beyond either end is the end. -/
def offset (size : Nat) (bound : Int) : Nat :=
  if bound < 0 then (size + bound).toNat else min bound.toNat size

def slice (span : Span) (source : List Char) : List Char :=
  let first := offset source.length span.start
  let last := offset source.length span.stop
  (source.drop first).take (last - first)

/-- What a string literal's body stands for: a backslash passes the next character on. -/
def unescape : List Char → List Char
  | [] | ['\\'] => []
  | '\\' :: c :: rest => c :: unescape rest
  | c :: rest => c :: unescape rest

/-- The text of a string literal's body. A body without a backslash stands for itself. -/
def bodyText (body : List Char) : List Char :=
  if body.contains '\\' then unescape body else body

theorem unescape_of_notMem {body : List Char} (plain : '\\' ∉ body) : unescape body = body := by
  induction body with
  | nil => rfl
  | cons c rest ih =>
    obtain ⟨notFirst, notLater⟩ := List.ne_and_not_mem_of_not_mem_cons plain
    rw [unescape, ih notLater]
    · exact fun same => absurd same.symm notFirst
    · exact fun _ _ same => absurd same.symm notFirst

/-- Walking through a body without a backslash would leave it as it is. -/
theorem bodyText_eq_unescape (body : List Char) : bodyText body = unescape body := by
  unfold bodyText
  split
  · rfl
  next plain =>
    have absent : '\\' ∉ body := by simpa using plain
    exact (unescape_of_notMem absent).symm

end Span

end HostLisp
