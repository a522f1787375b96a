import BlockSafe.Text.Basic

/-!
# Paths

A path is written as names between slashes.  Empty names and `.` stand for nothing, so that many
paths lead to the same place; `normal` is the shortest of them that keeps `..` where it is.
-/

namespace BlockSafe

namespace Path

/-- The names in a path that stand for something. -/
def names (path : Text) : List Text :=
  (Text.split '/' path).filter fun name => !name.isEmpty && name != ['.']

/-- The slashes that a path starts with: two stay two, more count as one. -/
def root (path : Text) : Text :=
  match (path.takeWhile (· == '/')).length with
  | 0 => []
  | 2 => ['/', '/']
  | _ => ['/']

/-- The path without names that stand for nothing; the folder itself is `.`. -/
def normal (path : Text) : Text :=
  let s := root path ++ Text.join ['/'] (names path)
  if s.isEmpty then ['.'] else s

end Path

end BlockSafe
