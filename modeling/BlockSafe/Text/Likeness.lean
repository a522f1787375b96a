import BlockSafe.Text.Basic

/-!
# Likeness

How alike two texts are: the longest run of characters that both share is matched first, then
what stands to the left of it in both, and what stands to the right.  The likeness is the share of
all characters that are matched, and `closest` picks the candidates to suggest for a misspelt word.
-/

namespace BlockSafe

namespace Text

/-! ## Shared characters -/

/-- The length of the longest common prefix. -/
def commonPrefix : Text → Text → Nat
  | a :: s, b :: t => if a = b then commonPrefix s t + 1 else 0
  | _, _ => 0

/-- Where a run that two texts share starts in each of them, and how long it is. -/
structure SharedRun where
  left : Nat
  right : Nat
  length : Nat

/-- The longest shared run; of several, the one that starts first in `s`, then first in `t`. -/
def longestShared (s t : Text) : SharedRun :=
  let runs := (List.range s.length).flatMap fun i =>
    (List.range t.length).map fun j => ⟨i, j, commonPrefix (s.drop i) (t.drop j)⟩
  runs.foldl (fun best run => if best.length < run.length then run else best) ⟨0, 0, 0⟩

/-- The number of matched characters, as long as the fuel lasts. -/
def matchedWithin : Nat → Text → Text → Nat
  | 0, _, _ => 0
  | fuel + 1, s, t =>
    let run := longestShared s t
    if run.length = 0 then 0
    else
      matchedWithin fuel (s.take run.left) (t.take run.right) + run.length
        + matchedWithin fuel (s.drop (run.left + run.length)) (t.drop (run.right + run.length))

/-- The number of matched characters.  Every split shortens `s`, so its length is fuel enough. -/
def matched (s t : Text) : Nat := matchedWithin s.length s t

/-! ## Suggestions -/

/-- Whether `s` stands at or before `t` in the alphabet. -/
def precedes : Text → Text → Bool
  | [], _ => true
  | _ :: _, [] => false
  | a :: s, b :: t => if a = b then precedes s t else a.toNat < b.toNat

/-- The most candidates that are suggested. -/
def maxSuggestions : Nat := 3

/-- Whether at least three fifths of the characters of two texts are matched. -/
def isAlike (s t : Text) : Bool := 3 * (s.length + t.length) ≤ 10 * matched s t

/-- Whether `s` is to be suggested for `word` before `t`: it is more alike, or as much and later
in the alphabet. -/
def isCloser (word s t : Text) : Bool :=
  let a := matched s word * (t.length + word.length)
  let b := matched t word * (s.length + word.length)
  b < a || (a == b && precedes t s)

/-- The candidates closest to `word`, in alphabetical order. -/
def closest (word : Text) (candidates : List Text) : List Text :=
  let alike := candidates.filter (isAlike · word)
  ((alike.mergeSort (isCloser word)).take maxSuggestions).mergeSort precedes

end Text

end BlockSafe
