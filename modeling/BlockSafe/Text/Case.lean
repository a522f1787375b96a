import BlockSafe.Text.Basic
import BlockSafe.Text.CaseTable

/-!
# Letter case

`Text.lower` and `Text.upper` are the full case mappings: one character may become several, and
a capital sigma becomes the final form at the end of a word.  `foldLetter` is the coarser
comparison of single ASCII letters that ignores case; beside the capitals it takes the four
other characters whose simple case variants are ASCII letters.
-/

namespace BlockSafe

/-- The first run that covers `c`, applied to it. -/
def mapByRuns (runs : List CaseRun) (c : Char) : Char :=
  match runs.find? (·.covers c.toNat) with
  | some run => Char.ofNat (run.map c.toNat)
  | none => c

/-- The lower-case form of one character, the sigma of a word's end apart. -/
def lowerChar (c : Char) : List Char :=
  if c.toNat < 128 then [c.toLower]
  else if c = '\u0130' then ['i', '\u0307']
  else [mapByRuns lowerRuns c]

/-- The upper-case form of one character. -/
def upperChar (c : Char) : List Char :=
  if c.toNat < 128 then [c.toUpper]
  else match upperExpansions.lookup c.toNat with
    | some points => points.map Char.ofNat
    | none => [mapByRuns upperRuns c]

/-- Whether the character has case and counts as a neighbour in a word. -/
def isCased (c : Char) : Bool := inSpans casedSpans c.toNat

/-- Whether the character is passed over in the search for a cased neighbour. -/
def isCaseIgnorable (c : Char) : Bool := inSpans caseIgnorableSpans c.toNat

/-- Whether the first character that is not passed over has case. -/
def casedAhead (s : Text) : Bool :=
  match s.dropWhile isCaseIgnorable with
  | [] => false
  | c :: _ => isCased c

namespace Text

/-- Lower-cases what follows a prefix; `afterCased` tells whether the last character of the
prefix that is not passed over has case. -/
def lowerAfter (afterCased : Bool) : Text → Text
  | [] => []
  | c :: rest =>
    (if c = 'Σ' then [if afterCased && !casedAhead rest then 'ς' else 'σ'] else lowerChar c)
      ++ lowerAfter (if isCaseIgnorable c then afterCased else isCased c) rest

/-- The lower-case form of a text. -/
def lower (s : Text) : Text := lowerAfter false s

/-- The upper-case form of a text. -/
def upper (s : Text) : Text := s.flatMap upperChar

end Text

/-- One representative for the case variants of an ASCII letter: its small form.  A dotted
capital and a dotless small i count as i, a long s as s, the kelvin sign as k. -/
def foldLetter (c : Char) : Char :=
  if c = '\u0130' ∨ c = '\u0131' then 'i'
  else if c = '\u017F' then 's'
  else if c = '\u212A' then 'k'
  else c.toLower

end BlockSafe
