import BlockSafe.Json.Basic
import BlockSafe.Text.Case

/-!
# Targets

The boards and editors that programs are written for.  A target is named by a short word; any
other value stands for micro:bit, so that every value names a target.
-/

namespace BlockSafe

/-- A board or editor that programs are written for. -/
inductive Target where
  | microbit
  | arcade
  | maker
deriving DecidableEq, Repr

namespace Target

/-- All targets. -/
def all : List Target := [microbit, arcade, maker]

/-- The short word that names a target. -/
def word : Target → Text
  | microbit => "microbit"
  | arcade => "arcade"
  | maker => "maker"

/-- The target that a word names. -/
def ofWord? (s : Text) : Option Target := all.find? (·.word == s)

/-- The target that any value names: its text, trimmed and in lower case, if that is the word of
a target, and micro:bit otherwise. -/
def ofValue (value : Json) : Target :=
  (ofWord? (Text.lower (Text.trim value.plain))).getD microbit

end Target

end BlockSafe
