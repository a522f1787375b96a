import BlockSafe.Text.Basic

/-!
# Limits

Nested values are read, joined and shown on a stack, and the stack has an end; an integer is written
with so many digits and no more.  How much room there is depends on the machine and on the caller,
so it is given as `Limits`.  What goes beyond them is an `Excess`, and whatever it comes up in fails
with it.
-/

namespace BlockSafe

/-- The most digits of an integer, whether it is read or shown. -/
def maxIntegerDigits : Nat := 4300

/-- What a bracket opens. -/
inductive Bracket where
  | list
  | object
deriving DecidableEq, Repr

/-- How much room the stack has. -/
structure Limits where
  /-- How many brackets can be open at once in a text that is read. -/
  reading : Nat
  /-- The room for the text of a `code` value. -/
  writing : Nat
  /-- What a list takes of that room while its items are joined.  Where a value is written out with
  its brackets, each takes one. -/
  perList : Nat
  /-- How many values can be shown inside one another. -/
  showing : Nat
deriving DecidableEq, Repr

/-- The room that is left on a stack of a thousand frames. -/
def Limits.standard : Limits := ⟨950, 950, 3, 950⟩

/-- What goes beyond a limit. -/
inductive Excess where
  /-- A bracket in a text that is read. -/
  | reading (opening : Bracket)
  /-- A list whose items are joined. -/
  | joining
  /-- A value that is written out with its brackets. -/
  | writing
  /-- A value that is shown. -/
  | showing
  /-- The digits of an integer that is shown. -/
  | digits
deriving DecidableEq, Repr

/-- What is said of an excess. -/
def Excess.message : Excess → Text
  | reading .list =>
    "maximum recursion depth exceeded while decoding a JSON array from a unicode string"
  | reading .object =>
    "maximum recursion depth exceeded while decoding a JSON object from a unicode string"
  | joining => "maximum recursion depth exceeded"
  | writing => "maximum recursion depth exceeded while encoding a JSON object"
  | showing => "maximum recursion depth exceeded while getting the repr of an object"
  | digits =>
    "Exceeds the limit (4300 digits) for integer string conversion; ".toList ++
      "use sys.set_int_max_str_digits() to increase the limit".toList

end BlockSafe
