import BlockSafe.Rule.Violation
import BlockSafe.Target.Microbit
import BlockSafe.Text.Pattern

/-!
# Calls

The number of arguments at the call sites of known blocks.  A call site is the name of a block at
the start of a word, white space and an opening bracket; its arguments are what stands between
that bracket and the one that closes it, cut at the commas outside further brackets.  A call site
whose bracket is never closed ends the search for that block.
-/

namespace BlockSafe

/-! ## Brackets -/

/-- How many characters stand before the bracket that brings `depth` open brackets down to
zero. -/
def closingAt? (depth : Int) : Text → Option Nat
  | [] => none
  | c :: rest =>
    if c = '(' then (closingAt? (depth + 1) rest).map (· + 1)
    else if c = ')' then
      if depth = 1 then some 0 else (closingAt? (depth - 1) rest).map (· + 1)
    else (closingAt? depth rest).map (· + 1)

/-- Why a bracket cannot be looked for. -/
inductive BracketError where
  /-- The search would start before the text. -/
  | startsBefore
  /-- The index where the search would start is below the signed words of 64 bits. -/
  | belowWords
deriving DecidableEq, Repr

/-- What is said of a bracket that cannot be looked for. -/
def BracketError.message : BracketError → Text
  | startsBefore => "string index out of range"
  | belowWords => "cannot fit 'int' into an index-sized integer"

/-- The text from index `start` on.  A negative index counts from the end, and the text follows
again after the end; there is nothing before the start of the text. -/
def textFrom (start : Int) (s : Text) : Except BracketError Text :=
  match start with
  | .ofNat n => .ok (s.drop n)
  | .negSucc n =>
    if n < s.length then .ok (s.drop (s.length - (n + 1)) ++ s)
    else if n < 9223372036854775808 then .error .startsBefore
    else .error .belowWords

/-- The index of the bracket that closes the first one from index `start` on, if it is closed. -/
def closingParen (s : Text) (start : Int) : Except BracketError (Option Int) :=
  (textFrom start s).map fun tail => (closingAt? 0 tail).map fun offset => start + offset

/-- Whether the character opens a bracket of any kind. -/
def opensBracket (c : Char) : Bool := c == '(' || c == '[' || c == '{'

/-- Whether the character closes a bracket of any kind. -/
def closesBracket (c : Char) : Bool := c == ')' || c == ']' || c == '}'

/-- Puts a character at the start of the first piece. -/
def consPiece (c : Char) : List Text → List Text
  | [] => [[c]]
  | piece :: pieces => (c :: piece) :: pieces

/-- The pieces between the commas outside brackets, starting inside `depth` brackets. -/
def argumentPieces (depth : Nat) : Text → List Text
  | [] => [[]]
  | c :: rest =>
    if opensBracket c then consPiece c (argumentPieces (depth + 1) rest)
    else if closesBracket c then consPiece c (argumentPieces (depth - 1) rest)
    else if c = ',' ∧ depth = 0 then [] :: argumentPieces 0 rest
    else consPiece c (argumentPieces depth rest)

/-- The number of arguments in the text between the brackets of a call; blank ones do not
count. -/
def countArguments (args : Text) : Nat := (argumentPieces 0 args).countP (!Text.isBlank ·)

/-! ## Call sites -/

/-- What follows the opening bracket of a call of `call` that starts at a position. -/
def afterCall? (call : Text) (cursor : Cursor) : Option Text :=
  if cursor.atWordEdge then
    match Text.after? call cursor.rest with
    | some rest => Text.after? ['('] (Text.trimStart rest)
    | none => none
  else none

/-- The arguments of a call site, if its bracket is closed, and what follows it. -/
def callSiteAt? (call : Text) (cursor : Cursor) : Option (Option Text × Text) :=
  match afterCall? call cursor with
  | none => none
  | some inner =>
    match closingAt? 1 inner with
    | some n => some (some (inner.take n), inner.drop (n + 1))
    | none => some (none, inner)

/-- The arguments of the call sites of `call` before the first one that is never closed. -/
def callArguments (call s : Text) : List Text :=
  ((findAll (callSiteAt? call) s).takeWhile Option.isSome).reduceOption

/-- The violation of a call with `got` arguments, if the block does not take that many. -/
def Microbit.Signature.check (signature : Microbit.Signature) (got : Nat) : Option Violation :=
  if got < signature.least ∨ signature.most < got then
    some (.arity signature.call signature.least signature.most got)
  else none

/-- The violations of all call sites, block by block. -/
def checkCalls (searchable : Text) : List Violation :=
  Microbit.signatures.flatMap fun signature =>
    (callArguments signature.call searchable).filterMap fun args =>
      signature.check (countArguments args)

end BlockSafe
