import BlockSafe.Rule.Violation
import BlockSafe.Text.Pattern

/-!
# Counting loops

The only loop header with a block is `let i = 0; i < n; i++`, with `<=` for `<` and `++i` for
`i++` allowed; a header with the word `of` is a loop over a list and passes.  `forHeaders` finds
the headers of a program, `checkForHeader` judges one, clause by clause.
-/

namespace BlockSafe

open Pattern

/-- The text between the brackets of a loop header that starts here, and what follows it. -/
def forHeaderAt? (cursor : Cursor) : Option (Text × Text) :=
  match Text.after? "for" cursor.rest with
  | none => none
  | some rest =>
    match Text.trimStart rest with
    | '(' :: inner =>
      match inner.dropWhile (· != ')') with
      | _ :: tail => some (inner.takeWhile (· != ')'), tail)
      | [] => none
    | _ => none

/-- The loop headers of a program. -/
def forHeaders (code : Text) : List Text := findAll forHeaderAt? code

/-- What follows at least one character of white space. -/
def afterGap? (s : Text) : Option Text :=
  match s with
  | c :: rest => if isSpace c then some (Text.trimStart rest) else none
  | [] => none

/-- The identifier at the start of a text, and what follows. -/
def identAt? (s : Text) : Option (Text × Text) :=
  match s with
  | c :: rest =>
    if isIdentStart c then some (c :: rest.takeWhile isIdentPart, rest.dropWhile isIdentPart)
    else none
  | [] => none

/-- The variable of an initializer `let i = 0`. -/
def loopVariable? (clause : Text) : Option Text := do
  let rest ← afterGap? (← Text.after? "let" clause)
  let (name, rest) ← identAt? rest
  let rest ← Text.after? "=" (Text.trimStart rest)
  if Text.trimStart rest = ['0'] then some name else none

/-- Whether a bound follows: something other than white space, on one line. -/
def isLoopBound (s : Text) : Bool :=
  let bound := Text.trimStart s
  !bound.isEmpty && bound.all (· != '\n')

/-- Whether a clause compares `name` with a bound by `<` or `<=`. -/
def isLoopCondition (name clause : Text) : Bool :=
  match Text.after? name clause with
  | none => false
  | some rest =>
    let comparison := Text.trimStart rest
    (Text.after? "<" comparison).any isLoopBound || (Text.after? "<=" comparison).any isLoopBound

/-- Whether a clause adds one to `name`. -/
def isLoopIncrement (name clause : Text) : Bool :=
  clause == name ++ "++".toList || clause == "++".toList ++ name

/-- The violations of three clauses. -/
def checkForClauses (initializer condition increment : Text) : List Violation :=
  match loopVariable? initializer with
  | none => [.forInitializer]
  | some name =>
    (if isLoopCondition name condition then [] else [.forCondition])
      ++ if isLoopIncrement name increment then [] else [.forIncrement]

/-- The violations of one loop header. -/
def checkForHeader (header : Text) : List Violation :=
  if (word "of").occurs (Text.trim header) then []
  else match (Text.split ';' (Text.trim header)).map Text.trim with
    | [initializer, condition, increment] => checkForClauses initializer condition increment
    | _ => [.forShape]

/-- The violations of all loop headers, in order. -/
def checkForLoops (code : Text) : List Violation := (forHeaders code).flatMap checkForHeader

end BlockSafe
