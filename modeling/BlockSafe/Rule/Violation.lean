import BlockSafe.Text.Basic

/-!
# Violations

Why a program cannot be shown as blocks.  Every cause has one short tag (`Violation.tag`), which
is what reports, retry prompts and fallback notes show.
-/

namespace BlockSafe

/-- A reason why a program is not block-safe. -/
inductive Violation where
  /-- An Arcade namespace in a program for another board. -/
  | arcadeApis
  /-- A micro:bit namespace in a program for Arcade. -/
  | microbitApis
  | arrowFunctions
  | classes
  | newConstructor
  | promises
  | imports
  | interpolation
  | higherOrderMethods
  | namespaces
  | typeDeclarations
  | generics
  | timers
  | consoleCalls
  | lineComments
  | blockComments
  | randint
  | compoundAssignments
  | nullLiteral
  | undefinedLiteral
  | casts
  | bitwiseOperators
  | forIn
  | forShape
  | forInitializer
  | forCondition
  | forIncrement
  | nestedRegistration
  | nestedFunction
  | defaultParameters
  | missingInitializer
  /-- A member that a known enum does not have. -/
  | unknownMember (enumName member : Text)
  /-- A known call with a number of arguments that its block does not take. -/
  | arity (call : Text) (least most got : Nat)
  | nonAscii
deriving DecidableEq, Repr

namespace Violation

/-- How the accepted numbers of arguments are written. -/
def expectedArguments (least most : Nat) : Text :=
  if least = most then Text.ofNat least else Text.ofNat least ++ '-' :: Text.ofNat most

/-- The short text by which a violation is reported. -/
def tag : Violation → Text
  | arcadeApis => "Arcade APIs in micro:bit/Maker"
  | microbitApis => "micro:bit APIs in Arcade"
  | arrowFunctions => "arrow functions"
  | classes => "classes"
  | newConstructor => "new constructor"
  | promises => "promises/async"
  | imports => "import/export"
  | interpolation => "template string interpolation"
  | higherOrderMethods => "higher-order array methods"
  | namespaces => "namespaces/modules"
  | typeDeclarations => "TS types/enums"
  | generics => "generics syntax"
  | timers => "timers"
  | consoleCalls => "console calls"
  | lineComments => "line comments"
  | blockComments => "block comments"
  | randint => "randint()"
  | compoundAssignments => "unsupported assignment operators"
  | nullLiteral => "null"
  | undefinedLiteral => "undefined"
  | casts => "casts"
  | bitwiseOperators => "bitwise operators"
  | forIn => "for...in loops"
  | forShape => "invalid for-loop shape"
  | forInitializer => "for-loop initializer must be let i = 0"
  | forCondition => "for-loop condition must be i < limit or i <= limit"
  | forIncrement => "for-loop increment must be i++"
  | nestedRegistration => "nested event registration"
  | nestedFunction => "non-top-level function declaration"
  | defaultParameters => "optional/default parameters in function declaration"
  | missingInitializer => "variable declaration without initializer"
  | unknownMember enumName member =>
    "invalid enum member ".toList ++ enumName ++ '.' :: member
  | arity call least most got =>
    call ++ " arity (expected ".toList ++ expectedArguments least most ++ ", got ".toList
      ++ Text.ofNat got ++ [')']
  | nonAscii => "non-ASCII characters"

end Violation

end BlockSafe
