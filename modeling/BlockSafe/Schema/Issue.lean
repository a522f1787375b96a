import BlockSafe.Json.Basic

/-!
# Issues

What can be wrong with a field.  Reading fields collects every issue in the order of the fields,
each with the path to the value and the value itself.
-/

namespace BlockSafe

/-- What is wrong with a value. -/
inductive IssueKind where
  | missing
  | notObject (model : Text)
  | notMapping
  | notText
  | textTooShort (least : Nat)
  | notList
  | listTooShort (least got : Nat)
  | notInteger
  | unreadableInteger
  | oversizedInteger
  | fractionalInteger
  | notReal
  | unreadableReal
  | notFinite
  | notTruth
  | unreadableTruth
  | below (least : Nat)
  | above (most : Nat)
deriving DecidableEq, Repr

namespace IssueKind

/-- The short name of a kind of issue. -/
def tag : IssueKind → Text
  | missing => "missing"
  | notObject _ => "model_type"
  | notMapping => "dict_type"
  | notText => "string_type"
  | textTooShort _ => "string_too_short"
  | notList => "list_type"
  | listTooShort _ _ => "too_short"
  | notInteger => "int_type"
  | unreadableInteger => "int_parsing"
  | oversizedInteger => "int_parsing_size"
  | fractionalInteger => "int_from_float"
  | notReal => "float_type"
  | unreadableReal => "float_parsing"
  | notFinite => "finite_number"
  | notTruth => "bool_type"
  | unreadableTruth => "bool_parsing"
  | below _ => "greater_than_equal"
  | above _ => "less_than_equal"

/-- A noun after a number, in the plural unless the number is one. -/
def counted (n : Nat) (noun : Text) : Text :=
  Text.ofNat n ++ ' ' :: noun ++ if n = 1 then [] else ['s']

/-- What should have been there. -/
def message : IssueKind → Text
  | missing => "Field required"
  | notObject model => "Input should be a valid dictionary or instance of ".toList ++ model
  | notMapping => "Input should be a valid dictionary"
  | notText => "Input should be a valid string"
  | textTooShort least => "String should have at least ".toList ++ counted least "character"
  | notList => "Input should be a valid list"
  | listTooShort least got =>
    "List should have at least ".toList ++ counted least "item"
      ++ " after validation, not ".toList ++ Text.ofNat got
  | notInteger => "Input should be a valid integer"
  | unreadableInteger => "Input should be a valid integer, unable to parse string as an integer"
  | oversizedInteger => "Unable to parse input string as an integer, exceeded maximum size"
  | fractionalInteger => "Input should be a valid integer, got a number with a fractional part"
  | notReal => "Input should be a valid number"
  | unreadableReal => "Input should be a valid number, unable to parse string as a number"
  | notFinite => "Input should be a finite number"
  | notTruth => "Input should be a valid boolean"
  | unreadableTruth => "Input should be a valid boolean, unable to interpret input"
  | below least => "Input should be greater than or equal to ".toList ++ Text.ofNat least
  | above most => "Input should be less than or equal to ".toList ++ Text.ofNat most

end IssueKind

/-- A value that is not what its field asks for. -/
structure Issue where
  kind : IssueKind
  path : List Text
  input : Json

namespace Issue

/-- The number of octets in the encoding of a character. -/
def octets (c : Char) : Nat := c.utf8Size

/-- The number of octets in the encoding of a text. -/
def octetsIn (s : Text) : Nat := s.foldl (fun n c => n + octets c) 0

/-- The longest prefix that takes at most `room` octets. -/
def prefixWithin (room : Nat) : Text → Text
  | [] => []
  | c :: rest => if octets c ≤ room then c :: prefixWithin (room - octets c) rest else []

/-- A shown value of more than fifty octets loses its middle: at most twenty-five octets stay at
the start and at most twenty-four at the end. -/
def shorten (shown : Text) : Text :=
  if octetsIn shown ≤ 50 then shown
  else prefixWithin 25 shown ++ "...".toList ++ (prefixWithin 24 shown.reverse).reverse

/-- The issue as three lines of a report. -/
def report (issue : Issue) : Text :=
  '\n' :: Text.join ['.'] issue.path ++ "\n  ".toList ++ issue.kind.message
    ++ " [type=".toList ++ issue.kind.tag ++ ", input_value=".toList ++ shorten issue.input.shown
    ++ ", input_type=".toList ++ issue.input.kindWord
    ++ "]\n    For further information visit https://errors.pydantic.dev/2.14/v/".toList
    ++ issue.kind.tag

/-- The report on all issues of one model. -/
def reportAll (model : Text) (issues : List Issue) : Text :=
  IssueKind.counted issues.length "validation error" ++ " for ".toList ++ model
    ++ issues.flatMap report

end Issue

end BlockSafe
