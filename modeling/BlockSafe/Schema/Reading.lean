import BlockSafe.Json.Reader
import BlockSafe.Schema.Issue
import BlockSafe.Text.Case

/-!
# Reading fields

Readers turn structured values into what a field asks for, and are lenient: `"3"`, `3.0` and
`true` are integers, `"off"` and `0` are truth values.  Readers of several fields collect the
issues of all of them.

* `Checked.and` applies a function to one more checked argument and keeps the issues of both;
* `Read.required` and `Read.optional` read one field of an object;
* `Read.integer`, `Read.real`, `Read.truth`, `Read.text` and `Read.listOf` read single values.
-/

namespace BlockSafe

/-- A value, or what is wrong with the input. -/
abbrev Checked (α : Type) := Except (List Issue) α

namespace Checked

/-- Applies a checked function to a checked argument; the issues of the function come first. -/
def and {α β : Type} (f : Checked (α → β)) (a : Checked α) : Checked β :=
  match f, a with
  | .ok f, .ok a => .ok (f a)
  | .ok _, .error issues => .error issues
  | .error issues, .ok _ => .error issues
  | .error first, .error second => .error (first ++ second)

/-- A value without issues. -/
def pure {α : Type} (a : α) : Checked α := .ok a

/-- A single issue with a value. -/
def fail {α : Type} (kind : IssueKind) (input : Json) : Checked α := .error [⟨kind, [], input⟩]

/-- The same reading one step further down a path. -/
def under {α : Type} (step : Text) (a : Checked α) : Checked α :=
  a.mapError (·.map fun issue => { issue with path := step :: issue.path })

/-- All values, or all issues. -/
def all {α : Type} : List (Checked α) → Checked (List α)
  | [] => .ok []
  | a :: rest => and (a.map List.cons) (all rest)

end Checked

namespace Read

/-! ## Fields -/

/-- Reads a field that may be absent. -/
def optional {α : Type} (fields : Fields) (key : Text) (default : α) (read : Json → Checked α) :
    Checked α :=
  match Fields.get? fields key with
  | some value => (read value).under key
  | none => .ok default

/-- Reads a field that must be there. -/
def required {α : Type} (fields : Fields) (key : Text) (read : Json → Checked α) : Checked α :=
  match Fields.get? fields key with
  | some value => (read value).under key
  | none => .error [⟨.missing, [key], .object fields⟩]

/-- Reads null as nothing. -/
def nullable {α : Type} (read : Json → Checked α) : Json → Checked (Option α)
  | .null => .ok none
  | value => (read value).map some

/-- Reads the fields of an object that is described by `model`. -/
def object {α : Type} (model : Text) (read : Fields → Checked α) : Json → Checked α
  | .object fields => read fields
  | value => .fail (.notObject model) value

/-! ## Texts and lists -/

/-- Reads a text. -/
def text : Json → Checked Text
  | .str s => .ok s
  | value => .fail .notText value

/-- Reads a text that is not empty. -/
def nonemptyText : Json → Checked Text
  | .str [] => .fail (.textTooShort 1) (.str [])
  | value => text value

/-- Reads the items of a list, with their indices as path. -/
def listOf {α : Type} (read : Json → Checked α) : Json → Checked (List α)
  | .list items =>
    .all (items.zipIdx.map fun (item, i) => (read item).under (Text.ofNat i))
  | value => .fail .notList value

/-- Reads a list that is not empty. -/
def nonemptyListOf {α : Type} (read : Json → Checked α) : Json → Checked (List α)
  | .list [] => .fail (.listTooShort 1 0) (.list [])
  | value => listOf read value

/-! ## Numbers in texts -/

/-- Drops underscores, if there are any and each stands alone between two other characters. -/
def withoutUnderscores? (s : Text) : Option Text :=
  if '_' ∈ s ∧ (Text.split '_' s).all (!·.isEmpty) then some (s.filter (· != '_')) else none

/-- What is left of a numeral without a sign in front when the zeros and underscores before its
first other character are dropped; a zero before a point stays, as does the last of nothing but
zeros.  A minus sign behind zeros is kept. -/
def dropLeadingZeros? (s : Text) : Option Text :=
  match s with
  | [] => none
  | c :: rest =>
    if c = '0' then
      match rest.dropWhile (fun d => d == '0' || d == '_') with
      | [] => some [rest.getLastD '0']
      | d :: more =>
        if d = '.' then
          some ((rest.takeWhile (fun d => d == '0' || d == '_')).getLastD '0' :: d :: more)
        else if d.isDigit || d == '-' then some (d :: more)
        else none
    else if c.isDigit then some s
    else none

/-- Drops a point that zeros and nothing else follow. -/
def dropZeroFraction (s : Text) : Text :=
  match s.dropWhile (· != '.') with
  | _ :: places =>
    if !places.isEmpty && places.all (· == '0') then s.takeWhile (· != '.') else s
  | [] => s

/-- The numeral in a text without what a numeral need not have: margins, a plus sign, zeros in
front, a fraction of zeros and single underscores. -/
def bareNumeral? (s : Text) : Option Text := do
  let signed ← match Text.trimBoth isMargin s with
    | '-' :: rest => (dropLeadingZeros? rest).map ('-' :: ·)
    | '+' :: rest => dropLeadingZeros? rest
    | rest => dropLeadingZeros? rest
  let numeral := dropZeroFraction signed
  some ((withoutUnderscores? numeral).getD numeral)

/-- The integer that a bare numeral writes: a minus sign, perhaps, and digits of which the first
is not zero, or zero itself.  Too long a row of digits is refused, whatever follows it. -/
def integerOfNumeral (numeral : Text) : Except IssueKind Int :=
  let (sign, body) : Text × Text := match numeral with
    | '-' :: body => (['-'], body)
    | body => ([], body)
  let digits := body.takeWhile Char.isDigit
  if digits.isEmpty then .error .unreadableInteger
  else if body.head? = some '0' then
    if body.length = 1 then .ok 0 else .error .unreadableInteger
  else if maxIntegerDigits < sign.length + digits.length then .error .oversizedInteger
  else if digits.length < body.length then .error .unreadableInteger
  else
    let value : Int := digitsValue digits
    .ok (if sign.isEmpty then value else -value)

/-- The integer that a text writes, or why it writes none. -/
def integerInText (s : Text) : Except IssueKind Int :=
  match bareNumeral? s with
  | some numeral => integerOfNumeral numeral
  | none => .error .unreadableInteger

/-- The real that a text writes, margins or single underscores allowed. -/
def realInText? (s : Text) : Option Float :=
  (decimalReal? (Text.trimBoth isMargin s)).or ((withoutUnderscores? s).bind decimalReal?)

/-! ## Numbers and truth values -/

/-- The integers that fit into 64 bits with a sign. -/
def isWordInteger (i : Int) : Bool := -(Nat.pow 2 63 : Int) ≤ i && i < (Nat.pow 2 63 : Int)

/-- The integer that equals a finite double, if there is one. -/
def integerOfReal? (x : Float) : Option Int :=
  match RealForm.ofFloat x with
  | .finite negative b =>
    let scaled := b.mantissa * Nat.pow 2 b.exponent.toNat
    let unit := Nat.pow 2 (-b.exponent).toNat
    if scaled % unit = 0 then
      let value : Int := (scaled / unit : Nat)
      some (if negative then -value else value)
    else none
  | _ => none

/-- Reads a double as an integer. -/
def integerOfReal (x : Float) : Checked Int :=
  let input : Json := .num (.real x)
  if x.isNaN || x.isInf then Checked.fail .notFinite input
  else match integerOfReal? x with
    | none => .fail .fractionalInteger input
    | some i => if i.natAbs < Nat.pow 2 63 then .ok i else Checked.fail .oversizedInteger input

/-- Reads an integer, a truth value, an integral real, or a text that writes an integer. -/
def integer : Json → Checked Int
  | .num (.int i) => .ok i
  | .num (.real x) => integerOfReal x
  | .bool b => .ok (if b then 1 else 0)
  | .str s =>
    match integerInText s with
    | .ok i => .ok i
    | .error kind => .fail kind (.str s)
  | value => .fail .notInteger value

/-- Reads an integer within bounds; an absent upper bound sets none. -/
def integerWithin (least : Nat) (most : Option Nat) (value : Json) : Checked Nat :=
  (integer value).bind fun i =>
    match most.filter fun (most : Nat) => (most : Int) < i with
    | some most => Checked.fail (.above most) value
    | none => if i < least then Checked.fail (.below least) value else .ok i.toNat

/-- Reads a number, a truth value, or a text that writes a number. -/
def real : Json → Checked Float
  | .num (.real x) => .ok x
  | .num (.int i) =>
    let x := Float.ofInt i
    if x.isInf then Checked.fail .notReal (.num (.int i)) else .ok x
  | .bool b => .ok (if b then 1 else 0)
  | .str s =>
    match realInText? s with
    | some x => .ok x
    | none => .fail .unreadableReal (.str s)
  | value => .fail .notReal value

/-- Reads a number within bounds; the non-number is above any bound. -/
def realWithin (least most : Nat) (value : Json) : Checked Float :=
  (real value).bind fun x =>
    if x ≤ most.toFloat then
      if x < least.toFloat then Checked.fail (.below least) value else .ok x
    else Checked.fail (.above most) value

/-- The truth value that a word or a digit writes. -/
def truthInText? (s : Text) : Option Bool :=
  let word := s.map Char.toLower
  if (texts ["0", "off", "f", "false", "n", "no"]).contains word then some false
  else if (texts ["1", "on", "t", "true", "y", "yes"]).contains word then some true
  else none

/-- The truth value that zero or one stands for. -/
def truthOfInteger (i : Int) (value : Json) : Checked Bool :=
  if i = 0 then .ok false
  else if i = 1 then .ok true
  else Checked.fail .unreadableTruth value

/-- Reads a truth value, zero or one, or a word for either. -/
def truth (value : Json) : Checked Bool :=
  match value with
  | .bool b => .ok b
  | .str s =>
    match truthInText? s with
    | some b => .ok b
    | none => .fail .unreadableTruth value
  | .num (.int i) =>
    if isWordInteger i then truthOfInteger i value else Checked.fail .notTruth value
  | .num (.real x) =>
    match integerOfReal x with
    | .ok i => truthOfInteger i value
    | .error _ => .fail .notTruth value
  | _ => .fail .notTruth value

end Read

end BlockSafe
