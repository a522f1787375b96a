import BlockSafe.Json.Basic

/-!
# Writing structured values

`Json.write` is the compact form: one line, a space after each comma and colon.  `Json.pretty`
puts every item and field on a line of its own, two spaces deeper than its container.  Both hold
ASCII characters only; any other character is written by its 16-bit units.
-/

namespace BlockSafe

/-- A unit of 16 bits as an escape. -/
def unitEscape (n : Nat) : Text := "\\u".toList ++ Text.hex 4 n

/-- One character between the quotes of a written text. -/
def escapeChar (c : Char) : Text :=
  if c = '"' then "\\\""
  else if c = '\\' then "\\\\"
  else if c = '\n' then "\\n"
  else if c = '\r' then "\\r"
  else if c = '\t' then "\\t"
  else if c = '\x0c' then "\\f"
  else if c = '\x08' then "\\b"
  else if 32 ≤ c.toNat ∧ c.toNat < 127 then [c]
  else if c.toNat < 0x10000 then unitEscape c.toNat
  else
    let rest := c.toNat - 0x10000
    unitEscape (0xD800 + rest / 0x400) ++ unitEscape (0xDC00 + rest % 0x400)

/-- A text in double quotes. -/
def writeString (s : Text) : Text := '"' :: s.flatMap escapeChar ++ ['"']

/-- A number; the doubles that are no numbers have names. -/
def writeNumber : Number → Text
  | .int i => Text.ofInt i
  | .real x =>
    match RealForm.ofFloat x with
    | .notANumber => "NaN"
    | .infinite false => "Infinity"
    | .infinite true => "-Infinity"
    | .finite _ _ => realText x

mutual

/-- A value on one line. -/
def Json.write : Json → Text
  | .null => "null"
  | .bool true => "true"
  | .bool false => "false"
  | .num n => writeNumber n
  | .str s => writeString s
  | .list items => '[' :: Json.writeItems items ++ [']']
  | .object fields => '{' :: Json.writeFields fields ++ ['}']

/-- The items of a list on one line. -/
def Json.writeItems : List Json → Text
  | [] => []
  | [item] => item.write
  | item :: items => item.write ++ ", ".toList ++ Json.writeItems items

/-- The fields of an object on one line. -/
def Json.writeFields : List (Text × Json) → Text
  | [] => []
  | [(key, value)] => writeString key ++ ": ".toList ++ value.write
  | (key, value) :: fields =>
    writeString key ++ ": ".toList ++ value.write ++ ", ".toList ++ Json.writeFields fields

end

/-- A line break followed by the indentation of a depth. -/
def indentBreak (depth : Nat) : Text := '\n' :: List.replicate (2 * depth) ' '

mutual

/-- A value whose own line is indented `depth` times. -/
def Json.prettyAt (depth : Nat) : Json → Text
  | .list [] => "[]"
  | .object [] => "{}"
  | .list items => '[' :: Json.prettyItems (depth + 1) items ++ indentBreak depth ++ [']']
  | .object fields => '{' :: Json.prettyFields (depth + 1) fields ++ indentBreak depth ++ ['}']
  | .null => "null"
  | .bool true => "true"
  | .bool false => "false"
  | .num n => writeNumber n
  | .str s => writeString s

/-- The items of a list, each on its line. -/
def Json.prettyItems (depth : Nat) : List Json → Text
  | [] => []
  | [item] => indentBreak depth ++ item.prettyAt depth
  | item :: items =>
    indentBreak depth ++ item.prettyAt depth ++ ',' :: Json.prettyItems depth items

/-- The fields of an object, each on its line. -/
def Json.prettyFields (depth : Nat) : List (Text × Json) → Text
  | [] => []
  | [(key, value)] =>
    indentBreak depth ++ writeString key ++ ": ".toList ++ value.prettyAt depth
  | (key, value) :: fields =>
    indentBreak depth ++ writeString key ++ ": ".toList ++ value.prettyAt depth
      ++ ',' :: Json.prettyFields depth fields

end

/-- A value with every item and field on its own line. -/
def Json.pretty (value : Json) : Text := value.prettyAt 0

end BlockSafe
