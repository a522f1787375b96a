import BlockSafe.Limits
import BlockSafe.Number.Basic
import BlockSafe.Text.Quoted

/-!
# Structured values

Replies of a provider, configuration data and request fields are structured values: null, truth
values, numbers, texts, lists and objects.  The fields of an object keep the order in which they
were first given.

* `Json.display` is the text that stands for a value in a message: a text stands for itself,
  anything else is shown with its brackets and with quotes around the texts inside;
* `Json.isVoid` holds of null, false, zero and whatever is empty, and `Json.plain` is the
  displayed text of a value that is not void;
* `Json.plainWithin` is the same within the limits of the stack and of integers.
-/

namespace BlockSafe

/-- A structured value. -/
inductive Json where
  | null
  | bool (value : Bool)
  | num (value : Number)
  | str (value : Text)
  | list (items : List Json)
  | object (fields : List (Text × Json))

/-- The named values of an object, in the order of their first appearance. -/
abbrev Fields := List (Text × Json)

/-! ## Fields -/

/-- Gives `key` a value: in place if the key is there, at the end otherwise. -/
def Fields.put (key : Text) (value : Json) : Fields → Fields
  | [] => [(key, value)]
  | (k, v) :: rest => if k = key then (k, value) :: rest else (k, v) :: Fields.put key value rest

/-- The fields of a list of pairs: of several pairs with one key the last gives the value. -/
def Fields.ofPairs (pairs : List (Text × Json)) : Fields :=
  pairs.foldl (fun fields p => Fields.put p.1 p.2 fields) []

/-- The value of a field, if there is one. -/
def Fields.get? (fields : Fields) (key : Text) : Option Json := fields.lookup key

/-! ## Display -/

mutual

/-- A value as it is shown inside a list: texts are quoted. -/
def Json.shown : Json → Text
  | .null => "None"
  | .bool true => "True"
  | .bool false => "False"
  | .num n => n.text
  | .str s => s.quoted
  | .list items => '[' :: Json.shownItems items ++ [']']
  | .object fields => '{' :: Json.shownFields fields ++ ['}']

/-- The items of a list, a comma and a space between neighbours. -/
def Json.shownItems : List Json → Text
  | [] => []
  | [item] => item.shown
  | item :: items => item.shown ++ ", ".toList ++ Json.shownItems items

/-- The fields of an object, a comma and a space between neighbours. -/
def Json.shownFields : List (Text × Json) → Text
  | [] => []
  | [(key, value)] => key.quoted ++ ": ".toList ++ value.shown
  | (key, value) :: fields =>
    key.quoted ++ ": ".toList ++ value.shown ++ ", ".toList ++ Json.shownFields fields

end

namespace Json

/-- The text that stands for a value. -/
def display : Json → Text
  | .str s => s
  | value => value.shown

/-- Null, false, zero, and the empty text, list and object. -/
def isVoid : Json → Bool
  | .null => true
  | .bool b => !b
  | .num n => n.isZero
  | .str s => s.isEmpty
  | .list items => items.isEmpty
  | .object fields => fields.isEmpty

/-- The displayed text of a value; a void one has none. -/
def plain (value : Json) : Text := if value.isVoid then [] else value.display

/-- The kind of a value, in one word. -/
def kindWord : Json → Text
  | .null => "NoneType"
  | .bool _ => "bool"
  | .num (.int _) => "int"
  | .num (.real _) => "float"
  | .str _ => "str"
  | .list _ => "list"
  | .object _ => "dict"

/-- The value of a field of an object. -/
def field? (value : Json) (key : Text) : Option Json :=
  match value with
  | .object fields => Fields.get? fields key
  | _ => none

end Json

/-! ## Limits -/

mutual

/-- How many brackets of a value are open at once. -/
def Json.depth : Json → Nat
  | .list items => Json.itemsDepth items + 1
  | .object fields => Json.fieldsDepth fields + 1
  | _ => 0

/-- The depth of the deepest item. -/
def Json.itemsDepth : List Json → Nat
  | [] => 0
  | item :: items => max item.depth (Json.itemsDepth items)

/-- The depth of the deepest field. -/
def Json.fieldsDepth : List (Text × Json) → Nat
  | [] => 0
  | (_, value) :: fields => max value.depth (Json.fieldsDepth fields)

end

mutual

/-- The first thing about a value that cannot be shown, with room for so many values inside one
another. -/
def Json.excess? : Nat → Json → Option Excess
  | 0, _ => some .showing
  | _ + 1, .num (.int i) => if i.natAbs < 10 ^ maxIntegerDigits then none else some .digits
  | room + 1, .list items => Json.itemsExcess? room items
  | room + 1, .object fields => Json.fieldsExcess? room fields
  | _ + 1, _ => none

/-- The first thing about some items that cannot be shown. -/
def Json.itemsExcess? : Nat → List Json → Option Excess
  | _, [] => none
  | room, item :: items => (Json.excess? room item).or (Json.itemsExcess? room items)

/-- The first thing about some fields that cannot be shown. -/
def Json.fieldsExcess? : Nat → List (Text × Json) → Option Excess
  | _, [] => none
  | room, (_, value) :: fields => (Json.excess? room value).or (Json.fieldsExcess? room fields)

end

/-- The displayed text of a value that is not void, if nothing in it goes beyond the limits. -/
def Json.plainWithin (limits : Limits) (value : Json) : Except Excess Text :=
  if value.isVoid then .ok []
  else match value with
    | .str s => .ok s
    | value =>
      match value.excess? limits.showing with
      | some excess => .error excess
      | none => .ok value.shown

end BlockSafe
