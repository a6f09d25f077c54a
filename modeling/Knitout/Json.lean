import Knitout.Numeral

/-!
# Compact JSON

JSON values and their text without blanks. The fields of an object built with `Json.ofFields` stand
in alphabetical order of their names. In a string the quotation mark, the backslash and the control
characters below `U+0020` are escaped, the common ones by a letter; every other character stands as
it is.
-/

namespace Knitout

/-- A JSON value; numbers are whole. -/
inductive Json where
  | null
  | bool (value : Bool)
  | number (value : Int)
  | string (value : Text)
  | array (items : List Json)
  | object (fields : List (Text × Json))

namespace Json

/-- An object with its fields in alphabetical order of their names. -/
def ofFields (fields : List (Text × Json)) : Json :=
  .object (fields.mergeSort fun a b => !List.lex b.1 a.1 fun c d => c < d)

/-- A hexadecimal digit in lower case. -/
def hexDigit (n : Nat) : Char :=
  Nat.digitChar n

/-- A character as it stands in a string. -/
def escape (c : Char) : Text :=
  if c = '"' then ['\\', '"']
  else if c = '\\' then ['\\', '\\']
  else if c = '\n' then ['\\', 'n']
  else if c = '\r' then ['\\', 'r']
  else if c = '\t' then ['\\', 't']
  else if c = '\x08' then ['\\', 'b']
  else if c = '\x0c' then ['\\', 'f']
  else if c.toNat < 32 then ['\\', 'u', '0', '0', hexDigit (c.toNat / 16), hexDigit (c.toNat % 16)]
  else [c]

/-- A string between quotation marks. -/
def renderString (value : Text) : Text :=
  '"' :: value.flatMap escape ++ ['"']

mutual

/-- The text of a value. -/
def render : Json → Text
  | .null => "null".toList
  | .bool true => "true".toList
  | .bool false => "false".toList
  | .number value => intDigits value
  | .string value => renderString value
  | .array [] => "[]".toList
  | .array (item :: items) => '[' :: item.render ++ renderItems items
  | .object [] => ['\x7b', '\x7d']
  | .object ((name, value) :: fields) =>
    '\x7b' :: renderString name ++ ':' :: value.render ++ renderFields fields

/-- The items of an array behind its first one, and the closing bracket. -/
def renderItems : List Json → Text
  | [] => [']']
  | item :: items => ',' :: item.render ++ renderItems items

/-- The fields of an object behind its first one, and the closing brace. -/
def renderFields : List (Text × Json) → Text
  | [] => ['\x7d']
  | (name, value) :: fields =>
    ',' :: renderString name ++ ':' :: value.render ++ renderFields fields

end

end Json

end Knitout
