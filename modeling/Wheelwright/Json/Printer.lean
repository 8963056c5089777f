import Wheelwright.Binary64.Shortest
import Wheelwright.Digest.Hex
import Wheelwright.Json.Basic
/-!
# Writing JSON

Values are written on one line (`compact`) or over several, indented by two spaces a level
(`pretty`). In strings, the quote, the backslash and the control characters are escaped and nothing
else.
-/

namespace Wheelwright.Json

/-- One character of a string. -/
def escapeChar (c : Char) : List Char :=
  if c = '"' then ['\\', '"']
  else if c = '\\' then ['\\', '\\']
  else if c = '\x08' then ['\\', 'b']
  else if c = '\x0c' then ['\\', 'f']
  else if c = '\n' then ['\\', 'n']
  else if c = '\r' then ['\\', 'r']
  else if c = '\t' then ['\\', 't']
  else if c.toNat < 32 then ['\\', 'u'] ++ Hex.fixed 4 c.toNat
  else [c]

/-- A string between its quotes. -/
def quoted (s : String) : List Char := '"' :: s.toList.flatMap escapeChar ++ ['"']

/-- A whole number. -/
def integerText (n : Int) : List Char := n.repr.toList

mutual

/-- A value on one line. -/
def compactText : Json → List Char
  | .null => "null".toList
  | .bool true => "true".toList
  | .bool false => "false".toList
  | .integer n => integerText n
  | .float x => x.text
  | .string s => quoted s
  | .array [] => ['[', ']']
  | .array (item :: items) => '[' :: compactText item ++ compactItems items
  | .object [] => ['\x7b', '\x7d']
  | .object ((name, value) :: fields) =>
    '\x7b' :: quoted name ++ ':' :: compactText value ++ compactFields fields

/-- The items after the first, and the end of the array. -/
def compactItems : List Json → List Char
  | [] => [']']
  | item :: items => ',' :: compactText item ++ compactItems items

/-- The fields after the first, and the end of the object. -/
def compactFields : List (String × Json) → List Char
  | [] => ['\x7d']
  | (name, value) :: fields =>
    ',' :: quoted name ++ ':' :: compactText value ++ compactFields fields

end

/-- A value on one line. -/
def compact (v : Json) : String := String.ofList (compactText v)

/-- A new line, indented. -/
def newLine (level : Nat) : List Char := '\n' :: List.replicate (2 * level) ' '

mutual

/-- A value over several lines, within so many containers. -/
def prettyText (level : Nat) : Json → List Char
  | .array [] => ['[', ']']
  | .array (item :: items) =>
    '[' :: newLine (level + 1) ++ prettyText (level + 1) item ++ prettyItems level items
  | .object [] => ['\x7b', '\x7d']
  | .object ((name, value) :: fields) =>
    '\x7b' :: newLine (level + 1) ++ quoted name ++ [':', ' '] ++ prettyText (level + 1) value ++
      prettyFields level fields
  | .null => "null".toList
  | .bool true => "true".toList
  | .bool false => "false".toList
  | .integer n => integerText n
  | .float x => x.text
  | .string s => quoted s

/-- The items after the first, and the end of the array. -/
def prettyItems (level : Nat) : List Json → List Char
  | [] => newLine level ++ [']']
  | item :: items =>
    ',' :: newLine (level + 1) ++ prettyText (level + 1) item ++ prettyItems level items

/-- The fields after the first, and the end of the object. -/
def prettyFields (level : Nat) : List (String × Json) → List Char
  | [] => newLine level ++ ['\x7d']
  | (name, value) :: fields =>
    ',' :: newLine (level + 1) ++ quoted name ++ [':', ' '] ++ prettyText (level + 1) value ++
      prettyFields level fields

end

/-- A value over several lines. -/
def pretty (v : Json) : String := String.ofList (prettyText 0 v)

end Wheelwright.Json
