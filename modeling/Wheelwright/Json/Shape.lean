import Wheelwright.Json.Basic
/-!
# Shapes of JSON values

How deep a value nests, and which values are as a reader gives them: every object's fields in the
order of their names, and every number a 64-bit integer.
-/

namespace Wheelwright.Json

/-- Each name before the next. -/
def inOrder : List (String × Json) → Bool
  | [] => true
  | [_] => true
  | f :: g :: rest => f.1 < g.1 && inOrder (g :: rest)

/-- The integers that 64 bits can hold, with a sign or without one. -/
def isWord (n : Int) : Bool := -signBound ≤ n && n < wordBound

mutual

/-- The most containers around one another in a value, itself included. -/
def height : Json → Nat
  | .array items => itemsHeight items + 1
  | .object fields => fieldsHeight fields + 1
  | _ => 0

/-- The height of the highest item. -/
def itemsHeight : List Json → Nat
  | [] => 0
  | v :: vs => max (height v) (itemsHeight vs)

/-- The height of the highest field. -/
def fieldsHeight : List (String × Json) → Nat
  | [] => 0
  | (_, v) :: fs => max (height v) (fieldsHeight fs)

end

mutual

/-- Whether all objects are in order and all numbers are 64-bit integers. -/
def isStandard : Json → Bool
  | .integer n => isWord n
  | .float _ => false
  | .array items => itemsStandard items
  | .object fields => inOrder fields && fieldsStandard fields
  | _ => true

/-- The same of all items. -/
def itemsStandard : List Json → Bool
  | [] => true
  | v :: vs => isStandard v && itemsStandard vs

/-- The same of all fields. -/
def fieldsStandard : List (String × Json) → Bool
  | [] => true
  | (_, v) :: fs => isStandard v && fieldsStandard fs

end

end Wheelwright.Json
