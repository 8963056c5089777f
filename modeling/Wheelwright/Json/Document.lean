import Wheelwright.Json.Token
/-!
# JSON documents

A document is the tree that a text writes, before anybody asks for its values: numbers as they are
written, strings that may have no text, fields as they stand. The tree is built by a machine that
takes one token at a time (`take`), and `Document.value?` gives the value, if there is one.
-/

namespace Wheelwright.Json

/-- The tree that a text writes. -/
inductive Document where
  | null
  | bool (b : Bool)
  | number (n : Numeral)
  | string (s : Option String)
  | array (items : List Document)
  | object (fields : List (Option String × Document))
  deriving Repr

/-! ## Building the tree -/

/-- A container that is not complete; what it holds so far is in reverse. -/
inductive Frame where
  | array (done : List Document)
  /-- The last field's name is there and its value is to come. -/
  | object (done : List (Option String × Document)) (name : Option String)

/-- What may come next, and the containers around it from the innermost out. -/
inductive Builder where
  /-- A value. -/
  | value (around : List Frame)
  /-- The first item of an array, or its end. -/
  | firstItem (around : List Frame)
  /-- The first field of an object, or its end. -/
  | firstField (around : List Frame)
  /-- A further field of an object. -/
  | field (done : List (Option String × Document)) (around : List Frame)
  /-- The colon after a field's name. -/
  | colon (done : List (Option String × Document)) (name : Option String) (around : List Frame)
  /-- Whatever follows a value: a comma or the end of the container, or nothing. -/
  | after (v : Document) (around : List Frame)

/-- A value's first token: the value, or the container that it opens. -/
def Builder.ofFirst? (around : List Frame) : Token → Option Builder
  | .null => some (.after .null around)
  | .bool b => some (.after (.bool b) around)
  | .number n => some (.after (.number n) around)
  | .string s => some (.after (.string s) around)
  | .openBracket => some (.firstItem around)
  | .openBrace => some (.firstField around)
  | _ => none

/-- One more token. -/
def Builder.take : Builder → Token → Option Builder
  | .value around, t => ofFirst? around t
  | .firstItem around, .closeBracket => some (.after (.array []) around)
  | .firstItem around, t => ofFirst? (.array [] :: around) t
  | .firstField around, .closeBrace => some (.after (.object []) around)
  | .firstField around, .string s => some (.colon [] s around)
  | .field done around, .string s => some (.colon done s around)
  | .colon done name around, .colon => some (.value (.object done name :: around))
  | .after v (.array done :: around), .comma => some (.value (.array (v :: done) :: around))
  | .after v (.array done :: around), .closeBracket =>
    some (.after (.array (v :: done).reverse) around)
  | .after v (.object done name :: around), .comma => some (.field ((name, v) :: done) around)
  | .after v (.object done name :: around), .closeBrace =>
    some (.after (.object ((name, v) :: done).reverse) around)
  | _, _ => none

/-- Tokens one after another. -/
def Builder.takeAll : Builder → List Token → Option Builder
  | b, [] => some b
  | b, t :: ts =>
    match b.take t with
    | some b' => takeAll b' ts
    | none => none

/-- The document that a text writes. -/
def Document.read? (cs : List Char) : Option Document :=
  match tokens cs with
  | none => none
  | some ts =>
    match (Builder.value []).takeAll ts with
    | some (.after v []) => some v
    | _ => none

/-! ## Values -/

/-- A number with as many further digits as 64 bits can hold, and the digits that are left over. -/
def gather (size : Nat) : List Char → Nat × List Char
  | [] => (size, [])
  | c :: cs =>
    let more := size * 10 + (c.toNat - '0'.toNat)
    if more < wordBound then gather more cs else (size, c :: cs)

/-- The power of ten that the exponent writes. -/
def Numeral.shift (n : Numeral) : Int :=
  match n.exponent with
  | some (true, ds) => -Int.ofNat (Nat.ofDigitChars 10 ds 0)
  | some (false, ds) => Int.ofNat (Nat.ofDigitChars 10 ds 0)
  | none => 0

/-- A number in floating point, if it is finite. It is rounded twice: the digits that 64 bits can
hold, and their product with the power of ten of the last of them. Digits left over before the point
count as zeros, and those left over behind it not at all. -/
def Numeral.float? (n : Numeral) : Option Binary64 :=
  let (whole, beyond) := gather 0 n.whole
  let (digits, lost) := gather whole n.fraction
  let places : Int := n.fraction.length - lost.length
  let size := (Binary64.ofNat digits).scale? (beyond.length - places + n.shift)
  if n.negative then size.map Binary64.neg else size

/-- The value of a number: a 64-bit integer if it is written as one, and in floating point
otherwise, if that is finite. A zero with a minus sign is no integer. -/
def Numeral.value? (n : Numeral) : Option Json :=
  let size := Nat.ofDigitChars 10 n.whole 0
  if n.fraction = [] && n.exponent = none && !n.negative && size < wordBound then
    some (.integer size)
  else if n.fraction = [] && n.exponent = none && n.negative && 0 < size && size ≤ signBound then
    some (.integer (-size))
  else n.float?.map .float

mutual

/-- The value of a document that nests at most so many containers. -/
def Document.value? (room : Nat) : Document → Option Json
  | .null => some .null
  | .bool b => some (.bool b)
  | .number n => n.value?
  | .string s => s.map .string
  | .array items =>
    match room with
    | 0 => none
    | room + 1 => (values? room items).map .array
  | .object fields =>
    match room with
    | 0 => none
    | room + 1 => (fieldValues? room fields).map .ofFields

/-- The values of some documents. -/
def values? (room : Nat) : List Document → Option (List Json)
  | [] => some []
  | d :: ds =>
    match d.value? room, values? room ds with
    | some v, some vs => some (v :: vs)
    | _, _ => none

/-- The names and values of some fields. -/
def fieldValues? (room : Nat) : List (Option String × Document) → Option (List (String × Json))
  | [] => some []
  | (name, d) :: ds =>
    match name, d.value? room, fieldValues? room ds with
    | some n, some v, some vs => some ((n, v) :: vs)
    | _, _, _ => none

end

/-- The most containers around one another. -/
def deepest : Nat := 127

/-- The value that a text writes. -/
def read? (text : String) : Option Json :=
  match Document.read? text.toList with
  | some d => d.value? deepest
  | none => none

end Wheelwright.Json
