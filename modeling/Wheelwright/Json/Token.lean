import Wheelwright.Digest.Hex
import Wheelwright.Json.Basic
/-!
# The words of JSON text

A text is cut into tokens by a machine that takes one character at a time (`advance`). A string
token has no text if it escapes half of a surrogate pair: such a string has a place in a document,
but no value.
-/

namespace Wheelwright.Json

/-- A number as it is written. -/
structure Numeral where
  negative : Bool
  whole : List Char
  /-- The digits after the point; none if there is no point. -/
  fraction : List Char
  /-- The exponent's sign and digits. -/
  exponent : Option (Bool × List Char)
  deriving DecidableEq, Repr

/-- A word of JSON text. -/
inductive Token where
  | openBrace
  | closeBrace
  | openBracket
  | closeBracket
  | comma
  | colon
  | null
  | bool (b : Bool)
  | number (n : Numeral)
  | string (s : Option String)
  deriving DecidableEq, Repr

/-! ## Numbers -/

/-- An exponent after its letter. -/
def Numeral.exponent? : List Char → Option (Bool × List Char)
  | '+' :: ds => if ds ≠ [] && ds.all Char.isDigit then some (false, ds) else none
  | '-' :: ds => if ds ≠ [] && ds.all Char.isDigit then some (true, ds) else none
  | ds => if ds ≠ [] && ds.all Char.isDigit then some (false, ds) else none

/-- The number that the digits after a point begin. -/
def Numeral.withFraction? (negative : Bool) (whole cs : List Char) : Option Numeral :=
  let fraction := cs.takeWhile Char.isDigit
  if fraction = [] then none
  else match cs.dropWhile Char.isDigit with
    | [] => some ⟨negative, whole, fraction, none⟩
    | c :: rest =>
      if c = 'e' || c = 'E' then
        (Numeral.exponent? rest).map fun e => ⟨negative, whole, fraction, some e⟩
      else none

/-- The number that some characters without a sign write. -/
def Numeral.unsigned? (negative : Bool) (cs : List Char) : Option Numeral :=
  let whole := cs.takeWhile Char.isDigit
  if whole = [] || (whole.head? = some '0' && whole ≠ ['0']) then none
  else match cs.dropWhile Char.isDigit with
    | [] => some ⟨negative, whole, [], none⟩
    | c :: rest =>
      if c = '.' then Numeral.withFraction? negative whole rest
      else if c = 'e' || c = 'E' then
        (Numeral.exponent? rest).map fun e => ⟨negative, whole, [], some e⟩
      else none

/-- The number that some characters write. -/
def Numeral.read? : List Char → Option Numeral
  | '-' :: cs => Numeral.unsigned? true cs
  | cs => Numeral.unsigned? false cs

/-- The characters of numbers. -/
def isNumeralChar (c : Char) : Bool :=
  c.isDigit || c = '-' || c = '+' || c = '.' || c = 'e' || c = 'E'

/-! ## Strings -/

/-- A part of a string: a character as it is, or the number in an escape. -/
inductive Part where
  | char (c : Char)
  | unit (n : Nat)
  deriving DecidableEq, Repr

/-- The first half of a surrogate pair. -/
def isHighSurrogate (n : Nat) : Bool := 0xD800 ≤ n && n < 0xDC00

/-- The second half of a surrogate pair. -/
def isLowSurrogate (n : Nat) : Bool := 0xDC00 ≤ n && n < 0xE000

/-- The text of some parts, if every half of a surrogate pair has its other half. -/
def textOfParts : List Part → Option (List Char)
  | [] => some []
  | .char c :: rest => (textOfParts rest).map (c :: ·)
  | .unit n :: rest =>
    if isHighSurrogate n then
      match rest with
      | .unit l :: rest =>
        if isLowSurrogate l then
          (textOfParts rest).map (Char.ofNat (0x10000 + (n - 0xD800) * 1024 + (l - 0xDC00)) :: ·)
        else none
      | _ => none
    else if isLowSurrogate n then none
    else (textOfParts rest).map (Char.ofNat n :: ·)

/-- The character of an escape with one letter. -/
def escaped? (c : Char) : Option Char :=
  match c with
  | '"' => some '"'
  | '\\' => some '\\'
  | '/' => some '/'
  | 'b' => some '\x08'
  | 'f' => some '\x0c'
  | 'n' => some '\n'
  | 'r' => some '\r'
  | 't' => some '\t'
  | _ => none

/-- The value of a hexadecimal digit in either case. -/
def hexValue? (c : Char) : Option Nat := Hex.value? c.toLower

/-! ## The machine -/

/-- What the machine is in the middle of; what it has seen of it is in reverse. -/
inductive Scan where
  | between
  | word (seen : List Char)
  | number (seen : List Char)
  | string (seen : List Part)
  | escape (seen : List Part)
  /-- An escape by number of which `missing` digits are to come. -/
  | unit (seen : List Part) (missing value : Nat)
  deriving DecidableEq, Repr

/-- The characters that may stand between tokens. -/
def isSpace (c : Char) : Bool := c = ' ' || c = '\n' || c = '\t' || c = '\r'

/-- The token of a word. -/
def wordToken? (cs : List Char) : Option Token :=
  if cs = "null".toList then some .null
  else if cs = "true".toList then some (.bool true)
  else if cs = "false".toList then some (.bool false)
  else none

/-- A character between tokens: the token it is, or the token it begins. -/
def begin? (c : Char) : Option (List Token × Scan) :=
  if isSpace c then some ([], .between)
  else if c = '\x7b' then some ([.openBrace], .between)
  else if c = '\x7d' then some ([.closeBrace], .between)
  else if c = '[' then some ([.openBracket], .between)
  else if c = ']' then some ([.closeBracket], .between)
  else if c = ',' then some ([.comma], .between)
  else if c = ':' then some ([.colon], .between)
  else if c = '"' then some ([], .string [])
  else if c.isLower then some ([], .word [c])
  else if c.isDigit || c = '-' then some ([], .number [c])
  else none

/-- One more token, and then what a character begins. -/
def andBegin? (t : Option Token) (c : Char) : Option (List Token × Scan) :=
  match t, begin? c with
  | some t, some (ts, s) => some (t :: ts, s)
  | _, _ => none

/-- One more character: the tokens that it ends, and what the machine is in the middle of then. -/
def advance : Scan → Char → Option (List Token × Scan)
  | .between, c => begin? c
  | .word seen, c =>
    if c.isLower then some ([], .word (c :: seen)) else andBegin? (wordToken? seen.reverse) c
  | .number seen, c =>
    if isNumeralChar c then some ([], .number (c :: seen))
    else andBegin? ((Numeral.read? seen.reverse).map .number) c
  | .string seen, c =>
    if c = '"' then some ([.string ((textOfParts seen.reverse).map String.ofList)], .between)
    else if c = '\\' then some ([], .escape seen)
    else if c.toNat < 32 then none
    else some ([], .string (.char c :: seen))
  | .escape seen, c =>
    if c = 'u' then some ([], .unit seen 4 0)
    else (escaped? c).map fun e => ([], .string (.char e :: seen))
  | .unit seen missing value, c =>
    (hexValue? c).map fun d =>
      if missing ≤ 1 then ([], .string (.unit (value * 16 + d) :: seen))
      else ([], .unit seen (missing - 1) (value * 16 + d))

/-- The tokens left when the text ends. -/
def Scan.finish : Scan → Option (List Token)
  | .between => some []
  | .word seen => (wordToken? seen.reverse).map ([·])
  | .number seen => ((Numeral.read? seen.reverse).map .number).map ([·])
  | _ => none

/-- The tokens of a text that begins in the middle of something. -/
def tokensFrom : Scan → List Char → Option (List Token)
  | s, [] => s.finish
  | s, c :: cs =>
    match advance s c with
    | none => none
    | some (ts, s') => (tokensFrom s' cs).map (ts ++ ·)

/-- The tokens of a text. -/
def tokens (cs : List Char) : Option (List Token) := tokensFrom .between cs

end Wheelwright.Json
