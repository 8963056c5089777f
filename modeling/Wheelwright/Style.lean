import Wheelwright.Outcome
/-!
# Painted lines

A status line begins with a sign for the status, a hint with the word for it. On a terminal they
are bold and coloured, unless plain output was asked for.
-/

namespace Wheelwright

/-- Whether lines are painted. -/
structure Style where
  painted : Bool
  deriving DecidableEq, Repr

namespace Style

/-- Painted on a terminal, unless a switch or the environment asks for plain output. -/
def choose (noColor environmentAsksForNoColor terminal : Bool) : Style :=
  ⟨!(noColor || environmentAsksForNoColor) && terminal⟩

/-- The colours of a terminal that are used, by their numbers. -/
inductive Colour where
  | red
  | green
  | yellow
  | cyan
  deriving DecidableEq, Repr

/-- The number of a colour. -/
def Colour.code : Colour → String
  | .red => "31"
  | .green => "32"
  | .yellow => "33"
  | .cyan => "36"

/-- A text in bold and in a colour. -/
def bold (colour : Colour) (text : String) : String :=
  "\x1b[1m\x1b[" ++ colour.code ++ "m" ++ text ++ "\x1b[39m\x1b[0m"

/-- The sign of a status. -/
def sign : Status → String
  | .ok => "✔"
  | .userError => "✗"
  | .failure => "✖"

/-- The colour of a status. -/
def colour : Status → Colour
  | .ok => .green
  | .userError => .yellow
  | .failure => .red

/-- The line for a status. -/
def statusLine (s : Style) (status : Status) (text : String) : String :=
  let line := sign status ++ " " ++ text
  if s.painted then bold (colour status) line else line

/-- The line for a hint. -/
def hintLine (s : Style) (hint : String) : String :=
  (if s.painted then bold .cyan "Hint:" else "Hint:") ++ " " ++ hint

end Style
end Wheelwright
