import Wheelwright.Digest.Hex
import Wheelwright.Text.InvisibleTable
import Wheelwright.Text.CombiningTable
/-!
# Quoted text in log lines

A text that somebody else chose is logged between double quotes, on one line, with an escape for
every character that could not be seen or told apart: the quote and the backslash, line ends and
tabs, controls, and characters that would melt into their neighbour.
-/

namespace Wheelwright.Text

/-- Whether a range of the list holds the number. -/
def inRanges (ranges : List (Nat × Nat)) (n : Nat) : Bool :=
  ranges.any fun (lo, hi) => lo ≤ n && n ≤ hi

/-- An escape that names the character by its number. -/
def escapeByNumber (c : Char) : List Char := ['\\', 'u', '\x7b'] ++ Hex.shortest c.toNat ++ ['\x7d']

/-- One character between the quotes. -/
def quoteChar (c : Char) : List Char :=
  if c = '\x00' then ['\\', '0']
  else if c = '\t' then ['\\', 't']
  else if c = '\r' then ['\\', 'r']
  else if c = '\n' then ['\\', 'n']
  else if c = '\\' || c = '"' then ['\\', c]
  else if inRanges combiningRanges c.toNat || inRanges invisibleRanges c.toNat then escapeByNumber c
  else [c]

/-- The text between quotes. -/
def quote (s : String) : String := "\"" ++ String.ofList (s.toList.flatMap quoteChar) ++ "\""

end Wheelwright.Text
