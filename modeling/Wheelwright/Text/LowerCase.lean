import Wheelwright.Text.CaseTable
/-!
# Lower case, character by character

Every character is mapped on its own, without a look at its neighbours: a sigma at the end of a word
becomes `σ` like any other. One capital has two small characters, `İ`, which becomes an `i` with a
combining dot above.
-/

namespace Wheelwright.Text

/-- The small form of a character; characters without one stay as they are. -/
def lowerChar (c : Char) : List Char :=
  if c = 'İ' then ['i', '\u0307']
  else match caseRuns.find? (·.holds c.toNat) with
    | some r => [Char.ofNat (r.lower c.toNat)]
    | none => [c]

end Wheelwright.Text
