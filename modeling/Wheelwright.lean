import Wheelwright.Archive.Calendar
import Wheelwright.Archive.Deflate
import Wheelwright.Archive.Little
import Wheelwright.Archive.Reader
import Wheelwright.Archive.Stamp
import Wheelwright.Archive.Zip
import Wheelwright.Binary64
import Wheelwright.Binary64.Shortest
import Wheelwright.Build
import Wheelwright.Build.Error
import Wheelwright.CommandLine
import Wheelwright.CommandLine.Help
import Wheelwright.CommandLine.Option
import Wheelwright.CommandLine.Scan
import Wheelwright.CommandLine.Writing
import Wheelwright.Config
import Wheelwright.Csv
import Wheelwright.Digest
import Wheelwright.Digest.Base64Url
import Wheelwright.Digest.Checksum
import Wheelwright.Digest.Hex
import Wheelwright.Digest.Sha256
import Wheelwright.Disk.Arrange
import Wheelwright.Disk.Basic
import Wheelwright.Disk.Files
import Wheelwright.Disk.OsError
import Wheelwright.Disk.Path
import Wheelwright.Disk.Place
import Wheelwright.Disk.Resolve
import Wheelwright.Environment
import Wheelwright.Epoch
import Wheelwright.Host
import Wheelwright.Json.Basic
import Wheelwright.Json.Document
import Wheelwright.Json.Printer
import Wheelwright.Json.Shape
import Wheelwright.Json.Token
import Wheelwright.Launcher
import Wheelwright.Launcher.Literal
import Wheelwright.Log
import Wheelwright.Metadata
import Wheelwright.Metadata.HeaderText
import Wheelwright.Metadata.SettingLine
import Wheelwright.Outcome
import Wheelwright.PackageName
import Wheelwright.Platform
import Wheelwright.Platform.Grammar
import Wheelwright.Program
import Wheelwright.Proofs.Disk.Growth
import Wheelwright.Proofs.Disk.Replacement
import Wheelwright.Proofs.Simulation
import Wheelwright.Proofs.Disk.Walk
import Wheelwright.Record
import Wheelwright.Simulation
import Wheelwright.Size
import Wheelwright.Style
import Wheelwright.Text.Blank
import Wheelwright.Text.CaseTable
import Wheelwright.Text.CombiningTable
import Wheelwright.Text.InvisibleTable
import Wheelwright.Text.LowerCase
import Wheelwright.Text.Number
import Wheelwright.Text.Quoted
import Wheelwright.Text.Split
import Wheelwright.Text.Utf8
import Wheelwright.Wheel.Filename
import Wheelwright.Wheel.Plan
import Wheelwright.Wrap
import Wheelwright.Main
import Wheelwright.Proofs.Build.Effect
import Wheelwright.Proofs.Build.Frame
import Wheelwright.Proofs.Wrap.Effect
import Wheelwright.Proofs.Wrap.Failure
import Wheelwright.Proofs.Build.Delivery
import Wheelwright.Proofs.Platform.Grammar
import Wheelwright.Proofs.Platform.Resolution
import Wheelwright.Proofs.Text.Ascii
import Wheelwright.Proofs.Text.LowerCase
import Wheelwright.Proofs.Wheel.Manifest
import Wheelwright.Proofs.Wrap.Destination
import Wheelwright.Proofs.Archive.Stamp
import Wheelwright.Proofs.Digest.Cyclic
import Wheelwright.Proofs.Archive.RoundTrip
import Wheelwright.Proofs.Build.Packing
import Wheelwright.Proofs.Record
import Wheelwright.Proofs.Metadata
import Wheelwright.Proofs.Wheel.Identity
import Wheelwright.Proofs.Wrap.Reproducible
import Wheelwright.Proofs.Wheel.Launcher
import Wheelwright.Proofs.Disk.FileName
import Wheelwright.Proofs.Wrap.Verdict
import Wheelwright.Proofs.Wrap.Report
import Wheelwright.Proofs.Disk.Staging
import Wheelwright.Proofs.Disk.Difference
import Wheelwright.Proofs.Build.Independence
import Wheelwright.Proofs.CommandLine.RoundTrip
import Wheelwright.Proofs.Json.Fields
import Wheelwright.Proofs.Json.Words
import Wheelwright.Proofs.Json.Building
import Wheelwright.Proofs.Json.Reading
import Wheelwright.Proofs.Outcome
import Wheelwright.Proofs.Wrap.Message
import Wheelwright.Proofs.Environment
import Wheelwright.Proofs.Envelope
import Wheelwright.Proofs.Wheel.Filename
import Wheelwright.Proofs.Presentation
import Wheelwright.Proofs.Archive.Calendar
import Wheelwright.Proofs.Build.Dating
import Wheelwright.Proofs.Build.StoredName
import Wheelwright.Proofs.Settings
import Wheelwright.Proofs.Wheel.Confinement
import Wheelwright.Proofs.Wrap.EntryPoint
import Wheelwright.Proofs.PackageName
import Wheelwright.Proofs.Size
import Wheelwright.Proofs.Epoch
import Wheelwright.Proofs.Digest.Bits
import Wheelwright.Proofs.Digest.Alphabet
import Wheelwright.Proofs.Digest.Standard
import Wheelwright.Proofs.Digest.Conformance
import Wheelwright.Proofs.Digest.Text
