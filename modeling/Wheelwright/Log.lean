import Wheelwright.Disk.Path
import Wheelwright.Epoch
import Wheelwright.Text.Quoted
/-!
# What is logged

While a wheel is built, the steps are reported as events. Each has a level, and a run shows those
at or above the level that it was asked for.
-/

namespace Wheelwright

/-- How much an event matters. -/
inductive Level where
  | trace
  | debug
  | info
  | warn
  deriving DecidableEq, Repr

/-- A larger number matters more. -/
def Level.weight : Level → Nat
  | .trace => 0
  | .debug => 1
  | .info => 2
  | .warn => 3

/-- The level as it is printed. -/
def Level.label : Level → String
  | .trace => "TRACE"
  | .debug => "DEBUG"
  | .info => "INFO"
  | .warn => "WARN"

/-- Something that happened on the way to a wheel. -/
inductive Event where
  | aliasResolved (name tag : String)
  | tagPassedThrough (tag : String)
  | hostDetected (os arch platform : String)
  | requestPrepared (name platform : String) (outputDir : Path)
  | binaryRead (binary : Path) (bytes : Nat)
  | entryPlanned (path : String) (bytes : Nat)
  | entryStored (path : String)
  | wheelWritten (wheel : Path) (bytes entries : Nat)
  | epochIgnored (value : String) (cause : EpochError)
  | epochClamped (epoch : Int)
  deriving DecidableEq, Repr

namespace Event

/-- How much the event matters. -/
def level : Event → Level
  | .epochIgnored .. | .epochClamped .. => .warn
  | .wheelWritten .. => .info
  | _ => .debug

/-- What happened, in words. -/
def message : Event → String
  | .aliasResolved .. => "resolved platform alias"
  | .tagPassedThrough .. => "platform tag passed through"
  | .hostDetected .. => "detected host platform"
  | .requestPrepared .. => "prepared build request"
  | .binaryRead .. => "read binary payload"
  | .entryPlanned .. => "planned wheel entry"
  | .entryStored .. => "stored wheel entry"
  | .wheelWritten .. => "wrote wheel"
  | .epochIgnored .. => "ignoring unparseable SOURCE_DATE_EPOCH"
  | .epochClamped .. => "timestamp not representable in zip; using archive minimum"

/-- The details, each with its name. -/
def fields : Event → List (String × String)
  | .aliasResolved name tag => [("alias", Text.quote name), ("tag", Text.quote tag)]
  | .tagPassedThrough tag => [("tag", Text.quote tag)]
  | .hostDetected os arch platform =>
    [("os", Text.quote os), ("arch", Text.quote arch), ("platform", Text.quote platform)]
  | .requestPrepared name platform outputDir =>
    [("name", name), ("platform", platform), ("out", outputDir.display)]
  | .binaryRead binary bytes => [("binary", binary.display), ("bytes", bytes.repr)]
  | .entryPlanned path bytes => [("path", path), ("bytes", bytes.repr)]
  | .entryStored path => [("entry", path)]
  | .wheelWritten wheel bytes entries =>
    [("wheel", wheel.display), ("bytes", bytes.repr), ("entries", entries.repr)]
  | .epochIgnored value cause => [("value", Text.quote value), ("err", cause.message)]
  | .epochClamped epoch => [("epoch", epoch.repr)]

/-- The event as a log line. -/
def render (e : Event) : String :=
  e.level.label ++ " " ++ e.message ++ String.join (e.fields.map fun f => " " ++ f.1 ++ "=" ++ f.2)

/-- Whether a run that was asked for events from `threshold` on shows this one. -/
def isShownAt (threshold : Level) (e : Event) : Bool := threshold.weight ≤ e.level.weight

end Event
end Wheelwright
