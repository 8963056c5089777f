import Wheelwright.Json.Document
import Wheelwright.Json.Printer
/-!
# Outcomes

A run ends with an outcome: a status, a message, and details that are any JSON value. Programs get
it as an envelope, and an outcome written as JSON is read back with the rules of a record: fields in
any order, unknown ones ignored, details null if they are left out.
-/

namespace Wheelwright

/-- How a run went. -/
inductive Status where
  | ok
  /-- The caller can mend it by asking differently. -/
  | userError
  | failure
  deriving DecidableEq, Repr

namespace Status

/-- The status in an envelope. -/
def code : Status → String
  | .ok => "ok"
  | .userError => "user-error"
  | .failure => "error"

/-- The status in a written outcome. -/
def name : Status → String
  | .ok => "Ok"
  | .userError => "UserError"
  | .failure => "Failure"

/-- The status with a name. -/
def ofName? (s : String) : Option Status := [ok, userError, failure].find? (·.name = s)

/-- The number that a process ends with. -/
def exitCode : Status → Nat
  | .ok => 0
  | .userError => 1
  | .failure => 2

end Status

/-- How a run ended. -/
structure Outcome where
  status : Status
  message : String
  details : Json
  deriving Repr

/-- The program's own name, which begins every message. -/
def programName : String := "bin-to-wheel"

/-- The message with the program's name in front, once. -/
def statusMessage (message : String) : String :=
  if message = "" then programName
  else if programName.toList.isPrefixOf message.toList then message
  else programName ++ ": " ++ message

namespace Outcome

/-- The number that a process ends with. -/
def exitCode (o : Outcome) : Nat := o.status.exitCode

/-- What to try next, if the details say. -/
def hint? (o : Outcome) : Option String := (o.details.field? "hint").bind Json.text?

/-- The details as an object. -/
def detailsObject (o : Outcome) : Json :=
  match o.details with
  | .object fields => .object fields
  | .null => .object []
  | other => .object [("value", other)]

/-- The envelope for programs. -/
def response (o : Outcome) : Json :=
  .ofFields [("status", .string o.status.code), ("message", .string (statusMessage o.message)),
    ("details", o.detailsObject)]

/-! ## Written outcomes -/

/-- The outcome as a record. -/
def toJson (o : Outcome) : Json :=
  .ofFields [("status", .string o.status.name), ("message", .string o.message),
    ("details", o.details)]

/-- A status: its name, or an object with its name for the only field and null in it. -/
def statusOf? : Json.Document → Option Status
  | .string (some s) => Status.ofName? s
  | .object [(some s, .null)] => Status.ofName? s
  | _ => none

/-- A message. -/
def messageOf? : Json.Document → Option String
  | .string s => s
  | _ => none

/-- Details, within the record that holds them. -/
def detailsOf? (d : Json.Document) : Option Json := d.value? (Json.deepest - 1)

/-- The documents in the fields with a name. -/
def fieldsNamed (name : String) (fields : List (Option String × Json.Document)) :
    List Json.Document :=
  (fields.filter (·.1 = some name)).map (·.2)

/-- The outcome in the fields of an object. -/
def ofFields? (fields : List (Option String × Json.Document)) : Option Outcome :=
  if fields.any (·.1.isNone) then none
  else match fieldsNamed "status" fields, fieldsNamed "message" fields,
      fieldsNamed "details" fields with
    | [s], [m], [] =>
      match statusOf? s, messageOf? m with
      | some status, some message => some ⟨status, message, .null⟩
      | _, _ => none
    | [s], [m], [d] =>
      match statusOf? s, messageOf? m, detailsOf? d with
      | some status, some message, some details => some ⟨status, message, details⟩
      | _, _, _ => none
    | _, _, _ => none

/-- The outcome that a document writes: an object, or an array of its fields in order, where the
details may be left out. -/
def ofDocument? : Json.Document → Option Outcome
  | .object fields => ofFields? fields
  | .array [s, m] => ofFields? [(some "status", s), (some "message", m)]
  | .array [s, m, d] => ofFields? [(some "status", s), (some "message", m), (some "details", d)]
  | _ => none

/-- The outcome that a text writes. -/
def read? (text : String) : Option Outcome := (Json.Document.read? text.toList).bind ofDocument?

end Outcome
end Wheelwright
