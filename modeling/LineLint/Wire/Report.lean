import LineLint.Issue
import LineLint.Json.Reader
import LineLint.Json.Writer
import LineLint.Wire.Choice

/-! # Reports in JSON

An issue is written as an object with the members `type`, `lineNumber`,
`message`, `suggestion` and `severity`, and a report as one with `summary` and
`issues`.  What is written can be read back.
-/
namespace LineLint
namespace Wire

open Data

/-- An issue as data. -/
def encodeIssue (issue : Issue) : Value :=
  .object
    [("type", .string issue.kind),
     ("lineNumber", Value.ofOption (fun n : Nat => .int n) issue.line),
     ("message", .string issue.message),
     ("suggestion", .string issue.suggestion),
     ("severity", .string issue.severity.name)]

/-- A report as data. -/
def encodeReport (report : Report) : Value :=
  .object
    [("summary", .string report.summary),
     ("issues", .array (report.issues.map encodeIssue))]

/-- The value of a member that must occur exactly once. -/
def required (members : List (String × Value)) (name : String) : Except Fault Value :=
  match members.filter fun member => member.1 == name with
  | [] => .error (.missing name)
  | [member] => .ok member.2
  | _ => .error (.duplicate name)

/-- The value of a member that may be missing. -/
def optional (members : List (String × Value)) (name : String) : Except Fault Value :=
  match members.filter fun member => member.1 == name with
  | [] => .ok .null
  | [member] => .ok member.2
  | _ => .error (.duplicate name)

/-- The members of an issue, in order. -/
def issueMembers : List String :=
  ["type", "lineNumber", "message", "suggestion", "severity"]

/-- The members of a report, in order. -/
def reportMembers : List String :=
  ["summary", "issues"]

/-- Reads an issue.  A list must give all members; an object may leave out the line. -/
def decodeIssue (value : Value) : Except Fault Issue := do
  let members ← membersOf issueMembers value
  let lookup := match value with
    | .array _ => required members
    | _ => optional members
  let kind ← required members "type" >>= decodeString
  let line ← lookup "lineNumber" >>= decodeOption decodeCount
  let message ← required members "message" >>= decodeString
  let suggestion ← required members "suggestion" >>= decodeString
  let severity ← required members "severity" >>= decodeSeverity jsonFormat
  refuseLeftover jsonFormat issueMembers value
  return ⟨kind, line, message, suggestion, severity⟩

/-- Reads a report. -/
def decodeReport (value : Value) : Except Fault Report := do
  let members ← membersOf reportMembers value
  let summary ← required members "summary" >>= decodeString
  let issues ← required members "issues" >>= decodeList decodeIssue
  refuseLeftover jsonFormat reportMembers value
  return ⟨summary, issues⟩

/-- A report as JSON text. -/
def writeReport (report : Report) : String :=
  Json.render (encodeReport report)

/-- Reads a JSON text.  The text is judged from front to back, so a dialect that is unknown is
reported even if the text breaks off behind it. -/
def readJson {α : Type} (decode : Value → Except Fault α) (text : String) : Except Fault α :=
  let document := Json.scan text.toList
  match document.value with
  | none => .error .malformed
  | some value =>
    match decode value with
    | .error (.unknownDialect error) => .error (.unknownDialect error)
    | outcome => if document.complete then outcome else .error .malformed

/-- Reads a report from JSON text. -/
def readReport (text : String) : Except Fault Report :=
  readJson decodeReport text

end Wire
end LineLint
