import LineLint.CommandLine.Invocation
import LineLint.Review
import LineLint.Wire.Report

/-! # Showing reports

The four forms in which a report is shown.  The text form has three sections and
a colour for each severity, the JSON form is an object over several lines, the
compact form has one line for each issue, and the pretty form shows the line of
the snippet that an issue concerns.
-/
namespace LineLint
namespace CommandLine
namespace Display

open Data

/-- What is shown if there are no issues. -/
def noIssues : String := "No issues detected.\n"

/-- Switches a terminal to the colour of a severity. -/
def color : Severity → String
  | .error => "\x1b[31m"
  | .warning => "\x1b[33m"
  | .info => "\x1b[36m"

/-- Switches a terminal back to its own colour. -/
def plain : String := "\x1b[0m"

/-- An issue with its number. -/
def numbered (issue : Issue × Nat) : String :=
  color issue.1.severity ++ toString issue.2 ++ ". " ++ issue.1.describe ++ plain ++ "\n"

/-- How many issues there are of each severity. -/
def tally (report : Report) : String :=
  "\nFound " ++ toString (report.count .error) ++ " error(s), " ++
    toString (report.count .warning) ++ " warning(s), " ++
    toString (report.count .info) ++ " info(s)\n"

/-- The section on issues. -/
def issueSection (report : Report) : String :=
  match report.issues with
  | [] => noIssues
  | issues => String.join ((issues.zipIdx 1).map numbered) ++ tally report

/-- The text form. -/
def text (dialect : Dialect) (report : Report) : String :=
  "=== Summary ===\n" ++ report.summary ++ "\n\n=== Language ===\n" ++ dialect.name ++
    "\n\n=== Issues Found ===\n" ++ issueSection report

/-- The JSON form as data. -/
def encode (dialect : Dialect) (report : Report) : Value :=
  .object
    [("summary", .string report.summary),
     ("language", .string dialect.name),
     ("issues", .array (report.issues.map Wire.encodeIssue))]

/-- The JSON form. -/
def json (dialect : Dialect) (report : Report) : String :=
  Json.renderIndented (encode dialect report) ++ "\n"

/-- The compact form. -/
def compact (report : Report) : String :=
  String.join (report.issues.map fun issue => issue.brief ++ "\n")

/-- The line of a snippet that an issue concerns, underlined. -/
def excerpt (snippet : Snippet) (issue : Issue) : String :=
  match issue.line.bind fun number => snippet.lines[number - 1]?.map ((·, number)) with
  | none => ""
  | some (line, number) =>
    let number := toString number
    let margin := String.ofList (List.replicate number.length ' ')
    number ++ " | " ++ String.ofList line ++ "\n" ++
      margin ++ " | " ++ String.ofList (List.replicate line.length '^') ++ " " ++
      issue.kind ++ "\n"

/-- An issue with the line it concerns. -/
def drawing (snippet : Snippet) (issue : Issue) : String :=
  let diagnostic := snippet.diagnostic issue
  let help := match diagnostic.help with
    | some help => "help: " ++ help ++ "\n"
    | none => ""
  diagnostic.headline ++ "\n" ++ excerpt snippet issue ++ help ++ "\n"

/-- The pretty form. -/
def pretty (snippet : Snippet) (report : Report) : String :=
  report.summary ++ "\n\n" ++
    match report.issues with
    | [] => noIssues
    | issues => String.join (issues.map (drawing snippet))

end Display

/-- A report in a format. -/
def Format.display (format : Format) (snippet : Snippet) (report : Report) : String :=
  match format with
  | text => Display.text snippet.dialect report
  | json => Display.json snippet.dialect report
  | compact => Display.compact report
  | pretty => Display.pretty snippet report

end CommandLine
end LineLint
