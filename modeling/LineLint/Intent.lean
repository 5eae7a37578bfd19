import LineLint.Code.Header.CSharp
import LineLint.Code.Header.VisualBasic
import LineLint.Rule.LoanTerms
import LineLint.Sentence
import LineLint.Snippet

/-! # What a snippet is for

A statement of T-SQL is told by its keywords and the table they name.  Any other
snippet is told by the verb in the first name that it declares.
-/
namespace LineLint
namespace Intent

open Pattern

/-- A keyword and the table behind it. -/
def tablePattern (keyword : String) : Pattern :=
  edge ++ word keyword ++ gap ++
    named .name (oneOrMore fun c => isLetter c || c.isDigit || "[]_.".toList.contains c)

/-- The first table named behind a keyword, without brackets; `table` if there is none. -/
def tableBehind (keyword : String) (text : List Char) : List Char :=
  match (tablePattern keyword).find? text with
  | some m =>
    let name := (m.part .name).filter fun c => c != '[' && c != ']'
    if name.isEmpty then "table".toList else name
  | none => "table".toList

/-- `CREATE` with the keyword of a routine. -/
def createRoutinePattern : Pattern :=
  edge ++ word "CREATE" ++ gap ++ words ["PROC", "PROCEDURE", "FUNCTION"] ++ edge

/-- A sentence about the table behind a keyword. -/
def aboutTable (front : String) (keyword : String) (text : List Char) : List Char :=
  front.toList ++ tableBehind keyword text ++ ['.']

/-- What a T-SQL text does: the first statement keyword that occurs decides. -/
def ofSql (text : List Char) : List Char :=
  let capitals := Text.upper text
  if Text.contains capitals "SELECT".toList then aboutTable "Retrieves data from " "FROM" text
  else if Text.contains capitals "INSERT".toList then
    aboutTable "Inserts new records into " "INTO" text
  else if Text.contains capitals "UPDATE".toList then
    aboutTable "Updates records in " "UPDATE" text
  else if Text.contains capitals "DELETE".toList then
    aboutTable "Deletes records from " "FROM" text
  else if createRoutinePattern.occursIn text then
    "Defines stored procedure/function.".toList
  else "Executes SQL command.".toList

/-- Verbs in small letters and the sentence for each, in the order in which they are tried. -/
def verbs : List (List String × String) :=
  [(["save", "insert"], "Saves data to the database."),
   (["delete", "remove"], "Deletes records."),
   (["get"], "Retrieves application data."),
   (["update"], "Updates application data."),
   (["calculate"], "Performs a calculation."),
   (["process"], "Processes application logic."),
   (["validate"], "Validates input or state.")]

/-- The sentence for code of which no verb is known. -/
def genericLogic : String :=
  "Processes application logic."

/-- The name of the procedure that a line declares. -/
def procedureName? (dialect : Dialect) (line : List Char) : Option (List Char) :=
  match dialect with
  | .vbnet => (Code.VisualBasic.procedureHeader? line).map (·.2.name)
  | _ => (Code.CSharp.methodHeader? line).map (·.name)

/-- The name of the class that a line declares. -/
def className? (dialect : Dialect) (line : List Char) : Option (List Char) :=
  match dialect with
  | .vbnet => Code.VisualBasic.className? line
  | _ => Code.CSharp.className? line

/-- The first procedure that a snippet declares, or else the first class. -/
def firstDeclared? (snippet : Snippet) : Option (List Char) :=
  match snippet.lines.findSome? (procedureName? snippet.dialect) with
  | some name => some name
  | none => snippet.lines.findSome? (className? snippet.dialect)

/-- The sentence for a declared name. -/
def ofName (name : List Char) : String :=
  let matching := verbs.find? fun entry =>
    entry.1.any fun verb => Text.contains (Text.lower name) verb.toList
  match matching with
  | some (_, sentence) => sentence
  | none => genericLogic

/-- What code is for. -/
def ofCode (snippet : Snippet) : String :=
  if LoanTerms.mentionedIn snippet.text then "Calculates loan interest."
  else
    match firstDeclared? snippet with
    | some name => ofName name
    | none => genericLogic

/-- What a snippet is for, in a sentence that is not yet put into form. -/
def describe (snippet : Snippet) : List Char :=
  if snippet.isBlank then Sentence.fallback
  else
    match snippet.dialect with
    | .sql => ofSql snippet.text
    | _ => (ofCode snippet).toList

end Intent
end LineLint
