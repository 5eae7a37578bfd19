import LineLint.Preset

/-! # The list of rules

A table of all rules, the presets with the number of their rules, and a hint how
to configure them.
-/
namespace LineLint
namespace CommandLine
namespace Listing

/-- A cell of a table: the text, and blanks up to the width. -/
def cell (width : Nat) (text : String) : String :=
  text ++ String.ofList (List.replicate (width - text.length) ' ')

/-- The widths of all columns but the last. -/
def widths : List Nat :=
  [26, 8, 20, 8]

/-- A row of the table, whose last column is as wide as need be. -/
def row (cells : List String) (last : String) : String :=
  String.join ((widths.zip cells).map fun column => cell column.1 column.2 ++ " ") ++
    last ++ "\n"

/-- The dialects that a rule is made for. -/
def dialects (rule : Rule) : String :=
  let made := Dialect.all.filter rule.appliesTo
  if made.length = Dialect.all.length then "any"
  else String.intercalate ", " (made.map Dialect.name)

/-- The row of a rule. -/
def ruleRow (rule : Rule) : String :=
  row [rule.name, rule.family.name, dialects rule, rule.severity.word] rule.description

/-- The row of a preset. -/
def presetRow (preset : Preset) : String :=
  "  " ++ cell 11 preset.name ++ " - " ++ toString preset.rules.length ++ " rules" ++
    (if preset = .full then " (default)" else "") ++ "\n"

/-- The list of rules and presets. -/
def text : String :=
  "Available rules:\n\n" ++
    row ["Name", "Family", "Dialects", "Severity"] "Description" ++
    String.ofList (List.replicate 100 '-') ++ "\n" ++
    String.join (Catalog.rules.map ruleRow) ++
    "\nPresets:\n" ++
    String.join (Preset.all.map presetRow) ++
    "\nConfigure rules in snippet-review.toml, e.g.:\n" ++
    "  [rules.\"CSharp.LongLine\"]\n" ++
    "  max_length = 100\n"

end Listing
end CommandLine
end LineLint
