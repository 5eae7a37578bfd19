import LineLint.Config
import LineLint.Json.Reader
import LineLint.Toml.Reader
import LineLint.Wire.Choice

/-! # Configurations as data

A configuration is an object with the members `preset`, `analyzer` and `rules`,
all of which may be missing.  Members are read in the order in which they are
written, so the first fault of a file is the one reported.
-/
namespace LineLint
namespace Wire

open Data

/-! ## Options of rules -/

/-- The usual form of a date or a time; nothing if the text is neither. -/
def normalDate? (text : String) : Option String :=
  (Toml.date? text.toList).map String.ofList

/-- Reads a date, which is written as the only member of a table. -/
def decodeDate (value : Value) (others : List (String × Value)) : Except Fault Value :=
  match value, others with
  | .string text, [] =>
    match normalDate? text with
    | some date => .ok (.object [(Toml.dateMarker, .string date)])
    | none => .error (.wrongKind "a date")
  | _, _ => .error (.wrongKind "a date")

mutual

/-- Reads the value of an option.  Absent values are refused, as are whole numbers of more than
64 bits with their sign. -/
def decodeOptionValue : Value → Except Fault Value
  | .null => .error (.wrongKind "a value")
  | .bool value => .ok (.bool value)
  | .int value =>
    if -signedBound ≤ value && value < signedBound then .ok (.int value) else .error .outOfRange
  | .fractional value => .ok (.fractional value)
  | .string text => .ok (.string text)
  | .array items => (decodeOptionItems items).map .array
  | .object [] => .ok (.object [])
  | .object ((name, value) :: members) =>
    if name = Toml.dateMarker then decodeDate value members
    else
      match decodeOptionValue value with
      | .error fault => .error fault
      | .ok first => (decodeOptionMembers [(name, first)] members).map .object
  | .unreadable _ => .error .malformed

/-- Reads the items of an option that is a list. -/
def decodeOptionItems : List Value → Except Fault (List Value)
  | [] => .ok []
  | item :: items =>
    match decodeOptionValue item with
    | .error fault => .error fault
    | .ok first => (decodeOptionItems items).map (first :: ·)

/-- Reads the members of an option that is a table, behind those already read. -/
def decodeOptionMembers (read : List (String × Value)) :
    List (String × Value) → Except Fault (List (String × Value))
  | [] => .ok read
  | (name, value) :: members =>
    if (Table.get? read name).isSome then .error (.duplicate name)
    else
      match decodeOptionValue value with
      | .error fault => .error fault
      | .ok value => decodeOptionMembers (read ++ [(name, value)]) members

end

/-! ## Settings of rules -/

/-- Settings while they are being read. -/
structure SettingsDraft where
  /-- Whether the rule runs, once that is read. -/
  enabled : Option (Option Bool)
  /-- The severity of its issues, once that is read. -/
  severity : Option (Option Severity)
  /-- The other members, the last one first. -/
  options : List (String × Value)

/-- Reads one more member of the settings of a rule. -/
def SettingsDraft.add (format : Format) (draft : SettingsDraft) (member : String × Value) :
    Except Fault SettingsDraft :=
  if member.1 = "enabled" then
    if draft.enabled.isSome then .error (.duplicate member.1)
    else (decodeOption decodeBool member.2).map fun enabled =>
      { draft with enabled := some enabled }
  else if member.1 = "severity" then
    if draft.severity.isSome then .error (.duplicate member.1)
    else (decodeOption (decodeSeverity format) member.2).map fun severity =>
      { draft with severity := some severity }
  else .ok { draft with options := member :: draft.options }

/-- Reads the options of a rule.  All of them must be readable, and the last of a name is
kept. -/
def decodeOptions (members : List (String × Value)) : Except Fault (Table Value) :=
  members.foldlM
    (fun options member => (decodeOptionValue member.2).map (Table.put options member.1)) []

/-- Reads the settings of a rule; they are always an object. -/
def decodeSettings (format : Format) (value : Value) : Except Fault RuleSettings :=
  match value with
  | .object members => do
    let draft ← members.foldlM (SettingsDraft.add format) ⟨none, none, []⟩
    let options ← decodeOptions draft.options.reverse
    return ⟨draft.enabled.getD none, draft.severity.getD none, options⟩
  | _ => .error (.wrongKind "a table")

/-- Reads the settings of all rules; of two tables for one rule the last is kept. -/
def decodeRules (format : Format) (value : Value) : Except Fault (Table RuleSettings) :=
  match value with
  | .object members =>
    members.foldlM
      (fun rules member => (decodeSettings format member.2).map (Table.put rules member.1)) []
  | _ => .error (.wrongKind "a table")

/-! ## Configurations -/

/-- Reads one more member of `analyzer`; unknown ones are passed over. -/
def addDialect (found : Option (Option Dialect)) (member : String × Value) :
    Except Fault (Option (Option Dialect)) :=
  if member.1 = "dialect" then
    if found.isSome then .error (.duplicate member.1)
    else (decodeOption decodeDialect member.2).map some
  else .ok found

/-- Reads the dialect in the `analyzer` member. -/
def decodeAnalyzer (format : Format) (value : Value) : Except Fault (Option Dialect) := do
  let members ← membersOf ["dialect"] value
  let dialect ← members.foldlM addDialect none
  refuseLeftover format ["dialect"] value
  return dialect.getD none

/-- A configuration while it is being read. -/
structure ConfigDraft where
  /-- The preset, once it is read. -/
  preset : Option (Option String)
  /-- The dialect, once it is read. -/
  dialect : Option (Option Dialect)
  /-- The settings of rules, once they are read. -/
  rules : Option (Table RuleSettings)

/-- Reads one more member of a configuration; unknown ones are passed over. -/
def ConfigDraft.add (format : Format) (draft : ConfigDraft) (member : String × Value) :
    Except Fault ConfigDraft :=
  if member.1 = "preset" then
    if draft.preset.isSome then .error (.duplicate member.1)
    else (decodeOption decodeString member.2).map fun preset =>
      { draft with preset := some preset }
  else if member.1 = "analyzer" then
    if draft.dialect.isSome then .error (.duplicate member.1)
    else (decodeAnalyzer format member.2).map fun dialect =>
      { draft with dialect := some dialect }
  else if member.1 = "rules" then
    if draft.rules.isSome then .error (.duplicate member.1)
    else (decodeRules format member.2).map fun rules => { draft with rules := some rules }
  else .ok draft

/-- The members of a configuration, in order. -/
def configMembers : List String :=
  ["preset", "analyzer", "rules"]

/-- Reads a configuration. -/
def decodeConfig (format : Format) (value : Value) : Except Fault Config := do
  let members ← membersOf configMembers value
  let draft ← members.foldlM (ConfigDraft.add format) ⟨none, none, none⟩
  refuseLeftover format configMembers value
  return ⟨draft.preset.getD none, draft.dialect.getD none, draft.rules.getD []⟩

/-- Reads a configuration from TOML text. -/
def readConfig (text : String) : Except Fault Config :=
  match Toml.parse? text with
  | some value => decodeConfig tomlFormat value
  | none => .error .malformed

/-- The settings of a rule as data. -/
def encodeSettings (settings : RuleSettings) : Value :=
  .object
    (("enabled", Value.ofOption .bool settings.enabled) ::
      ("severity", Value.ofOption (fun s : Severity => .string s.name) settings.severity) ::
      settings.options)

/-- A configuration as data; an absent preset or dialect is left out. -/
def encodeConfig (config : Config) : Value :=
  let preset := config.preset.toList.map fun name => ("preset", Value.string name)
  let dialect := config.dialect.toList.map fun d => ("dialect", Value.string d.name)
  .object
    (preset ++
      [("analyzer", .object dialect),
       ("rules", .object (config.rules.map fun entry => (entry.1, encodeSettings entry.2)))])

end Wire
end LineLint
