import LineLint.CommandLine.Argument
import LineLint.Preset

/-! # Invocations

What a command line asks for.  There are four commands, and a fifth that only
shows how to use them; `-v` and `-c` may stand in front of the command as well
as behind it, and behind it they count for more.  The configuration may also be
named by an environment variable, which counts least.

The line is judged from left to right, so a request for help is granted even if
there is a fault behind it.
-/
namespace LineLint
namespace CommandLine

/-- How a report is shown. -/
inductive Format where
  /-- A report in sections, with numbered issues. -/
  | text
  /-- A JSON object. -/
  | json
  /-- One line for each issue. -/
  | compact
  /-- Each issue with the line it concerns. -/
  | pretty
  deriving DecidableEq, Repr

/-- All formats. -/
def Format.all : List Format :=
  [text, json, compact, pretty]

/-- The name of a format. -/
def Format.name : Format → String
  | text => "text"
  | json => "json"
  | compact => "compact"
  | pretty => "pretty"

/-- Reads the name of a format. -/
def Format.ofName? (name : String) : Option Format :=
  all.find? fun format => format.name == name

/-- What `check` may be told beside the snippet. -/
structure CheckOptions where
  /-- How the report is shown. -/
  format : Format
  /-- The dialect, whatever is configured or detected. -/
  dialect : Option Dialect
  /-- The preset, whatever is configured. -/
  preset : Option Preset

/-- What is to be done. -/
inductive Command where
  /-- Reviews a snippet. -/
  | check (path : Option String) (options : CheckOptions)
  /-- Names the dialect of a snippet. -/
  | detect (path : Option String)
  /-- Lists the rules. -/
  | listRules
  /-- Writes a configuration to start from. -/
  | init (force : Bool)

/-- A command line that is understood. -/
structure Invocation where
  /-- Whether to say more on standard error. -/
  verbose : Bool
  /-- The configuration named on the command line or in the environment. -/
  config : Option String
  /-- What is to be done. -/
  command : Command

/-- Why nothing is done. -/
inductive Stop where
  /-- Help is asked for. -/
  | help
  /-- The version is asked for. -/
  | version
  /-- Something is wrong. -/
  | usage (fault : UsageFault)
  deriving DecidableEq, Repr

/-! ## Levels -/

/-- The commands that do something, by name. -/
inductive CommandName where
  /-- Reviews a snippet. -/
  | check
  /-- Names the dialect of a snippet. -/
  | detect
  /-- Lists the rules. -/
  | listRules
  /-- Writes a configuration to start from. -/
  | init
  deriving DecidableEq, Repr

/-- How a command is written. -/
def CommandName.word : CommandName → String
  | check => "check"
  | detect => "detect"
  | listRules => "list-rules"
  | init => "init"

/-- All of them. -/
def CommandName.all : List CommandName :=
  [check, detect, listRules, init]

/-- Reads the name of a command. -/
def CommandName.ofWord? (word : String) : Option CommandName :=
  all.find? fun name => name.word == word

/-- The command that shows how to use the others. -/
def helpWord : String := "help"

/-- The switches that are understood everywhere. -/
def commonSwitches : List Switch :=
  [⟨.flag .help, some 'h'⟩, ⟨.flag .verbose, some 'v'⟩, ⟨.setting .config, some 'c'⟩]

/-- The level in front of the command. -/
def topLevel : Level where
  switches := ⟨.flag .version, some 'V'⟩ :: commonSwitches
  commands := helpWord :: CommandName.all.map CommandName.word
  takesOperand := false

/-- The level behind a command. -/
def CommandName.level : CommandName → Level
  | check =>
    { switches := commonSwitches ++
        [⟨.setting .format, some 'f'⟩, ⟨.setting .dialect, some 'd'⟩,
         ⟨.setting .preset, some 'p'⟩]
      commands := []
      takesOperand := true }
  | detect => ⟨commonSwitches, [], true⟩
  | init => ⟨commonSwitches ++ [⟨.flag .force, none⟩], [], false⟩
  | listRules => ⟨commonSwitches, [], false⟩

/-! ## What is given on a level -/

/-- What the words of one level say. -/
structure Given where
  /-- The flags raised. -/
  flags : List Flag
  /-- The configuration. -/
  config : Option String
  /-- The format. -/
  format : Option Format
  /-- The dialect. -/
  dialect : Option Dialect
  /-- The preset. -/
  preset : Option Preset
  /-- The operand. -/
  operand : Option String

/-- Nothing. -/
def Given.nothing : Given :=
  ⟨[], none, none, none, none, none⟩

/-- A path is not empty. -/
def path? (text : String) : Option String :=
  if text.isEmpty then none else some text

/-- Fills a place that has to be empty. -/
def fill {α : Type} (name value : String) (old new : Option α) :
    Except UsageFault (Option α) :=
  match old, new with
  | none, some a => .ok (some a)
  | none, none => .error (.badValue name value)
  | some _, _ => .error (.repeated name)

/-- Gives a setting its value. -/
def Given.set (given : Given) (setting : Setting) (value : String) : Except UsageFault Given :=
  match setting with
  | .config =>
    (fill setting.name value given.config (path? value)).map fun config =>
      { given with config := config }
  | .format =>
    (fill setting.name value given.format (Format.ofName? value)).map fun format =>
      { given with format := format }
  | .dialect =>
    (fill setting.name value given.dialect (Dialect.parse value).toOption).map fun dialect =>
      { given with dialect := dialect }
  | .preset =>
    (fill setting.name value given.preset (Preset.parse value).toOption).map fun preset =>
      { given with preset := preset }

/-- Raises a flag; asking for help or for the version ends everything. -/
def Given.raise (given : Given) (flag : Flag) : Except Stop Given :=
  match flag with
  | .help => .error .help
  | .version => .error .version
  | flag =>
    if given.flags.contains flag then .error (.usage (.repeated flag.name))
    else .ok { given with flags := flag :: given.flags }

/-- Takes an operand, if there is a place for it. -/
def Given.take (given : Given) (level : Level) (word : String) : Except UsageFault Given :=
  if !level.commands.isEmpty then .error (.unknownCommand word)
  else if !level.takesOperand || given.operand.isSome then .error (.surplusOperand word)
  else
    match path? word with
    | some path => .ok { given with operand := some path }
    | none => .error (.badValue "path" word)

/-- Takes the next part of a level. -/
def Given.add (level : Level) (given : Given) (item : Item) : Except Stop Given :=
  match item with
  | .flag flag => given.raise flag
  | .setting setting value => (given.set setting value).mapError .usage
  | .operand word => (given.take level word).mapError .usage
  | .fault fault => .error (.usage fault)

/-- What the parts of a level say, taken from left to right. -/
def Given.ofItems (level : Level) (items : List Item) : Except Stop Given :=
  items.foldlM (Given.add level) .nothing

/-! ## The whole line -/

/-- Behind `help` there may be one command, and nothing else. -/
def helpFor : List String → Stop
  | [] => .help
  | word :: rest =>
    if topLevel.commands.contains word then
      match rest with
      | [] => .help
      | next :: _ => .usage (.unknownCommand next)
    else .usage (.unknownCommand word)

/-- What a command is told by the level behind it. -/
def CommandName.command (given : Given) : CommandName → Command
  | check => .check given.operand ⟨given.format.getD .text, given.dialect, given.preset⟩
  | detect => .detect given.operand
  | init => .init (given.flags.contains .force)
  | listRules => .listRules

/-- The configuration to use: the one named behind the command, or in front of it, or in the
environment.  The environment is looked at on each level that names none, and may then not be
empty. -/
def chooseConfig (top inner inherited : Option String) : Except UsageFault (Option String) :=
  match top, inner, inherited with
  | some _, some config, _ => .ok (some config)
  | _, _, some "" => .error (.badValue Setting.config.name "")
  | _, _, _ => .ok (inner <|> top <|> inherited)

/-- Understands a command line.  The one word at which the top level ends without naming a
command that does something is `help`.  `inherited` is the
configuration that the environment names. -/
def Invocation.parse (inherited : Option String) (words : List String) :
    Except Stop Invocation := do
  let scan := topLevel.scan words
  let top ← Given.ofItems topLevel scan.items
  match scan.command with
  | none => .error (.usage .missingCommand)
  | some (word, rest) =>
    match CommandName.ofWord? word with
    | none => .error (helpFor rest)
    | some name =>
      let given ← Given.ofItems name.level (name.level.scan rest).items
      let config ← (chooseConfig top.config given.config inherited).mapError .usage
      return {
        verbose := top.flags.contains .verbose || given.flags.contains .verbose
        config := config
        command := name.command given }

end CommandLine
end LineLint
