import LineLint.CommandLine.ConfigFile
import LineLint.CommandLine.Display
import LineLint.CommandLine.Listing
import LineLint.CommandLine.Starter

/-! # Running the command line

Each command asks the world for what it needs and ends in an outcome.  What
`check` makes of a configuration and a text is decided without the world, by
`CheckOptions.outcome`.

The exit code is two for a command line that is not understood, and one for a
failure and for a review that finds errors.
-/
namespace LineLint
namespace CommandLine

/-- A failure ends a run with nothing on the standard output. -/
def Outcome.ofFailure (failure : Failure) : Outcome :=
  ⟨1, "", failure.render, []⟩

/-! ## Reviewing -/

namespace CheckOptions

/-- A configuration in which the options count for more than what it says. -/
def override (options : CheckOptions) (config : Config) : Config :=
  { config with
    dialect := options.dialect <|> config.dialect
    preset := (options.preset.map Preset.name) <|> config.preset }

/-- The dialect to review a text as. -/
def dialectOf (config : Config) (text : List Char) : Dialect :=
  config.dialect.getD (Detection.detect text)

/-- A review and how it is shown.  The run fails if the review finds an error. -/
def shown (format : Format) (reviewer : Reviewer) (snippet : Snippet) : Outcome :=
  let report := reviewer.review snippet.text snippet.dialect
  { code := if report.hasErrors then 1 else 0
    output := format.display snippet report
    errors := ""
    notes := ["Reviewing " ++ snippet.dialect.name ++ " snippet with " ++
      toString reviewer.rules.length ++ " rules"] }

/-- What a text comes to. -/
def outcome (options : CheckOptions) (config : Config) (text : List Char) : Outcome :=
  if Text.isBlank text then
    ⟨0, "", "No code provided. Pass a file path or pipe code via stdin.\n", []⟩
  else
    let config := options.override config
    match Reviewer.ofConfig config with
    | .ok reviewer => shown options.format reviewer ⟨text, dialectOf config text⟩
    | .error error => .ofFailure ⟨"Failed to configure analyzer", [error.message]⟩

end CheckOptions

/-! ## Commands -/

section
variable {m : Type → Type} [Monad m]

/-- Whether a path stands for the standard input: its one step is `-`. -/
def isInput (path : String) : Bool :=
  match path.toList.splitOn '/' with
  | ['-'] :: more => more.all fun step => step.isEmpty || step == ['.']
  | _ => false

/-- The text to work on: that of the file, or the standard input. -/
def readText (world : World m) (path : Option String) : m (Except Failure (List Char)) := do
  match path.filter fun path => !isInput path with
  | some path =>
    match ← world.read path with
    | .ok text => return .ok text.toList
    | .error fault => return .error ⟨"Failed to read " ++ path, [fault.message]⟩
  | none =>
    match ← world.input with
    | .ok text => return .ok text.toList
    | .error fault => return .error ⟨"Failed to read stdin", [fault.message]⟩

/-- Reviews a snippet.  The configuration is read before the snippet, so its failure is the one
reported. -/
def runCheck (world : World m) (named path : Option String) (options : CheckOptions) :
    m Outcome := do
  match ← ConfigFile.load world named with
  | .error failure => return .ofFailure failure
  | .ok config =>
    match ← readText world path with
    | .error failure => return .ofFailure failure
    | .ok text => return options.outcome config text

/-- Names the dialect of a snippet. -/
def runDetect (world : World m) (path : Option String) : m Outcome := do
  match ← readText world path with
  | .error failure => return .ofFailure failure
  | .ok text => return .success ((Detection.detect text).name ++ "\n")

/-- What is said when a configuration has been written. -/
def nextSteps : String :=
  "Created snippet-review.toml\n\nNext steps:\n" ++
    "  1. Edit snippet-review.toml to configure rules\n" ++
    "  2. Run: snippet-review check <FILE>\n"

/-- Writes a configuration to start from. -/
def runInit (world : World m) (force : Bool) : m Outcome := do
  if !force && (← world.isPresent ConfigFile.projectName) then
    return .ofFailure
      ⟨"Configuration file already exists at " ++ ConfigFile.projectName ++
        ". Use --force to overwrite.", []⟩
  match ← world.write ConfigFile.projectName Starter.contents with
  | .ok () => return .success nextSteps
  | .error fault => return .ofFailure ⟨fault.message, []⟩

/-- Carries out a command; `named` is the configuration that is named. -/
def Command.run (world : World m) (named : Option String) : Command → m Outcome
  | check path options => runCheck world named path options
  | detect path => runDetect world path
  | listRules => pure (.success Listing.text)
  | init force => runInit world force

/-- Does what a command line asks for. -/
def Invocation.run (world : World m) (invocation : Invocation) : m Outcome := do
  let outcome ← invocation.command.run world invocation.config
  return outcome.settle invocation.verbose

end

/-! ## The whole program -/

/-- The version of the program. -/
def versionText : String := "snippet-review 0.2.0\n"

/-- How to use the program. -/
def helpText : String :=
  "Reviews snippets of C#, VB.NET and SQL\n\n" ++
    "Usage: snippet-review [-v] [-c FILE] COMMAND\n\n" ++
    "Commands:\n" ++
    "  check [-f text|json|compact|pretty] [-d DIALECT] [-p PRESET] [FILE]\n" ++
    "  detect [FILE]\n" ++
    "  list-rules\n" ++
    "  init [--force]\n" ++
    "  help [COMMAND]\n"

/-- The outcome of a run that does nothing. -/
def Stop.outcome : Stop → Outcome
  | help => .success helpText
  | version => .success versionText
  | usage fault => ⟨2, "", "error: " ++ fault.message ++ "\n", []⟩

/-- Runs a command line in a world. -/
def run {m : Type → Type} [Monad m] (world : World m) (words : List String) : m Outcome := do
  let inherited ← world.environment ConfigFile.pathVariable
  match Invocation.parse inherited words with
  | .ok invocation => invocation.run world
  | .error stop => return stop.outcome

end CommandLine
end LineLint
