import LineLint.CommandLine.Failure
import LineLint.CommandLine.World
import LineLint.Wire.Config

/-! # Configuration files

A configuration that is named is read, whether it is there or not.  Otherwise
the first file that is there counts: two names in the working directory, and
then one in the directory of the user.  Without any of them nothing is
configured.
-/
namespace LineLint
namespace CommandLine
namespace ConfigFile

/-- The variable that names a configuration. -/
def pathVariable : String := "SNIPPET_REVIEW_CONFIG"

/-- The variable that names the directory of the user. -/
def directoryVariable : String := "SNIPPET_REVIEW_CONFIG_DIR"

/-- The configuration of a project; the first name is also the one that `init` writes. -/
def projectName : String := "snippet-review.toml"

/-- The names in the working directory, the first one first. -/
def projectNames : List String :=
  [projectName, "." ++ projectName]

/-- The name in the directory of the user. -/
def userName : String := "config.toml"

/-- The directory of the user, in the home directory. -/
def homeSubdirectory : String := ".snippet-review"

/-- The path of a name in a directory. -/
def join (directory name : String) : String :=
  if directory.isEmpty || directory.endsWith "/" then directory ++ name
  else directory ++ "/" ++ name

/-- The files that are looked for, the first one first. -/
def candidates (workingDirectory : String) (userDirectory : Option String) : List String :=
  projectNames.map (join workingDirectory) ++
    userDirectory.toList.map fun directory => join directory userName

variable {m : Type → Type} [Monad m]

/-- The directory of the user: the one that is set, or else the one in the home directory. -/
def userDirectory (world : World m) : m (Option String) := do
  match ← world.environment directoryVariable with
  | some directory => return some directory
  | none => return (← world.home).map fun home => join home homeSubdirectory

/-- The first of several files that is there. -/
def firstFile (world : World m) : List String → m (Option String)
  | [] => pure none
  | path :: paths => do
    if ← world.isFile path then pure (some path) else firstFile world paths

/-- The file to read, if there is one. -/
def locate (world : World m) (named : Option String) : m (Option String) :=
  match named with
  | some path => pure (some path)
  | none => do
    let workingDirectory ← world.workingDirectory
    let directory ← userDirectory world
    firstFile world (candidates workingDirectory directory)

/-- The causes behind a configuration that cannot be read from its text. -/
def causesOf (fault : Wire.Fault) : List String :=
  ["invalid configuration: TOML parse error: " ++ fault.message]

/-- The configuration in a file, given what comes of reading it. -/
def interpret (path : String) (contents : Except FileFault String) : Except Failure Config :=
  let failed (causes : List String) : Except Failure Config :=
    .error ⟨"Failed to load config: " ++ path, causes⟩
  match contents with
  | .error fault => failed ["cannot read " ++ path ++ ": " ++ fault.message, fault.message]
  | .ok text =>
    match Wire.readConfig text with
    | .ok config => .ok config
    | .error fault => failed (causesOf fault)

/-- Finds and reads the configuration. -/
def load (world : World m) (named : Option String) : m (Except Failure Config) := do
  match ← locate world named with
  | some path => return interpret path (← world.read path)
  | none => return .ok .unset

end ConfigFile
end CommandLine
end LineLint
