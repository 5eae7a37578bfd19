/-! # The world of a run

What a run may ask of its surroundings, and how files may fail.  The operations
are given in any monad, so that the same program runs on the file system of the
machine and on a tree of files in memory.
-/
namespace LineLint
namespace CommandLine

/-- Why a file cannot be read or written. -/
inductive FileFault where
  /-- There is no such file. -/
  | notFound
  /-- The path leads through something that is no directory. -/
  | notDirectory
  /-- The path leads to a directory. -/
  | isDirectory
  /-- The path, or a name in it, is too long. -/
  | nameTooLong
  /-- The file holds no text. -/
  | notText
  /-- Anything else. -/
  | other (message : String)
  deriving DecidableEq, Repr

/-- The wording of a fault. -/
def FileFault.message : FileFault → String
  | notFound => "No such file or directory (os error 2)"
  | notDirectory => "Not a directory (os error 20)"
  | isDirectory => "Is a directory (os error 21)"
  | nameTooLong => "File name too long (os error 36)"
  | notText => "stream did not contain valid UTF-8"
  | other message => message

/-- The surroundings of a run. -/
structure World (m : Type → Type) where
  /-- Reads a file. -/
  read : String → m (Except FileFault String)
  /-- Writes a file. -/
  write : String → String → m (Except FileFault Unit)
  /-- Whether a path leads to a file. -/
  isFile : String → m Bool
  /-- Whether a path leads anywhere. -/
  isPresent : String → m Bool
  /-- Reads the standard input. -/
  input : m (Except FileFault String)
  /-- The value of an environment variable, if it is set. -/
  environment : String → m (Option String)
  /-- The home directory of the user, if one is known. -/
  home : m (Option String)
  /-- The working directory. -/
  workingDirectory : m String

/-- What a run ends with. -/
structure Outcome where
  /-- Zero if all is well. -/
  code : Nat
  /-- What is written to the standard output. -/
  output : String
  /-- What is written to the standard error. -/
  errors : String
  /-- What a verbose run says on its way. -/
  notes : List String
  deriving DecidableEq, Repr

/-- A run that went well. -/
def Outcome.success (output : String) : Outcome :=
  ⟨0, output, "", []⟩

/-- The outcome with its notes in front of the errors if the run is verbose, and without them
if not. -/
def Outcome.settle (outcome : Outcome) (verbose : Bool) : Outcome :=
  let notes := if verbose then outcome.notes else []
  { outcome with
    errors := String.join (notes.map fun note => note ++ "\n") ++ outcome.errors
    notes := [] }

end CommandLine
end LineLint
