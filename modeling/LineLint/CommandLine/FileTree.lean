import LineLint.CommandLine.World
import LineLint.Data.Table

/-! # Trees of files

A tree of files in memory, with a working directory.  A place in it is the list
of names on the way from the root.  Directories are there if they are listed or
if anything is inside of them.

A path is followed step by step: an empty step and `.` stay where they are, `..`
goes up, and a name goes down.  No step leads away from a file, so `a.txt/` is
not the same as `a.txt`.
-/
namespace LineLint
namespace CommandLine

/-- The names on the way from the root. -/
abbrev Place : Type :=
  List String

/-- What is at a place. -/
inductive Entry where
  /-- A file with its contents. -/
  | file (contents : String)
  /-- A directory. -/
  | directory
  /-- The standard input. -/
  | input
  deriving DecidableEq, Repr

/-- A tree of files. -/
structure FileTree where
  /-- What is where; of two entries for one place the first counts. -/
  entries : List (Place × Entry)
  /-- The working directory. -/
  workingDirectory : Place
  /-- What has not been read yet of the standard input. -/
  input : String
  deriving DecidableEq, Repr

/-- The steps of a path; a path that starts with a slash has an empty first step. -/
def steps (path : String) : List String :=
  (path.toList.splitOn '/').map String.ofList

/-- Where a step leads from a directory. -/
def Place.follow (place : Place) (step : String) : Place :=
  if step = "" || step = "." then place
  else if step = ".." then place.dropLast
  else place ++ [step]

namespace FileTree

/-- What is at a place. -/
def entryAt? (tree : FileTree) (place : Place) : Option Entry :=
  match tree.entries.lookup place with
  | some entry => some entry
  | none =>
    if place.isEmpty || tree.entries.any fun entry => place.isPrefixOf entry.1 then
      some .directory
    else none

/-- How many bytes a name may have. -/
def maxNameLength : Nat := 255

/-- How many bytes a path may have. -/
def maxPathLength : Nat := 4095

/-- Follows steps from a place. -/
def walk (tree : FileTree) (place : Place) : List String → Except FileFault (Place × Entry)
  | [] =>
    match tree.entryAt? place with
    | some entry => .ok (place, entry)
    | none => .error .notFound
  | step :: more =>
    match tree.entryAt? place with
    | some .directory =>
      if maxNameLength < step.utf8ByteSize then .error .nameTooLong
      else tree.walk (place.follow step) more
    | some _ => .error .notDirectory
    | none => .error .notFound

/-- Follows a path from the root if it starts with a slash, and from the working directory if
not.  The empty path leads nowhere. -/
def find (tree : FileTree) (path : String) : Except FileFault (Place × Entry) :=
  if path.isEmpty then .error .notFound
  else if maxPathLength < path.utf8ByteSize then .error .nameTooLong
  else if path.startsWith "/" then tree.walk [] (steps path)
  else tree.walk tree.workingDirectory (steps path)

/-- Reads what is left of the standard input, all of it. -/
def readInput (tree : FileTree) : Except FileFault String × FileTree :=
  (.ok tree.input, { tree with input := "" })

/-- Reads a file. -/
def read (tree : FileTree) (path : String) : Except FileFault String × FileTree :=
  match tree.find path with
  | .ok (_, .file contents) => (.ok contents, tree)
  | .ok (_, .directory) => (.error .isDirectory, tree)
  | .ok (_, .input) => tree.readInput
  | .error fault => (.error fault, tree)

/-- Writes a file of the working directory. -/
def write (tree : FileTree) (name contents : String) : Except FileFault FileTree :=
  let place := tree.workingDirectory ++ [name]
  match tree.entryAt? place with
  | some .directory => .error .isDirectory
  | _ => .ok { tree with entries := (place, .file contents) :: tree.entries }

/-- Whether a path leads to a file. -/
def isFile (tree : FileTree) (path : String) : Bool :=
  match tree.find path with
  | .ok (_, .file _) => true
  | _ => false

/-- Whether a path leads anywhere. -/
def isPresent (tree : FileTree) (path : String) : Bool :=
  match tree.find path with
  | .ok _ => true
  | .error _ => false

/-- The path of a place. -/
def pathOf (place : Place) : String :=
  "/" ++ String.intercalate "/" place

/-- The world of a tree, with settings in the environment.  The home directory is the one that they
say. -/
def world (settings : Data.Table String) : World (StateM FileTree) where
  read := fun path tree => tree.read path
  write := fun path contents tree =>
    match tree.write path contents with
    | .ok written => (.ok (), written)
    | .error fault => (.error fault, tree)
  isFile := fun path tree => (tree.isFile path, tree)
  isPresent := fun path tree => (tree.isPresent path, tree)
  input := readInput
  environment := fun name => pure (settings.get? name)
  home := pure (settings.get? "HOME")
  workingDirectory := fun tree => (pathOf tree.workingDirectory, tree)

end FileTree
end CommandLine
end LineLint
