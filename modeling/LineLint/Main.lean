import LineLint.CommandLine.Run

/-! # The program

Runs the command line on the machine.
-/
namespace LineLint
namespace Program

open CommandLine

/-- The number of an error.  Some operations give it with a minus sign. -/
def errorNumber (code : UInt32) : Nat :=
  if code < 0x80000000 then code.toNat else (0 - code).toNat

/-- The fault behind an error of the machine. -/
def faultOf (error : IO.Error) : FileFault :=
  match error with
  | .noFileOrDirectory .. => .notFound
  | .inappropriateType _ code _ =>
    if errorNumber code = 21 then .isDirectory else .notDirectory
  | .invalidArgument _ code _ =>
    if errorNumber code = 36 then .nameTooLong else .other (toString error)
  | _ => .other (toString error)

/-- The text of some bytes. -/
def textOf (bytes : ByteArray) : Except FileFault String :=
  match String.fromUTF8? bytes with
  | some text => .ok text
  | none => .error .notText

/-- What an action on files comes to. -/
def attempt {α : Type} (action : IO (Except FileFault α)) : IO (Except FileFault α) := do
  try action catch error => return .error (faultOf error)

/-- Whether a path leads to something that `wanted` holds of. -/
def isThere (wanted : IO.FS.FileType → Bool) (path : String) : IO Bool := do
  try
    let place ← IO.FS.realPath path
    return wanted (← place.metadata).type
  catch _ => return false

/-- Reads everything from a stream. -/
partial def drain (stream : IO.FS.Stream) (read : ByteArray) : IO ByteArray := do
  let chunk ← stream.read 65536
  if chunk.isEmpty then return read else drain stream (read ++ chunk)

/-- The machine. -/
def machine : World IO where
  read := fun path => attempt do
    return textOf (← IO.FS.readBinFile path)
  write := fun path contents => attempt do
    IO.FS.writeFile path contents
    return .ok ()
  isFile := isThere (· == .file)
  isPresent := isThere fun _ => true
  input := attempt do
    return textOf (← drain (← IO.getStdin) .empty)
  environment := fun name => IO.getEnv name
  home := IO.getEnv "HOME"
  workingDirectory := do
    return (← IO.currentDir).toString

end Program
end LineLint

/-- Runs the words of a command line. -/
def main (words : List String) : IO UInt32 := do
  let outcome ← LineLint.CommandLine.run LineLint.Program.machine words
  IO.print outcome.output
  (← IO.getStdout).flush
  IO.eprint outcome.errors
  return outcome.code.toUInt32
