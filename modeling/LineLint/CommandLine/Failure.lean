/-! # Failures

Why a run could not do what it was asked for: what went wrong, and the causes
behind it, the nearest first.
-/
namespace LineLint
namespace CommandLine

/-- Why a run could not do what it was asked for. -/
structure Failure where
  /-- What went wrong. -/
  message : String
  /-- The causes, the nearest first. -/
  causes : List String
  deriving DecidableEq, Repr

namespace Failure

/-- A text with all lines but the first moved to the right. -/
def hang (width : Nat) (text : String) : String :=
  String.ofList (text.toList.flatMap fun c =>
    if c = '\n' then c :: List.replicate width ' ' else [c])

/-- One cause behind a failure. -/
def showOnlyCause (cause : String) : String :=
  "    " ++ hang 4 cause ++ "\n"

/-- One of several causes, with its number. -/
def showCause (cause : String × Nat) : String :=
  let number := toString cause.2
  String.ofList (List.replicate (5 - number.length) ' ') ++ number ++ ": " ++
    hang 7 cause.1 ++ "\n"

/-- The failure as it is reported. -/
def render (failure : Failure) : String :=
  let headline := "Error: " ++ failure.message ++ "\n"
  match failure.causes with
  | [] => headline
  | [cause] => headline ++ "\nCaused by:\n" ++ showOnlyCause cause
  | causes => headline ++ "\nCaused by:\n" ++ String.join (causes.zipIdx.map showCause)

end Failure
end CommandLine
end LineLint
