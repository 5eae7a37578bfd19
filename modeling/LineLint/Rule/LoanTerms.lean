import LineLint.Text.Case

/-! # Loan terms

Some texts speak of loans: one of their names has `principal`, `rate` or `term`
for a part.  A name is cut into runs of ASCII letters, and a run into parts
where a small letter meets a capital.
-/
namespace LineLint
namespace LoanTerms

/-- The parts of names that speak of a loan. -/
def terms : List String :=
  ["principal", "rate", "term"]

/-- The maximal runs of ASCII letters in a text; `run` holds the letters just passed, nearest
first. -/
def letterRunsFrom (run : List Char) : List Char → List (List Char)
  | [] => if run.isEmpty then [] else [run.reverse]
  | c :: rest =>
    if c.isAlpha then letterRunsFrom (c :: run) rest
    else if run.isEmpty then letterRunsFrom [] rest
    else run.reverse :: letterRunsFrom [] rest

/-- The maximal runs of ASCII letters in a text. -/
def letterRuns (text : List Char) : List (List Char) :=
  letterRunsFrom [] text

/-- The parts of a run of letters: a capital behind a small letter starts a new one. -/
def nameParts : List Char → List (List Char)
  | [] => []
  | [c] => [[c]]
  | c :: d :: rest =>
    if c.isLower && d.isUpper then [c] :: nameParts (d :: rest)
    else
      match nameParts (d :: rest) with
      | part :: parts => (c :: part) :: parts
      | [] => [[c]]

/-- Whether a part of a name is a loan term, in any case. -/
def isTerm (part : List Char) : Bool :=
  terms.any fun term => Text.sameIgnoringCase term.toList part

/-- Whether some name in the text has a loan term for a part. -/
def mentionedIn (text : List Char) : Bool :=
  (letterRuns text).any fun run => (nameParts run).any isTerm

/-- The parts of a run make up the run. -/
theorem flatten_nameParts (run : List Char) : (nameParts run).flatten = run := by
  fun_induction nameParts run <;> simp_all

end LoanTerms
end LineLint
