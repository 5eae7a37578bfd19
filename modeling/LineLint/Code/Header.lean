import LineLint.Text.Space

/-! # Headers

What a header line declares: a name, the text of the parameter list where the
list opens and closes on the line, and whether a body follows.
-/
namespace LineLint
namespace Code

/-- A header of something callable. -/
structure Header where
  /-- The declared name. -/
  name : List Char
  /-- The text of the parameter list, if the list opens and closes on the line. -/
  params : Option (List Char)
  /-- Whether the header declares no body. -/
  bodiless : Bool
  deriving DecidableEq, Repr

/-- Number of parameters in the text of a parameter list: one more than its commas, and none
if the text is blank. -/
def countParams (params : List Char) : Nat :=
  if Text.isBlank params then 0 else params.count ',' + 1

/-- Number of parameters of a header whose parameter list is on the line. -/
def Header.paramCount (header : Header) : Option Nat :=
  header.params.map countParams

/-- The text in front of the first `close`, and the text behind it; nothing if `close` does not
occur. -/
def splitAtFirst (close : Char) : List Char → Option (List Char × List Char)
  | [] => none
  | c :: rest =>
    if c = close then some ([], rest)
    else (splitAtFirst close rest).map fun split => (c :: split.1, split.2)

theorem splitAtFirst_eq_some {close : Char} {text front back : List Char}
    (h : splitAtFirst close text = some (front, back)) : text = front ++ close :: back := by
  induction text generalizing front with
  | nil => simp [splitAtFirst] at h
  | cons c rest ih =>
    by_cases hc : c = close
    · simp_all [splitAtFirst]
    · simp only [splitAtFirst, hc, if_false, Option.map_eq_some_iff] at h
      obtain ⟨⟨f, b⟩, hf, he⟩ := h
      simp only [Prod.mk.injEq] at he
      obtain ⟨rfl, rfl⟩ := he
      simp [ih hf]

end Code
end LineLint
