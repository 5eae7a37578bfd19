import LineLint.Text.CaseTable

/-! # Letter case

`lower` and `upper` are the full case mappings of Unicode: a letter may become
several, and a capital sigma at the end of a word becomes `ς`.  Names and
keywords are compared more narrowly, by `sameIgnoringCase`, which folds the
letters of ASCII and no others.
-/
namespace LineLint
namespace Text

/-- Whether `c` has case. -/
def isCased (c : Char) : Bool :=
  inRanges casedRanges c

/-- Whether case conditions look through `c`. -/
def isCaseIgnorable (c : Char) : Bool :=
  inRanges caseIgnorableRanges c

/-- Whether the first character of the text that is not looked through has case. -/
def meetsCased (text : List Char) : Bool :=
  match text.dropWhile isCaseIgnorable with
  | c :: _ => isCased c
  | [] => false

/-- Whether a sigma stands at the end of a word: after a letter and not before one.
The text before it is given nearest character first. -/
def isFinalSigma (before after : List Char) : Bool :=
  meetsCased before && !meetsCased after

/-- The lower-case form of a letter on its own. -/
def lowerChar (c : Char) : List Char :=
  if c.toNat < 0x80 then [c.toLower]
  else if c = 'İ' then ['i', '\u0307']
  else [shiftCase lowerRows c]

/-- The upper-case form of a letter. -/
def upperChar (c : Char) : List Char :=
  if c.toNat < 0x80 then [c.toUpper]
  else match upperExpansions.find? (·.1 == c.toNat) with
    | some expansion => expansion.2.map Char.ofNat
    | none => [shiftCase upperRows c]

/-- The lower-case form of `after`, which stands behind `before` (nearest character first). -/
def lowerBehind (before : List Char) : List Char → List Char
  | [] => []
  | c :: after =>
    (if c = 'Σ' then [if isFinalSigma before after then 'ς' else 'σ'] else lowerChar c) ++
      lowerBehind (c :: before) after

/-- The lower-case form of a text. -/
def lower (text : List Char) : List Char :=
  lowerBehind [] text

/-- The upper-case form of a text. -/
def upper (text : List Char) : List Char :=
  text.flatMap upperChar

/-- The text with the capital letters of ASCII made small. -/
def asciiLower (text : List Char) : List Char :=
  text.map Char.toLower

/-- Whether two texts are equal up to the case of ASCII letters. -/
def sameIgnoringCase (a b : List Char) : Bool :=
  asciiLower a == asciiLower b

@[simp] theorem lower_nil : lower [] = [] := rfl

@[simp] theorem upper_nil : upper [] = [] := rfl

@[simp] theorem upper_append (a b : List Char) : upper (a ++ b) = upper a ++ upper b :=
  List.flatMap_append

theorem sameIgnoringCase_iff (a b : List Char) :
    sameIgnoringCase a b = true ↔ asciiLower a = asciiLower b := by
  simp [sameIgnoringCase]

end Text
end LineLint
