import LineLint.Text.Ranges

/-! # White space

The characters with the property `White_Space`, and the trimming of texts by
it.  A text is blank when it holds nothing else.
-/
namespace LineLint
namespace Text

/-- The code points with the property `White_Space`. -/
def spaceRanges : List (Nat × Nat) :=
  [(0x9, 0xD), (0x20, 0x20), (0x85, 0x85), (0xA0, 0xA0), (0x1680, 0x1680), (0x2000, 0x200A),
   (0x2028, 0x2029), (0x202F, 0x202F), (0x205F, 0x205F), (0x3000, 0x3000)]

/-- Whether `c` is white space. -/
def isSpace (c : Char) : Bool :=
  inRanges spaceRanges c

/-- A text without its leading white space. -/
def trimStart (text : List Char) : List Char :=
  text.dropWhile isSpace

/-- A text without its trailing white space. -/
def trimEnd (text : List Char) : List Char :=
  (text.reverse.dropWhile isSpace).reverse

/-- A text without white space at either end. -/
def trim (text : List Char) : List Char :=
  trimEnd (trimStart text)

/-- Whether a text holds nothing but white space. -/
def isBlank (text : List Char) : Bool :=
  text.all isSpace

@[simp] theorem trimStart_nil : trimStart [] = [] := rfl

@[simp] theorem trimEnd_nil : trimEnd [] = [] := rfl

/-- A text is blank exactly when trimming leaves nothing of it. -/
theorem trimStart_eq_nil_iff (text : List Char) :
    trimStart text = [] ↔ isBlank text = true := by
  induction text with
  | nil => simp [isBlank]
  | cons c text ih =>
    by_cases hc : isSpace c = true
    · simp_all [trimStart, isBlank]
    · simp [trimStart, isBlank, hc]

end Text
end LineLint
