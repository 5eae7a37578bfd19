import LineLint.Text.Case
import LineLint.Text.Digit
import LineLint.Text.Space
import LineLint.Text.WordChar

/-! # Functions that ignore letter case

A function of characters is `CaseBlind` if it does not tell a capital letter of
ASCII from its small form.  Only the twenty-six capitals have to be looked at
(`caseBlind_of_capitals`), so for a given function this is a finite check.

`asciiLower` makes the capitals of a text small.  A function of texts ignores
case if `asciiLower` does not change its result; the lemmas below say so of
blanks, of both case mappings and of comparisons, and say of the functions that
cut a text that they commute with `asciiLower`.
-/
namespace LineLint
namespace Text

/-- The capital letters of ASCII. -/
def capitals : List Char :=
  "ABCDEFGHIJKLMNOPQRSTUVWXYZ".toList

/-- A character with a small form of its own is one of the capitals. -/
theorem toLower_of_not_mem_capitals {c : Char} (h : c ∉ capitals) : c.toLower = c := by
  by_cases hc : 'A'.toNat ≤ c.toNat ∧ c.toNat ≤ 'Z'.toNat
  · have hall : ∀ i : Fin 26, Char.ofNat (65 + i) ∈ capitals := by decide
    have hbounds : 65 ≤ c.toNat ∧ c.toNat ≤ 90 := hc
    refine absurd ?_ h
    have hi := hall ⟨c.toNat - 65, by omega⟩
    rw [show 65 + (c.toNat - 65) = c.toNat from by omega, Char.ofNat_toNat] at hi
    exact hi
  · have hval : ¬ (c.val ≥ 'A'.val ∧ c.val ≤ 'Z'.val) := by
      intro hval
      exact hc ⟨UInt32.le_iff_toNat_le.mp hval.1, UInt32.le_iff_toNat_le.mp hval.2⟩
    exact dif_neg hval

/-- A character with a given small form is that form, or its capital. -/
theorem eq_or_eq_toUpper {c small : Char} (h : c.toLower = small) :
    c = small ∨ c = small.toUpper := by
  by_cases hc : c ∈ capitals
  · have hall : capitals.all (fun c => c == c.toLower.toUpper) = true := by decide
    have heq : c = c.toLower.toUpper := eq_of_beq (List.all_eq_true.mp hall c hc)
    exact Or.inr (h ▸ heq)
  · exact Or.inl ((toLower_of_not_mem_capitals hc).symm.trans h)

/-- Whether a function does not tell capitals from small letters. -/
def CaseBlind {α : Type} (f : Char → α) : Prop :=
  ∀ c, f c.toLower = f c

theorem caseBlind_of_capitals {α : Type} {f : Char → α}
    (h : capitals.map (fun c => f c.toLower) = capitals.map f) : CaseBlind f := by
  intro c
  by_cases hc : c ∈ capitals
  · exact List.map_inj_left.mp h c hc
  · rw [toLower_of_not_mem_capitals hc]

theorem CaseBlind.comp {α β : Type} {f : Char → α} (h : CaseBlind f) (g : α → β) :
    CaseBlind fun c => g (f c) :=
  fun c => congrArg g (h c)

theorem CaseBlind.or {f g : Char → Bool} (hf : CaseBlind f) (hg : CaseBlind g) :
    CaseBlind fun c => f c || g c := by
  intro c
  simp only [hf c, hg c]

theorem caseBlind_toLower : CaseBlind Char.toLower :=
  caseBlind_of_capitals (by decide)

theorem caseBlind_isSpace : CaseBlind isSpace :=
  caseBlind_of_capitals (by decide)

theorem caseBlind_isDigit : CaseBlind isDigit :=
  caseBlind_of_capitals (by decide)

theorem caseBlind_ascii_isDigit : CaseBlind Char.isDigit :=
  caseBlind_of_capitals (by decide)

theorem caseBlind_isWordChar : CaseBlind isWordChar :=
  caseBlind_of_capitals (by decide)

/-- A character that is no letter is met in the same places. -/
theorem caseBlind_eq {d : Char} (hd : d.isAlpha = false) : CaseBlind fun c => c == d := by
  have hletters : capitals.all (fun c => c.isAlpha && c.toLower.isAlpha) = true := by decide
  have hne : ∀ e : Char, e.isAlpha = true → (e == d) = false := by
    intro e he
    refine beq_eq_false_iff_ne.mpr ?_
    rintro rfl
    rw [hd] at he
    cases he
  refine caseBlind_of_capitals (List.map_congr_left ?_)
  intro c hc
  obtain ⟨hc, hlower⟩ := Bool.and_eq_true_iff.mp (List.all_eq_true.mp hletters c hc)
  rw [hne _ hc, hne _ hlower]

theorem caseBlind_ne {d : Char} (hd : d.isAlpha = false) : CaseBlind fun c => c != d :=
  (caseBlind_eq hd).comp (!·)

theorem toLower_eq_iff {c d : Char} (hd : d.isAlpha = false) : c.toLower = d ↔ c = d := by
  have h : (c.toLower == d) = (c == d) := caseBlind_eq hd c
  rw [← beq_iff_eq, h, beq_iff_eq]

/-! ## Texts in small letters -/

@[simp] theorem asciiLower_nil : asciiLower [] = [] := rfl

@[simp] theorem asciiLower_cons (c : Char) (text : List Char) :
    asciiLower (c :: text) = c.toLower :: asciiLower text := rfl

theorem asciiLower_append (a b : List Char) : asciiLower (a ++ b) = asciiLower a ++ asciiLower b :=
  List.map_append

@[simp] theorem length_asciiLower (text : List Char) :
    (asciiLower text).length = text.length :=
  List.length_map ..

@[simp] theorem isEmpty_asciiLower (text : List Char) :
    (asciiLower text).isEmpty = text.isEmpty :=
  List.isEmpty_map ..

theorem asciiLower_take (n : Nat) (text : List Char) :
    asciiLower (text.take n) = (asciiLower text).take n :=
  List.map_take

theorem asciiLower_dropWhile {p : Char → Bool} (hp : CaseBlind p) (text : List Char) :
    asciiLower (text.dropWhile p) = (asciiLower text).dropWhile p := by
  induction text with
  | nil => rfl
  | cons c text ih =>
    rw [asciiLower_cons, List.dropWhile_cons, List.dropWhile_cons, hp c]
    cases p c
    · rfl
    · exact ih

@[simp] theorem asciiLower_asciiLower (text : List Char) :
    asciiLower (asciiLower text) = asciiLower text := by
  induction text with
  | nil => rfl
  | cons c text ih => rw [asciiLower_cons, asciiLower_cons, caseBlind_toLower c, ih]

theorem sameIgnoringCase_asciiLower (a b : List Char) :
    sameIgnoringCase a (asciiLower b) = sameIgnoringCase a b := by
  rw [sameIgnoringCase, sameIgnoringCase, asciiLower_asciiLower]

theorem asciiLower_sameIgnoringCase (a b : List Char) :
    sameIgnoringCase (asciiLower a) b = sameIgnoringCase a b := by
  rw [sameIgnoringCase, sameIgnoringCase, asciiLower_asciiLower]

@[simp] theorem isBlank_asciiLower (text : List Char) :
    isBlank (asciiLower text) = isBlank text := by
  induction text with
  | nil => rfl
  | cons c text ih =>
    simp only [isBlank, asciiLower_cons, List.all_cons] at ih ⊢
    rw [caseBlind_isSpace c, ih]

theorem trimStart_asciiLower (text : List Char) :
    trimStart (asciiLower text) = asciiLower (trimStart text) :=
  (asciiLower_dropWhile caseBlind_isSpace text).symm

/-! ## Case mappings

Both full mappings give the same for a capital as for its small form.  The one to
small letters looks at the neighbours of a sigma as well, but only at whether
they have case. -/

theorem caseBlind_isCased : CaseBlind isCased :=
  caseBlind_of_capitals (by decide)

theorem caseBlind_isCaseIgnorable : CaseBlind isCaseIgnorable :=
  caseBlind_of_capitals (by decide +kernel)

theorem caseBlind_lowerChar : CaseBlind lowerChar :=
  caseBlind_of_capitals (by decide)

theorem caseBlind_upperChar : CaseBlind upperChar :=
  caseBlind_of_capitals (by decide)

theorem meetsCased_asciiLower (text : List Char) :
    meetsCased (asciiLower text) = meetsCased text := by
  rw [meetsCased, ← asciiLower_dropWhile caseBlind_isCaseIgnorable, meetsCased]
  cases text.dropWhile isCaseIgnorable with
  | nil => rfl
  | cons c rest => exact caseBlind_isCased c

theorem lowerBehind_asciiLower (before text : List Char) :
    lowerBehind (asciiLower before) (asciiLower text) = lowerBehind before text := by
  induction text generalizing before with
  | nil => rfl
  | cons c text ih =>
    -- `Σ` is no letter of ASCII, so the special case is taken in both texts or in neither
    have hsigma : c.toLower = 'Σ' ↔ c = 'Σ' := toLower_eq_iff (by decide)
    have hrest : lowerBehind (c.toLower :: asciiLower before) (asciiLower text) =
        lowerBehind (c :: before) text := ih (c :: before)
    rw [asciiLower_cons, lowerBehind, lowerBehind, hrest, isFinalSigma, isFinalSigma,
      meetsCased_asciiLower, meetsCased_asciiLower, caseBlind_lowerChar c]
    by_cases hc : c = 'Σ'
    · rw [if_pos (hsigma.mpr hc), if_pos hc]
    · rw [if_neg (mt hsigma.mp hc), if_neg hc]

@[simp] theorem lower_asciiLower (text : List Char) : lower (asciiLower text) = lower text :=
  lowerBehind_asciiLower [] text

@[simp] theorem upper_asciiLower (text : List Char) : upper (asciiLower text) = upper text := by
  induction text with
  | nil => rfl
  | cons c text ih =>
    simp only [upper, asciiLower_cons, List.flatMap_cons] at ih ⊢
    rw [caseBlind_upperChar c, ih]

end Text
end LineLint
