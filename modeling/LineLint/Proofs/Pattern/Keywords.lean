import LineLint.Proofs.Pattern.Marks
import LineLint.Proofs.Pattern.Words

/-! # Lists of keywords

Where one keyword of a list is spelled, a pattern for the list takes that keyword and nothing else,
provided that no keyword of the list begins with another one (`Pattern.reach_words`).  Repeated,
such a pattern takes one keyword after the other, and prefers to take them all
(`Pattern.exists_reach_repeated`).

A keyword counts as spelled in any case of ASCII letters (`Pattern.spells_of_sameIgnoringCase`),
and a modifier is a keyword of a list with white space behind it (`Pattern.Modifier`).
-/
namespace LineLint

open Text (asciiLower sameIgnoringCase isSpace)

namespace Pattern

variable {keyword keyword' : String} {before taken taken' rest rest' : List Char}
  {parts : List (Part × Cursor × Cursor)} {p : Pattern}

/-! ## Keywords that begin alike -/

/-- A text that differs from a keyword in the case of ASCII letters spells it. -/
theorem spells_of_sameIgnoringCase (h : sameIgnoringCase keyword.toList taken = true) :
    Spells keyword taken := by
  rw [Text.sameIgnoringCase_iff] at h
  rw [Spells]
  generalize keyword.toList = letters at h
  induction letters generalizing taken with
  | nil =>
    obtain rfl : taken = [] := List.map_eq_nil_iff.mp h.symm
    exact .nil
  | cons letter letters ih =>
    cases taken with
    | nil => cases h
    | cons c taken =>
      obtain ⟨hc, htaken⟩ := List.cons_eq_cons.mp h
      refine .cons ?_ (ih htaken)
      simp [foldsTo, hc]

/-- Whether neither of two keywords begins with the other, in small letters. -/
def Differ (keyword keyword' : String) : Prop :=
  ¬ asciiLower keyword.toList <+: asciiLower keyword'.toList ∧
    ¬ asciiLower keyword'.toList <+: asciiLower keyword.toList

instance (keyword keyword' : String) : Decidable (Differ keyword keyword') :=
  inferInstanceAs (Decidable (_ ∧ _))

theorem Differ.symm (h : Differ keyword keyword') : Differ keyword' keyword :=
  ⟨h.2, h.1⟩

/-- Of two keywords that a text begins with, one begins with the other. -/
theorem Spells.prefix_or_prefix (hletters : keyword.toList.all Char.isAlpha = true)
    (hletters' : keyword'.toList.all Char.isAlpha = true) (h : Spells keyword taken)
    (h' : Spells keyword' taken') (htext : taken ++ rest = taken' ++ rest') :
    asciiLower keyword.toList <+: asciiLower keyword'.toList ∨
      asciiLower keyword'.toList <+: asciiLower keyword.toList := by
  rw [Spells] at h h'
  generalize keyword.toList = letters at h hletters ⊢
  generalize keyword'.toList = letters' at h' hletters' ⊢
  induction h generalizing letters' taken' with
  | nil => exact Or.inl List.nil_prefix
  | @cons letter c letters taken hc _ ih =>
    cases h' with
    | nil => exact Or.inr List.nil_prefix
    | @cons letter' d letters' taken' hd h' =>
      obtain ⟨rfl, hbehind⟩ := List.cons_eq_cons.mp htext
      obtain ⟨hletter, hletters⟩ := Bool.and_eq_true_iff.mp hletters
      obtain ⟨hletter', hletters'⟩ := Bool.and_eq_true_iff.mp hletters'
      have hsame := toLower_eq_of_foldsTo hletter hletter' hc hd
      rw [Text.asciiLower_cons, Text.asciiLower_cons, hsame, List.prefix_cons_inj,
        List.prefix_cons_inj]
      exact ih hbehind hletters _ h' hletters'

/-- A text begins with one of two keywords only, if they differ. -/
theorem Spells.append_ne (h : Spells keyword taken) (h' : Spells keyword' taken')
    (hletters : keyword.toList.all Char.isAlpha = true)
    (hletters' : keyword'.toList.all Char.isAlpha = true) (hdiffer : Differ keyword keyword') :
    taken ++ rest ≠ taken' ++ rest' :=
  fun htext => (h.prefix_or_prefix hletters hletters' h' htext).elim hdiffer.1 hdiffer.2

/-- A keyword is not found where another one is spelled, if they differ. -/
theorem reach_word_of_differ (hletters : keyword.toList.all Char.isAlpha = true)
    (hletters' : keyword'.toList.all Char.isAlpha = true) (h : Spells keyword taken)
    (hdiffer : Differ keyword keyword') :
    (word keyword').reach ⟨⟨before, taken ++ rest⟩, parts⟩ = [] := by
  refine List.eq_nil_iff_forall_not_mem.mpr fun s hs => ?_
  obtain ⟨taken', rest', h', htext, -⟩ := mem_reach_word hs
  exact h.append_ne h' hletters hletters' hdiffer htext

/-! ## Lists of keywords -/

variable {keywords : List String}

theorem reach_anyOf (ps : List Pattern) (r : Reached) :
    (anyOf ps).reach r = ps.flatMap fun p => p.reach r := by
  fun_induction anyOf ps with
  | case1 =>
    simp only [reach]
    split <;> simp
  | case2 p => exact (List.flatMap_singleton _ _).symm
  | case3 p ps _ ih => rw [reach_orElse, ih, List.flatMap_cons]

theorem reach_words_eq (keywords : List String) (r : Reached) :
    (words keywords).reach r = keywords.flatMap fun keyword => (word keyword).reach r := by
  rw [words, reach_anyOf, List.flatMap_map]

/-- What a list of keywords takes spells one of them. -/
theorem exists_spells_of_mem_reach_words {after : List Char} {s : Reached}
    (h : s ∈ (words keywords).reach ⟨⟨before, after⟩, parts⟩) :
    ∃ taken rest, (∃ keyword ∈ keywords, Spells keyword taken) ∧ after = taken ++ rest ∧
      s = ⟨⟨taken.reverse ++ before, rest⟩, parts⟩ := by
  obtain ⟨keyword, hkeyword, hs⟩ := mem_reach_words.mp h
  obtain ⟨taken, rest, hspells, rfl, rfl⟩ := mem_reach_word hs
  exact ⟨taken, rest, ⟨keyword, hkeyword, hspells⟩, rfl, rfl⟩

/-- A spelling of a keyword of a list may be taken. -/
theorem mem_reach_words_of_spells (h : ∃ keyword ∈ keywords, Spells keyword taken)
    (before rest : List Char) (parts : List (Part × Cursor × Cursor)) :
    (⟨⟨taken.reverse ++ before, rest⟩, parts⟩ : Reached) ∈
      (words keywords).reach ⟨⟨before, taken ++ rest⟩, parts⟩ := by
  obtain ⟨keyword, hkeyword, hspells⟩ := h
  refine mem_reach_words.mpr ⟨keyword, hkeyword, ?_⟩
  rw [reach_word hspells]
  exact List.mem_singleton_self _

/-- No keyword of a list is found where one is spelled that differs from all of them. -/
theorem reach_words_of_differ (hletters : keyword.toList.all Char.isAlpha = true)
    (hall : ∀ other ∈ keywords, other.toList.all Char.isAlpha = true ∧ Differ keyword other)
    (h : Spells keyword taken) :
    (words keywords).reach ⟨⟨before, taken ++ rest⟩, parts⟩ = [] := by
  rw [reach_words_eq, List.flatMap_eq_nil_iff]
  intro other hother
  exact reach_word_of_differ hletters (hall other hother).1 h (hall other hother).2

/-- **The keyword that is spelled is the one that is taken**, if all keywords of the list differ
from each other. -/
theorem reach_words (hletters : ∀ keyword ∈ keywords, keyword.toList.all Char.isAlpha = true)
    (hdiffer : keywords.Pairwise Differ) (hmem : keyword ∈ keywords) (h : Spells keyword taken) :
    (words keywords).reach ⟨⟨before, taken ++ rest⟩, parts⟩ =
      [⟨⟨taken.reverse ++ before, rest⟩, parts⟩] := by
  have hkeyword := hletters keyword hmem
  rw [reach_words_eq]
  induction keywords with
  | nil => cases hmem
  | cons first others ih =>
    obtain ⟨hfirst, hothers⟩ := List.pairwise_cons.mp hdiffer
    rw [List.flatMap_cons]
    rcases List.mem_cons.mp hmem with rfl | hmem
    · rw [reach_word h, ← reach_words_eq, reach_words_of_differ hkeyword ?_ h, List.append_nil]
      intro other hother
      exact ⟨hletters other (List.mem_cons_of_mem _ hother), hfirst other hother⟩
    · rw [reach_word_of_differ hkeyword (hletters first List.mem_cons_self) h
        (hfirst keyword hmem).symm, List.nil_append]
      exact ih (fun other hother => hletters other (List.mem_cons_of_mem _ hother)) hothers hmem

/-! ## Repetitions -/

/-- A pattern that goes one way takes this way first, and then goes on. -/
theorem reach_repeated_of_singleton (hstay : p.canStay = false) {r s : Reached}
    (h : p.reach r = [s]) : (repeated p).reach r = (repeated p).reach s ++ [r] := by
  have hless : ∀ r, ∀ s ∈ p.reach r, s.place.after.length < r.place.after.length :=
    fun _ _ hs => length_lt_of_mem_reach hstay hs
  have hlt : s.place.after.length < r.place.after.length :=
    hless r s (h ▸ List.mem_singleton_self s)
  simp only [reach]
  cases hafter : r.place.after with
  | nil =>
    rw [hafter] at hlt
    exact absurd hlt (Nat.not_lt_zero _)
  | cons c bound =>
    rw [hafter, List.length_cons] at hlt
    rw [iterate_cons, h, List.flatMap_singleton,
      iterate_eq_of_length_le hless (Nat.le_of_lt_succ hlt) (Nat.le_refl _)]

/-- A pattern that goes nowhere stays. -/
theorem reach_repeated_of_nil {r : Reached} (h : p.reach r = []) :
    (repeated p).reach r = [r] := by
  simp only [reach]
  cases r.place.after with
  | nil => rfl
  | cons c bound => rw [iterate_cons, h, List.flatMap_nil, List.nil_append]

/-! ## Modifiers -/

/-- A keyword of a list, in any case of ASCII letters, with white space behind it. -/
structure Modifier (keywords : List String) where
  /-- The keyword. -/
  keyword : String
  /-- How it is spelled. -/
  spelling : List Char
  /-- The white space behind it. -/
  gap : List Char
  keyword_mem : keyword ∈ keywords
  same : sameIgnoringCase keyword.toList spelling = true
  isGap_gap : IsGap gap

namespace Modifier

/-- The text of a modifier. -/
def text (modifier : Modifier keywords) : List Char :=
  modifier.spelling ++ modifier.gap

theorem spells (modifier : Modifier keywords) : Spells modifier.keyword modifier.spelling :=
  spells_of_sameIgnoringCase modifier.same

/-- A modifier is an identifier with white space behind it. -/
theorem isIdentifier (modifier : Modifier keywords)
    (hwords : ∀ keyword ∈ keywords, keyword.toList ≠ [] ∧ keyword.toList.all Char.isAlpha = true) :
    IsIdentifier modifier.spelling := by
  obtain ⟨hne, hletters⟩ := hwords modifier.keyword modifier.keyword_mem
  exact modifier.spells.isIdentifier hne hletters

end Modifier

/-- No white space stands in front of modifiers, nor of what follows them. -/
theorem head_modifiers (hletters : ∀ keyword ∈ keywords,
      keyword.toList ≠ [] ∧ keyword.toList.all Char.isAlpha = true)
    (modifiers : List (Modifier keywords)) (hsolid : ∀ c ∈ rest.head?, isSpace c = false) :
    ∀ c ∈ (modifiers.flatMap Modifier.text ++ rest).head?, isSpace c = false := by
  cases modifiers with
  | nil => exact hsolid
  | cons modifier modifiers =>
    have hname := modifier.isIdentifier hletters
    rw [List.flatMap_cons, Modifier.text, List.append_assoc, List.append_assoc]
    exact head_solid hname.ne_nil hname.continues _

/-- **Repeated modifiers are all taken at first**, if no more of them follow. -/
theorem exists_reach_repeated (hletters : ∀ keyword ∈ keywords,
      keyword.toList ≠ [] ∧ keyword.toList.all Char.isAlpha = true)
    (hdiffer : keywords.Pairwise Differ) (modifiers : List (Modifier keywords))
    (hstay : (words keywords).canStay = false)
    (hrest : ∀ before, (words keywords).reach ⟨⟨before, rest⟩, parts⟩ = [])
    (hsolid : ∀ c ∈ rest.head?, isSpace c = false) (before : List Char) :
    ∃ more, (repeated (words keywords ++ gap)).reach
        ⟨⟨before, modifiers.flatMap Modifier.text ++ rest⟩, parts⟩ =
      ⟨⟨(modifiers.flatMap Modifier.text).reverse ++ before, rest⟩, parts⟩ :: more := by
  induction modifiers generalizing before with
  | nil =>
    refine ⟨[], reach_repeated_of_nil ?_⟩
    rw [List.flatMap_nil, List.nil_append, reach_append, hrest, List.flatMap_nil]
  | cons modifier modifiers ih =>
    have hnext := head_modifiers hletters modifiers hsolid
    have hone : (words keywords ++ gap).reach
          ⟨⟨before, modifier.spelling ++ (modifier.gap ++
            (modifiers.flatMap Modifier.text ++ rest))⟩, parts⟩ =
        [⟨⟨modifier.gap.reverse ++ (modifier.spelling.reverse ++ before),
          modifiers.flatMap Modifier.text ++ rest⟩, parts⟩] := by
      rw [reach_append, reach_words (fun k hk => (hletters k hk).2) hdiffer modifier.keyword_mem
        modifier.spells, List.flatMap_singleton, reach_gap modifier.isGap_gap hnext]
    obtain ⟨more, hmore⟩ := ih (modifier.gap.reverse ++ (modifier.spelling.reverse ++ before))
    have hcanStay : (words keywords ++ gap).canStay = false := by
      rw [canStay_append, hstay, Bool.false_and]
    refine ⟨more ++ [⟨⟨before, modifier.spelling ++ (modifier.gap ++
      (modifiers.flatMap Modifier.text ++ rest))⟩, parts⟩], ?_⟩
    rw [List.flatMap_cons, Modifier.text, List.append_assoc, List.append_assoc,
      reach_repeated_of_singleton hcanStay hone, hmore, List.reverse_append, List.reverse_append,
      List.append_assoc, List.append_assoc]
    rfl

end Pattern
end LineLint
