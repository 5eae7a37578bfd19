import LineLint.Proofs.Sentence.Capitals
import LineLint.Review
import Mathlib.Data.List.DropRight

/-! # The form of summaries

A text in normal form is one sentence: nothing but the sentence, with a capital in
front and a period behind, and at most 120 characters.  `ofText` brings every text
into this form and leaves those alone that have it (`ofText_normalizes`), so the
summary of a review is in normal form whatever made it.

Each step of `ofText` keeps what the steps before it have reached: a capital in
front stays in front of a period that is added (`IsCapitalized.append`), and a cut
takes nothing away in front (`cut_prefix`).
-/
namespace LineLint
namespace Sentence

open Text

/-- Whether a text has the form of a summary. -/
structure Normal (text : List Char) : Prop where
  ne_nil : text ≠ []
  /-- There is no white space in front. -/
  head_solid : ∀ c, text.head? = some c → isSpace c = false
  /-- There is no white space behind. -/
  last_solid : ∀ c, text.getLast? = some c → isSpace c = false
  /-- The first character is its own upper-case form. -/
  head_capital : ∀ c, text.head? = some c → upperChar c = [c]
  last_period : text.getLast? = some '.'
  length_le : text.length ≤ 120

/-! ## The front of a sentence -/

/-- Whether a text starts with a character that is its own upper-case form and no white space. -/
def IsCapitalized (text : List Char) : Prop :=
  ∃ first rest, text = first :: rest ∧ upperChar first = [first] ∧ isSpace first = false

theorem IsCapitalized.append {text : List Char} (h : IsCapitalized text) (back : List Char) :
    IsCapitalized (text ++ back) := by
  obtain ⟨first, rest, rfl, hupper, hsolid⟩ := h
  exact ⟨first, rest ++ back, rfl, hupper, hsolid⟩

theorem isCapitalized_capitalize {c : Char} (hc : isSpace c = false) (rest : List Char) :
    IsCapitalized (capitalize (c :: rest)) := by
  obtain ⟨first, more, hupper⟩ := List.exists_cons_of_ne_nil (upperChar_ne_nil c)
  refine ⟨first, more ++ rest, ?_, upperChar_eq_of_head hupper, ?_⟩
  · rw [capitalize, hupper, List.cons_append]
  · -- white space could only come from `c`
    refine Bool.eq_false_iff.mpr fun hspace => ?_
    have heq : first = c := eq_of_mem_upperChar (hupper ▸ List.mem_cons_self) hspace
    rw [heq, hc] at hspace
    cases hspace

theorem IsCapitalized.terminate {text : List Char} (h : IsCapitalized text) :
    IsCapitalized (terminate text) := by
  rw [Sentence.terminate]
  split
  · exact h
  · exact h.append ['.']

/-- A text is in normal form if it has a capital in front and a period behind and is not too
long. -/
theorem IsCapitalized.normal {text : List Char} (h : IsCapitalized text)
    (hperiod : text.getLast? = some '.') (hlength : text.length ≤ 120) : Normal text where
  ne_nil := by
    obtain ⟨first, rest, rfl, -⟩ := h
    exact List.cons_ne_nil first rest
  head_solid c hc := by
    obtain ⟨first, rest, rfl, -, hsolid⟩ := h
    rwa [← Option.some.inj hc]
  last_solid c hc := by
    rw [← Option.some.inj (hperiod.symm.trans hc)]
    decide
  head_capital c hc := by
    obtain ⟨first, rest, rfl, hupper, -⟩ := h
    rwa [← Option.some.inj hc]
  last_period := hperiod
  length_le := hlength

theorem normal_fallback : Normal fallback := by
  have hfront : IsCapitalized fallback := ⟨'A', _, rfl, by decide, by decide⟩
  exact hfront.normal (by decide) (by decide)

/-! ## The cut -/

/-- What is kept of a text that is too long, without the period that is put behind it. -/
def cut (text : List Char) : List Char :=
  (text.take (maxLength - 1)).rdropWhile fun c => c == '.' || c == ' '

theorem shorten_of_lt {text : List Char} (h : 120 < text.length) :
    shorten text = cut text ++ ['.'] :=
  if_pos h

theorem shorten_of_le {text : List Char} (h : text.length ≤ 120) : shorten text = text :=
  if_neg (Nat.not_lt.mpr h)

/-- The cut takes nothing away in front. -/
theorem cut_prefix (text : List Char) : cut text <+: text :=
  (List.rdropWhile_prefix _ _).trans (List.take_prefix _ _)

theorem getLast?_cut_ne (text : List Char) : (cut text).getLast? ≠ some '.' := by
  intro hlast
  have hne : cut text ≠ [] := by
    intro hnil
    rw [hnil] at hlast
    cases hlast
  have hnot : ¬ ((cut text).getLast hne == '.' || (cut text).getLast hne == ' ') = true :=
    List.rdropWhile_last_not _ _ hne
  have heq : (cut text).getLast hne = '.' :=
    Option.some.inj ((List.getLast?_eq_some_getLast hne).symm.trans hlast)
  rw [heq] at hnot
  exact hnot rfl

theorem not_two_periods {front : List Char} (h : front.getLast? ≠ some '.') :
    ¬ ['.', '.'] <:+ front ++ ['.'] := by
  rintro ⟨before, heq⟩
  have hfront : before ++ ['.'] = front :=
    List.append_cancel_right ((List.append_assoc before ['.'] ['.']).trans heq)
  rw [← hfront] at h
  exact h List.getLast?_concat

theorem IsCapitalized.shorten {text : List Char} (h : IsCapitalized text)
    (hperiod : text.getLast? = some '.') : Normal (shorten text) := by
  rcases Nat.lt_or_ge 120 text.length with hlong | hshort
  · have hlength := length_shorten_le text
    rw [shorten_of_lt hlong] at hlength ⊢
    refine IsCapitalized.normal ?_ List.getLast?_concat hlength
    cases hcut : cut text with
    | nil => exact ⟨'.', [], rfl, by decide, by decide⟩
    | cons c rest =>
      -- what is left starts as the text did
      obtain ⟨first, others, rfl, hupper, hsolid⟩ := h
      have hfirst : c = first := by
        obtain ⟨back, hback⟩ := hcut ▸ cut_prefix (first :: others)
        exact (List.cons.inj hback).1
      exact IsCapitalized.append ⟨c, rest, rfl, hfirst ▸ hupper, hfirst ▸ hsolid⟩ ['.']
  · rw [shorten_of_le hshort]
    exact h.normal hperiod hshort

/-! ## Sentences -/

theorem not_isSpace_of_trim {raw rest : List Char} {c : Char} (h : trim raw = c :: rest) :
    isSpace c = false := by
  have hprefix : trim raw <+: trimStart raw := List.rdropWhile_prefix isSpace (trimStart raw)
  rw [h] at hprefix
  obtain ⟨back, hback⟩ := hprefix
  have hhead := List.head?_dropWhile_not isSpace raw
  rw [show raw.dropWhile isSpace = c :: rest ++ back from hback.symm] at hhead
  exact hhead

/-- **Every text is brought into normal form.** -/
theorem normal_ofText (raw : List Char) : Normal (ofText raw) := by
  rw [ofText]
  split
  · exact normal_fallback
  · rename_i c rest htrim
    exact (isCapitalized_capitalize (not_isSpace_of_trim htrim) rest).terminate.shorten
      (getLast?_terminate _)

theorem Normal.trim_eq {text : List Char} (h : Normal text) : trim text = text := by
  have hfront : trimStart text = text := by
    rw [trimStart, List.dropWhile_eq_self_iff]
    intro hpos hspace
    rw [h.head_solid _ (List.head?_eq_getElem? ▸ List.getElem?_eq_getElem hpos)] at hspace
    cases hspace
  have hback : text.rdropWhile isSpace = text := by
    rw [List.rdropWhile_eq_self_iff]
    intro hne hspace
    rw [h.last_solid _ (List.getLast?_eq_some_getLast hne)] at hspace
    cases hspace
  rw [trim, hfront]
  exact hback

/-- **A text in normal form stays as it is.** -/
theorem ofText_of_normal {text : List Char} (h : Normal text) : ofText text = text := by
  obtain ⟨c, rest, rfl⟩ := List.exists_cons_of_ne_nil h.ne_nil
  have hcapital : capitalize (c :: rest) = c :: rest := by
    rw [capitalize, h.head_capital c rfl, List.singleton_append]
  rw [ofText, h.trim_eq]
  simp only
  rw [hcapital, terminate, if_pos h.last_period, shorten_of_le h.length_le]

/-- A sentence that is too long is cut, and ends in one period. -/
theorem ofText_of_lt {raw : List Char}
    (h : 120 < (terminate (capitalize (trim raw))).length) :
    ofText raw = cut (terminate (capitalize (trim raw))) ++ ['.'] := by
  rw [ofText]
  split
  · rename_i htrim
    rw [htrim] at h
    exact absurd h (by decide)
  · rename_i c rest htrim
    rw [htrim] at h ⊢
    exact shorten_of_lt h

/-- **Summaries are in normal form.**  `ofText` gives a text in normal form, leaves alone what
is in normal form, and so changes nothing a second time; a sentence that is too long is cut off
somewhere and gets one period there.  The summary of every reviewer is in normal form. -/
theorem ofText_normalizes :
    (∀ raw, Normal (ofText raw)) ∧
    (∀ text, Normal text → ofText text = text) ∧
    (∀ raw, ofText (ofText raw) = ofText raw) ∧
    (∀ raw, 120 < (terminate (capitalize (trim raw))).length →
      (∃ front, front <+: terminate (capitalize (trim raw)) ∧ ofText raw = front ++ ['.']) ∧
        ¬ ['.', '.'] <:+ ofText raw) ∧
    ∀ (reviewer : Reviewer) (text : List Char) (dialect : Dialect),
      Normal (reviewer.review text dialect).summary.toList := by
  refine ⟨normal_ofText, fun _ => ofText_of_normal,
    fun raw => ofText_of_normal (normal_ofText raw), ?_, ?_⟩
  · intro raw hlong
    rw [ofText_of_lt hlong]
    exact ⟨⟨_, cut_prefix _, rfl⟩, not_two_periods (getLast?_cut_ne _)⟩
  · intro reviewer text dialect
    rw [Reviewer.review]
    split
    · rw [String.toList_ofList]
      exact normal_fallback
    · rw [String.toList_ofList]
      exact normal_ofText _

/-- One letter more than fits, as the capital form of the first one has two. -/
theorem ofText_normalizes_sharp_s :
    let raw := 'ß' :: List.replicate 118 'x'
    (terminate (capitalize (trim raw))).length = 121 ∧ ¬ ['.', '.'] <:+ ofText raw ∧
      ofText (ofText raw) = ofText raw ∧ (ofText raw).length = 120 := by
  intro raw
  have hlength : (terminate (capitalize (trim raw))).length = 121 := by decide +kernel
  obtain ⟨hnormal, hfixed, -, hlong, -⟩ := ofText_normalizes
  exact ⟨hlength, (hlong raw (by omega)).2, hfixed _ (hnormal raw), by decide +kernel⟩

end Sentence
end LineLint
