import LineLint.Proofs.Checked.Texts
import LineLint.Proofs.Layout.Spaces
import LineLint.Proofs.LetterCase.Patterns
import LineLint.Proofs.Pattern.Choices
import LineLint.Proofs.Pattern.Runs
import Mathlib.Data.List.Forall2

/-! # Keywords and identifiers

What keywords and identifiers take of a text, said without the pattern language: a keyword
takes a spelling of it in any case (`Pattern.Spells`), and an identifier the whole run of its
characters (`Pattern.IsIdentifier`).  Each has an equation for what it takes
(`Pattern.reach_word`) and an inversion (`Pattern.mem_reach_word`).
-/
namespace LineLint

open Cursor (touchesWord)
open Text (Run isSpace isNameChar isWordChar)

namespace Pattern

/-! ## Letters -/

theorem isSpace_of_continuesIdentifier {c : Char} (h : continuesIdentifier c = true) :
    isSpace c = false :=
  Text.not_isSpace_of_solid (by decide) h

theorem isWordChar_of_continuesIdentifier {c : Char} (h : continuesIdentifier c = true) :
    isWordChar c = true := by
  have hname : ∀ d, isNameChar d = true → isWordChar d = true := by
    intro d hd
    rw [isWordChar, if_pos (Checked.lt_of_isNameChar hd)]
    exact hd
  simp only [continuesIdentifier, startsIdentifier, isLetter, Bool.or_eq_true, beq_iff_eq] at h
  rcases h with (((halpha | rfl) | rfl) | rfl) | hdigit
  · exact hname c (by simp [isNameChar, Char.isAlphanum, halpha])
  · decide +kernel
  · decide +kernel
  · decide
  · exact hname c (by simp [isNameChar, Char.isAlphanum, hdigit])

theorem continuesIdentifier_of_startsIdentifier {c : Char} (h : startsIdentifier c = true) :
    continuesIdentifier c = true := by
  rw [continuesIdentifier, h, Bool.true_or]

theorem isDigit_of_startsIdentifier {c : Char} (h : startsIdentifier c = true) :
    c.isDigit = false := by
  simp only [startsIdentifier, isLetter, Bool.or_eq_true, beq_iff_eq] at h
  rcases h with ((halpha | rfl) | rfl) | rfl
  · unfold Char.isAlpha Char.isUpper Char.isLower at halpha
    unfold Char.isDigit
    grind
  · decide
  · decide
  · decide

/-- What counts as a letter of a keyword may start an identifier. -/
theorem startsIdentifier_of_foldsTo {letter c : Char} (hletter : letter.isAlpha = true)
    (h : foldsTo letter c = true) : startsIdentifier c = true := by
  simp only [foldsTo, Bool.or_eq_true, Bool.and_eq_true, beq_iff_eq] at h
  rcases h with (hlower | ⟨rfl, -⟩) | ⟨rfl, -⟩
  · rw [← caseBlind_startsIdentifier c, hlower, caseBlind_startsIdentifier letter,
      startsIdentifier, isLetter, hletter]
    rfl
  · decide
  · decide

/-- A character counts as one letter of the alphabet at most. -/
theorem toLower_eq_of_foldsTo {letter letter' c : Char} (hletter : letter.isAlpha = true)
    (hletter' : letter'.isAlpha = true) (h : foldsTo letter c = true)
    (h' : foldsTo letter' c = true) : letter.toLower = letter'.toLower := by
  have hascii : ∀ d : Char, d.isAlpha = true → d.toLower ≠ 'ſ' ∧ d.toLower ≠ '\u212A' := by
    intro d hd
    refine ⟨fun hlower => ?_, fun hlower => ?_⟩
    · rcases Text.eq_or_eq_toUpper hlower with rfl | rfl <;> exact absurd hd (by decide)
    · rcases Text.eq_or_eq_toUpper hlower with rfl | rfl <;> exact absurd hd (by decide)
  simp only [foldsTo, Bool.or_eq_true, Bool.and_eq_true, beq_iff_eq] at h h'
  rcases h with (hlower | ⟨rfl, hs⟩) | ⟨rfl, hk⟩
  · rcases h' with (hlower' | ⟨rfl, -⟩) | ⟨rfl, -⟩
    · exact hlower.symm.trans hlower'
    · exact absurd hlower.symm (hascii letter hletter).1
    · exact absurd hlower.symm (hascii letter hletter).2
  · rcases h' with (hlower' | ⟨-, hs'⟩) | ⟨hkelvin, -⟩
    · exact absurd hlower'.symm (hascii letter' hletter').1
    · exact hs.trans hs'.symm
    · exact absurd hkelvin (by decide)
  · rcases h' with (hlower' | ⟨hlong, -⟩) | ⟨-, hk'⟩
    · exact absurd hlower'.symm (hascii letter' hletter').2
    · exact absurd hlong (by decide)
    · exact hk.trans hk'.symm

/-! ## Keywords -/

/-- Whether a text is a keyword, in any case. -/
def Spells (keyword : String) (text : List Char) : Prop :=
  List.Forall₂ (fun letter c => foldsTo letter c = true) keyword.toList text

instance (keyword : String) (text : List Char) : Decidable (Spells keyword text) :=
  inferInstanceAs (Decidable (List.Forall₂ _ _ _))

variable {keyword : String} {before after taken rest : List Char}
  {parts : List (Part × Cursor × Cursor)} {s : Reached}

theorem Spells.exists_cons (h : Spells keyword taken) {letter : Char} {letters : List Char}
    (hkeyword : keyword.toList = letter :: letters) :
    ∃ c more, taken = c :: more ∧ foldsTo letter c = true := by
  rw [Spells, hkeyword] at h
  cases h with
  | cons hc => exact ⟨_, _, rfl, hc⟩

theorem Spells.ne_nil (hkeyword : keyword.toList ≠ []) (h : Spells keyword taken) : taken ≠ [] := by
  rintro rfl
  exact hkeyword (List.forall₂_nil_right_iff.mp h)

theorem Spells.continues (hkeyword : keyword.toList.all Char.isAlpha = true)
    (h : Spells keyword taken) : ∀ c ∈ taken, continuesIdentifier c = true := by
  rw [Spells] at h
  generalize keyword.toList = letters at h hkeyword
  induction h with
  | nil => exact List.forall_mem_nil _
  | cons hc _ ih =>
    obtain ⟨hletter, hletters⟩ := Bool.and_eq_true_iff.mp hkeyword
    exact List.forall_mem_cons.mpr ⟨continuesIdentifier_of_startsIdentifier
      (startsIdentifier_of_foldsTo hletter hc), ih hletters⟩

/-- At the edge in front of a word. -/
theorem reach_edge (hbefore : touchesWord before = false) (hafter : touchesWord after = true)
    (parts : List (Part × Cursor × Cursor)) :
    edge.reach ⟨⟨before, after⟩, parts⟩ = [⟨⟨before, after⟩, parts⟩] := by
  simp [reach, Cursor.atEdge, hbefore, hafter]

/-- At the edge behind a word. -/
theorem reach_edge_behind (hbefore : touchesWord before = true) (hafter : touchesWord after = false)
    (parts : List (Part × Cursor × Cursor)) :
    edge.reach ⟨⟨before, after⟩, parts⟩ = [⟨⟨before, after⟩, parts⟩] := by
  simp [reach, Cursor.atEdge, hbefore, hafter]

theorem mem_reach_edge (h : s ∈ edge.reach ⟨⟨before, after⟩, parts⟩) :
    s = ⟨⟨before, after⟩, parts⟩ ∧ (touchesWord after = true → touchesWord before = false) := by
  obtain ⟨hedge, rfl⟩ : Cursor.atEdge ⟨before, after⟩ = true ∧ s = ⟨⟨before, after⟩, parts⟩ := by
    simpa [reach] using h
  refine ⟨rfl, fun hafter => ?_⟩
  simpa [Cursor.atEdge, hafter] using hedge

theorem reach_append_assoc (p q q' : Pattern) (r : Reached) :
    (p ++ q ++ q').reach r = (p ++ (q ++ q')).reach r :=
  List.flatMap_assoc

theorem reach_sequence_cons (p : Pattern) (ps : List Pattern) (r : Reached) :
    (sequence (p :: ps)).reach r = (p.reach r).flatMap (sequence ps).reach := by
  cases ps with
  | nil => exact (List.flatMap_singleton' _).symm
  | cons q ps => rfl

/-- A keyword takes a spelling of it. -/
theorem reach_word (h : Spells keyword taken) (before rest : List Char)
    (parts : List (Part × Cursor × Cursor)) :
    (word keyword).reach ⟨⟨before, taken ++ rest⟩, parts⟩ =
      [⟨⟨taken.reverse ++ before, rest⟩, parts⟩] := by
  rw [word]
  rw [Spells] at h
  generalize keyword.toList = letters at h
  induction h generalizing before with
  | nil => rfl
  | @cons letter c letters taken hc _ ih =>
    have hstep : (char (foldsTo letter)).reach ⟨⟨before, c :: (taken ++ rest)⟩, parts⟩ =
        [⟨⟨c :: before, taken ++ rest⟩, parts⟩] := by
      simp only [reach, hc, if_true]
    rw [List.map_cons, reach_sequence_cons, List.cons_append, hstep, List.flatMap_singleton, ih,
      List.reverse_cons, List.append_assoc, List.singleton_append]

/-- What a keyword takes spells it. -/
theorem mem_reach_word (h : s ∈ (word keyword).reach ⟨⟨before, after⟩, parts⟩) :
    ∃ taken rest, Spells keyword taken ∧ after = taken ++ rest ∧
      s = ⟨⟨taken.reverse ++ before, rest⟩, parts⟩ := by
  rw [word] at h
  simp only [Spells]
  generalize keyword.toList = letters at h
  induction letters generalizing before after with
  | nil => exact ⟨[], after, .nil, rfl, List.mem_singleton.mp h⟩
  | cons letter letters ih =>
    rw [List.map_cons, reach_sequence_cons] at h
    obtain ⟨t, ht, hs⟩ := List.mem_flatMap.mp h
    cases after with
    | nil => cases ht
    | cons c after =>
      simp only [reach] at ht
      split at ht
      · obtain rfl := List.mem_singleton.mp ht
        obtain ⟨taken, rest, hspells, rfl, rfl⟩ := ih hs
        exact ⟨c :: taken, rest, .cons ‹_› hspells, rfl, by simp⟩
      · cases ht

/-! ## Runs -/

/-- What a pattern of one character of a class or more takes is the run of them. -/
theorem mem_reach_oneOrMore {accepts : Char → Bool}
    (h : s ∈ (oneOrMore accepts).reach ⟨⟨before, after⟩, parts⟩) :
    ∃ taken rest, taken ≠ [] ∧ Run accepts taken rest ∧ after = taken ++ rest ∧
      s = ⟨⟨taken.reverse ++ before, rest⟩, parts⟩ := by
  obtain ⟨taken, rest, hne, -, hrun, rfl, rfl⟩ := mem_reach_char_run (fun c hc => hc) h
  exact ⟨taken, rest, hne, hrun, rfl, rfl⟩

/-- Whether a text is white space, and not empty. -/
def IsGap (text : List Char) : Prop :=
  text ≠ [] ∧ ∀ c ∈ text, isSpace c = true

instance (text : List Char) : Decidable (IsGap text) :=
  decidable_of_iff (text ≠ [] ∧ text.all isSpace = true) (and_congr_right' List.all_eq_true)

/-- White space is taken up to where it ends. -/
theorem reach_gap (h : IsGap taken) (hrest : ∀ c ∈ rest.head?, isSpace c = false) :
    gap.reach ⟨⟨before, taken ++ rest⟩, parts⟩ = [⟨⟨taken.reverse ++ before, rest⟩, parts⟩] :=
  reach_oneOrMore ⟨h.2, hrest⟩ h.1

theorem mem_reach_gap (h : s ∈ gap.reach ⟨⟨before, after⟩, parts⟩) :
    ∃ taken rest, IsGap taken ∧ (∀ c ∈ rest.head?, isSpace c = false) ∧ after = taken ++ rest ∧
      s = ⟨⟨taken.reverse ++ before, rest⟩, parts⟩ := by
  obtain ⟨taken, rest, hne, hrun, rfl, rfl⟩ := mem_reach_oneOrMore h
  exact ⟨taken, rest, ⟨hne, hrun.all⟩, hrun.stops, rfl, rfl⟩

/-! ## Identifiers -/

/-- Whether a text is an identifier. -/
structure IsIdentifier (text : List Char) : Prop where
  ne_nil : text ≠ []
  starts : ∀ c ∈ text.head?, startsIdentifier c = true
  continues : ∀ c ∈ text, continuesIdentifier c = true

instance (text : List Char) : Decidable (IsIdentifier text) :=
  decidable_of_iff (text ≠ [] ∧ text.head?.all startsIdentifier = true ∧
      text.all continuesIdentifier = true)
    ⟨fun ⟨hne, hstarts, hcontinues⟩ =>
        ⟨hne, (Option.all_eq_true _ _).mp hstarts, List.all_eq_true.mp hcontinues⟩,
      fun ⟨hne, hstarts, hcontinues⟩ =>
        ⟨hne, (Option.all_eq_true _ _).mpr hstarts, List.all_eq_true.mpr hcontinues⟩⟩

/-- A keyword is an identifier, however it is spelled. -/
theorem Spells.isIdentifier (hne : keyword.toList ≠ [])
    (hletters : keyword.toList.all Char.isAlpha = true) (h : Spells keyword taken) :
    IsIdentifier taken := by
  obtain ⟨letter, letters, hkeyword⟩ := List.exists_cons_of_ne_nil hne
  obtain ⟨c, more, htext, hc⟩ := h.exists_cons hkeyword
  refine ⟨h.ne_nil hne, fun d hd => ?_, h.continues hletters⟩
  rw [htext] at hd
  obtain rfl : c = d := by simpa using hd
  rw [hkeyword] at hletters
  exact startsIdentifier_of_foldsTo (Bool.and_eq_true_iff.mp hletters).1 hc

/-- An identifier takes all characters that it can go on with. -/
theorem reach_identifier (h : IsIdentifier taken)
    (hrest : ∀ c ∈ rest.head?, continuesIdentifier c = false) :
    identifier.reach ⟨⟨before, taken ++ rest⟩, parts⟩ =
      [⟨⟨taken.reverse ++ before, rest⟩, parts⟩] :=
  reach_char_run h.ne_nil h.starts ⟨h.continues, hrest⟩

theorem mem_reach_identifier (h : s ∈ identifier.reach ⟨⟨before, after⟩, parts⟩) :
    ∃ taken rest, IsIdentifier taken ∧ (∀ c ∈ rest.head?, continuesIdentifier c = false) ∧
      after = taken ++ rest ∧ s = ⟨⟨taken.reverse ++ before, rest⟩, parts⟩ := by
  obtain ⟨taken, rest, hne, hstarts, hrun, rfl, rfl⟩ :=
    mem_reach_char_run (fun c hc => continuesIdentifier_of_startsIdentifier hc) h
  exact ⟨taken, rest, ⟨hne, hstarts, hrun.all⟩, hrun.stops, rfl, rfl⟩

/-! ## Where texts are cut -/

theorem touchesWord_append (hne : taken ≠ []) (h : ∀ c ∈ taken, continuesIdentifier c = true)
    (rest : List Char) : touchesWord (taken ++ rest) = true := by
  obtain ⟨c, taken, rfl⟩ := List.exists_cons_of_ne_nil hne
  exact isWordChar_of_continuesIdentifier (h c List.mem_cons_self)

/-- No word begins where white space stands. -/
theorem touchesWord_gap (h : IsGap taken) (rest : List Char) :
    touchesWord (taken ++ rest) = false := by
  obtain ⟨c, more, rfl⟩ := List.exists_cons_of_ne_nil h.1
  exact (Text.plain_of_isSpace (h.2 c List.mem_cons_self)).word

/-- No word stands in front of what follows white space. -/
theorem touchesWord_reverse_gap (h : IsGap taken) (before : List Char) :
    touchesWord (taken.reverse ++ before) = false :=
  touchesWord_gap ⟨mt List.reverse_eq_nil_iff.mp h.1, fun c hc => h.2 c (List.mem_reverse.mp hc)⟩ _

/-- The first character of a text is one of the text in front. -/
theorem head_append {P : Char → Prop} (hne : taken ≠ []) (h : ∀ c ∈ taken, P c)
    (rest : List Char) : ∀ c ∈ (taken ++ rest).head?, P c := by
  obtain ⟨c, taken, rfl⟩ := List.exists_cons_of_ne_nil hne
  intro d hd
  obtain rfl : c = d := by simpa using hd
  exact h c List.mem_cons_self

/-- What begins with letters does not begin with white space. -/
theorem head_solid (hne : taken ≠ []) (h : ∀ c ∈ taken, continuesIdentifier c = true)
    (rest : List Char) : ∀ c ∈ (taken ++ rest).head?, isSpace c = false :=
  head_append hne (fun c hc => isSpace_of_continuesIdentifier (h c hc)) rest

/-- A run of other characters ends where white space begins. -/
theorem IsGap.stops {accepts : Char → Bool} (haccepts : Text.solid accepts = true)
    (h : IsGap taken) (rest : List Char) : ∀ c ∈ (taken ++ rest).head?, accepts c = false :=
  head_append h.1 (fun c hc => Text.eq_false_of_solid haccepts (h.2 c hc)) rest

variable {xs ys passed text keyword behind : List Char}

theorem touchesWord_append_eq_false (hxs : touchesWord xs = false) (hys : touchesWord ys = false) :
    touchesWord (xs ++ ys) = false := by
  cases xs with
  | nil => exact hys
  | cons c xs => exact hxs

theorem touchesWord_reverse_of_append (h : touchesWord (xs ++ ys).reverse = false) :
    touchesWord ys.reverse = false := by
  rw [List.reverse_append] at h
  cases hys : ys.reverse with
  | nil => rfl
  | cons c before => rwa [hys] at h

/-- A place that touches no word in front is not inside a word. -/
theorem cut_word (hxs : ∀ c ∈ xs, continuesIdentifier c = true)
    (hpassed : touchesWord passed.reverse = false) (h : xs ++ ys = passed ++ text) :
    passed = [] ∨ ∃ more, passed = xs ++ more ∧ ys = more ++ text := by
  rcases List.append_eq_append_iff.mp h with ⟨more, rfl, rfl⟩ | ⟨more, rfl, -⟩
  · exact Or.inr ⟨more, rfl, rfl⟩
  · refine Or.inl (Decidable.byContradiction fun hne => ?_)
    have htouches := touchesWord_append (mt List.reverse_eq_nil_iff.mp hne)
      (fun c hc => hxs c (List.mem_append_left _ (List.mem_reverse.mp hc))) []
    rw [List.append_nil, hpassed] at htouches
    cases htouches

/-- A place in front of no white space is not inside of it, nor in front of it. -/
theorem cut_gap (hxs : ∀ c ∈ xs, isSpace c = true) (htext : ∀ c ∈ text.head?, isSpace c = false)
    (h : xs ++ ys = passed ++ text) : ∃ more, passed = xs ++ more ∧ ys = more ++ text := by
  rcases List.append_eq_append_iff.mp h with hmore | ⟨more, rfl, rfl⟩
  · exact hmore
  · cases more with
    | nil => exact ⟨[], by simp, rfl⟩
    | cons c more =>
      have hspace := hxs c (by simp)
      rw [htext c rfl] at hspace
      cases hspace

/-- A keyword inside a table is the end of it. -/
theorem cut_table (hxs : ∀ c ∈ xs, isSpace c = false) (hys : ∀ c ∈ ys.head?, isSpace c = true)
    (hkeyword : ∀ c ∈ keyword, isSpace c = false) (hbehind : ∀ c ∈ behind.head?, isSpace c = true)
    (h : xs ++ ys = passed ++ (keyword ++ behind)) :
    xs = passed ++ keyword ∨ ∃ more, passed = xs ++ more ∧ ys = more ++ (keyword ++ behind) := by
  rcases List.append_eq_append_iff.mp h with hmore | ⟨more, rfl, hrest⟩
  · exact Or.inr hmore
  · have hmore : Run (!isSpace ·) more ys :=
      ⟨fun c hc => by simpa using hxs c (List.mem_append_right _ hc), by simpa using hys⟩
    have hrun : Run (!isSpace ·) keyword behind := ⟨by simpa using hkeyword, by simpa using hbehind⟩
    obtain ⟨rfl, -⟩ := hrun.unique hmore hrest
    exact Or.inl rfl

/-- A keyword inside an identifier is the whole of it. -/
theorem cut_identifier (hxs : IsIdentifier xs) (hys : ∀ c ∈ ys.head?, continuesIdentifier c = false)
    (hkeyword : ∀ c ∈ keyword, continuesIdentifier c = true)
    (hbehind : ∀ c ∈ behind.head?, isSpace c = true) (hpassed : touchesWord passed.reverse = false)
    (h : xs ++ ys = passed ++ (keyword ++ behind)) :
    (passed = [] ∧ xs = keyword) ∨ ∃ more, passed = xs ++ more := by
  rcases cut_word hxs.continues hpassed h with rfl | ⟨more, hmore, -⟩
  · have hrun : Run continuesIdentifier keyword behind :=
      ⟨hkeyword, fun c hc => Text.eq_false_of_solid (by decide) (hbehind c hc)⟩
    exact Or.inl ⟨rfl, (Text.Run.unique ⟨hxs.continues, hys⟩ hrun h).1⟩
  · exact Or.inr ⟨more, hmore⟩

/-- A place of one text, in the other way to cut it. -/
theorem exists_cut_of_lt {front front' taken : List Char}
    (h : front ++ text = front' ++ (taken ++ ys)) (hlt : front'.length < front.length)
    (hgt : front.length < front'.length + taken.length) :
    ∃ passed, front = front' ++ passed ∧ passed ≠ [] ∧ passed.length < taken.length ∧
      taken ++ ys = passed ++ text := by
  rcases List.append_eq_append_iff.mp h with ⟨more, rfl, -⟩ | ⟨passed, rfl, hrest⟩
  · rw [List.length_append] at hlt
    omega
  · rw [List.length_append] at hlt hgt
    refine ⟨passed, rfl, ?_, by omega, hrest⟩
    rintro rfl
    exact Nat.lt_irrefl _ hlt

end Pattern
end LineLint
