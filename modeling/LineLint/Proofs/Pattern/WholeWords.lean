import LineLint.Proofs.Pattern.Keywords
import LineLint.Proofs.Pattern.Sweep
import Mathlib.Data.Set.Card

/-! # Whole words

A sweep over a text finds as many matches as there are places where the pattern matches, provided
that no match reaches over the place where another one starts (`Pattern.count_eq_encard`).

The matches of a keyword between two word edges are its whole words, in any case
(`Pattern.IsWholeWord`).  No whole word starts inside of another one, so the sweep counts all of
them (`Pattern.count_wholeWord`).  A keyword may also have another one behind it, from a list and
with white space between the two (`Pattern.mem_reach_wordPair_iff`).
-/
namespace LineLint
namespace Pattern

open Cursor (touchesWord)
open Text (isSpace)

variable {p : Pattern} {keyword : String} {text front word back after : List Char} {m : Match}

/-! ## Counting places -/

/-- The places of a text where a pattern matches, as the numbers of characters in front of them. -/
def matchColumns (p : Pattern) (text : List Char) : Set Nat :=
  {column | ∃ front after, text = front ++ after ∧ front.length = column ∧
    (p.at? ⟨front.reverse, after⟩).isSome = true}

theorem mem_matchColumns_of_found (h : p.Found text m) : m.offset ∈ p.matchColumns text := by
  obtain ⟨front, after, rfl, hat⟩ := h.exists_cut
  refine ⟨front, after, rfl, ?_, by rw [hat]; rfl⟩
  rw [offset_of_at? hat, List.length_reverse]

theorem exists_found_of_mem_matchColumns {column : Nat} (h : column ∈ p.matchColumns text) :
    ∃ m, p.Found text m ∧ m.offset = column := by
  obtain ⟨front, after, rfl, rfl, hsome⟩ := h
  obtain ⟨m, hat⟩ := Option.isSome_iff_exists.mp hsome
  refine ⟨m, ?_, ?_⟩
  · have hfound := found_of_at? hat
    rwa [List.reverse_reverse] at hfound
  · rw [offset_of_at? hat, List.length_reverse]

/-- Whether no match of a pattern starts inside of another one: what has been passed where a later
one starts is at least the earlier one. -/
def StaysApart (p : Pattern) : Prop :=
  ∀ front passed after earlier m, p.at? ⟨front.reverse, passed ++ after⟩ = some earlier →
    p.at? ⟨(front ++ passed).reverse, after⟩ = some m → passed ≠ [] →
    earlier.length ≤ passed.length

theorem StaysApart.not_covers (hapart : p.StaysApart) {earlier : Match}
    (hearlier : p.Found text earlier) (hm : p.Found text m) : ¬ earlier.Covers m := by
  rintro ⟨hlt, hgt⟩
  obtain ⟨front, after, rfl, hat⟩ := hm.exists_cut
  obtain ⟨front', after', htext, hat'⟩ := hearlier.exists_cut
  rw [offset_of_at? hat, offset_of_at? hat', List.length_reverse, List.length_reverse] at hlt hgt
  rcases List.append_eq_append_iff.mp htext with ⟨more, rfl, -⟩ | ⟨passed, rfl, rfl⟩
  · rw [List.length_append] at hlt
    omega
  · rw [List.length_append] at hlt hgt
    have hne : passed ≠ [] := by
      rintro rfl
      exact Nat.lt_irrefl _ hlt
    have hle := hapart front' passed after earlier m hat' hat hne
    omega

/-- **As many matches are found as there are places for them**, if matches stay apart. -/
theorem count_eq_encard (hapart : p.StaysApart) (text : List Char) :
    (p.count text : ℕ∞) = (p.matchColumns text).encard := by
  have hnodup : ((p.allMatches text).map Match.offset).Nodup :=
    List.pairwise_map.mpr ((p.pairwise_allMatches text).imp fun h => Nat.ne_of_lt h.1)
  have hcolumns : p.matchColumns text = ↑((p.allMatches text).map Match.offset).toFinset := by
    ext column
    rw [Finset.mem_coe, List.mem_toFinset, List.mem_map]
    constructor
    · intro hcolumn
      obtain ⟨m, hfound, hoffset⟩ := exists_found_of_mem_matchColumns hcolumn
      exact ⟨m, mem_allMatches_iff.mpr ⟨hfound, fun earlier hearlier =>
        hapart.not_covers (found_of_mem_allMatches hearlier) hfound⟩, hoffset⟩
    · rintro ⟨m, hm, rfl⟩
      exact mem_matchColumns_of_found (found_of_mem_allMatches hm)
  rw [hcolumns, Set.encard_coe_eq_coe_finsetCard, List.toFinset_card_of_nodup hnodup,
    List.length_map, count]

/-! ## Keywords at edges -/

/-- Whether a stretch of a text is a keyword in any case, and no word goes on at either end. -/
structure IsWholeWord (keyword : String) (front word back : List Char) : Prop where
  spells : Spells keyword word
  starts : touchesWord front.reverse = false
  ends : touchesWord back = false

/-- Whether a keyword is made of letters. -/
def IsLetters (keyword : String) : Prop :=
  keyword.toList ≠ [] ∧ keyword.toList.all Char.isAlpha = true

instance (keyword : String) : Decidable (IsLetters keyword) :=
  inferInstanceAs (Decidable (_ ∧ _))

variable {before rest : List Char} {parts : List (Part × Cursor × Cursor)} {s : Reached}

theorem Spells.touches (hkeyword : IsLetters keyword) (h : Spells keyword word)
    (rest : List Char) : touchesWord (word ++ rest) = true :=
  touchesWord_append (h.ne_nil hkeyword.1) (h.continues hkeyword.2) rest

theorem Spells.touches_reverse (hkeyword : IsLetters keyword) (h : Spells keyword word)
    (before : List Char) : touchesWord (word.reverse ++ before) = true :=
  touchesWord_append (mt List.reverse_eq_nil_iff.mp (h.ne_nil hkeyword.1))
    (fun c hc => h.continues hkeyword.2 c (List.mem_reverse.mp hc)) before

/-- A keyword that no word runs into is taken. -/
theorem reach_edge_word (hkeyword : IsLetters keyword) (h : Spells keyword word)
    (hbefore : touchesWord before = false) :
    (edge ++ Pattern.word keyword).reach ⟨⟨before, word ++ rest⟩, parts⟩ =
      [⟨⟨word.reverse ++ before, rest⟩, parts⟩] := by
  rw [reach_append, reach_edge hbefore (h.touches hkeyword rest), List.flatMap_singleton,
    reach_word h]

theorem mem_reach_edge_word (hkeyword : IsLetters keyword)
    (h : s ∈ (edge ++ Pattern.word keyword).reach ⟨⟨before, after⟩, parts⟩) :
    ∃ word rest, Spells keyword word ∧ touchesWord before = false ∧ after = word ++ rest ∧
      s = ⟨⟨word.reverse ++ before, rest⟩, parts⟩ := by
  obtain ⟨t, ht, hs⟩ := List.mem_flatMap.mp h
  obtain ⟨rfl, hedge⟩ := mem_reach_edge ht
  obtain ⟨word, rest, hspells, rfl, rfl⟩ := mem_reach_word hs
  exact ⟨word, rest, hspells, hedge (hspells.touches hkeyword rest), rfl, rfl⟩

/-- No word goes on behind an edge that a word stands in front of. -/
theorem mem_reach_edge_behind (hbefore : touchesWord before = true)
    (h : s ∈ edge.reach ⟨⟨before, after⟩, parts⟩) :
    s = ⟨⟨before, after⟩, parts⟩ ∧ touchesWord after = false := by
  obtain ⟨hs, hedge⟩ := mem_reach_edge h
  refine ⟨hs, Bool.eq_false_iff.mpr fun hafter => ?_⟩
  rw [hedge hafter] at hbefore
  cases hbefore

/-- What a match takes, if its pattern goes from one place to another one. -/
theorem length_of_at? {taken : List Char} (h : p.at? ⟨before, taken ++ rest⟩ = some m)
    (hstop : m.stop.after = rest) : m.length = taken.length := by
  rw [Match.length, start_of_at? h, hstop, List.length_append, Nat.add_sub_cancel]

/-! ## Pairs of words -/

/-- A keyword with another one from a list behind it. -/
def wordPair (keyword : String) (names : List String) : Pattern :=
  edge ++ Pattern.word keyword ++ gap ++ words names ++ edge

/-- Whether a keyword, white space and a name from a list stand between two texts, and no word goes
on at either end. -/
structure IsWordPair (keyword : String) (names : List String)
    (before word gap name rest : List Char) : Prop where
  spells : Spells keyword word
  isGap : IsGap gap
  isName : ∃ keyword ∈ names, Spells keyword name
  starts : touchesWord before = false
  ends : touchesWord rest = false

/-- **What the pattern for a pair of words takes** is such a pair. -/
theorem mem_reach_wordPair_iff {names : List String} (hkeyword : IsLetters keyword)
    (hnames : ∀ keyword ∈ names, IsLetters keyword) :
    s ∈ (wordPair keyword names).reach ⟨⟨before, after⟩, parts⟩ ↔
      ∃ word gap name rest, after = word ++ (gap ++ (name ++ rest)) ∧
        IsWordPair keyword names before word gap name rest ∧
        s = ⟨⟨name.reverse ++ (gap.reverse ++ (word.reverse ++ before)), rest⟩, parts⟩ := by
  constructor
  · intro h
    obtain ⟨t, ht, hs⟩ := List.mem_flatMap.mp h
    obtain ⟨u, hu, ht⟩ := List.mem_flatMap.mp ht
    obtain ⟨v, hv, hu⟩ := List.mem_flatMap.mp hu
    obtain ⟨word, behind, hword, hstarts, rfl, rfl⟩ := mem_reach_edge_word hkeyword hv
    obtain ⟨gap, behind, hgap, -, rfl, rfl⟩ := mem_reach_gap hu
    obtain ⟨name, rest, hname, rfl, rfl⟩ := exists_spells_of_mem_reach_words ht
    obtain ⟨other, hother, hspells⟩ := id hname
    obtain ⟨rfl, hends⟩ := mem_reach_edge_behind (hspells.touches_reverse (hnames other hother) _) hs
    exact ⟨word, gap, name, rest, rfl, ⟨hword, hgap, hname, hstarts, hends⟩, rfl⟩
  · rintro ⟨word, gap, name, rest, rfl, h, rfl⟩
    obtain ⟨other, hother, hspells⟩ := h.isName
    have hletters := hnames other hother
    have hsolid : ∀ c ∈ (name ++ rest).head?, isSpace c = false :=
      head_solid (hspells.ne_nil hletters.1) (hspells.continues hletters.2) rest
    rw [wordPair, reach_append, reach_append, reach_append,
      reach_edge_word hkeyword h.spells h.starts, List.flatMap_singleton,
      reach_gap h.isGap hsolid, List.flatMap_singleton]
    refine List.mem_flatMap.mpr ⟨_, mem_reach_words_of_spells h.isName _ rest parts, ?_⟩
    rw [reach_edge_behind (hspells.touches_reverse hletters _) h.ends]
    exact List.mem_singleton_self _

/-! ## Whole words -/

/-- A keyword as a whole word. -/
def wholeWord (keyword : String) : Pattern :=
  edge ++ Pattern.word keyword ++ edge

/-- The columns of a text where a keyword stands as a whole word, and what stands behind it has a
property. -/
def wordColumns (keyword : String) (behind : List Char → Prop) (text : List Char) : Set Nat :=
  {column | ∃ front word back, text = front ++ (word ++ back) ∧ front.length = column ∧
    IsWholeWord keyword front word back ∧ behind back}

theorem at?_wholeWord (hkeyword : IsLetters keyword) (h : IsWholeWord keyword front word back) :
    ((wholeWord keyword).at? ⟨front.reverse, word ++ back⟩).isSome = true := by
  rw [at?, wholeWord, reach_append, reach_edge_word hkeyword h.spells h.starts,
    List.flatMap_singleton, reach_edge_behind (h.spells.touches_reverse hkeyword _) h.ends]
  rfl

theorem exists_isWholeWord_of_at? (hkeyword : IsLetters keyword)
    (h : (wholeWord keyword).at? ⟨front.reverse, after⟩ = some m) :
    ∃ word back, after = word ++ back ∧ IsWholeWord keyword front word back ∧
      m.length = word.length := by
  obtain ⟨s, hs, hm⟩ := exists_reach_of_at? h
  obtain ⟨t, ht, hs⟩ := List.mem_flatMap.mp hs
  obtain ⟨word, back, hspells, hstarts, rfl, rfl⟩ := mem_reach_edge_word hkeyword ht
  obtain ⟨rfl, hends⟩ := mem_reach_edge_behind (hspells.touches_reverse hkeyword _) hs
  exact ⟨word, back, rfl, ⟨hspells, hstarts, hends⟩, length_of_at? h (by rw [hm])⟩

/-- Where a keyword stands as a whole word, its pattern matches. -/
theorem matchColumns_wholeWord (hkeyword : IsLetters keyword) (text : List Char) :
    (wholeWord keyword).matchColumns text = wordColumns keyword (fun _ => True) text := by
  ext column
  constructor
  · rintro ⟨front, after, rfl, hcolumn, hsome⟩
    obtain ⟨m, hat⟩ := Option.isSome_iff_exists.mp hsome
    obtain ⟨word, back, rfl, hword, -⟩ := exists_isWholeWord_of_at? hkeyword hat
    exact ⟨front, word, back, rfl, hcolumn, hword, trivial⟩
  · rintro ⟨front, word, back, rfl, hcolumn, hword, -⟩
    exact ⟨front, word ++ back, rfl, hcolumn, at?_wholeWord hkeyword hword⟩

/-- No word starts inside of a whole word. -/
theorem staysApart_wholeWord (hkeyword : IsLetters keyword) : (wholeWord keyword).StaysApart := by
  intro front passed after earlier m hearlier hm hne
  obtain ⟨word', back', hrest, hword', hlength⟩ := exists_isWholeWord_of_at? hkeyword hearlier
  obtain ⟨word, back, rfl, hword, -⟩ := exists_isWholeWord_of_at? hkeyword hm
  have hpassed := touchesWord_reverse_of_append hword.starts
  obtain ⟨more, rfl, -⟩ :=
    (cut_word (hword'.spells.continues hkeyword.2) hpassed hrest.symm).resolve_left hne
  rw [hlength, List.length_append]
  exact Nat.le_add_right _ _

/-- **A sweep counts all whole words.** -/
theorem count_wholeWord (hkeyword : IsLetters keyword) (text : List Char) :
    ((wholeWord keyword).count text : ℕ∞) = (wordColumns keyword (fun _ => True) text).encard := by
  rw [count_eq_encard (staysApart_wholeWord hkeyword), matchColumns_wholeWord hkeyword]

/-! ## What stands behind -/

/-- A whole word and what stands behind it are told by where it stands. -/
theorem IsWholeWord.unique {front' word' back' : List Char}
    (h : IsWholeWord keyword front word back) (h' : IsWholeWord keyword front' word' back')
    (hcolumn : front.length = front'.length)
    (htext : front ++ (word ++ back) = front' ++ (word' ++ back')) :
    front = front' ∧ word = word' ∧ back = back' := by
  obtain ⟨rfl, hrest⟩ := List.append_inj htext hcolumn
  have hlength : word.length = word'.length :=
    h.spells.length_eq.symm.trans h'.spells.length_eq
  exact ⟨rfl, List.append_inj hrest hlength⟩

/-- Whole words are counted apart by what stands behind them. -/
theorem encard_wordColumns_add (keyword : String) (behind : List Char → Prop) (text : List Char) :
    (wordColumns keyword (fun back => ¬ behind back) text).encard +
        (wordColumns keyword behind text).encard =
      (wordColumns keyword (fun _ => True) text).encard := by
  have hdisjoint : Disjoint (wordColumns keyword (fun back => ¬ behind back) text)
      (wordColumns keyword behind text) := by
    refine Set.disjoint_left.mpr ?_
    rintro column ⟨front, word, back, rfl, rfl, hword, hnot⟩
      ⟨front', word', back', htext, hcolumn, hword', hbehind⟩
    obtain ⟨-, -, rfl⟩ := hword.unique hword' hcolumn.symm htext
    exact hnot hbehind
  rw [← Set.encard_union_eq hdisjoint]
  congr 1
  ext column
  constructor
  · rintro (⟨front, word, back, htext, hcolumn, hword, -⟩ |
      ⟨front, word, back, htext, hcolumn, hword, -⟩)
    · exact ⟨front, word, back, htext, hcolumn, hword, trivial⟩
    · exact ⟨front, word, back, htext, hcolumn, hword, trivial⟩
  · rintro ⟨front, word, back, htext, hcolumn, hword, -⟩
    by_cases hbehind : behind back
    · exact Or.inr ⟨front, word, back, htext, hcolumn, hword, hbehind⟩
    · exact Or.inl ⟨front, word, back, htext, hcolumn, hword, hbehind⟩

end Pattern
end LineLint
