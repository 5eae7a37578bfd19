import LineLint.Proofs.Pattern.Keywords
import LineLint.Proofs.Pattern.Sweep
import LineLint.Rule.Naming

/-! # References to tables

A reference is `FROM` or `JOIN`, a table, perhaps `AS`, and a word, which is the alias of the
table unless it is one of the words that are none (`Naming.TableReference`).  The pattern for
aliases matches exactly the references of a line (`Naming.at?_reference`,
`Naming.exists_reference_of_at?`).

References may overlap: the word behind a table without an alias may be the `JOIN` of the next
reference.  The sweep over a line then passes the next reference over, whatever becomes of the
word.  It finds a reference exactly if it finds none in front that takes the keyword
(`Naming.TableReference.examined_iff`).
-/
namespace LineLint

deriving instance DecidableEq for Match

namespace Naming

open Pattern
open Cursor (touchesWord)
open Text (Run isSpace)

/-! ## Keywords -/

/-- Whether a text is a keyword that a table stands behind. -/
def IsTableKeyword (text : List Char) : Prop :=
  Spells "FROM" text ∨ Spells "JOIN" text

instance (text : List Char) : Decidable (IsTableKeyword text) :=
  inferInstanceAs (Decidable (_ ∨ _))

variable {before after taken rest front back : List Char} {parts : List (Part × Cursor × Cursor)}
  {s : Reached}

namespace IsTableKeyword

/-- No text begins with `AS` and a keyword of tables. -/
theorem append_as_ne (h : IsTableKeyword taken) {taken' rest' : List Char}
    (has : Spells "AS" taken') : taken' ++ rest' ≠ taken ++ rest := by
  rcases h with hfrom | hjoin
  · exact has.append_ne hfrom (by decide) (by decide) (by decide)
  · exact has.append_ne hjoin (by decide) (by decide) (by decide)

theorem continues (h : IsTableKeyword taken) : ∀ c ∈ taken, continuesIdentifier c = true :=
  h.elim (Spells.continues (by decide)) (Spells.continues (by decide))

theorem ne_nil (h : IsTableKeyword taken) : taken ≠ [] := by
  rintro rfl
  rcases h with h | h <;> cases h

theorem solid (h : IsTableKeyword taken) : ∀ c ∈ taken, isSpace c = false :=
  fun c hc => isSpace_of_continuesIdentifier (h.continues c hc)

theorem reach (h : IsTableKeyword taken) (before rest : List Char)
    (parts : List (Part × Cursor × Cursor)) :
    (words ["FROM", "JOIN"]).reach ⟨⟨before, taken ++ rest⟩, parts⟩ =
      [⟨⟨taken.reverse ++ before, rest⟩, parts⟩] := by
  rcases h with hfrom | hjoin
  · exact reach_words (by decide) (by decide) (by decide) hfrom
  · exact reach_words (by decide) (by decide) (by decide) hjoin

end IsTableKeyword

theorem mem_reach_tableKeyword
    (h : s ∈ (words ["FROM", "JOIN"]).reach ⟨⟨before, after⟩, parts⟩) :
    ∃ taken rest, IsTableKeyword taken ∧ after = taken ++ rest ∧
      s = ⟨⟨taken.reverse ++ before, rest⟩, parts⟩ := by
  obtain ⟨taken, rest, ⟨keyword, hkeyword, hspells⟩, rfl, rfl⟩ := exists_spells_of_mem_reach_words h
  refine ⟨taken, rest, ?_, rfl, rfl⟩
  rcases List.mem_pair.mp hkeyword with rfl | rfl
  · exact Or.inl hspells
  · exact Or.inr hspells

/-! ## References -/

/-- Whether a text is `AS` with white space behind it, or nothing. -/
def IsLink (text : List Char) : Prop :=
  text = [] ∨ ∃ word gap, text = word ++ gap ∧ Spells "AS" word ∧ IsGap gap

/-- A table behind `FROM` or `JOIN`, perhaps `AS`, and the word behind it. -/
structure TableReference where
  /-- `FROM` or `JOIN`. -/
  keyword : List Char
  /-- The white space behind the keyword. -/
  gap : List Char
  /-- The table. -/
  table : List Char
  /-- The white space behind the table. -/
  spacing : List Char
  /-- `AS` with the white space behind it, or nothing. -/
  link : List Char
  /-- The word behind the table. -/
  name : List Char
  isTableKeyword : IsTableKeyword keyword
  isGap_gap : IsGap gap
  table_ne_nil : table ≠ []
  table_solid : ∀ c ∈ table, isSpace c = false
  isGap_spacing : IsGap spacing
  isLink : IsLink link
  isIdentifier_name : IsIdentifier name

namespace TableReference
variable (ref : TableReference)

/-- The reference up to the white space behind its table. -/
def lead : List Char :=
  ref.keyword ++ (ref.gap ++ (ref.table ++ ref.spacing))

/-- The text of the reference. -/
def text : List Char :=
  ref.lead ++ (ref.link ++ ref.name)

/-- The match of the reference between two texts. -/
def matchAt (front back : List Char) : Match where
  start := ⟨front.reverse, ref.text ++ back⟩
  stop := ⟨(front ++ ref.text).reverse, back⟩
  parts := [(.name, ⟨(front ++ (ref.lead ++ ref.link)).reverse, ref.name ++ back⟩,
    ⟨(front ++ ref.text).reverse, back⟩)]

@[simp] theorem offset_matchAt (front back : List Char) :
    (ref.matchAt front back).offset = front.length :=
  List.length_reverse

@[simp] theorem length_matchAt (front back : List Char) :
    (ref.matchAt front back).length = ref.text.length := by
  simp [matchAt, Match.length]

@[simp] theorem part_matchAt (front back : List Char) :
    (ref.matchAt front back).part .name = ref.name := by
  simp [matchAt, Match.part, Match.part?, Cursor.textTo]

theorem solid_name : ∀ c ∈ ref.name, isSpace c = false :=
  fun c hc => isSpace_of_continuesIdentifier (ref.isIdentifier_name.continues c hc)

/-- What stands behind the white space of a table does not begin with white space. -/
theorem head_link (back : List Char) :
    ∀ c ∈ (ref.link ++ (ref.name ++ back)).head?, isSpace c = false := by
  rcases ref.isLink with hlink | ⟨word, gap, hlink, hword, -⟩
  · rw [hlink]
    exact head_append ref.isIdentifier_name.ne_nil ref.solid_name back
  · rw [hlink, List.append_assoc]
    refine head_append ?_ ?_ _
    · rintro rfl
      cases hword
    · exact fun c hc => isSpace_of_continuesIdentifier (hword.continues (by decide) c hc)

end TableReference

/-! ## What the pattern matches -/

/-- Whether what stands between two texts touches no word in front and ends with a whole
identifier. -/
structure SetApart (front back : List Char) : Prop where
  front : touchesWord front.reverse = false
  back : ∀ c ∈ back.head?, continuesIdentifier c = false

instance (front back : List Char) : Decidable (SetApart front back) :=
  decidable_of_iff (touchesWord front.reverse = false ∧
      back.head?.all (!continuesIdentifier ·) = true)
    ⟨fun ⟨hfront, hback⟩ => ⟨hfront, by simpa [Option.all_eq_true] using hback⟩,
      fun ⟨hfront, hback⟩ => ⟨hfront, by simpa [Option.all_eq_true] using hback⟩⟩

/-- The pattern for aliases up to the white space behind the table. -/
def tableLead : Pattern :=
  edge ++ words ["FROM", "JOIN"] ++ gap ++ oneOrMore (!isSpace ·) ++ gap

/-- `AS`, or nothing. -/
def tableLink : Pattern :=
  optional (word "AS" ++ gap)

theorem tableAliasPattern_eq :
    tableAliasPattern = tableLead ++ tableLink ++ named .name identifier := rfl

theorem reach_tableLead (ref : TableReference) (hfront : touchesWord front.reverse = false)
    (hrest : ∀ c ∈ rest.head?, isSpace c = false) :
    tableLead.reach ⟨⟨front.reverse, ref.lead ++ rest⟩, []⟩ =
      [⟨⟨(front ++ ref.lead).reverse, rest⟩, []⟩] := by
  have hword : touchesWord (ref.keyword ++ (ref.gap ++ (ref.table ++ (ref.spacing ++ rest)))) =
      true := touchesWord_append ref.isTableKeyword.ne_nil ref.isTableKeyword.continues _
  have htable := head_append ref.table_ne_nil ref.table_solid (ref.spacing ++ rest)
  have hrun : Run (!isSpace ·) ref.table (ref.spacing ++ rest) := by
    refine ⟨fun c hc => by rw [ref.table_solid c hc]; rfl, fun c hc => ?_⟩
    rw [Bool.not_eq_false']
    exact head_append ref.isGap_spacing.1 ref.isGap_spacing.2 rest c hc
  simp only [tableLead, TableReference.lead, reach_append, List.append_assoc,
    reach_edge hfront hword, ref.isTableKeyword.reach, reach_gap ref.isGap_gap htable,
    reach_oneOrMore hrun ref.table_ne_nil, reach_gap ref.isGap_spacing hrest,
    List.flatMap_singleton, List.reverse_append]

/-- What the pattern takes up to the white space behind a table. -/
theorem mem_reach_tableLead (h : s ∈ tableLead.reach ⟨⟨before, after⟩, parts⟩) :
    touchesWord before = false ∧ ∃ keyword gap table spacing rest,
      IsTableKeyword keyword ∧ IsGap gap ∧ (table ≠ [] ∧ ∀ c ∈ table, isSpace c = false) ∧
      IsGap spacing ∧ after = keyword ++ (gap ++ (table ++ (spacing ++ rest))) ∧
      s = ⟨⟨spacing.reverse ++ (table.reverse ++ (gap.reverse ++ (keyword.reverse ++ before))),
        rest⟩, parts⟩ := by
  simp only [tableLead, reach_append, List.mem_flatMap] at h
  obtain ⟨t, ⟨t', ⟨t'', ⟨r, hr, ht''⟩, ht'⟩, ht⟩, hs⟩ := h
  obtain ⟨rfl, hedge⟩ := mem_reach_edge hr
  obtain ⟨keyword, rest, hkeyword, rfl, rfl⟩ := mem_reach_tableKeyword ht''
  obtain ⟨gap, rest, hgap, -, rfl, rfl⟩ := mem_reach_gap ht'
  obtain ⟨table, rest, hne, hrun, rfl, rfl⟩ := mem_reach_oneOrMore ht
  obtain ⟨spacing, rest, hspacing, -, rfl, rfl⟩ := mem_reach_gap hs
  have hsolid : ∀ c ∈ table, isSpace c = false := fun c hc => by simpa using hrun.all c hc
  exact ⟨hedge (touchesWord_append hkeyword.ne_nil hkeyword.continues _), keyword, gap, table,
    spacing, rest, hkeyword, hgap, ⟨hne, hsolid⟩, hspacing, rfl, rfl⟩

/-- A word is no `AS` with white space behind it, if it is not spelled like it. -/
theorem reach_link_of_name {name : List Char} (hname : IsIdentifier name)
    (has : ¬ Spells "AS" name) (hback : ∀ c ∈ back.head?, continuesIdentifier c = false) :
    (word "AS" ++ gap).reach ⟨⟨before, name ++ back⟩, parts⟩ = [] := by
  refine List.eq_nil_iff_forall_not_mem.mpr fun s hs => ?_
  rw [reach_append] at hs
  obtain ⟨t, ht, hs⟩ := List.mem_flatMap.mp hs
  obtain ⟨taken, rest, hspells, htext, rfl⟩ := mem_reach_word ht
  obtain ⟨space, rest, hgap, -, rfl, -⟩ := mem_reach_gap hs
  have hrun : Run continuesIdentifier taken (space ++ rest) := by
    refine ⟨hspells.continues (by decide), fun c hc => ?_⟩
    exact Text.eq_false_of_solid (by decide) (head_append hgap.1 hgap.2 rest c hc)
  obtain ⟨rfl, -⟩ := Text.Run.unique ⟨hname.continues, hback⟩ hrun htext
  exact has hspells

/-- The link of a reference is preferred to nothing. -/
theorem reach_tableLink (ref : TableReference) (has : ¬ Spells "AS" ref.name)
    (hback : ∀ c ∈ back.head?, continuesIdentifier c = false) :
    ∃ more, tableLink.reach ⟨⟨before, ref.link ++ (ref.name ++ back)⟩, parts⟩ =
      ⟨⟨ref.link.reverse ++ before, ref.name ++ back⟩, parts⟩ :: more := by
  have hoptional : ∀ r, tableLink.reach r = (word "AS" ++ gap).reach r ++ [r] := fun _ => rfl
  rw [hoptional]
  rcases ref.isLink with hlink | ⟨spelled, space, hlink, hword, hgap⟩
  · rw [hlink, List.nil_append, reach_link_of_name ref.isIdentifier_name has hback]
    exact ⟨[], rfl⟩
  · have hname := head_append ref.isIdentifier_name.ne_nil ref.solid_name back
    rw [hlink, List.append_assoc, reach_append, reach_word hword, List.flatMap_singleton,
      reach_gap hgap hname, List.reverse_append, List.append_assoc]
    exact ⟨_, rfl⟩

theorem mem_reach_tableLink (h : s ∈ tableLink.reach ⟨⟨before, after⟩, parts⟩) :
    ∃ link rest, IsLink link ∧ after = link ++ rest ∧
      s = ⟨⟨link.reverse ++ before, rest⟩, parts⟩ := by
  rcases List.mem_append.mp h with h | h
  · rw [reach_append] at h
    obtain ⟨t, ht, hs⟩ := List.mem_flatMap.mp h
    obtain ⟨spelled, rest, hspells, rfl, rfl⟩ := mem_reach_word ht
    obtain ⟨space, rest, hgap, -, rfl, rfl⟩ := mem_reach_gap hs
    exact ⟨spelled ++ space, rest, Or.inr ⟨spelled, space, rfl, hspells, hgap⟩, by simp, by simp⟩
  · exact ⟨[], after, Or.inl rfl, rfl, List.mem_singleton.mp h⟩

/-- **A reference is matched where it stands**, unless it ends with an `AS` without an alias. -/
theorem at?_reference (ref : TableReference) (h : SetApart front back)
    (has : ¬ Spells "AS" ref.name) :
    tableAliasPattern.at? ⟨front.reverse, ref.text ++ back⟩ = some (ref.matchAt front back) := by
  obtain ⟨more, hlink⟩ := reach_tableLink ref has h.back
  rw [TableReference.matchAt, TableReference.text, List.append_assoc, List.append_assoc, at?,
    tableAliasPattern_eq, reach_append, reach_append,
    reach_tableLead ref h.front (ref.head_link back), List.flatMap_singleton, hlink,
    List.flatMap_cons, reach_named, reach_identifier ref.isIdentifier_name h.back]
  simp

/-- **A match is a reference** that is set apart. -/
theorem exists_reference_of_at? {m : Match}
    (h : tableAliasPattern.at? ⟨front.reverse, after⟩ = some m) :
    ∃ (ref : TableReference) (back : List Char), after = ref.text ++ back ∧ SetApart front back ∧
      m = ref.matchAt front back := by
  obtain ⟨s, hs, rfl⟩ := exists_reach_of_at? h
  rw [tableAliasPattern_eq, reach_append] at hs
  obtain ⟨t, ht, hs⟩ := List.mem_flatMap.mp hs
  rw [reach_append] at ht
  obtain ⟨u, hu, ht⟩ := List.mem_flatMap.mp ht
  obtain ⟨hword, keyword, gap, table, spacing, rest, hkeyword, hgap, ⟨hne, hsolid⟩, hspacing, rfl,
    rfl⟩ := mem_reach_tableLead hu
  obtain ⟨link, rest, hlink, rfl, rfl⟩ := mem_reach_tableLink ht
  rw [reach_named] at hs
  obtain ⟨v, hv, rfl⟩ := List.mem_map.mp hs
  obtain ⟨name, back, hname, hback, rfl, rfl⟩ := mem_reach_identifier hv
  refine ⟨⟨keyword, gap, table, spacing, link, name, hkeyword, hgap, hne, hsolid, hspacing,
    hlink, hname⟩, back, ?_, ⟨hword, hback⟩, ?_⟩
  · simp [TableReference.text, TableReference.lead]
  · simp [TableReference.matchAt, TableReference.text, TableReference.lead]

/-! ## References that overlap -/

namespace TableReference
variable (ref : TableReference) {earlier : TableReference}
  {passed keyword behind front' back' : List Char}

/-- Whether a reference takes a keyword that stands behind its first characters `passed`: as its
name, or as the end of its table. -/
def Takes (passed keyword : List Char) : Prop :=
  (passed = ref.lead ++ ref.link ∧ ref.name = keyword) ∨
    ∃ start, passed = ref.keyword ++ (ref.gap ++ start) ∧ ref.table = start ++ keyword

/-- Whether the sweep over a line finds the reference behind `front`. -/
def Examined (line front : List Char) : Prop :=
  ∃ back, line = front ++ (ref.text ++ back) ∧
    ref.matchAt front back ∈ tableAliasPattern.allMatches line

theorem examined_iff_mem (front back : List Char) :
    ref.Examined (front ++ (ref.text ++ back)) front ↔
      ref.matchAt front back ∈ tableAliasPattern.allMatches (front ++ (ref.text ++ back)) := by
  constructor
  · rintro ⟨back', hline, hmem⟩
    obtain rfl := List.append_cancel_left (List.append_cancel_left hline)
    exact hmem
  · exact fun hmem => ⟨back, rfl, hmem⟩

/-- The link of a reference takes no keyword of tables. -/
theorem cut_link (hkeyword : IsTableKeyword keyword) (hpassed : touchesWord passed.reverse = false)
    (h : ref.link ++ back = passed ++ (keyword ++ behind)) :
    ∃ more, passed = ref.link ++ more ∧ back = more ++ (keyword ++ behind) := by
  rcases ref.isLink with hlink | ⟨spelled, space, hlink, hspells, hgap⟩
  · rw [hlink] at h ⊢
    exact ⟨passed, rfl, h⟩
  · rw [hlink, List.append_assoc] at h
    rw [hlink]
    rcases cut_word (hspells.continues (by decide)) hpassed h with rfl | ⟨passed, rfl, hspace⟩
    · rw [List.nil_append] at h
      exact absurd h (hkeyword.append_as_ne hspells)
    · have hhead := head_append hkeyword.ne_nil hkeyword.solid behind
      obtain ⟨passed, rfl, hback⟩ := cut_gap hgap.2 hhead hspace
      exact ⟨passed, (List.append_assoc ..).symm, hback⟩

/-- **How a reference overlaps with a keyword behind its start**: it takes the whole keyword, as its
name or as the end of its table. -/
theorem takes_of_cut (hkeyword : IsTableKeyword keyword)
    (hbehind : ∀ c ∈ behind.head?, isSpace c = true)
    (hback : ∀ c ∈ back.head?, continuesIdentifier c = false) (hne : passed ≠ [])
    (hlt : passed.length < ref.text.length) (hpassed : touchesWord passed.reverse = false)
    (h : ref.text ++ back = passed ++ (keyword ++ behind)) : ref.Takes passed keyword := by
  have hhead := head_append hkeyword.ne_nil hkeyword.solid behind
  simp only [text, lead, List.append_assoc] at h
  -- the cut is behind the keyword of the reference, and behind the white space there
  obtain ⟨passed, rfl, hgap⟩ :=
    (cut_word ref.isTableKeyword.continues hpassed h).resolve_left hne
  obtain ⟨passed, rfl, htable⟩ := cut_gap ref.isGap_gap.2 hhead hgap
  have hspace := head_append ref.isGap_spacing.1 ref.isGap_spacing.2
    (ref.link ++ (ref.name ++ back))
  rcases cut_table ref.table_solid hspace hkeyword.solid hbehind htable with
    hend | ⟨passed, rfl, hspacing⟩
  · exact Or.inr ⟨passed, rfl, hend⟩
  obtain ⟨passed, rfl, hlink⟩ := cut_gap ref.isGap_spacing.2 hhead hspacing
  have hword := touchesWord_reverse_of_append (touchesWord_reverse_of_append
    (touchesWord_reverse_of_append (touchesWord_reverse_of_append hpassed)))
  obtain ⟨passed, rfl, hname⟩ := ref.cut_link hkeyword hword hlink
  rcases cut_identifier ref.isIdentifier_name hback hkeyword.continues hbehind
    (touchesWord_reverse_of_append hword) hname with ⟨rfl, hsame⟩ | ⟨passed, rfl⟩
  · exact Or.inl ⟨by simp [lead], hsame⟩
  · simp only [text, lead, List.length_append] at hlt
    omega

/-- A reference that takes the keyword of another one reaches over its start. -/
theorem covers_of_takes (h : earlier.Takes passed ref.keyword) (front back back' : List Char) :
    (earlier.matchAt front back').Covers (ref.matchAt (front ++ passed) back) := by
  have hearlier := List.length_pos_of_ne_nil earlier.isTableKeyword.ne_nil
  have hkeyword := List.length_pos_of_ne_nil ref.isTableKeyword.ne_nil
  rw [Match.Covers, offset_matchAt, offset_matchAt, length_matchAt, List.length_append]
  rcases h with ⟨rfl, hname⟩ | ⟨start, rfl, htable⟩
  · simp only [text, lead, hname, List.length_append]
    omega
  · simp only [text, lead, htable, List.length_append]
    omega

/-- A reference that reaches over the start of another one takes its keyword. -/
theorem takes_of_covers (h : SetApart front back)
    (hback' : ∀ c ∈ back'.head?, continuesIdentifier c = false)
    (hline : front ++ (ref.text ++ back) = front' ++ (earlier.text ++ back'))
    (hcovers : (earlier.matchAt front' back').Covers (ref.matchAt front back)) :
    ∃ passed, front = front' ++ passed ∧ earlier.Takes passed ref.keyword := by
  obtain ⟨passed, rfl, hne, hlt, hrest⟩ := exists_cut_of_lt hline
    (by simpa [Match.Covers] using hcovers.1) (by simpa [Match.Covers] using hcovers.2)
  simp only [text, lead, List.append_assoc] at hrest
  have hspace := head_append ref.isGap_gap.1 ref.isGap_gap.2
    (ref.table ++ (ref.spacing ++ (ref.link ++ (ref.name ++ back))))
  refine ⟨passed, rfl, earlier.takes_of_cut ref.isTableKeyword hspace hback' hne hlt
    (touchesWord_reverse_of_append h.front) ?_⟩
  simpa only [text, lead, List.append_assoc] using hrest

/-- **Which references are examined.**  The sweep over a line finds a reference unless it finds one
in front that takes the keyword. -/
theorem examined_iff (h : SetApart front back) (has : ¬ Spells "AS" ref.name) :
    ref.Examined (front ++ (ref.text ++ back)) front ↔
      ¬ ∃ (earlier : TableReference) (front' passed : List Char), front = front' ++ passed ∧
        earlier.Takes passed ref.keyword ∧
        earlier.Examined (front ++ (ref.text ++ back)) front' := by
  have hfound : tableAliasPattern.Found (front ++ (ref.text ++ back)) (ref.matchAt front back) :=
    ⟨at?_reference ref h has, by simp [matchAt]⟩
  rw [examined_iff_mem, mem_allMatches_iff, and_iff_right hfound]
  constructor
  · rintro hnone ⟨earlier, front', passed, rfl, htakes, back', -, hmem⟩
    exact hnone _ hmem (ref.covers_of_takes htakes front' back back')
  · intro hnone m hmem hcovers
    obtain ⟨front', after, hline, hat⟩ := (found_of_mem_allMatches hmem).exists_cut
    obtain ⟨earlier, back', rfl, hapart, rfl⟩ := exists_reference_of_at? hat
    obtain ⟨passed, hfront, htakes⟩ := ref.takes_of_covers h hapart.back hline hcovers
    exact hnone ⟨earlier, front', passed, hfront, htakes, back', hline, hmem⟩

end TableReference
end Naming
end LineLint
