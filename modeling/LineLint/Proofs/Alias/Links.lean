import LineLint.Proofs.Alias.References
import LineLint.Proofs.Layout.Spaces

/-! # Words behind AS

A word behind `AS` is looked for apart from the tables (`Naming.LinkedName`).  It is found unless
the `AS` itself stands behind another one (`Naming.LinkedName.mem_allMatches`), and so an alias
behind `AS` does not depend on the reference it belongs to.
-/
namespace LineLint
namespace Naming

open Pattern
open Cursor (touchesWord)
open Text (isSpace)

/-- `AS` and the word behind it. -/
structure LinkedName where
  /-- `AS`. -/
  keyword : List Char
  /-- The white space behind it. -/
  gap : List Char
  /-- The word. -/
  name : List Char
  spells : Spells "AS" keyword
  isGap : IsGap gap
  isIdentifier : IsIdentifier name

/-- Whether a text ends with `AS` and white space. -/
def EndsWithAs (text : List Char) : Prop :=
  ∃ front word gap, text = front ++ (word ++ gap) ∧ touchesWord front.reverse = false ∧
    Spells "AS" word ∧ IsGap gap

variable {before after front back : List Char} {parts : List (Part × Cursor × Cursor)}
  {s : Reached}

namespace LinkedName
variable (linked : LinkedName)

/-- The text of the keyword and the word. -/
def text : List Char :=
  linked.keyword ++ (linked.gap ++ linked.name)

/-- The match of the word between two texts. -/
def matchAt (front back : List Char) : Match where
  start := ⟨front.reverse, linked.text ++ back⟩
  stop := ⟨(front ++ linked.text).reverse, back⟩
  parts := [(.name, ⟨(front ++ (linked.keyword ++ linked.gap)).reverse, linked.name ++ back⟩,
    ⟨(front ++ linked.text).reverse, back⟩)]

@[simp] theorem offset_matchAt (front back : List Char) :
    (linked.matchAt front back).offset = front.length :=
  List.length_reverse

@[simp] theorem length_matchAt (front back : List Char) :
    (linked.matchAt front back).length = linked.text.length := by
  simp [matchAt, Match.length]

@[simp] theorem part_matchAt (front back : List Char) :
    (linked.matchAt front back).part .name = linked.name := by
  simp [matchAt, Match.part, Match.part?, Cursor.textTo]

theorem keyword_continues : ∀ c ∈ linked.keyword, continuesIdentifier c = true :=
  linked.spells.continues (by decide)

theorem keyword_ne_nil : linked.keyword ≠ [] := by
  intro h
  have hspells := linked.spells
  rw [h] at hspells
  cases hspells

theorem solid_name : ∀ c ∈ linked.name, isSpace c = false :=
  fun c hc => isSpace_of_continuesIdentifier (linked.isIdentifier.continues c hc)

theorem at?_matchAt (h : SetApart front back) :
    asAliasPattern.at? ⟨front.reverse, linked.text ++ back⟩ = some (linked.matchAt front back) := by
  have hword : touchesWord (linked.keyword ++ (linked.gap ++ (linked.name ++ back))) = true :=
    touchesWord_append linked.keyword_ne_nil linked.keyword_continues _
  have hname := head_append linked.isIdentifier.ne_nil linked.solid_name back
  simp only [matchAt, at?, asAliasPattern, text, List.append_assoc, reach_append,
    reach_edge h.front hword, reach_word linked.spells, reach_gap linked.isGap hname, reach_named,
    reach_identifier linked.isIdentifier h.back, List.flatMap_singleton, List.map_singleton,
    List.head?_cons, Option.map_some, List.reverse_append]

end LinkedName

theorem exists_linkedName_of_at? {m : Match}
    (h : asAliasPattern.at? ⟨front.reverse, after⟩ = some m) :
    ∃ (linked : LinkedName) (back : List Char), after = linked.text ++ back ∧
      SetApart front back ∧ m = linked.matchAt front back := by
  obtain ⟨s, hs, rfl⟩ := exists_reach_of_at? h
  simp only [asAliasPattern, reach_append, List.mem_flatMap] at hs
  obtain ⟨t, ⟨t', ⟨r, hr, ht'⟩, ht⟩, hs⟩ := hs
  obtain ⟨rfl, hedge⟩ := mem_reach_edge hr
  obtain ⟨keyword, rest, hspells, rfl, rfl⟩ := mem_reach_word ht'
  obtain ⟨gap, rest, hgap, -, rfl, rfl⟩ := mem_reach_gap ht
  rw [reach_named] at hs
  obtain ⟨v, hv, rfl⟩ := List.mem_map.mp hs
  obtain ⟨name, back, hname, hback, rfl, rfl⟩ := mem_reach_identifier hv
  let linked : LinkedName := ⟨keyword, gap, name, hspells, hgap, hname⟩
  have hfront := hedge (touchesWord_append linked.keyword_ne_nil linked.keyword_continues _)
  refine ⟨linked, back, ?_, ⟨hfront, hback⟩, ?_⟩
  · simp [linked, LinkedName.text]
  · simp [linked, LinkedName.matchAt, LinkedName.text]

namespace LinkedName
variable (linked : LinkedName)

/-- A word behind `AS` that reaches over the start of another one is the `AS` in front of it. -/
theorem endsWithAs_of_covers {earlier : LinkedName} {front' back' : List Char}
    (h : SetApart front back) (h' : SetApart front' back')
    (hline : front ++ (linked.text ++ back) = front' ++ (earlier.text ++ back'))
    (hcovers : (earlier.matchAt front' back').Covers (linked.matchAt front back)) :
    EndsWithAs front := by
  obtain ⟨passed, rfl, hne, hlt, hrest⟩ := exists_cut_of_lt hline
    (by simpa [Match.Covers] using hcovers.1) (by simpa [Match.Covers] using hcovers.2)
  have hpassed := touchesWord_reverse_of_append h.front
  simp only [text, List.append_assoc] at hrest
  have hsolid : ∀ c ∈ linked.keyword, isSpace c = false := fun c hc =>
    isSpace_of_continuesIdentifier (linked.keyword_continues c hc)
  obtain ⟨passed, rfl, hgap⟩ :=
    (cut_word earlier.keyword_continues hpassed hrest).resolve_left hne
  obtain ⟨passed, rfl, hname⟩ :=
    cut_gap earlier.isGap.2 (head_append linked.keyword_ne_nil hsolid _) hgap
  rcases cut_identifier earlier.isIdentifier h'.back linked.keyword_continues
    (head_append linked.isGap.1 linked.isGap.2 _)
    (touchesWord_reverse_of_append (touchesWord_reverse_of_append hpassed)) hname with
    ⟨rfl, -⟩ | ⟨passed, rfl⟩
  · exact ⟨front', earlier.keyword, earlier.gap, by simp, h'.front, earlier.spells, earlier.isGap⟩
  · simp only [text, List.length_append] at hlt
    omega

/-- **A word behind `AS` is found**, if there is no other `AS` in front of this one. -/
theorem mem_allMatches (h : SetApart front back) (has : ¬ EndsWithAs front) :
    linked.matchAt front back ∈ asAliasPattern.allMatches (front ++ (linked.text ++ back)) := by
  refine mem_allMatches_iff.mpr ⟨⟨linked.at?_matchAt h, by simp [matchAt]⟩, ?_⟩
  intro m hm hcovers
  obtain ⟨front', after, hline, hat⟩ := (found_of_mem_allMatches hm).exists_cut
  obtain ⟨earlier, back', rfl, h', rfl⟩ := exists_linkedName_of_at? hat
  exact has (linked.endsWithAs_of_covers h h' hline hcovers)

end LinkedName
end Naming
end LineLint
