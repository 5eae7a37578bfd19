import LineLint.Proofs.Report.Declarations

/-! # Modifiers that are passed over

Method headers may begin with modifiers, and the pattern for methods does not take them.  Nothing is
lost by it: a pattern that takes as many modifiers as it can (`Code.CSharp.modifiedMethodPattern`)
reads the same headers from every line (`Code.CSharp.methodHeaders_eq_modified`).

The matches of that pattern begin farther in front, and the two sweeps find as many matches all the
same.  Where the longer pattern matches, the shorter one does not need to match, but its next match
has the same stretches and stops at the same place (`Pattern.Anticipates`).  This is so because a
modifier is a word, and the search for `type name(` goes past a word that stands in front of another
modifier or of a type (`Code.CSharp.findBehind_word`).  The longer pattern may also give modifiers
back, down to the one that would then be the type.  It does so only if `type name(` is not found
behind them, since both cannot be (`Code.CSharp.OpensWithType.reach_methodName`).
-/
namespace LineLint

/-! ## Sweeps that stop at the same places -/

/-- A match as it is read, without the place where it starts. -/
def Match.reading (m : Match) : Match :=
  { m with start := m.stop }

namespace Pattern
variable {p q : Pattern} {before after : List Char} {m : Match}

/-- The characters that a match takes, at least one. -/
theorem exists_taken_of_at? (hstay : p.canStay = false) (h : p.at? ⟨before, after⟩ = some m) :
    ∃ c taken, after = c :: (taken ++ m.stop.after) ∧
      m.stop.before = taken.reverse ++ c :: before ∧ m.length = taken.length + 1 := by
  obtain ⟨s, hs, rfl⟩ := exists_reach_of_at? h
  obtain ⟨taken, ⟨hafter, hbefore⟩, -⟩ := reach_within (within_true p) hs
  have hlt := length_lt_of_mem_reach hstay hs
  cases taken with
  | nil =>
    rw [hafter] at hlt
    exact absurd hlt (Nat.lt_irrefl _)
  | cons c taken =>
    refine ⟨c, taken, hafter, by simpa using hbefore, ?_⟩
    simp only at hafter
    simp only [Match.length, hafter, List.length_cons, List.length_append]
    omega

theorem length_lt_of_findBehind (hstay : p.canStay = false)
    (h : p.findBehind before after = some m) : m.stop.after.length < after.length := by
  obtain ⟨passed, rest, rfl, hat, -⟩ := exists_cut_of_findBehind h
  obtain ⟨c, taken, rfl, -, -⟩ := exists_taken_of_at? hstay hat
  simp only [List.length_append, List.length_cons]
  omega

theorem matchesBehind_of_none (h : p.findBehind before after = none) :
    p.matchesBehind before 0 after = [] := by
  rwa [← head?_matchesBehind, List.head?_eq_none_iff] at h

/-- **The sweep takes the next match**, and goes on where this one stops. -/
theorem matchesBehind_of_findBehind (hstay : p.canStay = false)
    (h : p.findBehind before after = some m) :
    p.matchesBehind before 0 after = m :: p.matchesBehind m.stop.before 0 m.stop.after := by
  obtain ⟨passed, rest, rfl, hat, hsweep⟩ := exists_cut_of_findBehind h
  obtain ⟨c, taken, rfl, hstop, hlength⟩ := exists_taken_of_at? hstay hat
  rw [hsweep, matchesBehind, hat]
  simp only [hlength, hstop, Nat.add_sub_cancel, matchesBehind_length]

/-- Whether the matches of one pattern are read like those of another one that begin there or
farther behind. -/
structure Anticipates (p q : Pattern) : Prop where
  /-- Where the first pattern does not match, the second does not match either. -/
  at?_eq_none : ∀ {place}, p.at? place = none → q.at? place = none
  /-- Where the first pattern matches, the next match of the second is read like it. -/
  findBehind_eq : ∀ {before after m}, p.at? ⟨before, after⟩ = some m →
    (q.findBehind before after).map Match.reading = some m.reading

namespace Anticipates

theorem map_findBehind (h : Anticipates p q) (before after : List Char) :
    (p.findBehind before after).map Match.reading =
      (q.findBehind before after).map Match.reading := by
  induction after generalizing before with
  | nil =>
    cases hat : p.at? ⟨before, []⟩ with
    | none => rw [findBehind, findBehind, hat, h.at?_eq_none hat]
    | some m => rw [findBehind_of_at? hat, h.findBehind_eq hat, Option.map_some]
  | cons c after ih =>
    cases hat : p.at? ⟨before, c :: after⟩ with
    | none =>
      rw [findBehind, findBehind, hat, h.at?_eq_none hat]
      exact ih (c :: before)
    | some m => rw [findBehind_of_at? hat, h.findBehind_eq hat, Option.map_some]

theorem map_matchesBehind (h : Anticipates p q) (hp : p.canStay = false) (hq : q.canStay = false)
    (before after : List Char) :
    (p.matchesBehind before 0 after).map Match.reading =
      (q.matchesBehind before 0 after).map Match.reading := by
  induction hlength : after.length using Nat.strong_induction_on generalizing before after with
  | h length ih =>
    have hsame := h.map_findBehind before after
    cases hfind : p.findBehind before after with
    | none =>
      rw [hfind, Option.map_none] at hsame
      rw [matchesBehind_of_none hfind, matchesBehind_of_none (Option.map_eq_none_iff.mp hsame.symm)]
    | some m =>
      rw [hfind, Option.map_some] at hsame
      obtain ⟨m', hfind', hread⟩ := Option.map_eq_some_iff.mp hsame.symm
      have hstop : m'.stop = m.stop := by simpa [Match.reading] using congrArg Match.stop hread
      have hlt := length_lt_of_findBehind hp hfind
      rw [matchesBehind_of_findBehind hp hfind, matchesBehind_of_findBehind hq hfind', hstop,
        List.map_cons, List.map_cons, hread, ih _ (hlength ▸ hlt) _ _ rfl]

/-- **Both sweeps read the same matches.** -/
theorem map_allMatches (h : Anticipates p q) (hp : p.canStay = false) (hq : q.canStay = false)
    (text : List Char) :
    (p.allMatches text).map Match.reading = (q.allMatches text).map Match.reading :=
  h.map_matchesBehind hp hq [] text

end Anticipates

/-- A repeated pattern may be left out. -/
theorem mem_reach_repeated_self (p : Pattern) (r : Reached) : r ∈ (repeated p).reach r := by
  simp only [reach]
  cases r.place.after with
  | nil => exact List.mem_singleton_self r
  | cons c bound =>
    rw [iterate_cons]
    exact List.mem_append_right _ (List.mem_singleton_self r)

end Pattern

namespace Code
namespace CSharp

open Pattern
open Cursor (touchesWord)
open Text (isSpace)

/-! ## Modifiers taken one by one -/

/-- One modifier, with the white space behind it. -/
def modifier : Pattern :=
  words methodModifiers ++ gap

/-- `type name(`, whether a word begins there or not. -/
def typedName : Pattern :=
  named .type (char startsIdentifier ++ run continuesType) ++ (gap ++ methodName)

/-- `type name(` behind any number of modifiers. -/
def modifiedMethodPattern : Pattern :=
  edge ++ repeated modifier ++ named .type (char startsIdentifier ++ run continuesType) ++ gap ++
    named .name identifier ++ spaces ++ exactly '('

theorem reach_methodPattern_eq (r : Reached) :
    methodPattern.reach r = (edge.reach r).flatMap typedName.reach := by
  rw [methodPattern, reach_append_assoc, reach_append_assoc, ← methodName, reach_append_assoc,
    reach_append_assoc, ← typedName, reach_append]

theorem reach_modifiedMethodPattern_eq (r : Reached) :
    modifiedMethodPattern.reach r =
      (edge.reach r).flatMap (repeated modifier ++ typedName).reach := by
  rw [modifiedMethodPattern, reach_append_assoc, reach_append_assoc, ← methodName,
    reach_append_assoc, reach_append_assoc, ← typedName, reach_append_assoc, reach_append]

variable {before after : List Char} {parts : List (Part × Cursor × Cursor)} {r s t : Reached}

/-- `type name(` begins with a type. -/
theorem opensWithType_of_mem_reach_typedName
    (h : s ∈ typedName.reach ⟨⟨before, after⟩, parts⟩) : OpensWithType after := by
  obtain ⟨t, ht, hs⟩ := List.mem_flatMap.mp h
  obtain ⟨u, hu, rfl⟩ := List.mem_map.mp ht
  obtain ⟨type, rest, hne, hstarts, hrun, rfl, rfl⟩ :=
    mem_reach_char_run (fun c hc => by
      rw [continuesType, continuesIdentifier_of_startsIdentifier hc, Bool.true_or]) hu
  obtain ⟨v, hv, hs⟩ := List.mem_flatMap.mp hs
  obtain ⟨spacing, rest, hspacing, -, rfl, rfl⟩ := mem_reach_gap hv
  obtain ⟨w, hw, -⟩ := List.mem_flatMap.mp hs
  obtain ⟨x, hx, rfl⟩ := List.mem_map.mp hw
  obtain ⟨name, rest, hname, -, rfl, rfl⟩ := mem_reach_identifier hx
  exact ⟨type, spacing, _, ⟨hne, hstarts, hrun.all⟩, hspacing,
    (isType_of_isIdentifier hname).starts_append rest, rfl⟩

/-- A modifier is a word, and it is taken in one way. -/
theorem reach_modifier_cases (before after : List Char) :
    modifier.reach ⟨⟨before, after⟩, []⟩ = [] ∨
      ∃ word spacing rest, IsIdentifier word ∧ IsGap spacing ∧ after = word ++ (spacing ++ rest) ∧
        rest.length < after.length ∧ modifier.reach ⟨⟨before, after⟩, []⟩ =
          [⟨⟨spacing.reverse ++ (word.reverse ++ before), rest⟩, []⟩] := by
  have hletters : ∀ keyword ∈ methodModifiers,
      keyword.toList ≠ [] ∧ keyword.toList.all Char.isAlpha = true := by decide
  refine or_iff_not_imp_left.mpr fun hne => ?_
  obtain ⟨s, hs⟩ := List.exists_mem_of_ne_nil _ hne
  obtain ⟨t, ht, hs⟩ := List.mem_flatMap.mp hs
  obtain ⟨word, rest, ⟨keyword, hkeyword, hspells⟩, rfl, rfl⟩ := exists_spells_of_mem_reach_words ht
  obtain ⟨spacing, rest, hspacing, hsolid, rfl, -⟩ := mem_reach_gap hs
  obtain ⟨hkeywordNe, hkeywordLetters⟩ := hletters keyword hkeyword
  have hword := hspells.isIdentifier hkeywordNe hkeywordLetters
  have hlt : rest.length < (word ++ (spacing ++ rest)).length := by
    have hpos := List.length_pos_of_ne_nil hword.ne_nil
    simp only [List.length_append]
    omega
  refine ⟨word, spacing, rest, hword, hspacing, rfl, hlt, ?_⟩
  rw [modifier, reach_append, reach_words (fun k hk => (hletters k hk).2) (by decide) hkeyword
    hspells, List.flatMap_singleton, reach_gap hspacing hsolid]

theorem reach_typedName_of_nil (h : modifier.reach r = []) :
    (repeated modifier ++ typedName).reach r = typedName.reach r := by
  rw [reach_append, reach_repeated_of_nil h, List.flatMap_singleton]

theorem reach_typedName_of_singleton (h : modifier.reach r = [t]) :
    (repeated modifier ++ typedName).reach r =
      (repeated modifier ++ typedName).reach t ++ typedName.reach r := by
  rw [reach_append, reach_append, reach_repeated_of_singleton (by decide) h, List.flatMap_append,
    List.flatMap_singleton]

/-- Modifiers and the type behind them begin like a type. -/
theorem opensWithType_of_mem_reach
    (h : s ∈ (repeated modifier ++ typedName).reach ⟨⟨before, after⟩, []⟩) :
    OpensWithType after := by
  induction hlength : after.length using Nat.strong_induction_on generalizing before after with
  | h length ih =>
    rcases reach_modifier_cases before after with
      hnone | ⟨word, spacing, rest, hword, hspacing, rfl, hlt, hone⟩
    · rw [reach_typedName_of_nil hnone] at h
      exact opensWithType_of_mem_reach_typedName h
    · rw [reach_typedName_of_singleton hone] at h
      rcases List.mem_append.mp h with h | h
      · exact opensWithType_word hword hspacing (ih _ (hlength ▸ hlt) h rfl).starts
      · exact opensWithType_of_mem_reach_typedName h

/-- Where no word stands in front, `type name(` is a match. -/
theorem findBehind_of_typedName (hbefore : touchesWord before = false)
    (h : (typedName.reach ⟨⟨before, after⟩, []⟩).head? = some s) :
    (methodPattern.findBehind before after).map Match.reading =
      some ⟨s.place, s.place, s.parts⟩ := by
  obtain ⟨type, spacing, rest, htype, -, -, rfl⟩ :=
    opensWithType_of_mem_reach_typedName (List.mem_of_mem_head? h)
  have hat : methodPattern.at? ⟨before, type ++ (spacing ++ rest)⟩ =
      some ⟨⟨before, type ++ (spacing ++ rest)⟩, s.place, s.parts⟩ := by
    rw [at?, reach_methodPattern_eq, reach_edge hbefore (htype.touchesWord _),
      List.flatMap_singleton, h, Option.map_some]
  rw [findBehind_of_at? hat]
  rfl

/-- **What is read behind modifiers is found next**, one modifier after the other. -/
theorem findBehind_of_modifiers (hbefore : touchesWord before = false)
    (h : ((repeated modifier ++ typedName).reach ⟨⟨before, after⟩, []⟩).head? = some s) :
    (methodPattern.findBehind before after).map Match.reading =
      some ⟨s.place, s.place, s.parts⟩ := by
  induction hlength : after.length using Nat.strong_induction_on generalizing before after with
  | h length ih =>
    rcases reach_modifier_cases before after with
      hnone | ⟨word, spacing, rest, hword, hspacing, rfl, hlt, hone⟩
    · rw [reach_typedName_of_nil hnone] at h
      exact findBehind_of_typedName hbefore h
    · rw [reach_typedName_of_singleton hone] at h
      cases hbehind : (repeated modifier ++ typedName).reach
          ⟨⟨spacing.reverse ++ (word.reverse ++ before), rest⟩, []⟩ with
      | nil =>
        -- the modifier is the type
        rw [hbehind, List.nil_append] at h
        exact findBehind_of_typedName hbefore h
      | cons u more =>
        rw [hbehind, List.cons_append, List.head?_cons] at h
        have hopens : OpensWithType rest :=
          opensWithType_of_mem_reach (hbehind ▸ List.mem_cons_self)
        rw [findBehind_word hword hspacing hopens hbefore]
        refine ih _ (hlength ▸ hlt) (touchesWord_reverse_gap hspacing _) ?_ rfl
        rw [hbehind, List.head?_cons, h]

/-! ## Headers behind modifiers -/

theorem anticipates_modifiedMethodPattern : Anticipates modifiedMethodPattern methodPattern where
  at?_eq_none {place} h := by
    rw [at?, Option.map_eq_none_iff, List.head?_eq_none_iff, reach_modifiedMethodPattern_eq,
      List.flatMap_eq_nil_iff] at h
    rw [at?, Option.map_eq_none_iff, List.head?_eq_none_iff, reach_methodPattern_eq,
      List.flatMap_eq_nil_iff]
    intro r hr
    exact List.flatMap_eq_nil_iff.mp (h r hr) r (mem_reach_repeated_self modifier r)
  findBehind_eq {before after m} h := by
    obtain ⟨s, hs, rfl⟩ := Option.map_eq_some_iff.mp h
    rw [reach_modifiedMethodPattern_eq] at hs
    obtain ⟨r, hr, hmem⟩ := List.mem_flatMap.mp (List.mem_of_mem_head? hs)
    obtain ⟨rfl, hbefore⟩ := mem_reach_edge hr
    obtain ⟨type, spacing, rest, htype, -, -, rfl⟩ := opensWithType_of_mem_reach hmem
    have houtside := hbefore (htype.touchesWord _)
    rw [reach_edge houtside (htype.touchesWord _), List.flatMap_singleton] at hs
    exact findBehind_of_modifiers houtside hs

/-- **The modifiers may be left out.**  A pattern that takes the modifiers in front of a method reads
the same headers from every line. -/
theorem methodHeaders_eq_modified (line : List Char) :
    methodHeaders line =
      ((modifiedMethodPattern.allMatches line).filter declares).map (headerOf line) := by
  have hread : ∀ found : List Match, (found.filter declares).map (headerOf line) =
      ((found.map Match.reading).filter declares).map (headerOf line) := by
    intro found
    rw [List.filter_map, List.map_map]
    rfl
  have hsame := anticipates_modifiedMethodPattern.map_allMatches (by decide) (by decide) line
  rw [methodHeaders, hread, ← hsame, ← hread]

end CSharp
end Code
end LineLint
