import LineLint.Proofs.Pattern.Runs
import LineLint.Proofs.Pattern.Sweep
import LineLint.Rule.RepeatedLiteral

/-! # Strings on a line

A string stands between two quotes with no quote between them, and quotes are paired
from the start of the line on: an even number of them stands in front of a string
(`Literal.StringAt`).  The sweep of the pattern for strings finds exactly these
(`Literal.mem_strings_iff`).

A string that was cut out between the closing quote of one string and the opening quote
of the next would have an odd number in front of it; it is covered by the first of the
two, and of no other match.
-/
namespace LineLint
namespace Literal

open Pattern
open Text (Run)

/-- Whether a string with the given contents stands on a line, behind `column` characters. -/
def StringAt (quote : Char) (line : List Char) (column : Nat) (contents : List Char) : Prop :=
  ∃ front back, line = front ++ quote :: (contents ++ quote :: back) ∧ front.length = column ∧
    quote ∉ contents ∧ Even (front.count quote)

/-- The match of a string that stands between `before`, nearest character first, and `back`. -/
def stringMatch (quote : Char) (before contents back : List Char) : Match where
  start := ⟨before, quote :: (contents ++ quote :: back)⟩
  stop := ⟨quote :: (contents.reverse ++ quote :: before), back⟩
  parts := [(.content, ⟨quote :: before, contents ++ quote :: back⟩,
    ⟨contents.reverse ++ quote :: before, quote :: back⟩)]

section
variable (quote : Char) (before contents back : List Char)

@[simp] theorem offset_stringMatch :
    (stringMatch quote before contents back).offset = before.length := rfl

@[simp] theorem length_stringMatch :
    (stringMatch quote before contents back).length = contents.length + 2 := by
  simp only [stringMatch, Match.length, List.length_cons, List.length_append]
  omega

@[simp] theorem part_stringMatch :
    (stringMatch quote before contents back).part .content = contents := by
  simp [stringMatch, Match.part, Match.part?, Cursor.textTo]

end

variable {quote : Char} {before after contents back line : List Char} {m : Match}

/-! ## A string at a place -/

theorem at?_string (h : quote ∉ contents) :
    (stringPattern quote).at? ⟨before, quote :: (contents ++ quote :: back)⟩ =
      some (stringMatch quote before contents back) := by
  have hrun : Run (· != quote) contents (quote :: back) := Text.run_of_not_mem h back
  simp [Pattern.at?, stringPattern, reach_append, reach_exactly, allBut, reach,
    Cursor.runEnd_run hrun, stringMatch]

/-- A string begins and ends with a quote. -/
theorem exists_string_of_at? (h : (stringPattern quote).at? ⟨before, after⟩ = some m) :
    ∃ contents back, after = quote :: (contents ++ quote :: back) ∧ quote ∉ contents := by
  obtain ⟨s, hs, -⟩ := exists_reach_of_at? h
  rw [stringPattern, reach_append] at hs
  obtain ⟨t, ht, hs⟩ := List.mem_flatMap.mp hs
  rw [reach_append] at ht
  obtain ⟨u, hu, ht⟩ := List.mem_flatMap.mp ht
  cases after with
  | nil => rw [reach_exactly_nil] at hu; cases hu
  | cons c rest =>
    rw [reach_exactly] at hu
    by_cases hc : c = quote
    · rw [if_pos hc] at hu
      obtain rfl := List.mem_singleton.mp hu
      obtain ⟨contents, rest, rfl, hrun⟩ := Text.exists_run (· != quote) rest
      have hcontents : quote ∉ contents := by
        intro hmem
        simpa using hrun.all quote hmem
      rw [reach_named, allBut, reach, Cursor.runEnd_run hrun] at ht
      obtain rfl := List.mem_singleton.mp ht
      cases rest with
      | nil => cases hs
      | cons d back =>
        have hd : d = quote := by simpa using hrun.stops d rfl
        exact ⟨contents, back, by rw [hc, hd], hcontents⟩
    · rw [if_neg hc] at hu
      cases hu

theorem found_string_iff :
    (stringPattern quote).Found line m ↔ ∃ front contents back,
      line = front ++ quote :: (contents ++ quote :: back) ∧ quote ∉ contents ∧
        m = stringMatch quote front.reverse contents back := by
  constructor
  · intro hfound
    obtain ⟨front, after, rfl, hat⟩ := hfound.exists_cut
    obtain ⟨contents, back, rfl, hcontents⟩ := exists_string_of_at? hat
    rw [at?_string hcontents] at hat
    exact ⟨front, contents, back, rfl, hcontents, (Option.some.inj hat).symm⟩
  · rintro ⟨front, contents, back, rfl, hcontents, rfl⟩
    exact ⟨at?_string hcontents, by simp [stringMatch]⟩

/-! ## Pairing quotes -/

/-- The last quote of a text is in one place. -/
theorem eq_of_last_quote {front front' rest rest' : List Char} (hrest : quote ∉ rest)
    (hrest' : quote ∉ rest') (h : front ++ quote :: rest = front' ++ quote :: rest') :
    front = front' ∧ rest = rest' := by
  have hrun := Text.run_of_not_mem (mt List.mem_reverse.mp hrest) front.reverse
  have hrun' := Text.run_of_not_mem (mt List.mem_reverse.mp hrest') front'.reverse
  have hreverse := congrArg List.reverse h
  simp only [List.reverse_append, List.reverse_cons, List.append_assoc, List.singleton_append]
    at hreverse
  obtain ⟨hsame, hfront⟩ := hrun.unique hrun' hreverse
  exact ⟨List.reverse_inj.mp (List.cons_inj_right quote |>.mp hfront),
    List.reverse_inj.mp hsame⟩

/-- A string that covers the start of another one reaches exactly to its opening quote. -/
theorem front_of_covers {front front' contents' back' : List Char}
    (hline : front ++ quote :: (contents ++ quote :: back) =
      front' ++ quote :: (contents' ++ quote :: back'))
    (hcontents' : quote ∉ contents')
    (hcovers : (stringMatch quote front'.reverse contents' back').Covers
      (stringMatch quote front.reverse contents back)) :
    front = front' ++ quote :: contents' ∧ back' = contents ++ quote :: back := by
  obtain ⟨hstart, hstop⟩ := hcovers
  simp only [offset_stringMatch, length_stringMatch, List.length_reverse] at hstart hstop
  rcases List.append_eq_append_iff.mp hline with ⟨more, rfl, -⟩ | ⟨more, rfl, hmore⟩
  · rw [List.length_append] at hstart
    omega
  · cases more with
    | nil => rw [List.append_nil] at hstart; omega
    | cons c between =>
      obtain ⟨rfl, hbetween⟩ := List.cons_eq_cons.mp hmore
      rw [List.length_append, List.length_cons] at hstop
      -- what stands between the two opening quotes is part of the contents of the first string
      have hsub : between <+: contents' :=
        List.prefix_of_prefix_length_le ⟨_, hbetween.symm⟩ (List.prefix_append _ _) (by omega)
      have hnone : quote ∉ between := fun hmem => hcontents' (hsub.subset hmem)
      obtain ⟨rfl, hrest⟩ := (Text.run_of_not_mem hcontents' back').unique
        (Text.run_of_not_mem hnone (contents ++ quote :: back)) hbetween
      exact ⟨rfl, List.cons_inj_right quote |>.mp hrest⟩

theorem exists_last_quote {front : List Char} (h : quote ∈ front) :
    ∃ front' rest, front = front' ++ quote :: rest ∧ quote ∉ rest := by
  obtain ⟨rest, front', hreverse, hrest⟩ :=
    List.eq_append_cons_of_mem (List.mem_reverse.mpr h)
  refine ⟨front'.reverse, rest.reverse, ?_, mt List.mem_reverse.mp hrest⟩
  rw [← List.reverse_reverse front, hreverse]
  simp

/-- The chain of a string: no match covers its start if there is no quote in front of it, and
otherwise the match that starts at the last quote in front does so alone. -/
theorem chain_string (hfound : (stringPattern quote).Found line m) :
    (m.start.before.count quote = 0 ∧
      ∀ earlier, (stringPattern quote).Found line earlier → ¬ earlier.Covers m) ∨
    ∃ first, (stringPattern quote).Found line first ∧ first.Covers m ∧
      m.start.before.count quote = first.start.before.count quote + 1 ∧
      ∀ earlier, (stringPattern quote).Found line earlier → earlier.Covers m →
        earlier = first := by
  obtain ⟨front, contents, back, hline, -, rfl⟩ := found_string_iff.mp hfound
  by_cases hquote : quote ∈ front
  · obtain ⟨front', rest, rfl, hrest⟩ := exists_last_quote hquote
    refine Or.inr ⟨stringMatch quote front'.reverse rest (contents ++ quote :: back), ?_, ?_, ?_, ?_⟩
    · exact found_string_iff.mpr ⟨front', rest, _, by simpa using hline, hrest, rfl⟩
    · simp only [Match.Covers, offset_stringMatch, length_stringMatch, List.length_reverse,
        List.length_append, List.length_cons]
      omega
    · simp [stringMatch, List.count_eq_zero.mpr hrest]
    · intro earlier hearlier hcovers
      obtain ⟨front'', contents', back', hline', hcontents', rfl⟩ := found_string_iff.mp hearlier
      obtain ⟨hsame, rfl⟩ := front_of_covers (hline.symm.trans hline') hcontents' hcovers
      obtain ⟨rfl, rfl⟩ := eq_of_last_quote hrest hcontents' hsame
      rfl
  · refine Or.inl ⟨List.count_eq_zero.mpr (mt List.mem_reverse.mp hquote), ?_⟩
    intro earlier hearlier hcovers
    obtain ⟨front', contents', back', hline', hcontents', rfl⟩ := found_string_iff.mp hearlier
    obtain ⟨rfl, -⟩ := front_of_covers (hline.symm.trans hline') hcontents' hcovers
    exact hquote (by simp)

/-- **The strings of a line** are those between quotes that are paired from its start on. -/
theorem mem_strings_iff :
    m ∈ (stringPattern quote).allMatches line ↔ ∃ front contents back,
      line = front ++ quote :: (contents ++ quote :: back) ∧ quote ∉ contents ∧
        Even (front.count quote) ∧ m = stringMatch quote front.reverse contents back := by
  rw [mem_allMatches_iff_even (fun m => m.start.before.count quote)
    (fun m => chain_string), found_string_iff]
  constructor
  · rintro ⟨⟨front, contents, back, hline, hcontents, rfl⟩, heven⟩
    exact ⟨front, contents, back, hline, hcontents, by simpa [stringMatch] using heven, rfl⟩
  · rintro ⟨front, contents, back, hline, hcontents, heven, rfl⟩
    exact ⟨⟨front, contents, back, hline, hcontents, rfl⟩, by simpa [stringMatch] using heven⟩

/-- Where a string stands and what is in it. -/
theorem exists_mem_strings_iff {column : Nat} :
    (∃ m ∈ (stringPattern quote).allMatches line,
        m.offset = column ∧ m.part .content = contents) ↔
      StringAt quote line column contents := by
  constructor
  · rintro ⟨m, hm, rfl, rfl⟩
    obtain ⟨front, contents, back, hline, hcontents, heven, rfl⟩ := mem_strings_iff.mp hm
    rw [part_stringMatch]
    exact ⟨front, back, hline, by simp, hcontents, heven⟩
  · rintro ⟨front, back, hline, hcolumn, hcontents, heven⟩
    exact ⟨_, mem_strings_iff.mpr ⟨front, contents, back, hline, hcontents, heven, rfl⟩,
      by simpa using hcolumn, by simp⟩

end Literal
end LineLint
