import LineLint.Code.Comment
import LineLint.Proofs.Literal.Strings
import Mathlib.Order.Bounds.Basic

/-! # Comments and the strings around them

Two scans read the quotes of a line.  The one that cuts a comment off counts them as it goes; so a
comment starts at the first marker that has an even number of quotes in front of it
(`Code.cutComment_cases`).  The other one takes the contents of strings out, and it does what the
replacement of all matches of the pattern for strings does (`Code.blankStrings_eq_replaceAll`): each
quote is paired with the next one, and a quote without a partner is left as it is.

A marker has no quotes in it, so it lies outside of strings or inside of one as a whole.  Outside,
nothing is taken out of it; inside, it is either taken out or stands behind a quote without a partner,
behind which nothing is cut.  So the two scans may be made in either order
(`Code.cutComment_dropContents`).
-/
namespace LineLint

/-! ## Replacing all matches -/

/-- The text from a position on, with matches that lie behind it replaced. -/
def Text.splice (new text : List Char) (position : Nat) : List Match → List Char
  | [] => text.drop position
  | m :: later =>
    (text.drop position).take (m.offset - position) ++ new ++
      splice new text (m.offset + m.length) later

/-- A text with all matches of a pattern replaced by another text. -/
def Pattern.replaceAll (p : Pattern) (new text : List Char) : List Char :=
  Text.splice new text 0 (p.allMatches text)

namespace Code

open Literal (stringPattern)
open Pattern

/-! ## Strings -/

theorem dropContents_of_notMem {line : List Char} (h : '"' ∉ line) :
    dropContents false line = line := by
  induction line with
  | nil => rfl
  | cons c line ih =>
    obtain ⟨hc, hline⟩ := not_or.mp (mt List.mem_cons.mpr h)
    rw [dropContents, if_neg (Ne.symm hc), if_neg Bool.false_ne_true, ih hline]

theorem dropContents_string {contents : List Char} (h : '"' ∉ contents) (back : List Char) :
    dropContents true (contents ++ '"' :: back) = '"' :: dropContents false back := by
  induction contents with
  | nil => rfl
  | cons c contents ih =>
    obtain ⟨hc, hcontents⟩ := not_or.mp (mt List.mem_cons.mpr h)
    rw [List.cons_append, dropContents, if_neg (Ne.symm hc), if_pos rfl, ih hcontents]

theorem dropContents_string_cons {contents : List Char} (h : '"' ∉ contents) (back : List Char) :
    dropContents false ('"' :: (contents ++ '"' :: back)) =
      '"' :: '"' :: dropContents false back := by
  have hclose : (contents ++ '"' :: back).contains '"' = true := by simp
  rw [dropContents, if_pos rfl, hclose]
  exact congrArg ('"' :: ·) (dropContents_string h back)

/-- A character that starts no string is kept. -/
theorem dropContents_cons {c : Char} {rest : List Char} (h : ¬ (c = '"' ∧ '"' ∈ rest)) :
    dropContents false (c :: rest) = c :: dropContents false rest := by
  rw [dropContents]
  by_cases hc : c = '"'
  · have hopen : rest.contains '"' = false := by simpa [hc] using h
    rw [if_pos hc, hopen]
    rfl
  · rw [if_neg hc, if_neg Bool.false_ne_true]

variable {before : List Char}

/-- A string is found where it starts, and the search goes on behind it. -/
theorem matchesBehind_string {contents : List Char} (h : '"' ∉ contents) (back : List Char) :
    (stringPattern '"').matchesBehind before 0 ('"' :: (contents ++ '"' :: back)) =
      Literal.stringMatch '"' before contents back ::
        (stringPattern '"').matchesBehind (('"' :: (contents ++ ['"'])).reverse ++ before) 0 back := by
  have hgo := (stringPattern '"').matchesBehind_length ('"' :: before) (contents ++ ['"']) back
  rw [List.length_append, List.length_singleton, List.append_assoc, List.singleton_append] at hgo
  rw [matchesBehind, Literal.at?_string h]
  simp only [Literal.length_stringMatch, Nat.add_succ_sub_one, hgo, List.reverse_cons,
    List.append_assoc, List.singleton_append]

/-- No string starts anywhere else. -/
theorem matchesBehind_cons {c : Char} {rest : List Char} (h : ¬ (c = '"' ∧ '"' ∈ rest)) :
    (stringPattern '"').matchesBehind before 0 (c :: rest) =
      (stringPattern '"').matchesBehind (c :: before) 0 rest := by
  have hat : (stringPattern '"').at? ⟨before, c :: rest⟩ = none := by
    refine Option.eq_none_iff_forall_ne_some.mpr fun m hm => h ?_
    obtain ⟨contents, back, hstring, -⟩ := Literal.exists_string_of_at? hm
    obtain ⟨hc, hrest⟩ := List.cons_eq_cons.mp hstring
    exact ⟨hc, by simp [hrest]⟩
  rw [matchesBehind, hat]

/-- Strings are emptied one after the other.  What stands between the last one and the place that has
been reached is kept until the next one is found. -/
theorem splice_strings (done plain after : List Char) :
    Text.splice "\"\"".toList (done ++ plain ++ after) done.length
        ((stringPattern '"').matchesBehind (plain.reverse ++ done.reverse) 0 after) =
      plain ++ dropContents false after := by
  cases after with
  | nil =>
    have hat : (stringPattern '"').at? ⟨plain.reverse ++ done.reverse, []⟩ = none := by
      refine Option.eq_none_iff_forall_ne_some.mpr fun m hm => ?_
      obtain ⟨contents, back, hstring, -⟩ := Literal.exists_string_of_at? hm
      cases hstring
    rw [matchesBehind, if_pos rfl, hat]
    simp [Text.splice, dropContents]
  | cons c rest =>
    by_cases hstring : c = '"' ∧ '"' ∈ rest
    · obtain ⟨rfl, hclose⟩ := hstring
      obtain ⟨contents, back, rfl, hcontents⟩ := List.eq_append_cons_of_mem hclose
      have hmore := splice_strings (done ++ plain ++ '"' :: (contents ++ ['"'])) [] back
      have hoffset : (plain.reverse ++ done.reverse).length = done.length + plain.length := by
        simp [Nat.add_comm]
      have hposition : done.length + plain.length + (contents.length + 2) =
          (done ++ plain ++ '"' :: (contents ++ ['"'])).length := by
        simp [Nat.add_assoc]
      have hkept : ((done ++ plain ++ '"' :: (contents ++ '"' :: back)).drop done.length).take
          (done.length + plain.length - done.length) = plain := by
        rw [List.append_assoc, List.drop_left, Nat.add_sub_cancel_left, List.take_left]
      rw [matchesBehind_string hcontents, dropContents_string_cons hcontents, Text.splice,
        Literal.offset_stringMatch, Literal.length_stringMatch, hoffset, hposition, hkept]
      simp only [List.reverse_append, List.append_nil, List.reverse_nil, List.nil_append,
        List.append_assoc, List.cons_append] at hmore ⊢
      rw [hmore]
      rfl
    · have hmore := splice_strings done (plain ++ [c]) rest
      rw [matchesBehind_cons hstring, dropContents_cons hstring]
      simpa using hmore
  termination_by after.length

/-- **Taking the contents of strings out** replaces each string by an empty one. -/
theorem blankStrings_eq_replaceAll (line : List Char) :
    blankStrings line = (stringPattern '"').replaceAll "\"\"".toList line :=
  (splice_strings [] [] line).symm

/-! ## Where comments start -/

/-- The places of a line where a marker stands outside of strings, as the numbers of characters in
front of them; `inString` tells whether the line starts inside a string. -/
def markerColumns (marker : List Char) (inString : Bool) (line : List Char) : Set Nat :=
  {column | marker <+: line.drop column ∧ Even ((line.take column).count '"' + inString.toNat)}

variable {marker line : List Char} {inString : Bool} {c : Char} {column : Nat}

theorem mem_markerColumns_zero :
    0 ∈ markerColumns marker inString line ↔ marker <+: line ∧ inString = false := by
  cases inString <;> simp [markerColumns]

theorem mem_markerColumns_succ :
    column + 1 ∈ markerColumns marker inString (c :: line) ↔
      column ∈ markerColumns marker (if c = '"' then !inString else inString) line := by
  have hparity : Even (((c :: line).take (column + 1)).count '"' + inString.toNat) ↔
      Even ((line.take column).count '"' + (if c = '"' then !inString else inString).toNat) := by
    rw [List.take_succ_cons]
    by_cases hc : c = '"'
    · rw [hc, if_pos rfl, List.count_cons_self]
      cases inString with
      | false => rfl
      | true => exact Nat.even_add_one.trans (not_iff_comm.mp Nat.even_add_one.symm)
    · rw [if_neg hc, List.count_cons_of_ne hc]
  exact and_congr_right' hparity

/-- Where no marker stands in front, the first one is the first one of the rest. -/
theorem isLeast_markerColumns_succ (hzero : 0 ∉ markerColumns marker inString (c :: line))
    (h : IsLeast (markerColumns marker (if c = '"' then !inString else inString) line) column) :
    IsLeast (markerColumns marker inString (c :: line)) (column + 1) := by
  refine ⟨mem_markerColumns_succ.mpr h.1, fun other hother => ?_⟩
  cases other with
  | zero => exact absurd hother hzero
  | succ other => exact Nat.succ_le_succ (h.2 (mem_markerColumns_succ.mp hother))

theorem markerColumns_eq_empty (hzero : 0 ∉ markerColumns marker inString (c :: line))
    (h : markerColumns marker (if c = '"' then !inString else inString) line = ∅) :
    markerColumns marker inString (c :: line) = ∅ := by
  refine Set.eq_empty_of_forall_notMem fun other hother => ?_
  cases other with
  | zero => exact hzero hother
  | succ other => exact Set.notMem_empty other (h ▸ mem_markerColumns_succ.mp hother)

/-- **A line is cut at the first marker outside of strings**, and kept if there is none. -/
theorem cutComment_cases (hne : marker ≠ []) (hquote : '"' ∉ marker) (inString : Bool)
    (line : List Char) :
    (∃ column, IsLeast (markerColumns marker inString line) column ∧
      cutComment marker inString line = line.take column) ∨
    markerColumns marker inString line = ∅ ∧ cutComment marker inString line = line := by
  induction line generalizing inString with
  | nil =>
    refine Or.inr ⟨Set.eq_empty_of_forall_notMem fun column hcolumn => hne ?_, rfl⟩
    have hstands := hcolumn.1
    rwa [List.drop_nil, List.prefix_nil] at hstands
  | cons c line ih =>
    -- what holds of the rest holds of the line if the first character is kept
    have hkeep : 0 ∉ markerColumns marker inString (c :: line) →
        cutComment marker inString (c :: line) =
          c :: cutComment marker (if c = '"' then !inString else inString) line →
        (∃ column, IsLeast (markerColumns marker inString (c :: line)) column ∧
          cutComment marker inString (c :: line) = (c :: line).take column) ∨
        markerColumns marker inString (c :: line) = ∅ ∧
          cutComment marker inString (c :: line) = c :: line := by
      intro hzero hcut
      rw [hcut]
      rcases ih (if c = '"' then !inString else inString) with ⟨column, hleast, hrest⟩ | ⟨hnone, hrest⟩
      · exact Or.inl ⟨column + 1, isLeast_markerColumns_succ hzero hleast, by rw [hrest]; rfl⟩
      · exact Or.inr ⟨markerColumns_eq_empty hzero hnone, by rw [hrest]⟩
    by_cases hc : c = '"'
    · refine hkeep (fun hzero => ?_) (by rw [cutComment, if_pos hc, if_pos hc])
      obtain ⟨d, marker, rfl⟩ := List.exists_cons_of_ne_nil hne
      obtain ⟨rfl, -⟩ := List.cons_prefix_cons.mp (mem_markerColumns_zero.mp hzero).1
      exact hquote (hc ▸ List.mem_cons_self)
    · by_cases hmarker : (!inString && marker.isPrefixOf (c :: line)) = true
      · obtain ⟨hout, hstands⟩ := Bool.and_eq_true_iff.mp hmarker
        refine Or.inl ⟨0, ⟨mem_markerColumns_zero.mpr ⟨List.isPrefixOf_iff_prefix.mp hstands,
          by simpa using hout⟩, fun _ _ => Nat.zero_le _⟩, ?_⟩
        rw [cutComment, if_neg hc, if_pos hmarker]
        rfl
      · refine hkeep (fun hzero => hmarker ?_) (by
          rw [cutComment, if_neg hc, if_neg hmarker, if_neg hc])
        obtain ⟨hstands, rfl⟩ := mem_markerColumns_zero.mp hzero
        simpa using List.isPrefixOf_iff_prefix.mpr hstands

/-- No marker is left in front of the first one. -/
theorem markerColumns_take (hne : marker ≠ [])
    (h : IsLeast (markerColumns marker inString line) column) :
    markerColumns marker inString (line.take column) = ∅ := by
  refine Set.eq_empty_of_forall_notMem fun other hother => ?_
  obtain ⟨hstands, heven⟩ := hother
  have hlt : other < column := by
    by_contra hle
    rw [List.drop_eq_nil_of_le (by rw [List.length_take]; omega), List.prefix_nil] at hstands
    exact hne hstands
  rw [List.drop_take] at hstands
  rw [List.take_take, Nat.min_eq_left hlt.le] at heven
  exact absurd (h.2 ⟨hstands.trans (List.take_prefix _ _), heven⟩) (Nat.not_le.mpr hlt)

/-- Nothing more is cut off a line whose comment has been cut off. -/
theorem stripComment_stripComment (hne : marker ≠ []) (hquote : '"' ∉ marker) (line : List Char) :
    stripComment (stripComment line marker) marker = stripComment line marker := by
  have hkept : ∀ {text : List Char}, markerColumns marker false text = ∅ →
      stripComment text marker = text := by
    intro text hnone
    rcases cutComment_cases hne hquote false text with ⟨column, hleast, -⟩ | ⟨-, hcut⟩
    · exact absurd (hnone ▸ hleast.1) (Set.notMem_empty column)
    · exact hcut
  rcases cutComment_cases hne hquote false line with ⟨column, hleast, hcut⟩ | ⟨hnone, hcut⟩
  · rw [show stripComment line marker = line.take column from hcut]
    exact hkept (markerColumns_take hne hleast)
  · rw [show stripComment line marker = line from hcut]
    exact hkept hnone

/-! ## Comments of lines with empty strings -/

theorem cutComment_cons_inside (hc : c ≠ '"') (line : List Char) :
    cutComment marker true (c :: line) = c :: cutComment marker true line := by
  rw [cutComment, if_neg hc]
  rfl

/-- Nothing is cut behind a quote without a partner. -/
theorem cutComment_of_notMem (h : '"' ∉ line) : cutComment marker true line = line := by
  induction line with
  | nil => rfl
  | cons c line ih =>
    obtain ⟨hc, hline⟩ := not_or.mp (mt List.mem_cons.mpr h)
    rw [cutComment_cons_inside (Ne.symm hc), ih hline]

/-- Inside of a string nothing is cut, so its end is kept. -/
theorem mem_cutComment (h : '"' ∈ line) : '"' ∈ cutComment marker true line := by
  induction line with
  | nil => cases h
  | cons c line ih =>
    by_cases hc : c = '"'
    · rw [cutComment, if_pos hc, hc]
      exact List.mem_cons_self
    · rw [cutComment_cons_inside hc]
      exact List.mem_cons_of_mem c (ih ((List.mem_cons.mp h).resolve_left (Ne.symm hc)))

/-- A text without quotes that starts outside of strings is not touched when they are emptied. -/
theorem prefix_dropContents_iff (hquote : '"' ∉ marker) :
    marker <+: dropContents false line ↔ marker <+: line := by
  induction line generalizing marker with
  | nil => rfl
  | cons c line ih =>
    cases marker with
    | nil => simp
    | cons d marker =>
      obtain ⟨hd, hmarker⟩ := not_or.mp (mt List.mem_cons.mpr hquote)
      rw [dropContents]
      by_cases hc : c = '"'
      · rw [if_pos hc, List.cons_prefix_cons, List.cons_prefix_cons]
        exact iff_of_false (fun h => hd (h.1.trans hc).symm) fun h => hd (h.1.trans hc).symm
      · rw [if_neg hc, if_neg Bool.false_ne_true, List.cons_prefix_cons, List.cons_prefix_cons,
          ih hmarker]

/-- **Strings may be emptied before the comment is cut off or behind it.** -/
theorem cutComment_dropContents (hquote : '"' ∉ marker) (h : inString = true → '"' ∈ line) :
    cutComment marker inString (dropContents inString line) =
      dropContents inString (cutComment marker inString line) := by
  induction line generalizing inString with
  | nil => rfl
  | cons c line ih =>
    by_cases hc : c = '"'
    · subst hc
      rw [dropContents, if_pos rfl, cutComment, if_pos rfl, cutComment, if_pos rfl, dropContents,
        if_pos rfl]
      refine congrArg ('"' :: ·) ?_
      cases inString with
      | true => exact ih fun h => absurd h Bool.false_ne_true
      | false =>
        by_cases hclose : '"' ∈ line
        · have hkept : '"' ∈ cutComment marker true line := mem_cutComment hclose
          simp only [Bool.not_false, Bool.true_and, List.contains_iff_mem.mpr hclose,
            List.contains_iff_mem.mpr hkept]
          exact ih fun _ => hclose
        · have hopen : line.contains '"' = false := by simpa using hclose
          rw [Bool.not_false, cutComment_of_notMem hclose, hopen, Bool.and_false,
            dropContents_of_notMem hclose, cutComment_of_notMem hclose]
    · cases inString with
      | true =>
        have hline : '"' ∈ line := (List.mem_cons.mp (h rfl)).resolve_left (Ne.symm hc)
        rw [dropContents, if_neg hc, if_pos rfl, cutComment_cons_inside hc, dropContents, if_neg hc,
          if_pos rfl]
        exact ih fun _ => hline
      | false =>
        have hdrop : dropContents false (c :: line) = c :: dropContents false line := by
          rw [dropContents, if_neg hc, if_neg Bool.false_ne_true]
        have hmarker : marker.isPrefixOf (c :: dropContents false line) =
            marker.isPrefixOf (c :: line) := by
          rw [Bool.eq_iff_iff, List.isPrefixOf_iff_prefix, List.isPrefixOf_iff_prefix, ← hdrop,
            prefix_dropContents_iff hquote]
        rw [hdrop, cutComment, if_neg hc, hmarker, cutComment, if_neg hc]
        split
        · rfl
        · have hrest : cutComment marker false (dropContents false line) =
              dropContents false (cutComment marker false line) :=
            ih fun h => absurd h Bool.false_ne_true
          rw [dropContents, if_neg hc, if_neg Bool.false_ne_true, hrest]

/-- **Comments are cut off at the first marker with an even number of quotes in front of it.**  A line
without such a marker is kept, nothing more is cut off a second time, and it does not matter whether
strings are emptied before the comment is cut off or behind it. -/
theorem stripComment_at_first_marker {marker : List Char} (hne : marker ≠ [])
    (hquote : '"' ∉ marker) (line : List Char) :
    (∀ column, IsLeast
        {column | marker <+: line.drop column ∧ Even ((line.take column).count '"')} column →
      stripComment line marker = line.take column) ∧
    ((∀ column, marker <+: line.drop column → ¬ Even ((line.take column).count '"')) →
      stripComment line marker = line) ∧
    stripComment (stripComment line marker) marker = stripComment line marker ∧
    codeOnly line marker =
      stripComment ((stringPattern '"').replaceAll "\"\"".toList line) marker ∧
    codeOnly line marker =
      (stringPattern '"').replaceAll "\"\"".toList (stripComment line marker) := by
  refine ⟨fun column hleast => ?_, fun hnone => ?_, stripComment_stripComment hne hquote line, ?_, ?_⟩
  · rcases cutComment_cases hne hquote false line with ⟨first, hfirst, hcut⟩ | ⟨hnone, -⟩
    · rw [hleast.unique hfirst]
      exact hcut
    · exact absurd (hnone ▸ hleast.1 : column ∈ (∅ : Set Nat)) (Set.notMem_empty column)
  · rcases cutComment_cases hne hquote false line with ⟨first, hfirst, -⟩ | ⟨-, hcut⟩
    · exact absurd hfirst.1.2 (hnone first hfirst.1.1)
    · exact hcut
  · rw [← blankStrings_eq_replaceAll]
    rfl
  · rw [← blankStrings_eq_replaceAll]
    exact cutComment_dropContents hquote fun h => absurd h Bool.false_ne_true

/-- A marker in a string, two strings, and quotes in the comment. -/
theorem stripComment_at_first_marker_behind_strings :
    let marker := "//".toList
    let line := "a = \"x // y\"; // \"z\" // it\"s".toList
    marker ≠ [] ∧ '"' ∉ marker ∧
      IsLeast {column | marker <+: line.drop column ∧ Even ((line.take column).count '"')} 14 ∧
      stripComment line marker = "a = \"x // y\"; ".toList ∧
      codeOnly line marker = "a = \"\"; ".toList := by
  intro marker line
  have hne : marker ≠ [] := by decide
  have hquote : '"' ∉ marker := by decide
  have hleast : IsLeast
      {column | marker <+: line.drop column ∧ Even ((line.take column).count '"')} 14 := by
    refine ⟨⟨by decide, by decide⟩, fun column hcolumn => Nat.not_lt.mp fun hlt => ?_⟩
    have hnone : ∀ column < 14,
        ¬ (marker <+: line.drop column ∧ Even ((line.take column).count '"')) := by decide
    exact hnone column hlt hcolumn
  obtain ⟨hcut, -, -, -, hcode⟩ := stripComment_at_first_marker hne hquote line
  refine ⟨hne, hquote, hleast, hcut 14 hleast, ?_⟩
  rw [hcode, hcut 14 hleast]
  decide +kernel

end Code
end LineLint
