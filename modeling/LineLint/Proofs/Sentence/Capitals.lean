import LineLint.Text.Case
import LineLint.Text.Space

/-! # Capitals

The upper-case form of a character starts with a capital: a character that is its
own upper-case form (`upperChar_eq_of_head`).  And no form holds white space, but
for that of white space itself (`eq_of_mem_upperChar`).

Both are read off the tables.  What a row maps to is a row again
(`CaseRow.moved`), and two rows that lie apart or alternate have no code point in
common (`CaseRow.misses`), so rows are compared as a whole and not code point by
code point.
-/
namespace LineLint
namespace Text

/-! ## Rows -/

/-- The code points that a row maps to. -/
def CaseRow.moved (row : CaseRow) : CaseRow :=
  ⟨(row.first + row.shift).toNat, (row.last + row.shift).toNat, row.stride, 0⟩

/-- The code points from `first` to `last`, mapped to themselves. -/
def CaseRow.range (first last : Nat) : CaseRow :=
  ⟨first, last, 1, 0⟩

/-- Whether every code point of a row is even, or every one is odd. -/
def CaseRow.hasParity (row : CaseRow) : Bool :=
  Nat.beq row.stride 2 || Nat.beq row.first row.last

/-- Whether two rows have no code point in common, as they lie apart or alternate. -/
def CaseRow.misses (row other : CaseRow) : Bool :=
  Nat.blt row.last other.first || Nat.blt other.last row.first ||
    (row.hasParity && (other.hasParity && Nat.beq ((row.first + other.first) % 2) 1))

theorem CaseRow.covers_iff (row : CaseRow) (code : Nat) :
    row.covers code = true ↔
      row.first ≤ code ∧ code ≤ row.last ∧ (code - row.first) % row.stride = 0 := by
  simp [covers, and_assoc]

theorem CaseRow.mod_two_of_hasParity {row : CaseRow} (h : row.hasParity = true) {code : Nat}
    (hcode : row.covers code = true) : code % 2 = row.first % 2 := by
  obtain ⟨hfirst, hlast, hstride⟩ := (row.covers_iff code).mp hcode
  rcases Bool.or_eq_true_iff.mp h with h | h
  · rw [Nat.eq_of_beq_eq_true h] at hstride
    omega
  · have := Nat.eq_of_beq_eq_true h
    rw [show code = row.first by omega]

theorem CaseRow.not_covers_of_misses {row other : CaseRow} (h : row.misses other = true)
    {code : Nat} (hcode : row.covers code = true) : other.covers code = false := by
  obtain ⟨hfirst, hlast, -⟩ := (row.covers_iff code).mp hcode
  refine Bool.eq_false_iff.mpr fun hother => ?_
  obtain ⟨hfirst', hlast', -⟩ := (other.covers_iff code).mp hother
  rw [misses, Bool.or_eq_true_iff, Bool.or_eq_true_iff] at h
  rcases h with (h | h) | h
  · have := Nat.blt_eq.mp h
    omega
  · have := Nat.blt_eq.mp h
    omega
  · obtain ⟨hrow, h⟩ := Bool.and_eq_true_iff.mp h
    obtain ⟨hparity, hodd⟩ := Bool.and_eq_true_iff.mp h
    have := Nat.eq_of_beq_eq_true hodd
    have := mod_two_of_hasParity hrow hcode
    have := mod_two_of_hasParity hparity hother
    omega

theorem CaseRow.covers_moved {row : CaseRow} (h : 0 ≤ row.first + row.shift) {code : Nat}
    (hcode : row.covers code = true) : row.moved.covers (code + row.shift).toNat = true := by
  obtain ⟨hfirst, hlast, hstride⟩ := (row.covers_iff code).mp hcode
  refine (row.moved.covers_iff _).mpr ⟨?_, ?_, ?_⟩
  · simp only [moved]
    omega
  · simp only [moved]
    omega
  · simp only [moved]
    rw [show (code + row.shift).toNat - (row.first + row.shift).toNat = code - row.first by omega]
    exact hstride

/-! ## What upper-case forms start with -/

/-- The small letters of ASCII. -/
def asciiRow : CaseRow :=
  ⟨0x61, 0x7A, 1, -32⟩

/-- The characters whose upper-case form is another character. -/
def risingRows : List CaseRow :=
  asciiRow :: upperRows

/-- The characters that no upper-case form starts with, unless they are their own: those with
another form, and white space. -/
def lowRows : List CaseRow :=
  risingRows ++ (upperExpansions.map fun expansion => .range expansion.1 expansion.1) ++
    spaceRanges.map fun range => .range range.1 range.2

/-- Whether a code point is neither mapped to another one nor white space. -/
def IsHigh (code : Nat) : Prop :=
  ∀ row ∈ lowRows, row.covers code = false

theorem isHigh_zero : IsHigh 0 := by
  have hall : lowRows.all (fun row => !row.covers 0) = true := by decide +kernel
  intro row hrow
  exact Bool.not_eq_true' _ ▸ List.all_eq_true.mp hall row hrow

theorem misses_moved {row : CaseRow} (h : row ∈ risingRows) :
    ∀ other ∈ lowRows, row.moved.misses other = true := by
  have hall : risingRows.all (fun row => lowRows.all row.moved.misses) = true := by
    decide +kernel
  exact List.all_eq_true.mp (List.all_eq_true.mp hall row h)

theorem misses_expansion {expansion : Nat × List Nat} (h : expansion ∈ upperExpansions) :
    ∃ first rest, expansion.2 = first :: rest ∧
      (∀ other ∈ lowRows, (CaseRow.range first first).misses other = true) ∧
      ∀ code ∈ rest, isSpace (Char.ofNat code) = false := by
  have hall : upperExpansions.all (fun expansion =>
      match expansion.2 with
      | [] => false
      | first :: rest => lowRows.all (CaseRow.range first first).misses &&
          rest.all fun code => !isSpace (Char.ofNat code)) = true := by
    decide +kernel
  have hone := List.all_eq_true.mp hall expansion h
  split at hone
  · cases hone
  · rename_i first rest heq
    obtain ⟨hfirst, hrest⟩ := Bool.and_eq_true_iff.mp hone
    exact ⟨first, rest, heq, List.all_eq_true.mp hfirst,
      fun code hcode => Bool.not_eq_true' _ ▸ List.all_eq_true.mp hrest code hcode⟩

theorem isHigh_toNat_ofNat {code : Nat} (h : IsHigh code) : IsHigh (Char.ofNat code).toNat := by
  by_cases hvalid : code.isValidChar
  · rw [Char.ofNat, dif_pos hvalid]
    exact h
  · rw [Char.ofNat, dif_neg hvalid]
    exact isHigh_zero

/-- A character that is mapped to another one goes where no mapping starts. -/
theorem shiftCase_eq_or_isHigh {rows : List CaseRow} (h : ∀ row ∈ rows, row ∈ risingRows)
    (c : Char) : shiftCase rows c = c ∨ IsHigh (shiftCase rows c).toNat := by
  rw [shiftCase]
  split
  · rename_i row hrow
    have hmem : row ∈ risingRows := h row (List.mem_of_find?_eq_some hrow)
    have hcovers := List.find?_some hrow
    have hnonneg : 0 ≤ row.first + row.shift := by
      have hall : risingRows.all (fun row => decide (0 ≤ row.first + row.shift)) = true := by
        decide +kernel
      exact of_decide_eq_true (List.all_eq_true.mp hall row hmem)
    refine Or.inr (isHigh_toNat_ofNat fun other hother => ?_)
    exact CaseRow.not_covers_of_misses (misses_moved hmem other hother)
      (CaseRow.covers_moved hnonneg hcovers)
  · exact Or.inl rfl

theorem toUpper_eq_shiftCase {c : Char} (h : c.toNat < 0x80) :
    c.toUpper = shiftCase [asciiRow] c := by
  have hall : ∀ i : Fin 0x80, (Char.ofNat i).toUpper = shiftCase [asciiRow] (Char.ofNat i) := by
    decide
  have hc := hall ⟨c.toNat, h⟩
  rwa [Char.ofNat_toNat] at hc

/-- A character is its own upper-case form, or that form starts with a high character and goes
on without white space. -/
theorem upperChar_cases (c : Char) :
    upperChar c = [c] ∨ ∃ first rest, upperChar c = first :: rest ∧ IsHigh first.toNat ∧
      ∀ d ∈ rest, isSpace d = false := by
  have hshift : ∀ rows : List CaseRow, (∀ row ∈ rows, row ∈ risingRows) →
      [shiftCase rows c] = [c] ∨ ∃ first rest, [shiftCase rows c] = first :: rest ∧
        IsHigh first.toNat ∧ ∀ d ∈ rest, isSpace d = false := by
    intro rows hrows
    rcases shiftCase_eq_or_isHigh hrows c with heq | hhigh
    · exact Or.inl (by rw [heq])
    · exact Or.inr ⟨_, [], rfl, hhigh, by simp⟩
  rw [upperChar]
  split
  · rename_i hascii
    rw [toUpper_eq_shiftCase hascii]
    exact hshift [asciiRow] (by simp [risingRows])
  · split
    · rename_i expansion hfind
      obtain ⟨first, rest, heq, hmisses, hrest⟩ :=
        misses_expansion (List.mem_of_find?_eq_some hfind)
      have hhigh : IsHigh first := fun other hother =>
        CaseRow.not_covers_of_misses (hmisses other hother) (by simp [CaseRow.covers, CaseRow.range])
      refine Or.inr ⟨Char.ofNat first, rest.map Char.ofNat, by rw [heq, List.map_cons],
        isHigh_toNat_ofNat hhigh, ?_⟩
      intro d hd
      obtain ⟨code, hcode, rfl⟩ := List.mem_map.mp hd
      exact hrest code hcode
    · exact hshift upperRows fun row hrow => List.mem_cons_of_mem _ hrow

/-! ## High characters -/

theorem upperChar_of_isHigh {c : Char} (h : IsHigh c.toNat) : upperChar c = [c] := by
  have hnone : ∀ rows : List CaseRow, (∀ row ∈ rows, row ∈ lowRows) → shiftCase rows c = c := by
    intro rows hrows
    have hfind : rows.find? (·.covers c.toNat) = none :=
      List.find?_eq_none.mpr fun row hrow => by simp [h row (hrows row hrow)]
    rw [shiftCase, hfind]
  rw [upperChar]
  split
  · rename_i hascii
    rw [toUpper_eq_shiftCase hascii, hnone [asciiRow] (by simp [lowRows, risingRows])]
  · have hfind : upperExpansions.find? (·.1 == c.toNat) = none := by
      refine List.find?_eq_none.mpr fun expansion hexpansion heq => ?_
      have hfalse := h (.range expansion.1 expansion.1)
        (List.mem_append_left _ (List.mem_append_right _ (List.mem_map_of_mem hexpansion)))
      rw [← beq_iff_eq.mp heq] at hfalse
      simp [CaseRow.covers, CaseRow.range] at hfalse
    rw [hfind]
    simp only
    rw [hnone upperRows fun row hrow =>
      List.mem_append_left _ (List.mem_append_left _ (List.mem_cons_of_mem _ hrow))]

theorem isSpace_of_isHigh {c : Char} (h : IsHigh c.toNat) : isSpace c = false := by
  refine Bool.eq_false_iff.mpr fun hspace => ?_
  obtain ⟨range, hrange, hlow, hhigh⟩ := (inRanges_iff spaceRanges c).mp hspace
  have hfalse := h (.range range.1 range.2) (List.mem_append_right _ (List.mem_map_of_mem hrange))
  simp [CaseRow.covers, CaseRow.range, Nat.mod_one, hlow, hhigh] at hfalse

/-! ## Upper-case forms -/

/-- **An upper-case form starts with a character that is its own upper-case form.** -/
theorem upperChar_eq_of_head {c first : Char} {rest : List Char}
    (h : upperChar c = first :: rest) : upperChar first = [first] := by
  rcases upperChar_cases c with hsame | ⟨d, others, heq, hhigh, -⟩
  · obtain ⟨rfl, -⟩ := List.cons.inj (hsame.symm.trans h)
    exact hsame
  · obtain ⟨rfl, -⟩ := List.cons.inj (heq.symm.trans h)
    exact upperChar_of_isHigh hhigh

theorem upperChar_ne_nil (c : Char) : upperChar c ≠ [] := by
  rcases upperChar_cases c with hsame | ⟨d, others, heq, -, -⟩
  · simp [hsame]
  · simp [heq]

/-- **White space in an upper-case form is the character itself.** -/
theorem eq_of_mem_upperChar {c d : Char} (h : d ∈ upperChar c) (hspace : isSpace d = true) :
    d = c := by
  rcases upperChar_cases c with hsame | ⟨first, rest, heq, hhigh, hrest⟩
  · rwa [hsame, List.mem_singleton] at h
  · rw [heq] at h
    rcases List.mem_cons.mp h with rfl | h
    · rw [isSpace_of_isHigh hhigh] at hspace
      cases hspace
    · rw [hrest d h] at hspace
      cases hspace

end Text
end LineLint
