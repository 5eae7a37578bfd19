import LineLint.Proofs.Literal.Places
import Mathlib.Data.Set.Card
import Mathlib.Order.Bounds.Basic

/-! # Which literals are reported

The rule for repeated literals keeps records, and what it says of a literal is read off its
records.  Here it is said of the literals themselves: the places of a literal
(`Literal.places`) are a set, its lines are another one, and the numbers in a report are the
sizes of these sets.

`Rule.repeatedLiteral_reports` is the whole rule: one issue for each literal on enough lines,
at its first place.  Issues follow the order in which the literals are first recorded, and this
is not always that of the text (`Rule.repeatedLiteral_order`).
-/
namespace LineLint
namespace Literal

variable {snippet : Snippet} {key : Key}

/-- The places where a literal stands, in the order of the text. -/
def places (snippet : Snippet) (key : Key) : Set (ℕ ×ₗ ℕ) :=
  {place | ∃ spelling, OccursAt snippet key spelling (ofLex place).1 (ofLex place).2}

/-- The lines on which a literal stands. -/
def lineSet (snippet : Snippet) (key : Key) : Set ℕ :=
  {number | ∃ spelling column, OccursAt snippet key spelling number column}

/-- The records of one literal. -/
def recordsOf (snippet : Snippet) (key : Key) : List Placed :=
  (placed snippet).filter fun found => found.key == key

theorem mem_recordsOf {found : Placed} :
    found ∈ recordsOf snippet key ↔ found ∈ placed snippet ∧ found.key = key := by
  rw [recordsOf, List.mem_filter, beq_iff_eq]

/-- Records of one literal are in the order of the text. -/
theorem pairwise_recordsOf (snippet : Snippet) (key : Key) :
    (recordsOf snippet key).Pairwise fun a b => a.place < b.place := by
  refine ((pairwise_placed snippet).filter _).imp_of_mem ?_
  intro a b ha hb hlt
  have hkey : ∀ {found}, found ∈ recordsOf snippet key → found.key = key :=
    fun h => (mem_recordsOf.mp h).2
  exact (Placed.rank_lt_iff_place_lt (by rw [hkey ha, hkey hb])).mp hlt

theorem mem_places_iff {place : ℕ ×ₗ ℕ} :
    place ∈ places snippet key ↔ place ∈ (recordsOf snippet key).map Placed.place := by
  rw [List.mem_map]
  constructor
  · rintro ⟨spelling, h⟩
    exact ⟨⟨⟨key, spelling, _⟩, _⟩, mem_recordsOf.mpr ⟨mem_placed_iff.mpr h, rfl⟩, rfl⟩
  · rintro ⟨found, hfound, rfl⟩
    obtain ⟨hplaced, rfl⟩ := mem_recordsOf.mp hfound
    exact ⟨found.spelling, mem_placed_iff.mp hplaced⟩

theorem mem_lineSet_iff {number : ℕ} :
    number ∈ lineSet snippet key ↔ number ∈ (recordsOf snippet key).map (·.line) := by
  rw [List.mem_map]
  constructor
  · rintro ⟨spelling, column, h⟩
    exact ⟨⟨⟨key, spelling, number⟩, column⟩, mem_recordsOf.mpr ⟨mem_placed_iff.mpr h, rfl⟩, rfl⟩
  · rintro ⟨found, hfound, rfl⟩
    obtain ⟨hplaced, rfl⟩ := mem_recordsOf.mp hfound
    exact ⟨found.spelling, found.column, mem_placed_iff.mp hplaced⟩

/-! ## Counting -/

theorem linesOf_occurrences (snippet : Snippet) (key : Key) :
    linesOf (occurrences snippet) key = (recordsOf snippet key).map (·.line) := by
  rw [← map_toOccurrence_placed, linesOf, List.filter_map, List.map_map]
  rfl

/-- The size of a set whose members are listed. -/
theorem ncard_eq_card {α : Type} [DecidableEq α] {s : Set α} {l : List α}
    (h : ∀ a, a ∈ s ↔ a ∈ l) : s.ncard = l.toFinset.card := by
  have hset : s = ↑l.toFinset := by
    ext a
    rw [h, Finset.mem_coe, List.mem_toFinset]
  rw [hset, Set.ncard_coe_finset]

/-- The count in the message is the number of places. -/
theorem ncard_places (snippet : Snippet) (key : Key) :
    (places snippet key).ncard = (linesOf (occurrences snippet) key).length := by
  have hnodup : ((recordsOf snippet key).map Placed.place).Nodup :=
    List.pairwise_map.mpr ((pairwise_recordsOf snippet key).imp ne_of_lt)
  rw [ncard_eq_card fun place => mem_places_iff, List.toFinset_card_of_nodup hnodup,
    linesOf_occurrences, List.length_map, List.length_map]

/-- In a list that is in order, equal entries stand together, so each is kept once. -/
theorem length_eraseReps_loop (n : ℕ) (lines acc : List ℕ)
    (h : (n :: lines).Pairwise (· ≤ ·)) :
    (List.eraseRepsBy.loop (· == ·) n lines acc).length =
      acc.length + (n :: lines).toFinset.card := by
  induction lines generalizing n acc with
  | nil => simp [List.eraseRepsBy.loop]
  | cons m rest ih =>
    obtain ⟨hle, hrest⟩ := List.pairwise_cons.mp h
    rw [List.eraseRepsBy.loop]
    by_cases heq : n = m
    · subst heq
      simp only [beq_self_eq_true]
      rw [ih n acc hrest]
      simp
    · -- the list goes up, so a number that changes does not come back
      have hfresh : n ∉ (m :: rest).toFinset := by
        intro hmem
        rcases List.mem_cons.mp (List.mem_toFinset.mp hmem) with rfl | hmem
        · exact heq rfl
        · have hback := (List.pairwise_cons.mp hrest).1 n hmem
          exact heq (Nat.le_antisymm (hle m List.mem_cons_self) hback)
      rw [beq_false_of_ne heq]
      simp only
      rw [ih m (n :: acc) hrest, List.toFinset_cons (a := n), Finset.card_insert_of_notMem hfresh,
        List.length_cons]
      omega

theorem countDistinct_eq_card {lines : List ℕ} (h : lines.Pairwise (· ≤ ·)) :
    countDistinct lines = lines.toFinset.card := by
  cases lines with
  | nil => rfl
  | cons n lines =>
    rw [countDistinct, List.eraseReps, List.eraseRepsBy, length_eraseReps_loop n lines [] h,
      List.length_nil, Nat.zero_add]

/-- The count that decides is the number of lines. -/
theorem ncard_lineSet (snippet : Snippet) (key : Key) :
    (lineSet snippet key).ncard = countDistinct (linesOf (occurrences snippet) key) := by
  have hordered : (linesOf (occurrences snippet) key).Pairwise (· ≤ ·) :=
    List.pairwise_map.mpr ((pairwise_occurrences snippet).filter _)
  rw [countDistinct_eq_card hordered, linesOf_occurrences, ncard_eq_card fun _ => mem_lineSet_iff]

/-! ## First places -/

/-- The first of several things in order has the least place. -/
theorem isLeast_of_head? {α β : Type} [Preorder β] {place : α → β} {l : List α} {first : α}
    (h : l.Pairwise fun a b => place a ≤ place b) (hfirst : l.head? = some first) :
    IsLeast {p | p ∈ l.map place} (place first) := by
  obtain ⟨rest, rfl⟩ := List.head?_eq_some_iff.mp hfirst
  refine ⟨List.mem_cons_self, ?_⟩
  rintro p (hp : p ∈ (first :: rest).map place)
  rcases List.mem_cons.mp hp with rfl | hp
  · exact le_refl _
  · obtain ⟨a, ha, rfl⟩ := List.mem_map.mp hp
    exact (List.pairwise_cons.mp h).1 a ha

/-- In a list in strict order, positions compare as the places do. -/
theorem lt_iff_of_pairwise {α β : Type} [Preorder β] {place : α → β} {l : List α}
    (h : l.Pairwise fun a b => place a < place b) {i j : ℕ} (hi : i < l.length)
    (hj : j < l.length) : i < j ↔ place l[i] < place l[j] := by
  constructor
  · exact List.pairwise_iff_getElem.mp h i j hi hj
  · intro hlt
    by_contra hnot
    rcases Nat.lt_or_eq_of_le (Nat.le_of_not_lt hnot) with hback | rfl
    · exact lt_asymm hlt (List.pairwise_iff_getElem.mp h j i hj hi hback)
    · exact lt_irrefl _ hlt

/-- First occurrences, with their places: of each literal the record that comes first. -/
theorem exists_sublist_firstOccurrences (seen : List Key) (all : List Placed) :
    ∃ firsts : List Placed, firsts.Sublist all ∧
      firstOccurrences seen (all.map Placed.toOccurrence) = firsts.map Placed.toOccurrence ∧
      ∀ found, found ∈ firsts ↔ found.key ∉ seen ∧
        (all.filter fun other => other.key == found.key).head? = some found := by
  induction all generalizing seen with
  | nil => exact ⟨[], List.Sublist.refl [], rfl, by simp⟩
  | cons record rest ih =>
    rw [List.map_cons, firstOccurrences]
    by_cases hseen : record.key ∈ seen
    · obtain ⟨firsts, hsublist, hfirsts, hmem⟩ := ih seen
      rw [if_pos (List.contains_iff_mem.mpr hseen)]
      refine ⟨firsts, hsublist.cons record, hfirsts, ?_⟩
      intro found
      rw [hmem found]
      refine and_congr_right ?_
      intro hfresh
      -- the record is of a literal that was seen before
      have hne : record.key ≠ found.key := fun heq => hfresh (heq ▸ hseen)
      rw [List.filter_cons_of_neg (by simpa using hne)]
    · obtain ⟨firsts, hsublist, hfirsts, hmem⟩ := ih (record.key :: seen)
      rw [if_neg (mt List.contains_iff_mem.mp hseen), hfirsts]
      refine ⟨record :: firsts, hsublist.cons_cons record, rfl, ?_⟩
      intro found
      rw [List.mem_cons, hmem found, List.mem_cons, not_or]
      by_cases heq : record.key = found.key
      · rw [List.filter_cons_of_pos (by simpa using heq), List.head?_cons, Option.some.injEq,
          ← heq]
        simp [hseen, eq_comm]
      · have hne : found ≠ record := fun h => heq (h ▸ rfl)
        rw [List.filter_cons_of_neg (by simpa using heq)]
        simp [hne, Ne.symm heq]

/-- The first record of a literal is at its first place. -/
theorem isLeast_places {first : Placed}
    (h : (recordsOf snippet first.key).head? = some first) :
    IsLeast (places snippet first.key) first.place := by
  have hset : places snippet first.key =
      {place | place ∈ (recordsOf snippet first.key).map Placed.place} :=
    Set.ext fun _ => mem_places_iff
  rw [hset]
  exact isLeast_of_head? ((pairwise_recordsOf snippet first.key).imp le_of_lt) h

theorem isLeast_lineSet {first : Placed}
    (h : (recordsOf snippet first.key).head? = some first) :
    IsLeast (lineSet snippet first.key) first.line := by
  have hset : lineSet snippet first.key =
      {number | number ∈ (recordsOf snippet first.key).map (·.line)} :=
    Set.ext fun _ => mem_lineSet_iff
  rw [hset]
  refine isLeast_of_head? ((pairwise_recordsOf snippet first.key).imp ?_) h
  intro a b hlt
  rcases Placed.place_lt_iff.mp hlt with hlt | ⟨heq, -⟩
  · exact Nat.le_of_lt hlt
  · exact Nat.le_of_eq heq

/-- The first records of all literals of a snippet, in the order in which they are made. -/
structure FirstRecords (snippet : Snippet) (firsts : List Placed) : Prop where
  /-- They are the first occurrences. -/
  occurrences_eq : firstOccurrences [] (occurrences snippet) = firsts.map Placed.toOccurrence
  /-- They are in order. -/
  pairwise : firsts.Pairwise fun a b => a.rank < b.rank
  /-- Of each literal they have the record that comes first. -/
  mem_iff (first : Placed) : first ∈ firsts ↔ (recordsOf snippet first.key).head? = some first

theorem exists_firstRecords (snippet : Snippet) : ∃ firsts, FirstRecords snippet firsts := by
  obtain ⟨firsts, hsublist, hfirsts, hmem⟩ := exists_sublist_firstOccurrences [] (placed snippet)
  rw [map_toOccurrence_placed] at hfirsts
  refine ⟨firsts, hfirsts, (pairwise_placed snippet).sublist hsublist, ?_⟩
  intro first
  rw [hmem first, recordsOf]
  exact and_iff_right List.not_mem_nil

namespace FirstRecords
variable {firsts : List Placed} (h : FirstRecords snippet firsts)
include h

/-- Each literal has one first record. -/
theorem nodup_keys : (firsts.map (·.key)).Nodup := by
  refine List.pairwise_map.mpr (h.pairwise.imp_of_mem ?_)
  intro a b ha hb hlt hkey
  have hsame := (h.mem_iff a).mp ha
  rw [hkey, (h.mem_iff b).mp hb] at hsame
  exact lt_irrefl _ (Option.some.inj hsame ▸ hlt)

/-- A literal has a first record if it stands anywhere. -/
theorem mem_keys_iff : key ∈ firsts.map (·.key) ↔ (places snippet key).Nonempty := by
  rw [List.mem_map]
  constructor
  · rintro ⟨first, hfirst, rfl⟩
    exact ⟨_, (isLeast_places ((h.mem_iff first).mp hfirst)).1⟩
  · rintro ⟨place, hplace⟩
    obtain ⟨found, hfound, -⟩ := List.mem_map.mp (mem_places_iff.mp hplace)
    obtain ⟨first, rest, hrecords⟩ := List.exists_cons_of_ne_nil (List.ne_nil_of_mem hfound)
    obtain ⟨-, rfl⟩ := mem_recordsOf.mp (hrecords ▸ List.mem_cons_self : first ∈ _)
    refine ⟨first, (h.mem_iff first).mpr ?_, rfl⟩
    rw [hrecords, List.head?_cons]

end FirstRecords

end Literal

namespace Rule

open Literal

variable {snippet : Snippet}

/-- What the issue for a literal says: the literal stands at a place, spelled as it is there and
not otherwise, and at no place in front of it, and it stands at so many places. -/
def Reports (snippet : Snippet) (key : Key) (issue : Issue) : Prop :=
  ∃ number column spelling, OccursAt snippet key spelling number column ∧
    (∀ other, OccursAt snippet key other number column → other = spelling) ∧
    IsLeast (places snippet key) (toLex (number, column)) ∧ IsLeast (lineSet snippet key) number ∧
    issue =
      { kind := "Smell.RepeatedLiteral"
        line := some number
        message := "Literal '" ++ String.ofList spelling ++ "' appears " ++
          toString (places snippet key).ncard ++ " times."
        suggestion := "Extract to a constant or parameter to improve maintainability."
        severity := .info }

/-- The rule reports some of the first records, those of literals on enough lines. -/
theorem forall₂_reports {firsts : List Placed} (h : FirstRecords snippet firsts) (minLines : ℕ) :
    List.Forall₂ (Reports snippet)
      ((firsts.filter fun first =>
        minLines ≤ countDistinct (Literal.linesOf (occurrences snippet) first.key)).map (·.key))
      ((repeatedLiteral minLines).check snippet) := by
  simp only [repeatedLiteral, h.occurrences_eq, List.filter_map, List.map_map]
  rw [List.forall₂_map_left_iff, List.forall₂_map_right_iff]
  refine List.forall₂_same.mpr ?_
  intro first hfirst
  have hhead := (h.mem_iff first).mp (List.mem_filter.mp hfirst).1
  have hoccurs := mem_placed_iff.mp (mem_recordsOf.mp (List.mem_of_head? hhead)).1
  refine ⟨first.line, first.column, first.spelling, hoccurs,
    fun _ hother => hother.spelling_unique hoccurs, isLeast_places hhead, isLeast_lineSet hhead, ?_⟩
  rw [ncard_places]
  rfl

/-- **What is reported of repeated literals.**  There is one issue for each literal that stands
on enough lines, about its first place, with the number of its places. -/
theorem repeatedLiteral_reports (minLines : ℕ) (snippet : Snippet) :
    ∃ keys : List Key, keys.Nodup ∧
      (∀ key, key ∈ keys ↔
        (places snippet key).Nonempty ∧ minLines ≤ (lineSet snippet key).ncard) ∧
      List.Forall₂ (Reports snippet) keys ((repeatedLiteral minLines).check snippet) := by
  obtain ⟨firsts, h⟩ := exists_firstRecords snippet
  refine ⟨_, h.nodup_keys.sublist (List.filter_sublist.map _), ?_, forall₂_reports h minLines⟩
  intro key
  rw [← h.mem_keys_iff, ncard_lineSet]
  simp only [List.mem_map, List.mem_filter, decide_eq_true_iff]
  constructor
  · rintro ⟨first, ⟨hfirst, hlines⟩, rfl⟩
    exact ⟨⟨first, hfirst, rfl⟩, hlines⟩
  · rintro ⟨⟨first, hfirst, rfl⟩, hlines⟩
    exact ⟨first, ⟨hfirst, hlines⟩, rfl⟩

/-- **The order of issues about literals.**  Of two literals, the one that stands first in the
text is reported first, unless it is a number and the other one a string whose first place is
on the same line. -/
theorem repeatedLiteral_order (minLines : ℕ) (snippet : Snippet) :
    ∃ keys : List Key, keys.Nodup ∧
      List.Forall₂ (Reports snippet) keys ((repeatedLiteral minLines).check snippet) ∧
      ∀ i j (hi : i < keys.length) (hj : j < keys.length) (m n column column' : ℕ),
        IsLeast (places snippet keys[i]) (toLex (m, column)) →
        IsLeast (places snippet keys[j]) (toLex (n, column')) →
        toLex (m, column) < toLex (n, column') →
        (i < j ↔ ¬ (keys[i].isNumber = true ∧ keys[j].isNumber = false ∧ m = n)) := by
  obtain ⟨firsts, h⟩ := exists_firstRecords snippet
  obtain ⟨reported, hsublist, hreports⟩ : ∃ reported : List Placed, reported.Sublist firsts ∧
      List.Forall₂ (Reports snippet) (reported.map (·.key))
        ((repeatedLiteral minLines).check snippet) :=
    ⟨_, List.filter_sublist, forall₂_reports h minLines⟩
  have hfirst : ∀ first ∈ reported, IsLeast (places snippet first.key) first.place :=
    fun first hmem => isLeast_places ((h.mem_iff first).mp (hsublist.subset hmem))
  refine ⟨_, h.nodup_keys.sublist (hsublist.map _), hreports, ?_⟩
  intro i j hi hj m n column column' hleast hleast' hplaces
  rw [List.length_map] at hi hj
  simp only [List.getElem_map] at hleast hleast' ⊢
  have hplace := hleast.unique (hfirst _ (List.getElem_mem hi))
  have hplace' := hleast'.unique (hfirst _ (List.getElem_mem hj))
  rw [hplace, hplace'] at hplaces
  obtain ⟨rfl, -⟩ := Prod.mk.inj (toLex.injective hplace)
  obtain ⟨rfl, -⟩ := Prod.mk.inj (toLex.injective hplace')
  rw [lt_iff_of_pairwise (h.pairwise.sublist hsublist) hi hj,
    Placed.rank_lt_iff_of_place_lt hplaces]

/-- **Where a string overtakes a number**: in each line of the text the number stands first, but
the string is reported first. -/
theorem repeatedLiteral_of_number_before_string :
    let snippet : Snippet := ⟨"f(5, \"x\")\nf(5, \"x\")\nf(5, \"x\")".toList, .unknown⟩
    (placed snippet).map (fun found => (found.key, found.line, found.column)) =
        [(.text ['x'], 1, 5), (.number ['5'], 1, 2), (.text ['x'], 2, 5), (.number ['5'], 2, 2),
          (.text ['x'], 3, 5), (.number ['5'], 3, 2)] ∧
      ((repeatedLiteral 3).check snippet).map (·.message) =
        ["Literal 'x' appears 3 times.", "Literal '5' appears 3 times."] := by
  decide

end Rule
end LineLint
