import LineLint.Pattern.Find

/-! # Matches carried to another text

A map of places carries what a pattern has reached, and the matches found, from
one text to another.  If a pattern reaches the carried places from a carried
place, then its preferred match there is the carried one (`Pattern.at?_map`); and
a named stretch reads the same if the map keeps what stands between its ends
(`Match.part?_map`).
-/
namespace LineLint

/-- The reached place with its stretches, carried to another text. -/
def Reached.map (f : Cursor → Cursor) (r : Reached) : Reached :=
  ⟨f r.place, r.parts.map fun part => (part.1, f part.2.1, f part.2.2)⟩

/-- The match carried to another text. -/
def Match.map (f : Cursor → Cursor) (m : Match) : Match :=
  ⟨f m.start, f m.stop, m.parts.map fun part => (part.1, f part.2.1, f part.2.2)⟩

/-- Steps that commute with a map are taken alike in both texts. -/
theorem iterate_map {f : Cursor → Cursor} {step : Reached → List Reached}
    (h : ∀ r, step (r.map f) = (step r).map (Reached.map f)) (bound : List Char) (r : Reached) :
    iterate step bound (r.map f) = (iterate step bound r).map (Reached.map f) := by
  induction bound generalizing r with
  | nil => rfl
  | cons c bound ih =>
    rw [iterate_cons, iterate_cons, h, List.flatMap_map, List.map_append, List.map_flatMap]
    simp only [ih]
    rfl

theorem Match.part?_map {f : Cursor → Cursor} {m : Match}
    (h : ∀ found ∈ m.parts, (f found.2.1).textTo (f found.2.2) = found.2.1.textTo found.2.2)
    (part : Part) : (m.map f).part? part = m.part? part := by
  rw [part?, map, List.find?_map, part?, Option.map_map]
  refine Option.map_congr ?_
  intro found hfound
  exact h found (List.mem_of_find?_eq_some hfound)

theorem Pattern.at?_map {f : Cursor → Cursor} {p : Pattern} {place : Cursor}
    (h : p.reach (Reached.map f ⟨place, []⟩) = (p.reach ⟨place, []⟩).map (Reached.map f)) :
    p.at? (f place) = (p.at? place).map (Match.map f) := by
  have hplace : (⟨f place, []⟩ : Reached) = Reached.map f ⟨place, []⟩ := rfl
  rw [at?, hplace, h, List.head?_map, at?, Option.map_map, Option.map_map]
  rfl

end LineLint
