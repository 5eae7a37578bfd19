import LineLint.Pattern.Find

/-! # What patterns take

A pattern moves forward through its text: between the place where it starts and a
place that it reaches stand the characters taken (`Cursor.Spans`), each of which
some class of the pattern accepts (`Pattern.reach_within`).  So a match holds no
character that the pattern does not admit (`Pattern.text_within`).
-/
namespace LineLint

namespace Cursor

/-- `taken` stands between two places of one text. -/
def Spans (taken : List Char) (start stop : Cursor) : Prop :=
  start.after = taken ++ stop.after ∧ stop.before = taken.reverse ++ start.before

theorem Spans.refl (place : Cursor) : Spans [] place place :=
  ⟨rfl, rfl⟩

theorem Spans.trans {a b : List Char} {first second third : Cursor} (ha : Spans a first second)
    (hb : Spans b second third) : Spans (a ++ b) first third := by
  refine ⟨?_, ?_⟩
  · rw [ha.1, hb.1, List.append_assoc]
  · rw [hb.2, ha.2, List.reverse_append, List.append_assoc]

theorem Spans.cons {c : Char} {before rest taken : List Char} {stop : Cursor}
    (h : Spans taken ⟨c :: before, rest⟩ stop) :
    Spans (c :: taken) ⟨before, c :: rest⟩ stop := by
  have hstep : Spans [c] ⟨before, c :: rest⟩ ⟨c :: before, rest⟩ := ⟨rfl, rfl⟩
  exact hstep.trans h

theorem Spans.textTo_eq {taken : List Char} {start stop : Cursor} (h : Spans taken start stop) :
    start.textTo stop = taken := by
  have hlength : start.after.length - stop.after.length = taken.length := by
    rw [h.1, List.length_append]
    omega
  rw [textTo, hlength, h.1, List.take_left]

/-- Whether the second place is reached from the first over characters with a property. -/
def Within (P : Char → Prop) (start stop : Cursor) : Prop :=
  ∃ taken, Spans taken start stop ∧ ∀ c ∈ taken, P c

variable {P : Char → Prop}

theorem Within.refl (place : Cursor) : Within P place place :=
  ⟨[], Spans.refl place, by simp⟩

theorem Within.trans {first second third : Cursor} (h : Within P first second)
    (h' : Within P second third) : Within P first third := by
  obtain ⟨a, ha, hPa⟩ := h
  obtain ⟨b, hb, hPb⟩ := h'
  refine ⟨a ++ b, ha.trans hb, ?_⟩
  intro c hc
  exact (List.mem_append.mp hc).elim (hPa c) (hPb c)

theorem Within.cons {c : Char} {before rest : List Char} {stop : Cursor} (hc : P c)
    (h : Within P ⟨c :: before, rest⟩ stop) : Within P ⟨before, c :: rest⟩ stop := by
  obtain ⟨taken, hspans, hP⟩ := h
  exact ⟨c :: taken, hspans.cons, List.forall_mem_cons.mpr ⟨hc, hP⟩⟩

theorem within_runEnd {accepts : Char → Bool} (h : ∀ c, accepts c = true → P c)
    (before after : List Char) : Within P ⟨before, after⟩ (runEnd accepts before after) := by
  induction after generalizing before with
  | nil => exact Within.refl _
  | cons c rest ih =>
    rw [runEnd]
    split
    · rename_i hc
      exact (ih (c :: before)).cons (h c hc)
    · exact Within.refl _

theorem within_of_mem_runStops {accepts : Char → Bool} (h : ∀ c, accepts c = true → P c)
    {before after : List Char} {nearer : List Cursor} {stop : Cursor}
    (hstop : stop ∈ runStops accepts before after nearer) :
    Within P ⟨before, after⟩ stop ∨ stop ∈ nearer := by
  induction after generalizing before nearer with
  | nil =>
    rcases List.mem_cons.mp hstop with rfl | hstop
    · exact Or.inl (Within.refl _)
    · exact Or.inr hstop
  | cons c rest ih =>
    rw [runStops] at hstop
    split at hstop
    · rename_i hc
      rcases ih hstop with hw | hw
      · exact Or.inl (hw.cons (h c hc))
      · rcases List.mem_cons.mp hw with rfl | hw
        · exact Or.inl (Within.refl _)
        · exact Or.inr hw
    · rcases List.mem_cons.mp hstop with rfl | hstop
      · exact Or.inl (Within.refl _)
      · exact Or.inr hstop

end Cursor

/-- A property that steps keep is kept by all places on the way. -/
theorem of_mem_iterate {I : Reached → Prop} {step : Reached → List Reached}
    (h : ∀ r, ∀ s ∈ step r, I r → I s) {bound : List Char} {r s : Reached}
    (hs : s ∈ iterate step bound r) (hr : I r) : I s := by
  induction bound generalizing r with
  | nil =>
    rw [iterate_nil, List.mem_singleton] at hs
    rwa [hs]
  | cons c bound ih =>
    rw [iterate_cons, List.mem_append, List.mem_flatMap, List.mem_singleton] at hs
    rcases hs with ⟨t, ht, hs⟩ | rfl
    · exact ih hs (h r t ht hr)
    · exact hr

theorem within_of_mem_iterate {P : Char → Prop} {step : Reached → List Reached}
    (h : ∀ r, ∀ s ∈ step r, Cursor.Within P r.place s.place) {bound : List Char}
    {r s : Reached} (hs : s ∈ iterate step bound r) : Cursor.Within P r.place s.place :=
  of_mem_iterate (I := fun t => Cursor.Within P r.place t.place)
    (fun t s hs ht => ht.trans (h t s hs)) hs (Cursor.Within.refl _)

namespace Pattern

/-- Whether every class of a pattern accepts only characters with a property. -/
def Within (P : Char → Prop) : Pattern → Prop
  | here | edge | textStart | textEnd => True
  | char accepts | many accepts | run accepts => ∀ c, accepts c = true → P c
  | both p q | either p q => p.Within P ∧ q.Within P
  | repeated p | named _ p => p.Within P

theorem within_true (p : Pattern) : p.Within fun _ => True := by
  induction p with
  | here | edge | textStart | textEnd => trivial
  | char accepts | many accepts | run accepts => exact fun _ _ => trivial
  | both p q ihp ihq | either p q ihp ihq => exact ⟨ihp, ihq⟩
  | repeated p ih | named part p ih => exact ih

variable {P : Char → Prop} {p : Pattern}

/-- **A pattern takes only characters that its classes accept.** -/
theorem reach_within (h : p.Within P) {r s : Reached} (hs : s ∈ p.reach r) :
    Cursor.Within P r.place s.place := by
  induction p generalizing r s with
  | here =>
    rw [reach, List.mem_singleton] at hs
    rw [hs]
    exact Cursor.Within.refl _
  | char accepts =>
    obtain ⟨⟨before, after⟩, parts⟩ := r
    cases after with
    | nil => cases hs
    | cons c rest =>
      simp only [reach] at hs
      split at hs
      · rename_i hc
        rw [List.mem_singleton] at hs
        rw [hs]
        exact (Cursor.Within.refl _).cons (h c hc)
      · cases hs
  | many accepts =>
    obtain ⟨place, hplace, rfl⟩ := List.mem_map.mp hs
    exact (Cursor.within_of_mem_runStops h hplace).resolve_right (List.not_mem_nil)
  | run accepts =>
    rw [reach, List.mem_singleton] at hs
    rw [hs]
    exact Cursor.within_runEnd h _ _
  | edge | textStart | textEnd =>
    simp only [reach] at hs
    split at hs
    · rw [List.mem_singleton] at hs
      rw [hs]
      exact Cursor.Within.refl _
    · cases hs
  | both p q ihp ihq =>
    obtain ⟨t, ht, hs⟩ := List.mem_flatMap.mp hs
    exact (ihp h.1 ht).trans (ihq h.2 hs)
  | either p q ihp ihq =>
    rcases List.mem_append.mp hs with hs | hs
    · exact ihp h.1 hs
    · exact ihq h.2 hs
  | repeated p ih => exact within_of_mem_iterate (fun r s => ih h) hs
  | named part p ih =>
    obtain ⟨t, ht, rfl⟩ := List.mem_map.mp hs
    exact ih (s := t) h ht

/-- A pattern does not go back. -/
theorem length_le_of_mem_reach {r s : Reached} (hs : s ∈ p.reach r) :
    s.place.after.length ≤ r.place.after.length := by
  obtain ⟨taken, hspans, -⟩ := reach_within (within_true p) hs
  rw [hspans.1, List.length_append]
  exact Nat.le_add_left _ _

theorem exists_reach_of_at? {place : Cursor} {m : Match} (h : p.at? place = some m) :
    ∃ s ∈ p.reach ⟨place, []⟩, m = ⟨place, s.place, s.parts⟩ := by
  obtain ⟨s, hs, rfl⟩ := Option.map_eq_some_iff.mp h
  exact ⟨s, List.mem_of_mem_head? hs, rfl⟩

theorem exists_at?_of_mem_matchesBehind {before after : List Char} {skip : Nat} {m : Match}
    (hm : m ∈ p.matchesBehind before skip after) : ∃ place, p.at? place = some m := by
  induction after generalizing before skip with
  | nil =>
    rw [matchesBehind] at hm
    split at hm
    · exact ⟨_, Option.mem_toList.mp hm⟩
    · cases hm
  | cons c rest ih =>
    cases skip with
    | succ skip => exact ih hm
    | zero =>
      rw [matchesBehind] at hm
      cases hat : p.at? ⟨before, c :: rest⟩ with
      | none =>
        rw [hat] at hm
        exact ih hm
      | some found =>
        rw [hat] at hm
        rcases List.mem_cons.mp hm with rfl | hm
        · exact ⟨_, hat⟩
        · exact ih hm

/-- **A match holds only characters that the pattern admits.** -/
theorem text_within (h : p.Within P) {text : List Char} {m : Match} (hm : m ∈ p.allMatches text) :
    ∀ c ∈ m.text, P c := by
  obtain ⟨place, hat⟩ := exists_at?_of_mem_matchesBehind hm
  obtain ⟨s, hs, rfl⟩ := exists_reach_of_at? hat
  obtain ⟨taken, hspans, hP⟩ := reach_within h hs
  rw [Match.text, show place.textTo s.place = taken from hspans.textTo_eq]
  exact hP

end Pattern
end LineLint
