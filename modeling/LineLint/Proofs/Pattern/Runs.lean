import LineLint.Pattern.Vocabulary

/-! # Runs of characters

A text begins with exactly one run of characters of a class (`Text.exists_run`,
`Text.Run.unique`), and this is what a pattern takes that goes on as long as the class
does (`Cursor.runEnd_run`, `Pattern.reach_oneOrMore`).
-/
namespace LineLint

/-- Whether `taken` is the run of characters of a class that `taken ++ rest` begins with. -/
structure Text.Run (accepts : Char → Bool) (taken rest : List Char) : Prop where
  all : ∀ c ∈ taken, accepts c = true
  stops : ∀ c ∈ rest.head?, accepts c = false

namespace Text
variable {accepts : Char → Bool} {taken rest taken' rest' : List Char}

theorem exists_run (accepts : Char → Bool) (text : List Char) :
    ∃ taken rest, text = taken ++ rest ∧ Run accepts taken rest := by
  refine ⟨text.takeWhile accepts, text.dropWhile accepts,
    List.takeWhile_append_dropWhile.symm, ?_, ?_⟩
  · exact List.all_eq_true.mp List.all_takeWhile
  · intro c hc
    have hhead := List.head?_dropWhile_not accepts text
    rwa [Option.mem_def.mp hc] at hhead

theorem Run.takeWhile_eq (h : Run accepts taken rest) :
    (taken ++ rest).takeWhile accepts = taken := by
  rw [List.takeWhile_append_of_pos h.all]
  cases rest with
  | nil => exact List.append_nil _
  | cons c rest => rw [List.takeWhile_cons, h.stops c rfl]; exact List.append_nil _

theorem Run.dropWhile_eq (h : Run accepts taken rest) :
    (taken ++ rest).dropWhile accepts = rest := by
  rw [List.dropWhile_append_of_pos h.all]
  cases rest with
  | nil => rfl
  | cons c rest => rw [List.dropWhile_cons, h.stops c rfl]; rfl

theorem Run.unique (h : Run accepts taken rest) (h' : Run accepts taken' rest')
    (htext : taken ++ rest = taken' ++ rest') : taken = taken' ∧ rest = rest' := by
  have htaken : taken = taken' := by rw [← h.takeWhile_eq, htext, h'.takeWhile_eq]
  rw [htaken] at htext
  exact ⟨htaken, List.append_cancel_left htext⟩

/-- A text without a character is a run of others in front of it. -/
theorem run_of_not_mem {c : Char} (h : c ∉ taken) (back : List Char) :
    Run (· != c) taken (c :: back) where
  all d hd := by
    rw [bne_iff_ne]
    rintro rfl
    exact h hd
  stops d hd := by
    obtain rfl : c = d := by simpa using hd
    exact bne_self_eq_false c

end Text

open Text (Run)

theorem Cursor.runEnd_run {accepts : Char → Bool} {taken rest : List Char}
    (h : Run accepts taken rest) (before : List Char) :
    runEnd accepts before (taken ++ rest) = ⟨taken.reverse ++ before, rest⟩ := by
  induction taken generalizing before with
  | nil =>
    cases rest with
    | nil => rfl
    | cons c rest => simp [runEnd, h.stops c rfl]
  | cons c taken ih =>
    obtain ⟨hc, hall⟩ := List.forall_mem_cons.mp h.all
    rw [List.cons_append, runEnd, if_pos hc, ih ⟨hall, h.stops⟩, List.reverse_cons,
      List.append_assoc]
    rfl

theorem Cursor.after_runEnd (accepts : Char → Bool) (before after : List Char) :
    (runEnd accepts before after).after = after.dropWhile accepts := by
  induction after generalizing before with
  | nil => rfl
  | cons c after ih =>
    rw [runEnd, List.dropWhile_cons]
    split
    · exact ih _
    · rfl

theorem Cursor.textTo_append (before before' taken rest : List Char) :
    (⟨before, taken ++ rest⟩ : Cursor).textTo ⟨before', rest⟩ = taken := by
  rw [textTo, List.length_append, Nat.add_sub_cancel, List.take_left]

namespace Pattern
variable {accepts : Char → Bool} {c : Char} {before taken rest : List Char}
  {parts : List (Part × Cursor × Cursor)}

theorem reach_exactly (c d : Char) (before rest : List Char)
    (parts : List (Part × Cursor × Cursor)) :
    (exactly c).reach ⟨⟨before, d :: rest⟩, parts⟩ =
      if d = c then [⟨⟨d :: before, rest⟩, parts⟩] else [] := by
  simp only [exactly, reach, beq_iff_eq]

theorem reach_exactly_nil (c : Char) (before : List Char)
    (parts : List (Part × Cursor × Cursor)) :
    (exactly c).reach ⟨⟨before, []⟩, parts⟩ = [] := rfl

/-- A character and the run behind it are taken together. -/
theorem reach_char_run {starts : Char → Bool} (hne : taken ≠ [])
    (hstarts : ∀ c ∈ taken.head?, starts c = true) (h : Run accepts taken rest) :
    (char starts ++ run accepts).reach ⟨⟨before, taken ++ rest⟩, parts⟩ =
      [⟨⟨taken.reverse ++ before, rest⟩, parts⟩] := by
  obtain ⟨c, taken, rfl⟩ := List.exists_cons_of_ne_nil hne
  have hrun : Run accepts taken rest := ⟨(List.forall_mem_cons.mp h.all).2, h.stops⟩
  rw [reach_append]
  simp [reach, hstarts c rfl, Cursor.runEnd_run hrun]

/-- What is taken by a character and the run behind it, if the run goes on with all characters
that may start it. -/
theorem mem_reach_char_run {starts : Char → Bool} {after : List Char} {s : Reached}
    (hstarts : ∀ c, starts c = true → accepts c = true)
    (h : s ∈ (char starts ++ run accepts).reach ⟨⟨before, after⟩, parts⟩) :
    ∃ taken rest, taken ≠ [] ∧ (∀ c ∈ taken.head?, starts c = true) ∧ Run accepts taken rest ∧
      after = taken ++ rest ∧ s = ⟨⟨taken.reverse ++ before, rest⟩, parts⟩ := by
  obtain ⟨t, ht, hs⟩ := List.mem_flatMap.mp h
  cases after with
  | nil => cases ht
  | cons c after =>
    simp only [reach] at ht
    split at ht
    · rename_i hc
      obtain rfl := List.mem_singleton.mp ht
      obtain ⟨taken, rest, rfl, hrun⟩ := Text.exists_run accepts after
      simp only [reach, Cursor.runEnd_run hrun, List.mem_singleton] at hs
      refine ⟨c :: taken, rest, List.cons_ne_nil _ _, ?_, ⟨?_, hrun.stops⟩, rfl, by simp [hs]⟩
      · intro d hd
        obtain rfl : c = d := by simpa using hd
        exact hc
      · exact List.forall_mem_cons.mpr ⟨hstarts c hc, hrun.all⟩
    · cases ht

/-- A pattern of one character of a class or more takes the whole run of them. -/
theorem reach_oneOrMore (h : Run accepts taken rest) (hne : taken ≠ []) :
    (oneOrMore accepts).reach ⟨⟨before, taken ++ rest⟩, parts⟩ =
      [⟨⟨taken.reverse ++ before, rest⟩, parts⟩] :=
  reach_char_run hne (fun c hc => h.all c (List.mem_of_mem_head? hc)) h

theorem reach_oneOrMore_of_stops (h : ∀ c ∈ rest.head?, accepts c = false) :
    (oneOrMore accepts).reach ⟨⟨before, rest⟩, parts⟩ = [] := by
  rw [oneOrMore, reach_append]
  cases rest with
  | nil => rfl
  | cons c rest => simp [reach, h c rfl]

end Pattern
end LineLint
