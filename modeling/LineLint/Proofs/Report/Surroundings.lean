import LineLint.Proofs.Report.Mutations
import Mathlib.Data.List.Infix

/-! # Texts inside longer texts

The dialect of a text is told by telltale texts, and these stay where they are when more text is
put in front of the text and behind it.  Only one letter reads its surroundings: a capital sigma
becomes `ς` at the end of a word and `σ` anywhere else.  Up to that difference the lower-case form
of a text is made letter by letter (`Text.map_openSigma_lower`), so what holds no sigma is found
in small letters wherever the text stands (`Text.contains_lower_of_infix`).

No telltale text holds a sigma.  So a longer text is of the same dialect as the text inside, or of
one that is tried earlier (`Detection.detect_around`): telltale texts of such a dialect may stand
in what is added, or come about where the parts meet.
-/
namespace LineLint
namespace Text

/-! ## Small letters up to sigmas -/

/-- The letter, with the sigma at the end of a word written like any other sigma. -/
def openSigma (c : Char) : Char :=
  if c = 'ς' then 'σ' else c

/-- The lower-case form of a letter in any surroundings, with all sigmas written alike. -/
def lowerOpen (c : Char) : List Char :=
  if c = 'Σ' then ['σ'] else (lowerChar c).map openSigma

theorem map_openSigma_lowerBehind (before text : List Char) :
    (lowerBehind before text).map openSigma = text.flatMap lowerOpen := by
  induction text generalizing before with
  | nil => rfl
  | cons c text ih =>
    rw [lowerBehind, List.map_append, ih, List.flatMap_cons, lowerOpen]
    by_cases hc : c = 'Σ'
    · rw [if_pos hc, if_pos hc]
      cases isFinalSigma before text <;> rfl
    · rw [if_neg hc, if_neg hc]

/-- **Up to sigmas, each letter is made small on its own.** -/
theorem map_openSigma_lower (text : List Char) :
    (lower text).map openSigma = text.flatMap lowerOpen :=
  map_openSigma_lowerBehind [] text

/-- Whether a text holds a small sigma. -/
def holdsSigma (text : List Char) : Bool :=
  text.any fun c => c == 'σ' || c == 'ς'

/-- A text without sigmas is the only one that is written like it. -/
theorem map_openSigma_eq_iff {needle text : List Char} (h : holdsSigma needle = false) :
    text.map openSigma = needle ↔ text = needle := by
  have hopen : ∀ c d : Char, (d == 'σ' || d == 'ς') = false → (openSigma c = d ↔ c = d) := by
    intro c d hd
    obtain ⟨hother, hfinal⟩ := Bool.or_eq_false_iff.mp hd
    have hother : d ≠ 'σ' := by simpa using hother
    have hfinal : d ≠ 'ς' := by simpa using hfinal
    unfold openSigma
    by_cases hc : c = 'ς'
    · rw [if_pos hc, hc]
      exact iff_of_false hother.symm hfinal.symm
    · rw [if_neg hc]
  induction needle generalizing text with
  | nil => exact List.map_eq_nil_iff
  | cons d needle ih =>
    obtain ⟨hd, hneedle⟩ := Bool.or_eq_false_iff.mp h
    cases text with
    | nil => exact iff_of_false nofun nofun
    | cons c text =>
      rw [List.map_cons, List.cons_eq_cons, List.cons_eq_cons]
      exact and_congr (hopen c d hd) (ih hneedle)

/-- What holds no sigma is found in small letters without looking at any surroundings. -/
theorem contains_lower_iff {needle : List Char} (h : holdsSigma needle = false)
    (text : List Char) :
    contains (lower text) needle = true ↔ needle <:+: text.flatMap lowerOpen := by
  rw [contains_iff, ← map_openSigma_lower]
  constructor
  · intro hneedle
    have hmap := hneedle.map openSigma
    rwa [(map_openSigma_eq_iff h).mpr rfl] at hmap
  · intro hneedle
    obtain ⟨found, hfound, heq⟩ := List.infix_map_iff.mp hneedle
    obtain rfl := (map_openSigma_eq_iff h).mp heq.symm
    exact hfound

/-- **What is found in a text is found in every text around it**, both in small letters, if it
holds no sigma. -/
theorem contains_lower_of_infix {needle text whole : List Char} (h : holdsSigma needle = false)
    (hwhole : text <:+: whole) (hneedle : contains (lower text) needle = true) :
    contains (lower whole) needle = true := by
  rw [contains_lower_iff h] at hneedle ⊢
  exact hneedle.trans (hwhole.flatMap lowerOpen)

theorem isBlank_of_infix {text whole : List Char} (hwhole : text <:+: whole)
    (h : isBlank text = false) : isBlank whole = false := by
  obtain ⟨c, hc, hsolid⟩ := List.all_eq_false.mp h
  exact List.all_eq_false.mpr ⟨c, hwhole.subset hc, hsolid⟩

end Text

namespace Detection

variable {text whole : List Char} {dialect : Dialect}

/-- Telltale texts stay in every text around. -/
theorem hints_of_infix (hwhole : text <:+: whole) (h : hints text dialect = true) :
    hints whole dialect = true := by
  have hplain : ∀ dialect : Dialect,
      (markers dialect).all (fun marker => !Text.holdsSigma marker.toList) = true := by
    intro dialect
    cases dialect <;> decide
  obtain ⟨marker, hmarker, hfound⟩ := List.any_eq_true.mp h
  have hsigma : Text.holdsSigma marker.toList = false := by
    simpa using List.all_eq_true.mp (hplain dialect) marker hmarker
  exact List.any_eq_true.mpr
    ⟨marker, hmarker, Text.contains_lower_of_infix hsigma hwhole hfound⟩

/-- A text of a known dialect holds a telltale text of it. -/
theorem hints_of_detect (hdialect : dialect ≠ .unknown) (h : detect text = dialect) :
    Text.isBlank text = false ∧ hints text dialect = true := by
  rw [detect_eq] at h
  split at h
  · exact absurd h.symm hdialect
  · rename_i hblank
    refine ⟨(Bool.not_eq_true _).mp hblank, ?_⟩
    split at h
    · rwa [← h]
    · split at h
      · rwa [← h]
      · split at h
        · rwa [← h]
        · exact absurd h.symm hdialect

/-- **Dialects of longer texts.**  Whatever stands in front of a text and behind it, the whole is of
C# if the text is; of C# or VB.NET if the text is of VB.NET; and of some dialect if the text is of
T-SQL. -/
theorem detect_around (front text back : List Char) :
    (detect text = .csharp → detect (front ++ text ++ back) = .csharp) ∧
      (detect text = .vbnet → detect (front ++ text ++ back) = .csharp ∨
        detect (front ++ text ++ back) = .vbnet) ∧
      (detect text = .sql → detect (front ++ text ++ back) ≠ .unknown) := by
  have hwhole : text <:+: front ++ text ++ back := List.infix_append front text back
  refine ⟨fun h => ?_, fun h => ?_, fun h => ?_⟩
  · obtain ⟨hblank, hhints⟩ := hints_of_detect (show Dialect.csharp ≠ .unknown from nofun) h
    rw [detect_eq, Text.isBlank_of_infix hwhole hblank, hints_of_infix hwhole hhints]
    rfl
  · obtain ⟨hblank, hhints⟩ := hints_of_detect (show Dialect.vbnet ≠ .unknown from nofun) h
    rw [detect_eq, Text.isBlank_of_infix hwhole hblank, hints_of_infix hwhole hhints]
    cases hints (front ++ text ++ back) .csharp with
    | true => exact Or.inl rfl
    | false => exact Or.inr rfl
  · obtain ⟨hblank, hhints⟩ := hints_of_detect (show Dialect.sql ≠ .unknown from nofun) h
    rw [detect_eq, Text.isBlank_of_infix hwhole hblank, hints_of_infix hwhole hhints]
    cases hints (front ++ text ++ back) .csharp with
    | true => exact nofun
    | false => cases hints (front ++ text ++ back) .vbnet <;> exact nofun

/-- The sigma at the end of the word does not stay there. -/
theorem detect_around_of_sigma :
    let csharp := "void ΟΔΟΣ".toList
    let vbnet := "Sub ΟΔΟΣ".toList
    let sql := "SELECT ΟΔΟΣ".toList
    let back := "Α".toList
    ¬ Text.lower sql <:+: Text.lower (sql ++ back) ∧
      (detect csharp = .csharp ∧ detect ("Imports ".toList ++ csharp ++ back) = .csharp) ∧
      (detect vbnet = .vbnet ∧ (detect ("SELECT ".toList ++ vbnet ++ back) = .csharp ∨
        detect ("SELECT ".toList ++ vbnet ++ back) = .vbnet)) ∧
      (detect sql = .sql ∧ detect ("İ".toList ++ sql ++ back) ≠ .unknown) := by
  intro csharp vbnet sql back
  have hcsharp : detect csharp = .csharp := by decide +kernel
  have hvbnet : detect vbnet = .vbnet := by decide +kernel
  have hsql : detect sql = .sql := by decide +kernel
  refine ⟨by decide +kernel, ⟨hcsharp, ?_⟩, ⟨hvbnet, ?_⟩, ⟨hsql, ?_⟩⟩
  · exact (detect_around "Imports ".toList csharp back).1 hcsharp
  · exact (detect_around "SELECT ".toList vbnet back).2.1 hvbnet
  · exact (detect_around "İ".toList sql back).2.2 hsql

end Detection
end LineLint
