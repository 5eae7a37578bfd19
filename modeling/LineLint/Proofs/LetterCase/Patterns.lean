import LineLint.Pattern.Find
import LineLint.Pattern.Vocabulary
import LineLint.Proofs.LetterCase.Letters

/-! # Patterns that ignore letter case

A pattern is `CaseBlind` if none of its classes tells a capital from a small
letter.  Such a pattern matches a text in small letters exactly where it matches
the text itself: every place that it reaches is the place it would have reached,
in small letters (`Pattern.reach_lower`), and so for the first match, for all
matches and for their named stretches.

Keywords, identifiers, white space and single characters that are no letters are
case-blind, and so is everything made of them.
-/
namespace LineLint

open Text (asciiLower)

namespace Cursor

/-- The place in the text in small letters. -/
def lower (place : Cursor) : Cursor :=
  ⟨asciiLower place.before, asciiLower place.after⟩

theorem touchesWord_asciiLower (text : List Char) :
    touchesWord (asciiLower text) = touchesWord text := by
  cases text with
  | nil => rfl
  | cons c rest => exact Text.caseBlind_isWordChar c

theorem atEdge_lower (place : Cursor) : place.lower.atEdge = place.atEdge := by
  simp only [atEdge, lower, touchesWord_asciiLower]

theorem textTo_lower (start stop : Cursor) :
    start.lower.textTo stop.lower = asciiLower (start.textTo stop) := by
  simp only [textTo, lower, Text.length_asciiLower, Text.asciiLower_take]

theorem runStops_lower {accepts : Char → Bool} (h : Text.CaseBlind accepts)
    (before after : List Char) (nearer : List Cursor) :
    runStops accepts (asciiLower before) (asciiLower after) (nearer.map lower) =
      (runStops accepts before after nearer).map lower := by
  induction after generalizing before nearer with
  | nil => rfl
  | cons c rest ih =>
    rw [Text.asciiLower_cons, runStops, runStops, h c]
    cases accepts c with
    | false => rfl
    | true => exact ih (c :: before) (⟨before, c :: rest⟩ :: nearer)

theorem runEnd_lower {accepts : Char → Bool} (h : Text.CaseBlind accepts)
    (before after : List Char) :
    runEnd accepts (asciiLower before) (asciiLower after) =
      (runEnd accepts before after).lower := by
  induction after generalizing before with
  | nil => rfl
  | cons c rest ih =>
    rw [Text.asciiLower_cons, runEnd, runEnd, h c]
    cases accepts c with
    | false => rfl
    | true => exact ih (c :: before)

end Cursor

/-- The place and the stretches in the text in small letters. -/
def Reached.lower (r : Reached) : Reached :=
  ⟨r.place.lower, r.parts.map fun part => (part.1, part.2.1.lower, part.2.2.lower)⟩

theorem iterate_lower {step : Reached → List Reached}
    (h : ∀ r, step r.lower = (step r).map Reached.lower) (bound : List Char) (r : Reached) :
    iterate step (asciiLower bound) r.lower = (iterate step bound r).map Reached.lower := by
  induction bound generalizing r with
  | nil => rfl
  | cons c bound ih =>
    rw [Text.asciiLower_cons, iterate_cons, iterate_cons, h, List.flatMap_map, List.map_append,
      List.map_flatMap]
    simp only [ih]
    rfl

namespace Pattern

/-- Whether no class of a pattern tells capitals from small letters. -/
def CaseBlind : Pattern → Prop
  | here | edge | textStart | textEnd => True
  | char accepts | many accepts | run accepts => Text.CaseBlind accepts
  | both p q | either p q => p.CaseBlind ∧ q.CaseBlind
  | repeated p | named _ p => p.CaseBlind

/-- **A case-blind pattern reaches the same places** in a text in small letters. -/
theorem reach_lower {p : Pattern} (h : p.CaseBlind) (r : Reached) :
    p.reach r.lower = (p.reach r).map Reached.lower := by
  induction p generalizing r with
  | here => rfl
  | char accepts =>
    obtain ⟨⟨before, after⟩, parts⟩ := r
    cases after with
    | nil => rfl
    | cons c rest =>
      have hc : accepts c.toLower = accepts c := h c
      simp only [reach, Reached.lower, Cursor.lower, Text.asciiLower_cons, hc]
      cases accepts c <;> rfl
  | many accepts =>
    have hstops := Cursor.runStops_lower h r.place.before r.place.after []
    simp only [List.map_nil] at hstops
    simp only [reach, Reached.lower, Cursor.lower] at hstops ⊢
    rw [hstops, List.map_map, List.map_map]
    rfl
  | run accepts =>
    simp only [reach, Reached.lower, Cursor.lower]
    rw [Cursor.runEnd_lower h]
    rfl
  | edge =>
    simp only [reach]
    rw [show r.lower.place = r.place.lower from rfl, Cursor.atEdge_lower]
    cases r.place.atEdge <;> rfl
  | textStart =>
    simp only [reach, Reached.lower, Cursor.lower, Text.isEmpty_asciiLower]
    cases r.place.before.isEmpty <;> rfl
  | textEnd =>
    simp only [reach, Reached.lower, Cursor.lower, Text.isEmpty_asciiLower]
    cases r.place.after.isEmpty <;> rfl
  | both p q ihp ihq =>
    simp only [reach]
    rw [ihp h.1, List.flatMap_map, List.map_flatMap]
    simp only [ihq h.2]
  | either p q ihp ihq =>
    simp only [reach]
    rw [ihp h.1, ihq h.2, List.map_append]
  | repeated p ih =>
    exact iterate_lower (ih h) r.place.after r
  | named part p ih =>
    simp only [reach]
    rw [ih h, List.map_map, List.map_map]
    rfl

end Pattern

namespace Match

/-- The match in the text in small letters. -/
def lower (m : Match) : Match :=
  ⟨m.start.lower, m.stop.lower,
    m.parts.map fun part => (part.1, part.2.1.lower, part.2.2.lower)⟩

@[simp] theorem offset_lower (m : Match) : m.lower.offset = m.offset :=
  Text.length_asciiLower _

@[simp] theorem length_lower (m : Match) : m.lower.length = m.length := by
  simp only [length, lower, Cursor.lower, Text.length_asciiLower]

@[simp] theorem rest_lower (m : Match) : m.lower.rest = asciiLower m.rest := rfl

@[simp] theorem text_lower (m : Match) : m.lower.text = asciiLower m.text :=
  Cursor.textTo_lower _ _

@[simp] theorem part?_lower (m : Match) (part : Part) :
    m.lower.part? part = (m.part? part).map asciiLower := by
  rw [part?, lower, List.find?_map, part?, Option.map_map, Option.map_map]
  refine Option.map_congr fun found _ => ?_
  exact Cursor.textTo_lower _ _

@[simp] theorem part_lower (m : Match) (part : Part) :
    m.lower.part part = asciiLower (m.part part) := by
  rw [Match.part, part?_lower, Match.part]
  cases m.part? part <;> rfl

theorem map_part_lower (matched : List Match) (part : Part) :
    (matched.map Match.lower).map (·.part part) = (matched.map (·.part part)).map asciiLower := by
  rw [List.map_map, List.map_map]
  exact List.map_congr_left fun m _ => m.part_lower part

end Match

namespace Pattern
variable {p : Pattern}

theorem at?_lower (h : p.CaseBlind) (place : Cursor) :
    p.at? place.lower = (p.at? place).map Match.lower := by
  have hreach := reach_lower h ⟨place, []⟩
  simp only [at?]
  rw [show (⟨place.lower, []⟩ : Reached) = Reached.lower ⟨place, []⟩ from rfl, hreach,
    List.head?_map, Option.map_map, Option.map_map]
  rfl

theorem findBehind_lower (h : p.CaseBlind) (before text : List Char) :
    p.findBehind (asciiLower before) (asciiLower text) =
      (p.findBehind before text).map Match.lower := by
  induction text generalizing before with
  | nil => exact at?_lower h ⟨before, []⟩
  | cons c text ih =>
    have hhere := at?_lower h ⟨before, c :: text⟩
    have hrest := ih (c :: before)
    simp only [Cursor.lower, Text.asciiLower_cons] at hhere hrest ⊢
    rw [findBehind, findBehind, hhere, hrest]
    cases p.at? ⟨before, c :: text⟩ <;> rfl

/-- The first match is the same. -/
theorem find?_lower (h : p.CaseBlind) (text : List Char) :
    p.find? (asciiLower text) = (p.find? text).map Match.lower :=
  findBehind_lower h [] text

theorem occursIn_lower (h : p.CaseBlind) (text : List Char) :
    p.occursIn (asciiLower text) = p.occursIn text := by
  rw [occursIn, find?_lower h, Option.isSome_map, occursIn]

theorem matchesBehind_lower (h : p.CaseBlind) (before : List Char) (skip : Nat)
    (text : List Char) :
    p.matchesBehind (asciiLower before) skip (asciiLower text) =
      (p.matchesBehind before skip text).map Match.lower := by
  induction text generalizing before skip with
  | nil =>
    have hhere := at?_lower h ⟨before, []⟩
    simp only [Cursor.lower, Text.asciiLower_nil] at hhere
    rw [Text.asciiLower_nil, matchesBehind, matchesBehind, hhere]
    cases skip with
    | zero => cases p.at? ⟨before, []⟩ <;> rfl
    | succ skip => rfl
  | cons c text ih =>
    cases skip with
    | succ skip => exact ih (c :: before) skip
    | zero =>
      have hhere := at?_lower h ⟨before, c :: text⟩
      have hrest := ih (c :: before)
      simp only [Cursor.lower, Text.asciiLower_cons] at hhere hrest ⊢
      rw [matchesBehind, matchesBehind, hhere]
      cases p.at? ⟨before, c :: text⟩ with
      | none => exact hrest 0
      | some m =>
        simp only [Option.map_some, Match.length_lower, List.map_cons]
        rw [hrest]

/-- All matches are the same. -/
theorem allMatches_lower (h : p.CaseBlind) (text : List Char) :
    p.allMatches (asciiLower text) = (p.allMatches text).map Match.lower :=
  matchesBehind_lower h [] 0 text

theorem count_lower (h : p.CaseBlind) (text : List Char) :
    p.count (asciiLower text) = p.count text := by
  rw [count, allMatches_lower h, List.length_map, count]

/-! ## Building blocks -/

@[simp] theorem caseBlind_here : here.CaseBlind := trivial

@[simp] theorem caseBlind_edge : edge.CaseBlind := trivial

@[simp] theorem caseBlind_textStart : textStart.CaseBlind := trivial

@[simp] theorem caseBlind_textEnd : textEnd.CaseBlind := trivial

@[simp] theorem caseBlind_append {p q : Pattern} :
    (p ++ q).CaseBlind ↔ p.CaseBlind ∧ q.CaseBlind := Iff.rfl

@[simp] theorem caseBlind_orElse {p q : Pattern} :
    (p <|> q).CaseBlind ↔ p.CaseBlind ∧ q.CaseBlind := Iff.rfl

@[simp] theorem caseBlind_repeated : (repeated p).CaseBlind ↔ p.CaseBlind := Iff.rfl

@[simp] theorem caseBlind_named {part : Part} : (named part p).CaseBlind ↔ p.CaseBlind := Iff.rfl

@[simp] theorem caseBlind_many {accepts : Char → Bool} :
    (many accepts).CaseBlind ↔ Text.CaseBlind accepts := Iff.rfl

@[simp] theorem caseBlind_char {accepts : Char → Bool} :
    (char accepts).CaseBlind ↔ Text.CaseBlind accepts := Iff.rfl

@[simp] theorem caseBlind_optional : (optional p).CaseBlind ↔ p.CaseBlind :=
  and_iff_left trivial

theorem caseBlind_foldsTo (letter : Char) : Text.CaseBlind (foldsTo letter) := by
  intro c
  have hs : (c.toLower == 'ſ') = (c == 'ſ') := Text.caseBlind_eq (by decide) c
  have hk : (c.toLower == '\u212A') = (c == '\u212A') := Text.caseBlind_eq (by decide) c
  simp only [foldsTo, hs, hk, Text.caseBlind_toLower c]

@[simp] theorem caseBlind_word (keyword : String) : (word keyword).CaseBlind := by
  refine of_sequence (P := CaseBlind) trivial (fun _ _ hp hq => ⟨hp, hq⟩) ?_
  intro p hp
  obtain ⟨letter, -, rfl⟩ := List.mem_map.mp hp
  exact caseBlind_foldsTo letter

@[simp] theorem caseBlind_words (keywords : List String) : (words keywords).CaseBlind := by
  refine of_anyOf (P := CaseBlind) (fun _ => rfl) (fun _ _ hp hq => ⟨hp, hq⟩) ?_
  intro p hp
  obtain ⟨keyword, -, rfl⟩ := List.mem_map.mp hp
  exact caseBlind_word keyword

@[simp] theorem caseBlind_exactly {c : Char} (h : c.isAlpha = false) : (exactly c).CaseBlind :=
  Text.caseBlind_eq h

@[simp] theorem caseBlind_allBut {c : Char} (h : c.isAlpha = false) : (allBut c).CaseBlind :=
  Text.caseBlind_ne h

theorem caseBlind_startsIdentifier : Text.CaseBlind startsIdentifier :=
  Text.caseBlind_of_capitals (by decide)

theorem caseBlind_continuesIdentifier : Text.CaseBlind continuesIdentifier :=
  caseBlind_startsIdentifier.or Text.caseBlind_ascii_isDigit

@[simp] theorem caseBlind_identifier : identifier.CaseBlind :=
  ⟨caseBlind_startsIdentifier, caseBlind_continuesIdentifier⟩

@[simp] theorem caseBlind_spaces : spaces.CaseBlind :=
  Text.caseBlind_isSpace

theorem caseBlind_oneOrMore {accepts : Char → Bool} (h : Text.CaseBlind accepts) :
    (oneOrMore accepts).CaseBlind :=
  ⟨h, h⟩

@[simp] theorem caseBlind_gap : gap.CaseBlind :=
  caseBlind_oneOrMore Text.caseBlind_isSpace

end Pattern
end LineLint
