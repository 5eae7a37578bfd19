import LineLint.Pattern.Vocabulary
import LineLint.Proofs.Layout.Spaces
import LineLint.Proofs.Pattern.Transport

/-! # Patterns behind white space

One more white-space character in front of a text leaves the matches of a pattern
what they are, one character further on.  Two kinds of patterns are shown to
behave so, and both kinds are recognized by computation.

A pattern that `floats` does not ask for the start of the text, and one that
`startsSolid` does not match at white space; a pattern that does both has the
same matches (`Pattern.find?_cons_space`, `Pattern.allMatches_cons_space`).  A
pattern that `isAnchored` starts at the start of the text and passes all white
space there (`Pattern.find?_cons_of_anchored`).
-/
namespace LineLint

open Text (isSpace)

/-- The place in the text with one more character in front. -/
def Cursor.behind (c : Char) (place : Cursor) : Cursor :=
  ⟨place.before ++ [c], place.after⟩

namespace Cursor
variable {c : Char}

theorem touchesWord_append (hc : isSpace c = true) (before : List Char) :
    touchesWord (before ++ [c]) = touchesWord before := by
  cases before with
  | nil => exact (Text.plain_of_isSpace hc).word
  | cons d before => rfl

theorem atEdge_behind (hc : isSpace c = true) (place : Cursor) :
    (place.behind c).atEdge = place.atEdge := by
  simp only [atEdge, behind, touchesWord_append hc]

theorem runStops_behind (accepts : Char → Bool) (before after : List Char)
    (nearer : List Cursor) :
    runStops accepts (before ++ [c]) after (nearer.map (behind c)) =
      (runStops accepts before after nearer).map (behind c) := by
  induction after generalizing before nearer with
  | nil => rfl
  | cons d after ih =>
    rw [runStops, runStops]
    cases accepts d with
    | false => rfl
    | true => exact ih (d :: before) (⟨before, d :: after⟩ :: nearer)

theorem runEnd_behind (accepts : Char → Bool) (before after : List Char) :
    runEnd accepts (before ++ [c]) after = (runEnd accepts before after).behind c := by
  induction after generalizing before with
  | nil => rfl
  | cons d after ih =>
    rw [runEnd, runEnd]
    cases accepts d with
    | false => rfl
    | true => exact ih (d :: before)

end Cursor

namespace Match

/-- The match in the text with one more character in front. -/
def behind (c : Char) : Match → Match :=
  Match.map (Cursor.behind c)

/-- The match from the start of the text, taking one more character there. -/
def indent (c : Char) (m : Match) : Match :=
  { m.behind c with start := ⟨m.start.before, c :: m.start.after⟩ }

variable (c : Char) (m : Match)

@[simp] theorem offset_behind : (m.behind c).offset = m.offset + 1 :=
  List.length_append

@[simp] theorem length_behind : (m.behind c).length = m.length := rfl

@[simp] theorem rest_behind : (m.behind c).rest = m.rest := rfl

@[simp] theorem text_behind : (m.behind c).text = m.text := rfl

@[simp] theorem part?_behind (part : Part) : (m.behind c).part? part = m.part? part :=
  part?_map (fun _ _ => rfl) part

@[simp] theorem part_behind (part : Part) : (m.behind c).part part = m.part part := by
  rw [Match.part, part?_behind, Match.part]

@[simp] theorem part?_indent (part : Part) : (m.indent c).part? part = m.part? part :=
  part?_behind c m part

@[simp] theorem part_indent (part : Part) : (m.indent c).part part = m.part part :=
  part_behind c m part

end Match

namespace Pattern
variable {p : Pattern} {c : Char}

/-! ## Patterns that do not ask for the start of the text -/

/-- Whether a pattern nowhere asks for the start of the text. -/
def floats : Pattern → Bool
  | textStart => false
  | here | char _ | many _ | run _ | edge | textEnd => true
  | both p q | either p q => p.floats && q.floats
  | repeated p | named _ p => p.floats

/-- **White space in front of the text is not seen by a pattern that floats.** -/
theorem reach_behind (hp : p.floats = true) (hc : isSpace c = true) (r : Reached) :
    p.reach (r.map (Cursor.behind c)) = (p.reach r).map (Reached.map (Cursor.behind c)) := by
  induction p generalizing r with
  | textStart => cases hp
  | here => rfl
  | char accepts =>
    obtain ⟨⟨before, after⟩, parts⟩ := r
    cases after with
    | nil => rfl
    | cons d after =>
      simp only [reach, Reached.map, Cursor.behind]
      cases accepts d <;> rfl
  | many accepts =>
    have hstops := Cursor.runStops_behind (c := c) accepts r.place.before r.place.after []
    rw [List.map_nil] at hstops
    simp only [reach, Reached.map, Cursor.behind] at hstops ⊢
    rw [hstops, List.map_map, List.map_map]
    rfl
  | run accepts =>
    simp only [reach, Reached.map, Cursor.behind, Cursor.runEnd_behind]
    rfl
  | edge =>
    simp only [reach]
    rw [show (r.map (Cursor.behind c)).place = r.place.behind c from rfl, Cursor.atEdge_behind hc]
    cases r.place.atEdge <;> rfl
  | textEnd =>
    obtain ⟨⟨before, after⟩, parts⟩ := r
    cases after <;> rfl
  | both p q ihp ihq =>
    obtain ⟨hp, hq⟩ := Bool.and_eq_true_iff.mp hp
    simp only [reach]
    rw [ihp hp, List.flatMap_map, List.map_flatMap]
    simp only [ihq hq]
  | either p q ihp ihq =>
    obtain ⟨hp, hq⟩ := Bool.and_eq_true_iff.mp hp
    simp only [reach]
    rw [ihp hp, ihq hq, List.map_append]
  | repeated p ih =>
    -- the rounds are bounded by the text ahead, which is the same
    exact iterate_map (ih hp) r.place.after r
  | named part p ih =>
    simp only [reach]
    rw [ih hp, List.map_map, List.map_map]
    rfl

theorem at?_behind (hp : p.floats = true) (hc : isSpace c = true) (place : Cursor) :
    p.at? (place.behind c) = (p.at? place).map (Match.behind c) :=
  at?_map (reach_behind hp hc ⟨place, []⟩)

/-! ## Patterns that do not match at white space -/

/-- Whether a pattern takes nothing at all. -/
def stays : Pattern → Bool
  | here | edge | textStart | textEnd => true
  | _ => false

/-- Whether a pattern has to start with something other than white space. -/
def startsSolid : Pattern → Bool
  | char accepts => Text.solid accepts
  | both p q => p.startsSolid || (p.stays && q.startsSolid)
  | either p q => p.startsSolid && q.startsSolid
  | named _ p => p.startsSolid
  | here | many _ | run _ | edge | textStart | textEnd | repeated _ => false

theorem eq_of_mem_reach_of_stays (hp : p.stays = true) {r s : Reached} (hs : s ∈ p.reach r) :
    s = r := by
  cases p with
  | here => exact List.mem_singleton.mp hs
  | edge | textStart | textEnd =>
    simp only [reach] at hs
    split at hs
    · exact List.mem_singleton.mp hs
    · cases hs
  | char _ | many _ | run _ | both _ _ | either _ _ | repeated _ | named _ _ => cases hp

theorem reach_space (hp : p.startsSolid = true) (hc : isSpace c = true) (r : Reached)
    {rest : List Char} (hr : r.place.after = c :: rest) : p.reach r = [] := by
  induction p generalizing r with
  | char accepts =>
    simp only [reach, hr, Text.eq_false_of_solid hp hc]
    rfl
  | both p q ihp ihq =>
    rcases Bool.or_eq_true_iff.mp hp with hp | hp
    · simp only [reach, ihp hp r hr, List.flatMap_nil]
    · -- the first pattern takes nothing, so the second starts at the same white space
      obtain ⟨hstays, hq⟩ := Bool.and_eq_true_iff.mp hp
      refine List.flatMap_eq_nil_iff.mpr ?_
      intro s hs
      rw [eq_of_mem_reach_of_stays hstays hs]
      exact ihq hq r hr
  | either p q ihp ihq =>
    obtain ⟨hp, hq⟩ := Bool.and_eq_true_iff.mp hp
    simp only [reach, ihp hp r hr, ihq hq r hr, List.append_nil]
  | named part p ih => simp only [reach, ih hp r hr, List.map_nil]
  | here | many _ | run _ | edge | textStart | textEnd | repeated _ => cases hp

theorem at?_space (hp : p.startsSolid = true) (hc : isSpace c = true) (before rest : List Char) :
    p.at? ⟨before, c :: rest⟩ = none := by
  rw [at?, reach_space hp hc _ rfl]
  rfl

/-! ## Matches behind white space -/

theorem findBehind_behind (hp : p.floats = true) (hc : isSpace c = true)
    (before text : List Char) :
    p.findBehind (before ++ [c]) text =
      (p.findBehind before text).map (Match.behind c) := by
  induction text generalizing before with
  | nil => exact at?_behind hp hc ⟨before, []⟩
  | cons d text ih =>
    have hhere : p.at? ⟨before ++ [c], d :: text⟩ = _ := at?_behind hp hc ⟨before, d :: text⟩
    have hrest : p.findBehind (d :: (before ++ [c])) text = _ := ih (d :: before)
    rw [findBehind, findBehind, hhere, hrest]
    cases p.at? ⟨before, d :: text⟩ <;> rfl

/-- The first match is the same, one character further on. -/
theorem find?_cons_space (hp : p.floats = true) (hsolid : p.startsSolid = true)
    (hc : isSpace c = true) (text : List Char) :
    p.find? (c :: text) = (p.find? text).map (Match.behind c) := by
  rw [find?, findBehind, at?_space hsolid hc]
  exact findBehind_behind hp hc [] text

theorem indentBlind_occursIn (hp : p.floats = true) (hsolid : p.startsSolid = true) :
    Text.IndentBlind p.occursIn := by
  intro c text hc
  rw [occursIn, find?_cons_space hp hsolid hc, Option.isSome_map, occursIn]

theorem matchesBehind_behind (hp : p.floats = true) (hc : isSpace c = true)
    (before : List Char) (skip : Nat) (text : List Char) :
    p.matchesBehind (before ++ [c]) skip text =
      (p.matchesBehind before skip text).map (Match.behind c) := by
  induction text generalizing before skip with
  | nil =>
    have hhere : p.at? ⟨before ++ [c], []⟩ = _ := at?_behind hp hc ⟨before, []⟩
    rw [matchesBehind, matchesBehind, hhere]
    cases skip with
    | zero => cases p.at? ⟨before, []⟩ <;> rfl
    | succ skip => rfl
  | cons d text ih =>
    have hrest : ∀ skip, p.matchesBehind (d :: (before ++ [c])) skip text = _ :=
      fun skip => ih (d :: before) skip
    cases skip with
    | succ skip => exact hrest skip
    | zero =>
      have hhere : p.at? ⟨before ++ [c], d :: text⟩ = _ := at?_behind hp hc ⟨before, d :: text⟩
      rw [matchesBehind, matchesBehind, hhere]
      cases p.at? ⟨before, d :: text⟩ with
      | none => exact hrest 0
      | some m =>
        simp only [Option.map_some, List.map_cons, Match.length_behind]
        rw [hrest]

/-- All matches are the same, one character further on. -/
theorem allMatches_cons_space (hp : p.floats = true) (hsolid : p.startsSolid = true)
    (hc : isSpace c = true) (text : List Char) :
    p.allMatches (c :: text) = (p.allMatches text).map (Match.behind c) := by
  rw [allMatches, matchesBehind, at?_space hsolid hc]
  exact matchesBehind_behind hp hc [] 0 text

theorem indentBlind_count (hp : p.floats = true) (hsolid : p.startsSolid = true) :
    Text.IndentBlind p.count := by
  intro c text hc
  rw [count, allMatches_cons_space hp hsolid hc, List.length_map, count]

/-! ## Patterns at the start of the text -/

/-- Whether a pattern starts at the start of the text and takes all white space there. -/
def isAnchored : Pattern → Bool
  | both textStart (run accepts) => Text.spaceChars.all accepts
  | both p q => p.isAnchored && q.floats
  | _ => false

theorem reach_of_isAnchored (hp : p.isAnchored = true) {r : Reached} (hr : r.place.before ≠ []) :
    p.reach r = [] := by
  fun_induction isAnchored p with
  | case1 accepts =>
    have hempty : r.place.before.isEmpty = false := by simpa using hr
    simp only [reach, hempty]
    rfl
  | case2 p q _ ih => simp only [reach, ih (Bool.and_eq_true_iff.mp hp).1, List.flatMap_nil]
  | case3 => cases hp

/-- **An anchored pattern passes one more white-space character** and reaches the same
places. -/
theorem reach_cons_of_isAnchored (hp : p.isAnchored = true) (hc : isSpace c = true)
    (text : List Char) :
    p.reach ⟨⟨[], c :: text⟩, []⟩ =
      (p.reach ⟨⟨[], text⟩, []⟩).map (Reached.map (Cursor.behind c)) := by
  fun_induction isAnchored p with
  | case1 accepts =>
    -- the run takes the new character first, and then goes as far as before
    have hend : Cursor.runEnd accepts [] (c :: text) =
        (Cursor.runEnd accepts [] text).behind c := by
      rw [Cursor.runEnd, Text.of_isSpace hp hc]
      exact Cursor.runEnd_behind accepts [] text
    simp only [reach, List.isEmpty_nil, if_true, List.flatMap_cons, List.flatMap_nil, hend]
    rfl
  | case2 p q _ ih =>
    obtain ⟨hp, hq⟩ := Bool.and_eq_true_iff.mp hp
    simp only [reach]
    rw [ih hp, List.flatMap_map, List.map_flatMap]
    simp only [reach_behind hq hc]
  | case3 => cases hp

theorem findBehind_of_isAnchored (hp : p.isAnchored = true) {before : List Char}
    (hbefore : before ≠ []) (text : List Char) : p.findBehind before text = none := by
  have hnone : ∀ {before : List Char} (after : List Char), before ≠ [] →
      p.at? ⟨before, after⟩ = none := by
    intro before after hne
    rw [at?, reach_of_isAnchored hp hne]
    rfl
  induction text generalizing before with
  | nil => exact hnone [] hbefore
  | cons d text ih =>
    rw [findBehind, hnone (d :: text) hbefore]
    exact ih (List.cons_ne_nil d before)

theorem find?_of_isAnchored (hp : p.isAnchored = true) (text : List Char) :
    p.find? text = p.at? ⟨[], text⟩ := by
  cases text with
  | nil => rfl
  | cons d text =>
    rw [find?, findBehind, findBehind_of_isAnchored hp (List.cons_ne_nil d [])]
    cases p.at? ⟨[], d :: text⟩ <;> rfl

/-- The match from the start of the text is the same, and takes one more character. -/
theorem find?_cons_of_isAnchored (hp : p.isAnchored = true) (hc : isSpace c = true)
    (text : List Char) :
    p.find? (c :: text) = (p.find? text).map (Match.indent c) := by
  rw [find?_of_isAnchored hp, find?_of_isAnchored hp, at?, reach_cons_of_isAnchored hp hc,
    List.head?_map, at?, Option.map_map, Option.map_map]
  rfl

theorem indentBlind_occursIn_of_isAnchored (hp : p.isAnchored = true) :
    Text.IndentBlind p.occursIn := by
  intro c text hc
  rw [occursIn, find?_cons_of_isAnchored hp hc, Option.isSome_map, occursIn]

end Pattern

end LineLint
