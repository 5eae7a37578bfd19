import LineLint.Pattern.Basic

/-! # Finding patterns

Where a pattern first matches in a text, and all its matches from left to right
without overlap.  At each place the preferred match is taken; the search then
goes on behind it, and word edges there still see the characters already
matched.
-/
namespace LineLint

/-- A match of a pattern. -/
structure Match where
  /-- Where the match starts. -/
  start : Cursor
  /-- Where the match stops. -/
  stop : Cursor
  /-- The named stretches of the match, the latest first. -/
  parts : List (Part × Cursor × Cursor)

namespace Match

/-- Number of characters in front of the match. -/
def offset (m : Match) : Nat :=
  m.start.before.length

/-- Number of characters that the match takes. -/
def length (m : Match) : Nat :=
  m.start.after.length - m.stop.after.length

/-- The text that the match takes. -/
def text (m : Match) : List Char :=
  m.start.textTo m.stop

/-- The text behind the match. -/
def rest (m : Match) : List Char :=
  m.stop.after

/-- The stretch of the match that bears a name, if the match passed it. -/
def part? (m : Match) (part : Part) : Option (List Char) :=
  (m.parts.find? (·.1 == part)).map fun found => found.2.1.textTo found.2.2

/-- The stretch of the match that bears a name; empty if the match did not pass it. -/
def part (m : Match) (part : Part) : List Char :=
  (m.part? part).getD []

end Match

namespace Pattern

/-- The preferred match that starts at a place. -/
def at? (p : Pattern) (place : Cursor) : Option Match :=
  (p.reach ⟨place, []⟩).head?.map fun r => ⟨place, r.place, r.parts⟩

/-- The first match in `after`, which stands behind `before` (nearest character first). -/
def findBehind (p : Pattern) (before : List Char) : List Char → Option Match
  | [] => p.at? ⟨before, []⟩
  | c :: rest =>
    match p.at? ⟨before, c :: rest⟩ with
    | some m => some m
    | none => p.findBehind (c :: before) rest

/-- The first match in a text. -/
def find? (p : Pattern) (text : List Char) : Option Match :=
  p.findBehind [] text

/-- Whether a pattern matches somewhere in a text. -/
def occursIn (p : Pattern) (text : List Char) : Bool :=
  (p.find? text).isSome

/-- The matches in `after`, which stands behind `before`, once `skip` characters that belong
to an earlier match have been passed. -/
def matchesBehind (p : Pattern) (before : List Char) (skip : Nat) : List Char → List Match
  | [] => if skip = 0 then (p.at? ⟨before, []⟩).toList else []
  | c :: rest =>
    match skip with
    | skip + 1 => p.matchesBehind (c :: before) skip rest
    | 0 =>
      match p.at? ⟨before, c :: rest⟩ with
      | some m => m :: p.matchesBehind (c :: before) (m.length - 1) rest
      | none => p.matchesBehind (c :: before) 0 rest

/-- All matches in a text, from left to right and without overlap. -/
def allMatches (p : Pattern) (text : List Char) : List Match :=
  p.matchesBehind [] 0 text

/-- How often a pattern matches in a text. -/
def count (p : Pattern) (text : List Char) : Nat :=
  (p.allMatches text).length

end Pattern
end LineLint
