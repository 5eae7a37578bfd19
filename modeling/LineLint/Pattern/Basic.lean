import LineLint.Text.WordChar

/-! # Patterns

A small language of text patterns, read with priorities: from a given place a
pattern reaches a *list* of places, the preferred one first.  `p ++ q` continues
each place that `p` reaches with `q`, `p <|> q` prefers what `p` reaches, and
`many` takes as much as it can before it settles for less.  The first element of
the list is therefore what a backtracking matcher would find, and everything
that such a matcher could fall back on stands behind it, so a statement about a
pattern is a statement about a list.

A `run` never settles for less.  It stands where what follows cannot start with
a character of the run, so that nothing is lost by it.

`reach_named`, `reach_append` and their companions give one equation per form of
pattern; `reach_run` says that a run reaches the place that `many` prefers.
-/
namespace LineLint

/-- A place in a text. -/
structure Cursor where
  /-- What stands before the place, nearest character first. -/
  before : List Char
  /-- What stands after the place. -/
  after : List Char
  deriving DecidableEq, Repr

/-- Names for the stretches of a match that are read back. -/
inductive Part where
  /-- The words in front of a keyword. -/
  | modifiers
  /-- A keyword that has alternatives. -/
  | keyword
  /-- A type. -/
  | type
  /-- A declared name. -/
  | name
  /-- The text of a parameter list. -/
  | params
  /-- What stands between delimiters. -/
  | content
  deriving DecidableEq, Repr

/-- A place that a pattern has reached, with the named stretches passed on the way. -/
structure Reached where
  /-- The place itself. -/
  place : Cursor
  /-- Each named stretch with the places where it starts and stops, the latest first. -/
  parts : List (Part × Cursor × Cursor)

/-- A pattern of text. -/
inductive Pattern where
  /-- Matches right here and takes nothing. -/
  | here
  /-- One character of a class. -/
  | char (accepts : Char → Bool)
  /-- Any number of characters of a class, as many as possible. -/
  | many (accepts : Char → Bool)
  /-- All characters of a class that follow, and no fewer. -/
  | run (accepts : Char → Bool)
  /-- The edge of a word. -/
  | edge
  /-- The start of the text. -/
  | textStart
  /-- The end of the text. -/
  | textEnd
  /-- One pattern and then another. -/
  | both (p q : Pattern)
  /-- One pattern or else another. -/
  | either (p q : Pattern)
  /-- A pattern any number of times, as often as possible. -/
  | repeated (p : Pattern)
  /-- A pattern whose stretch is read back under a name. -/
  | named (part : Part) (p : Pattern)

instance : Append Pattern := ⟨Pattern.both⟩

instance : OrElse Pattern := ⟨fun p q => Pattern.either p (q ())⟩

namespace Cursor

/-- Whether a text starts with a character of words. -/
def touchesWord : List Char → Bool
  | c :: _ => Text.isWordChar c
  | [] => false

/-- Whether exactly one side of the place touches a word. -/
def atEdge (place : Cursor) : Bool :=
  touchesWord place.before != touchesWord place.after

/-- The places that a run of characters of a class can stop at, the farthest first, followed
by the places in `nearer`. -/
def runStops (accepts : Char → Bool) (before : List Char) :
    List Char → List Cursor → List Cursor
  | [], nearer => ⟨before, []⟩ :: nearer
  | c :: rest, nearer =>
    if accepts c then runStops accepts (c :: before) rest (⟨before, c :: rest⟩ :: nearer)
    else ⟨before, c :: rest⟩ :: nearer

/-- The place where a run of characters of a class ends. -/
def runEnd (accepts : Char → Bool) (before : List Char) : List Char → Cursor
  | [] => ⟨before, []⟩
  | c :: rest => if accepts c then runEnd accepts (c :: before) rest else ⟨before, c :: rest⟩

theorem head?_runStops (accepts : Char → Bool) (before after : List Char)
    (nearer : List Cursor) :
    (runStops accepts before after nearer).head? = some (runEnd accepts before after) := by
  induction after generalizing before nearer with
  | nil => rfl
  | cons c rest ih =>
    simp only [runStops, runEnd]
    split
    · exact ih _ _
    · rfl

/-- The text between two places of one text. -/
def textTo (start stop : Cursor) : List Char :=
  start.after.take (start.after.length - stop.after.length)

end Cursor

/-- Takes steps, as many as possible but no more than there are characters in `bound`, and puts
every place on the way in front of `nearer`, those behind more steps first. -/
def iterateOnto (step : Reached → List Reached) :
    List Char → Reached → List Reached → List Reached
  | [], r, nearer => r :: nearer
  | _ :: bound, r, nearer => (step r).foldr (iterateOnto step bound) (r :: nearer)

/-- Takes steps, as many as possible but no more than there are characters in `bound`.  The
result lists every place on the way, those behind more steps first. -/
def iterate (step : Reached → List Reached) (bound : List Char) (r : Reached) : List Reached :=
  iterateOnto step bound r []

theorem iterateOnto_eq_append (step : Reached → List Reached) (bound : List Char) (r : Reached)
    (nearer : List Reached) :
    iterateOnto step bound r nearer = iterate step bound r ++ nearer := by
  unfold iterate
  induction bound generalizing r nearer with
  | nil => rfl
  | cons c bound ih =>
    simp only [iterateOnto]
    generalize step r = stops
    induction stops with
    | nil => rfl
    | cons stop stops ihs =>
      simp only [List.foldr_cons]
      rw [ihs, ih, ih stop (List.foldr _ _ _), List.append_assoc]

theorem iterate_nil (step : Reached → List Reached) (r : Reached) : iterate step [] r = [r] := rfl

theorem iterate_cons (step : Reached → List Reached) (c : Char) (bound : List Char)
    (r : Reached) :
    iterate step (c :: bound) r = (step r).flatMap (iterate step bound) ++ [r] := by
  simp only [iterate, iterateOnto]
  generalize step r = stops
  induction stops with
  | nil => rfl
  | cons stop stops ih =>
    rw [List.foldr_cons, iterateOnto_eq_append, ih]
    simp [iterate]

namespace Pattern

/-- The places that a pattern reaches from a given one, the preferred first.  A repeated
pattern takes a character or more each time, so the text that is left bounds its rounds. -/
def reach : Pattern → Reached → List Reached
  | here, r => [r]
  | char accepts, r =>
    match r.place.after with
    | c :: rest => if accepts c then [{ r with place := ⟨c :: r.place.before, rest⟩ }] else []
    | [] => []
  | many accepts, r =>
    (Cursor.runStops accepts r.place.before r.place.after []).map
      fun place => { r with place := place }
  | run accepts, r => [{ r with place := Cursor.runEnd accepts r.place.before r.place.after }]
  | edge, r => if r.place.atEdge then [r] else []
  | textStart, r => if r.place.before.isEmpty then [r] else []
  | textEnd, r => if r.place.after.isEmpty then [r] else []
  | both p q, r => (p.reach r).flatMap q.reach
  | either p q, r => p.reach r ++ q.reach r
  | repeated p, r => iterate p.reach r.place.after r
  | named part p, r =>
    (p.reach r).map fun s => { s with parts := (part, r.place, s.place) :: s.parts }

theorem reach_append (p q : Pattern) (r : Reached) :
    (p ++ q).reach r = (p.reach r).flatMap q.reach := rfl

theorem reach_orElse (p q : Pattern) (r : Reached) :
    (p <|> q).reach r = p.reach r ++ q.reach r := rfl

theorem reach_named (part : Part) (p : Pattern) (r : Reached) :
    (named part p).reach r =
      (p.reach r).map fun s => { s with parts := (part, r.place, s.place) :: s.parts } := rfl

/-- A run reaches the place that `many` prefers. -/
theorem reach_run (accepts : Char → Bool) (r : Reached) :
    (run accepts).reach r = ((many accepts).reach r).head?.toList := by
  simp [reach, Cursor.head?_runStops]

/-- A pattern, or nothing at all. -/
def optional (p : Pattern) : Pattern :=
  p <|> here

/-- All characters of a class that follow, at least one. -/
def oneOrMore (accepts : Char → Bool) : Pattern :=
  char accepts ++ run accepts

/-- The first pattern of a list that matches; an empty list never does. -/
def anyOf : List Pattern → Pattern
  | [] => char fun _ => false
  | [p] => p
  | p :: ps => p <|> anyOf ps

/-- A choice from a list has what all patterns of the list have, if choices have it. -/
theorem of_anyOf {P : Pattern → Prop} (hnone : P (char fun _ => false))
    (hchoice : ∀ p q, P p → P q → P (p <|> q)) {ps : List Pattern} (h : ∀ p ∈ ps, P p) :
    P (anyOf ps) := by
  fun_induction anyOf ps with
  | case1 => exact hnone
  | case2 p => exact h p List.mem_cons_self
  | case3 p ps _ ih =>
    exact hchoice p _ (h p List.mem_cons_self) (ih fun q hq => h q (List.mem_cons_of_mem p hq))

/-- The patterns of a list one after the other. -/
def sequence : List Pattern → Pattern
  | [] => here
  | [p] => p
  | p :: ps => p ++ sequence ps

/-- A sequence has what all patterns of the list have, if juxtapositions have it. -/
theorem of_sequence {P : Pattern → Prop} (hhere : P here)
    (happend : ∀ p q, P p → P q → P (p ++ q)) {ps : List Pattern} (h : ∀ p ∈ ps, P p) :
    P (sequence ps) := by
  fun_induction sequence ps with
  | case1 => exact hhere
  | case2 p => exact h p List.mem_cons_self
  | case3 p ps _ ih =>
    exact happend p _ (h p List.mem_cons_self) (ih fun q hq => h q (List.mem_cons_of_mem p hq))

end Pattern
end LineLint
