import LineLint.Proofs.Block.Reading
import Mathlib.Order.Bounds.Defs

/-! # Where bodies stop

A reader carries a state along, and may stop behind a line or in front of the next
one.  `BodyReader.EndsAt` says where it may, in terms of the lines alone, with the
state recomputed from the header line on; `BodyReader.extends_read` says that a body
goes on to the first such place, and to the last line if there is none.

A block is what its scanner makes of the lines from its header line on
(`Scanner.exists_blockAt_of_mem`), so the same holds of blocks in terms of line
numbers (`Scanner.ReadsBy.bounded`).
-/
namespace LineLint
namespace Code

variable {σ : Type}

/-- The lines from number `first` to number `last`. -/
def stretch (lines : List (List Char)) (first last : Nat) : List (List Char) :=
  (lines.drop (first - 1)).take (last + 1 - first)

theorem stretch_one (lines : List (List Char)) (last : Nat) :
    stretch lines 1 last = lines.take last := rfl

theorem stretch_append (front lines : List (List Char)) (count : Nat) :
    stretch (front ++ lines) (front.length + 1) (front.length + count) = lines.take count := by
  rw [stretch, Nat.add_sub_cancel, List.drop_left]
  congr 1
  omega

section
variable {lines : List (List Char)} {line : List Char} {first last : Nat}

/-- Line numbers count from one. -/
theorem exists_line_iff {number : Nat} (hpos : 1 ≤ number) :
    (∃ line, lines[number - 1]? = some line) ↔ number ≤ lines.length := by
  constructor
  · rintro ⟨line, hline⟩
    have hlt := (List.getElem?_eq_some_iff.mp hline).1
    omega
  · intro hlength
    exact ⟨_, List.getElem?_eq_getElem (by omega)⟩

theorem lt_of_getElem?_stretch {index : Nat}
    (h : (stretch lines first last)[index]? = some line) : index < last + 1 - first := by
  have hlength := (List.getElem?_eq_some_iff.mp h).1
  rw [stretch, List.length_take] at hlength
  omega

theorem getElem?_stretch (lines : List (List Char)) (hfirst : 1 ≤ first) {number : Nat}
    (hle : first ≤ number) (hlast : number ≤ last) :
    (stretch lines first last)[number - first]? = lines[number - 1]? := by
  rw [stretch, List.getElem?_take_of_lt (by omega), List.getElem?_drop]
  congr 1
  omega

theorem mem_stretch_iff (hfirst : 1 ≤ first) :
    line ∈ stretch lines first last ↔
      ∃ number, first ≤ number ∧ number ≤ last ∧ lines[number - 1]? = some line := by
  rw [List.mem_iff_getElem?]
  constructor
  · rintro ⟨index, h⟩
    have hlt := lt_of_getElem?_stretch h
    refine ⟨first + index, by omega, by omega, ?_⟩
    have hget := getElem?_stretch lines hfirst (Nat.le_add_right first index)
      (show first + index ≤ last by omega)
    rw [Nat.add_sub_cancel_left] at hget
    exact hget.symm.trans h
  · rintro ⟨number, hle, hlast, h⟩
    exact ⟨number - first, (getElem?_stretch lines hfirst hle hlast).trans h⟩

theorem take_stretch (lines : List (List Char)) (hfirst : 1 ≤ first) {number : Nat}
    (hle : first ≤ number) (hlast : number ≤ last) :
    (stretch lines first last).take (number - first) = stretch lines first (number - 1) := by
  rw [stretch, List.take_take, stretch]
  congr 1
  omega

theorem prefix_stretch (lines : List (List Char)) (first : Nat) {number last : Nat}
    (h : number ≤ last) :
    stretch lines first number <+: stretch lines first last :=
  List.take_prefix_take_left (Nat.sub_le_sub_right (Nat.succ_le_succ h) first)

theorem stretch_succ (hfirst : 1 ≤ first) (hle : first ≤ last)
    (hline : lines[last - 1]? = some line) :
    stretch lines first last = stretch lines first (last - 1) ++ [line] := by
  have hcount : last + 1 - first = last - first + 1 := by omega
  have hlast : (lines.drop (first - 1))[last - first]? = some line := by
    rw [List.getElem?_drop, show first - 1 + (last - first) = last - 1 by omega]
    exact hline
  have hbefore : last - 1 + 1 - first = last - first := by omega
  rw [stretch, hcount, List.take_add_one, hlast, stretch, hbefore]
  rfl

end

namespace BodyReader
variable (reader : BodyReader σ)

/-- The state behind lines that are read from a given state on. -/
def behind (state : σ) (lines : List (List Char)) : σ :=
  lines.foldl reader.step state

theorem behind_concat (state : σ) (lines : List (List Char)) (line : List Char) :
    reader.behind state (lines ++ [line]) = reader.step (reader.behind state lines) line := by
  rw [behind, List.foldl_append]
  rfl

/-- Whether a body that is read from a given state on may end with the line at an index, or in
front of the line behind it. -/
def EndsAt (state : σ) (lines : List (List Char)) (index : Nat) : Prop :=
  (∃ line, lines[index]? = some line ∧
    reader.endsWith (reader.behind state (lines.take (index + 1))) line = true) ∨
  ∃ next, lines[index + 1]? = some next ∧ reader.endsBefore next = true

theorem endsAt_succ {state : σ} {line : List Char} {rest : List (List Char)} {index : Nat} :
    reader.EndsAt state (line :: rest) (index + 1) ↔
      reader.EndsAt (reader.step state line) rest index := Iff.rfl

theorem endsAt_zero {state : σ} {line : List Char} {rest : List (List Char)} :
    reader.EndsAt state (line :: rest) 0 ↔
      reader.endsWith (reader.step state line) line = true ∨
        ∃ next, rest.head? = some next ∧ reader.endsBefore next = true := by
  rw [List.head?_eq_getElem?]
  simp [EndsAt, behind]

/-- Whether an extent is the one up to the first place where a body may end. -/
structure Extends (state : σ) (lines : List (List Char)) (extent : Extent σ) : Prop where
  state_eq : extent.state = reader.behind state (lines.take extent.length)
  ends : extent.closed = true → reader.EndsAt state lines (extent.length - 1)
  first : ∀ index, reader.EndsAt state lines index →
    extent.closed = true ∧ extent.length ≤ index + 1

variable {reader} {state : σ} {line : List Char} {rest : List (List Char)}

theorem Extends.of_ends_zero (h : reader.EndsAt state (line :: rest) 0) :
    reader.Extends state (line :: rest) ⟨1, true, reader.step state line⟩ where
  state_eq := rfl
  ends _ := h
  first index _ := ⟨rfl, Nat.succ_le_succ (Nat.zero_le index)⟩

theorem Extends.succ {extent : Extent σ} (hzero : ¬ reader.EndsAt state (line :: rest) 0)
    (hpos : extent.closed = true → 0 < extent.length)
    (h : reader.Extends (reader.step state line) rest extent) :
    reader.Extends state (line :: rest) extent.succ where
  state_eq := h.state_eq
  ends hclosed := by
    have hindex : extent.succ.length - 1 = extent.length - 1 + 1 :=
      (Nat.sub_add_cancel (hpos hclosed)).symm
    rw [hindex, endsAt_succ]
    exact h.ends hclosed
  first index hends := by
    cases index with
    | zero => exact absurd hends hzero
    | succ index =>
      obtain ⟨hclosed, hle⟩ := h.first index hends
      exact ⟨hclosed, Nat.succ_le_succ hle⟩

variable (reader) in
/-- **A body goes on to the first place where it may end.** -/
theorem extends_read (state : σ) (lines : List (List Char)) :
    reader.Extends state lines (reader.read state lines) := by
  induction lines generalizing state with
  | nil => exact ⟨rfl, nofun, by simp [EndsAt]⟩
  | cons line rest ih =>
    cases hends : reader.endsWith (reader.step state line) line with
    | true =>
      rw [reader.read_cons_of_ends hends]
      exact .of_ends_zero (reader.endsAt_zero.mpr (Or.inl hends))
    | false =>
      cases rest with
      | nil =>
        rw [reader.read_singleton hends]
        refine ⟨rfl, nofun, ?_⟩
        rintro (_ | index) h
        · simp [endsAt_zero, hends] at h
        · simp [EndsAt] at h
      | cons next rest =>
        cases hnext : reader.endsBefore next with
        | true =>
          rw [reader.read_cons_of_endsBefore hends hnext]
          exact .of_ends_zero (reader.endsAt_zero.mpr (Or.inr ⟨next, rfl, hnext⟩))
        | false =>
          rw [reader.read_cons_of_goes_on hends hnext]
          refine .succ ?_ ?_ (ih (reader.step state line))
          · simp [endsAt_zero, hends, hnext]
          · exact fun _ => reader.read_length_pos _ next rest

end BodyReader

/-- A block is what the scanner makes of the lines from its header line on. -/
theorem Scanner.exists_blockAt_of_mem {scanner : Scanner} {number skip : Nat}
    {lines : List (List Char)} {block : Block}
    (h : block ∈ scanner.blocksFrom number skip lines) :
    ∃ front line back name, lines = front ++ line :: back ∧ scanner.header? line = some name ∧
      block = scanner.blockAt (number + front.length) name (line :: back) := by
  induction lines generalizing number skip with
  | nil => cases h
  | cons line rest ih =>
    have hrest : ∀ {skip}, block ∈ scanner.blocksFrom (number + 1) skip rest →
        ∃ front header back name, line :: rest = front ++ header :: back ∧
          scanner.header? header = some name ∧
          block = scanner.blockAt (number + front.length) name (header :: back) := by
      intro skip hmem
      obtain ⟨front, header, back, name, rfl, hheader, rfl⟩ := ih hmem
      refine ⟨line :: front, header, back, name, rfl, hheader, ?_⟩
      rw [List.length_cons, Nat.add_right_comm, Nat.add_assoc]
    cases skip with
    | succ skip => exact hrest h
    | zero =>
      cases hname : scanner.header? line with
      | none =>
        rw [blocksFrom_of_none hname] at h
        exact hrest h
      | some name =>
        rw [blocksFrom_of_some hname] at h
        rcases List.mem_cons.mp h with rfl | h
        · exact ⟨[], line, rest, name, rfl, hname, rfl⟩
        · exact hrest h

/-! ## In terms of line numbers -/

/-- Whether a body that starts with line `first` may stop with line `number`. -/
def BodyReader.MayStop (reader : BodyReader σ) (lines : List (List Char)) (first number : Nat) :
    Prop :=
  first ≤ number ∧
    ((∃ line, lines[number - 1]? = some line ∧
        reader.endsWith (reader.behind reader.start (stretch lines first number)) line = true) ∨
      ∃ next, lines[number]? = some next ∧ reader.endsBefore next = true)

/-- If no line is asked for by what it stands in front of, a body may stop with a line only. -/
theorem BodyReader.mayStop_iff_endsWith {reader : BodyReader σ}
    (hbefore : ∀ line, reader.endsBefore line = false) {lines : List (List Char)}
    {first number : Nat} :
    reader.MayStop lines first number ↔ first ≤ number ∧ ∃ line, lines[number - 1]? = some line ∧
      reader.endsWith (reader.behind reader.start (stretch lines first number)) line = true := by
  simp [MayStop, hbefore]

theorem BodyReader.mayStop_append (reader : BodyReader σ) (front lines : List (List Char))
    (index : Nat) :
    reader.MayStop (front ++ lines) (front.length + 1) (front.length + (index + 1)) ↔
      reader.EndsAt reader.start lines index := by
  have hfirst : front.length + 1 ≤ front.length + (index + 1) := by omega
  have hline : (front ++ lines)[front.length + (index + 1) - 1]? = lines[index]? := by
    rw [← Nat.add_assoc, Nat.add_sub_cancel, List.getElem?_append_right (Nat.le_add_right _ _),
      Nat.add_sub_cancel_left]
  have hnext : (front ++ lines)[front.length + (index + 1)]? = lines[index + 1]? := by
    rw [List.getElem?_append_right (Nat.le_add_right _ _), Nat.add_sub_cancel_left]
  rw [MayStop, hline, hnext, stretch_append]
  exact and_iff_right hfirst

theorem BodyReader.mayStop_append_iff (reader : BodyReader σ) (front lines : List (List Char))
    (number : Nat) :
    reader.MayStop (front ++ lines) (front.length + 1) number ↔
      ∃ index, number = front.length + (index + 1) ∧ reader.EndsAt reader.start lines index := by
  constructor
  · intro h
    obtain ⟨index, hindex⟩ := Nat.exists_eq_add_of_le h.1
    obtain rfl : number = front.length + (index + 1) := by omega
    exact ⟨index, rfl, (reader.mayStop_append front lines index).mp h⟩
  · rintro ⟨index, rfl, h⟩
    exact (reader.mayStop_append front lines index).mpr h

/-- Whether the bodies of a scanner extend as far as a reader goes. -/
structure Scanner.ReadsBy (scanner : Scanner) (reader : BodyReader σ) : Prop where
  length : ∀ lines, (scanner.body lines).length = (reader.read reader.start lines).length
  closed : ∀ lines, (scanner.body lines).closed = (reader.read reader.start lines).closed

/-- What is known of a block that a reader has read: its header line, the lines that it is made
of, and that it stops at the first place where its body may. -/
structure Scanner.Bounded (scanner : Scanner) (reader : BodyReader σ) (lines : List (List Char))
    (block : Block) : Prop where
  start_pos : 1 ≤ block.start
  start_le : block.start ≤ block.stop
  stop_le : block.stop ≤ lines.length
  /-- The block starts with a header line of its name. -/
  header : ∃ line, lines[block.start - 1]? = some line ∧ scanner.header? line = some block.name
  /-- The block is made of the lines from its header line on. -/
  body : scanner.body (lines.drop (block.start - 1)) =
    ⟨block.stop + 1 - block.start, block.closed, block.maxDepth, block.methods⟩
  /-- Nothing but the lines of the block has gone into the last state. -/
  state : (reader.read reader.start (lines.drop (block.start - 1))).state =
    reader.behind reader.start (stretch lines block.start block.stop)
  stops : block.closed = true →
    IsLeast {number | reader.MayStop lines block.start number} block.stop
  goes_on : block.closed = false →
    block.stop = lines.length ∧ ∀ number, ¬ reader.MayStop lines block.start number

/-- **A block goes on to the first line where its body may stop**, and to the last line if there
is none. -/
theorem Scanner.ReadsBy.bounded {scanner : Scanner} {reader : BodyReader σ}
    (hreads : scanner.ReadsBy reader) {lines : List (List Char)} {block : Block}
    (h : block ∈ scanner.blocks lines) : scanner.Bounded reader lines block := by
  obtain ⟨front, line, back, name, rfl, hname, rfl⟩ := exists_blockAt_of_mem h
  have hextends := reader.extends_read reader.start (line :: back)
  have hpos := reader.read_length_pos reader.start line back
  have hle := reader.read_length_le reader.start (line :: back)
  have hopen : (reader.read reader.start (line :: back)).closed = false →
      (reader.read reader.start (line :: back)).length = (line :: back).length :=
    reader.read_length_of_open
  rw [← hreads.closed] at hopen
  rw [← hreads.length] at hpos hle hopen
  -- the block in terms of the number of lines in front of it and the length of its body
  obtain ⟨index, hindex⟩ := Nat.exists_eq_add_of_lt hpos
  have hstart : (scanner.blockAt (1 + front.length) name (line :: back)).start =
      front.length + 1 := Nat.add_comm 1 _
  have hstop : (scanner.blockAt (1 + front.length) name (line :: back)).stop =
      front.length + (index + 1) := by
    change 1 + front.length + (scanner.body (line :: back)).length - 1 = _
    omega
  have hread : (reader.read reader.start (line :: back)).length = index + 1 := by
    rw [← hreads.length]
    omega
  have hdrop : (front ++ line :: back).drop front.length = line :: back := List.drop_left
  have hlength : (front ++ line :: back).length = front.length + (line :: back).length :=
    List.length_append
  constructor <;> simp only [hstart, hstop, Nat.add_sub_cancel, hdrop]
  · omega
  · omega
  · omega
  · exact ⟨line, by simp, hname⟩
  · have hcount : front.length + (index + 1) + 1 - (front.length + 1) =
        (scanner.body (line :: back)).length := by omega
    rw [hcount]
    rfl
  · rw [stretch_append, hextends.state_eq, hread]
  · intro hclosed
    have hends := hextends.ends ((hreads.closed _).symm.trans hclosed)
    rw [hread, Nat.add_sub_cancel] at hends
    refine ⟨(reader.mayStop_append front _ index).mpr hends, ?_⟩
    intro number hnumber
    obtain ⟨other, rfl, hother⟩ := (reader.mayStop_append_iff front _ number).mp hnumber
    have hfirst := (hextends.first other hother).2
    omega
  · intro hclosed
    refine ⟨?_, ?_⟩
    · have hall := hopen hclosed
      omega
    · intro number hnumber
      obtain ⟨other, -, hother⟩ := (reader.mayStop_append_iff front _ number).mp hnumber
      have htrue := (hreads.closed _).trans (hextends.first other hother).1
      exact absurd (htrue.symm.trans hclosed) nofun

/-- The largest depth of a block is read off the state behind its lines. -/
theorem Scanner.Bounded.maxDepth_eq {scanner : Scanner} {reader : BodyReader σ}
    {lines : List (List Char)} {block : Block} (h : scanner.Bounded reader lines block)
    (measure : σ → Nat) (hmeasure : ∀ lines,
      (scanner.body lines).maxDepth = measure (reader.read reader.start lines).state) :
    block.maxDepth =
      measure (reader.behind reader.start (stretch lines block.start block.stop)) := by
  have hdepth := hmeasure (lines.drop (block.start - 1))
  rwa [h.body, h.state] at hdepth

theorem length_stretch_le (lines : List (List Char)) (first last : Nat) :
    (stretch lines first last).length ≤ last + 1 - first :=
  List.length_take_le _ _

end Code
end LineLint
