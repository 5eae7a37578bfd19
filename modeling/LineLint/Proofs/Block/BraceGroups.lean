import LineLint.Proofs.Block.Braces

/-! # Groups of braces

A text with balanced braces is read as a tree (`BraceTree`): characters that are no braces,
and groups in braces, which hold trees in turn.  Every balanced text is the text of a tree
(`Balanced.exists_tree`).

Reading the text of a tree leaves the depth where it is and raises the largest depth by the
height of the tree (`BraceState.foldl_push_text`), however the text is laid out in lines.  So
a method whose first braces form a group stops at the line where the group does, and its
largest depth is the height of the group (`methodBlocks_of_group`).
-/
namespace LineLint
namespace Code
namespace CSharp

/-- Whether a text holds no brace. -/
def Plain (text : List Char) : Prop :=
  '{' ∉ text ∧ '}' ∉ text

instance (text : List Char) : Decidable (Plain text) :=
  inferInstanceAs (Decidable (_ ∧ _))

/-- Whether every brace of a text has its counterpart in it. -/
structure Balanced (text : List Char) : Prop where
  /-- As many braces are closed as opened. -/
  total : balance text = 0
  /-- None is closed before it is opened. -/
  front : ∀ front, front <+: text → 0 ≤ balance front

/-- A text with balanced braces, as the tree of its groups. -/
inductive BraceTree where
  /-- The empty text. -/
  | nil
  /-- A character that is no brace, and what stands behind it. -/
  | char (c : Char) (plain : c ≠ '{' ∧ c ≠ '}') (behind : BraceTree)
  /-- A group, with what stands inside of it and what stands behind it. -/
  | group (inner behind : BraceTree)

namespace BraceTree

/-- The text of a tree. -/
def text : BraceTree → List Char
  | nil => []
  | char c _ behind => c :: behind.text
  | group inner behind => '{' :: (inner.text ++ '}' :: behind.text)

/-- How deeply groups are nested. -/
def height : BraceTree → Nat
  | nil => 0
  | char _ _ behind => behind.height
  | group inner behind => max (inner.height + 1) behind.height

end BraceTree

/-! ## Balanced texts and trees -/

theorem balance_cons_open (text : List Char) : balance ('{' :: text) = 1 + balance text :=
  balance_append ['{'] text

theorem balance_cons_close (text : List Char) : balance ('}' :: text) = -1 + balance text :=
  balance_append ['}'] text

theorem balance_cons_other {c : Char} (h : c ≠ '{' ∧ c ≠ '}') (text : List Char) :
    balance (c :: text) = balance text := by
  rw [← List.singleton_append, balance_append, balance_other h, Int.zero_add]

theorem Balanced.nil : Balanced [] where
  total := rfl
  front front h := by
    rw [List.prefix_nil.mp h]
    exact Int.le_refl 0

theorem Balanced.char {c : Char} {text : List Char} (hc : c ≠ '{' ∧ c ≠ '}') (h : Balanced text) :
    Balanced (c :: text) where
  total := by rw [balance_cons_other hc, h.total]
  front front hfront := by
    rcases List.prefix_cons_iff.mp hfront with rfl | ⟨rest, rfl, hrest⟩
    · exact Int.le_refl 0
    · rw [balance_cons_other hc]
      exact h.front rest hrest

theorem Balanced.group {inner text : List Char} (hinner : Balanced inner) (h : Balanced text) :
    Balanced ('{' :: (inner ++ '}' :: text)) where
  total := by
    rw [balance_cons_open, balance_append, balance_cons_close, hinner.total, h.total]
    rfl
  front front hfront := by
    rcases List.prefix_cons_iff.mp hfront with rfl | ⟨rest, rfl, hrest⟩
    · exact Int.le_refl 0
    · rw [balance_cons_open]
      obtain ⟨more, hmore⟩ := hrest
      -- the first part ends inside of the group, or behind what is inside
      rcases List.append_eq_append_iff.mp hmore with ⟨left, hleft, -⟩ | ⟨back, rfl, hback⟩
      · have hge := hinner.front rest ⟨left, hleft.symm⟩
        omega
      · rw [balance_append, hinner.total]
        rcases List.prefix_cons_iff.mp ⟨more, hback.symm⟩ with rfl | ⟨last, rfl, hlast⟩
        · decide
        · rw [balance_cons_close]
          have hge := h.front last hlast
          omega

theorem BraceTree.balanced (tree : BraceTree) : Balanced tree.text := by
  induction tree with
  | nil => exact .nil
  | char c plain behind ih => exact ih.char plain
  | group inner behind ihInner ihBehind => exact ihInner.group ihBehind

/-- Where more has been closed than opened, there is a first brace that closes too much. -/
theorem exists_first_surplus {text : List Char} (h : ∃ front, front <+: text ∧ balance front < 0) :
    ∃ inner back, text = inner ++ '}' :: back ∧ Balanced inner := by
  induction text using List.reverseRecOn with
  | nil =>
    obtain ⟨front, hfront, hlt⟩ := h
    rw [List.prefix_nil.mp hfront] at hlt
    exact absurd hlt (Int.lt_irrefl 0)
  | append_singleton text c ih =>
    by_cases hbefore : ∃ front, front <+: text ∧ balance front < 0
    · obtain ⟨inner, back, rfl, hinner⟩ := ih hbefore
      exact ⟨inner, back ++ [c], by simp, hinner⟩
    · -- the surplus is that of the whole text, so its last character is the brace
      have hfront : ∀ front, front <+: text → 0 ≤ balance front := by
        intro front hfront
        by_contra hlt
        exact hbefore ⟨front, hfront, by omega⟩
      have hge := hfront text List.prefix_rfl
      obtain ⟨front, hprefix, hlt⟩ := h
      rcases List.prefix_concat_iff.mp hprefix with rfl | hprefix
      · rw [balance_append] at hlt
        rcases brace_cases c with rfl | rfl | hother
        · rw [balance_open] at hlt
          omega
        · rw [balance_close] at hlt
          exact ⟨text, [], rfl, by omega, hfront⟩
        · rw [balance_other hother] at hlt
          omega
      · exact absurd ⟨front, hprefix, hlt⟩ hbefore

theorem Balanced.of_char {c : Char} {text : List Char} (hc : c ≠ '{' ∧ c ≠ '}')
    (h : Balanced (c :: text)) : Balanced text where
  total := by
    rw [← balance_cons_other hc]
    exact h.total
  front front hfront := by
    rw [← balance_cons_other hc]
    exact h.front (c :: front) ((List.prefix_cons_inj c).mpr hfront)

theorem Balanced.of_group {inner text : List Char} (hinner : Balanced inner)
    (h : Balanced ('{' :: (inner ++ '}' :: text))) : Balanced text := by
  have hsame : ∀ back, balance ('{' :: (inner ++ '}' :: back)) = balance back := by
    intro back
    rw [balance_cons_open, balance_append, balance_cons_close, hinner.total]
    omega
  refine ⟨(hsame text).symm.trans h.total, ?_⟩
  rintro front ⟨back, rfl⟩
  rw [← hsame front]
  exact h.front _ ⟨back, by simp⟩

/-- **A balanced text is the text of a tree.** -/
theorem Balanced.exists_tree {text : List Char} (h : Balanced text) :
    ∃ tree : BraceTree, tree.text = text := by
  induction hlength : text.length using Nat.strong_induction_on generalizing text with
  | _ length ih =>
    cases text with
    | nil => exact ⟨.nil, rfl⟩
    | cons c rest =>
      rcases brace_cases c with rfl | rfl | hother
      · -- the group ends with the first brace that closes more than is opened inside
        have hsurplus : balance rest < 0 := by
          have htotal := h.total
          rw [balance_cons_open] at htotal
          omega
        obtain ⟨inner, back, rfl, hinner⟩ := exists_first_surplus ⟨rest, List.prefix_rfl, hsurplus⟩
        rw [List.length_cons, List.length_append, List.length_cons] at hlength
        obtain ⟨tree, htree⟩ := ih inner.length (by omega) hinner rfl
        obtain ⟨behind, hbehind⟩ := ih back.length (by omega) (hinner.of_group h) rfl
        exact ⟨.group tree behind, by rw [BraceTree.text, htree, hbehind]⟩
      · have hge := h.front ['}'] ⟨rest, rfl⟩
        rw [balance_close] at hge
        exact absurd hge (by decide)
      · rw [List.length_cons] at hlength
        obtain ⟨tree, htree⟩ := ih rest.length (by omega) (h.of_char hother) rfl
        exact ⟨.char c hother tree, by rw [BraceTree.text, htree]⟩

/-! ## Reading a tree -/

/-- **A tree leaves the depth where it is and raises the largest depth by its height.** -/
theorem BraceState.foldl_push_text (tree : BraceTree) {depth maxDepth : Int}
    (h : depth ≤ maxDepth) :
    tree.text.foldl push ⟨depth, maxDepth, true⟩ =
      ⟨depth, max maxDepth (depth + tree.height), true⟩ := by
  induction tree generalizing depth maxDepth with
  | nil =>
    rw [BraceTree.text, List.foldl_nil, BraceTree.height]
    congr 1
    omega
  | char c plain behind ih =>
    rw [BraceTree.text, List.foldl_cons, push_other plain, ih h, BraceTree.height]
  | group inner behind ihInner ihBehind =>
    have hinner : depth + 1 ≤ max maxDepth (depth + 1) := le_max_right _ _
    have hbehind : depth ≤ max (max maxDepth (depth + 1)) (depth + 1 + inner.height) :=
      h.trans ((le_max_left _ _).trans (le_max_left _ _))
    rw [BraceTree.text, List.foldl_cons, push_open, List.foldl_append, ihInner hinner,
      List.foldl_cons, push_close, Int.add_sub_cancel, ihBehind hbehind, BraceTree.height]
    congr 1
    omega

theorem BraceState.foldl_push_plain {text : List Char} (h : Plain text) (state : BraceState) :
    text.foldl push state = state := by
  induction text with
  | nil => rfl
  | cons c rest ih =>
    obtain ⟨hopen, hclose⟩ := h
    have hother : c ≠ '{' ∧ c ≠ '}' :=
      ⟨(List.ne_of_not_mem_cons hopen).symm, (List.ne_of_not_mem_cons hclose).symm⟩
    rw [List.foldl_cons, push_other hother]
    exact ih ⟨List.not_mem_of_not_mem_cons hopen, List.not_mem_of_not_mem_cons hclose⟩

/-- Behind a group that nothing but plain text surrounds, the depth is zero and the largest depth
is the height of the group. -/
theorem BraceState.behind_group {front back : List Char} (hfront : Plain front)
    (hback : Plain back) (tree : BraceTree) :
    behind (front ++ '{' :: (tree.text ++ '}' :: back)) = ⟨0, tree.height + 1, true⟩ := by
  have hopened : initial.push '{' = ⟨1, 1, true⟩ := rfl
  rw [behind, List.foldl_append, foldl_push_plain hfront, List.foldl_cons, hopened,
    List.foldl_append, foldl_push_text tree (Int.le_refl 1), List.foldl_cons, push_close,
    foldl_push_plain hback]
  simp only [mk.injEq, and_true]
  omega

/-! ## Lines that hold a group -/

/-- Number of the line that holds the character at an offset, if the texts of the lines are put
in a row. -/
def lineAt : List (List Char) → Nat → Nat
  | [], _ => 0
  | line :: rest, offset =>
    if offset < line.length then 1 else lineAt rest (offset - line.length) + 1

theorem lineAt_spec {lines : List (List Char)} {offset : Nat} (h : offset < lines.flatten.length) :
    lineAt lines offset ≤ lines.length ∧
      offset < (lines.take (lineAt lines offset)).flatten.length ∧
      ∀ number < lineAt lines offset, (lines.take number).flatten.length ≤ offset := by
  induction lines generalizing offset with
  | nil => exact absurd h (Nat.not_lt_zero offset)
  | cons line rest ih =>
    rw [lineAt]
    split
    · rename_i hlt
      refine ⟨Nat.succ_le_succ (Nat.zero_le _), by simpa using hlt, ?_⟩
      intro number hnumber
      rw [Nat.lt_one_iff.mp hnumber]
      exact Nat.zero_le offset
    · rename_i hge
      rw [List.flatten_cons, List.length_append] at h
      have hinside : offset - line.length < rest.flatten.length := by omega
      obtain ⟨hlength, hlt, hbefore⟩ := ih hinside
      refine ⟨Nat.succ_le_succ hlength, ?_, ?_⟩
      · rw [List.take_succ_cons, List.flatten_cons, List.length_append]
        omega
      · rintro (_ | number) hnumber
        · exact Nat.zero_le offset
        · have hle := hbefore number (Nat.lt_of_succ_lt_succ hnumber)
          rw [List.take_succ_cons, List.flatten_cons, List.length_append]
          omega

/-- Lines whose first braces form a group, with no other brace behind it on the line where it
ends. -/
structure OpensWithGroup (lines : List (List Char)) (front inner back : List Char) : Prop where
  text_eq : lines.flatten = front ++ '{' :: (inner ++ '}' :: back)
  plain_front : Plain front
  balanced : Balanced inner
  plain_back : Plain ((lines.take (lineAt lines (front ++ '{' :: inner).length)).flatten.drop
    ((front ++ '{' :: inner).length + 1))

namespace OpensWithGroup
variable {lines : List (List Char)} {front inner back : List Char}
  (h : OpensWithGroup lines front inner back)
include h

theorem text_eq_append : lines.flatten = (front ++ '{' :: inner) ++ '}' :: back := by
  rw [h.text_eq, List.append_assoc]
  rfl

theorem close_lt : (front ++ '{' :: inner).length < lines.flatten.length := by
  rw [h.text_eq_append]
  simp only [List.length_append, List.length_cons]
  omega

/-- Up to the line where the group ends there is the group, and plain text around it. -/
theorem exists_text_upto : ∃ tail, Plain tail ∧
    (lines.take (lineAt lines (front ++ '{' :: inner).length)).flatten =
      front ++ '{' :: (inner ++ '}' :: tail) := by
  obtain ⟨-, hlt, -⟩ := lineAt_spec h.close_lt
  have hgroup : front ++ '{' :: inner ++ ['}'] <+: lines.flatten :=
    ⟨back, by rw [h.text_eq_append, List.append_assoc]; rfl⟩
  have hlength : (front ++ '{' :: inner ++ ['}']).length = (front ++ '{' :: inner).length + 1 :=
    List.length_append
  obtain ⟨tail, htail⟩ := List.prefix_of_prefix_length_le hgroup (List.take_prefix _ lines).flatten
    (by rw [hlength]; exact hlt)
  refine ⟨tail, ?_, ?_⟩
  · have hplain := h.plain_back
    rwa [← htail, List.drop_left' hlength] at hplain
  · rw [← htail]
    simp

/-- Before the line where the group ends, no line behind an opening brace leaves nothing open. -/
theorem balance_pos {number : Nat} (hlt : number < lineAt lines (front ++ '{' :: inner).length)
    (hopen : '{' ∈ (lines.take number).flatten) : 0 < balance (lines.take number).flatten := by
  obtain ⟨-, -, hbefore⟩ := lineAt_spec h.close_lt
  have hprefix : (lines.take number).flatten <+: front ++ '{' :: inner :=
    List.prefix_of_prefix_length_le (List.take_prefix number lines).flatten
      ⟨'}' :: back, h.text_eq_append.symm⟩ (hbefore number hlt)
  obtain ⟨more, hmore⟩ := hprefix
  -- what has been read ends in front of the group, or inside of it
  rcases List.append_eq_append_iff.mp hmore with ⟨left, hleft, -⟩ | ⟨taken, htaken, hinner⟩
  · exact absurd (hleft ▸ List.mem_append_left left hopen) h.plain_front.1
  · rw [htaken] at hopen ⊢
    rcases List.prefix_cons_iff.mp ⟨more, hinner.symm⟩ with rfl | ⟨front', rfl, hfront'⟩
    · rw [List.append_nil] at hopen
      exact absurd hopen h.plain_front.1
    · have hge := h.balanced.front front' hfront'
      rw [balance_append, balance_eq_zero h.plain_front.1 h.plain_front.2, balance_cons_open]
      omega

/-- A body in braces that starts with the first line may first stop where the group ends. -/
theorem isLeast_mayStop : IsLeast {number | braceReader.MayStop lines 1 number}
    (lineAt lines (front ++ '{' :: inner).length) := by
  obtain ⟨hlength, hlt, -⟩ := lineAt_spec h.close_lt
  refine ⟨?_, ?_⟩
  · obtain ⟨tail, hplain, htext⟩ := h.exists_text_upto
    obtain ⟨tree, rfl⟩ := h.balanced.exists_tree
    have hpos : 1 ≤ lineAt lines (front ++ '{' :: tree.text).length := by
      by_contra hzero
      rw [Nat.lt_one_iff.mp (Nat.lt_of_not_le hzero)] at hlt
      exact absurd hlt (Nat.not_lt_zero _)
    have hdepth : balance (lines.take (lineAt lines (front ++ '{' :: tree.text).length)).flatten
        = 0 := by
      rw [htext, ← BraceState.depth_behind, BraceState.behind_group h.plain_front hplain]
    refine (mayStop_iff (Nat.le_refl 1)).mpr ⟨hpos, hlength, ?_, hdepth.le⟩
    rw [stretch_one, htext]
    simp
  · intro number hnumber
    obtain ⟨-, -, hopen, hdepth⟩ := (mayStop_iff (Nat.le_refl 1)).mp hnumber
    by_contra hlt
    exact absurd (h.balance_pos (Nat.lt_of_not_le hlt) hopen) (Int.not_lt.mpr hdepth)

end OpensWithGroup

/-- **The depth of a method is the height of its braces.**  If the first line has a header of a
method with a body and the first braces of the lines form a group, however it is laid out, then the
first block starts with that line, is closed and stops with the line where the group ends, and its
largest depth is the height of the tree of groups inside, counted with the group itself. -/
theorem methodBlocks_of_group {line name : List Char} {rest : List (List Char)}
    {front inner back : List Char} (hname : BlockKind.csharpMethod.Declares line name)
    (h : OpensWithGroup (line :: rest) front inner back) :
    (∃ tree : BraceTree, tree.text = inner) ∧
    ∀ tree : BraceTree, tree.text = inner →
      (methodBlocks (line :: rest)).head? = some
        { name
          start := 1
          stop := lineAt (line :: rest) (front ++ '{' :: inner).length
          closed := true
          maxDepth := tree.height + 1
          methods := 0 } := by
  refine ⟨h.balanced.exists_tree, ?_⟩
  rintro tree rfl
  have hheader : methodScanner.header? line = some name :=
    (BlockKind.csharpMethod.header?_eq_some_iff line name).mpr hname
  have hblocks : methodBlocks (line :: rest) = methodScanner.blockAt 1 name (line :: rest) :: _ :=
    Scanner.blocksFrom_of_some hheader 1 rest
  have hmem : methodScanner.blockAt 1 name (line :: rest) ∈
      BlockKind.csharpMethod.blocks (line :: rest) := by
    rw [show BlockKind.csharpMethod.blocks (line :: rest) = _ from hblocks]
    exact List.mem_cons_self
  obtain ⟨hbounded, hmax⟩ := bounded_of_inBraces (Or.inl rfl) hmem
  have hfirst := h.isLeast_mayStop
  have hclosed : (methodScanner.blockAt 1 name (line :: rest)).closed = true := by
    cases hopen : (methodScanner.blockAt 1 name (line :: rest)).closed with
    | true => rfl
    | false => exact absurd hfirst.1 ((hbounded.goes_on hopen).2 _)
  have hstop := (hbounded.stops hclosed).unique hfirst
  obtain ⟨tail, hplain, htext⟩ := h.exists_text_upto
  rw [hstop, show (methodScanner.blockAt 1 name (line :: rest)).start = 1 from rfl, stretch_one,
    htext, BraceState.behind_group h.plain_front hplain] at hmax
  have hheight : (methodScanner.blockAt 1 name (line :: rest)).maxDepth = tree.height + 1 :=
    hmax.trans (Int.toNat_natCast (tree.height + 1))
  rw [hblocks, List.head?_cons, Option.some.injEq, ← hstop, ← hclosed, ← hheight]
  rfl

/-- A group over three lines, with two closing braces in a row, in front of a brace that closes
something else. -/
theorem methodBlocks_of_group_over_lines :
    let header := "T A() \x7b\x7b".toList
    let rest := ["\x7d\x7b\x7b\x7d".toList, "\x7d\x7d x".toList, "\x7d".toList]
    let tree : BraceTree := .group .nil (.group (.group .nil .nil) .nil)
    BlockKind.csharpMethod.Declares header ['A'] ∧
      OpensWithGroup (header :: rest) "T A() ".toList tree.text " x\x7d".toList ∧
      (methodBlocks (header :: rest)).head? = some ⟨['A'], 1, 3, true, 3, 0⟩ := by
  intro header rest tree
  have hname : BlockKind.csharpMethod.Declares header ['A'] :=
    (BlockKind.csharpMethod.header?_eq_some_iff _ _).mp (by decide)
  have hgroup : OpensWithGroup (header :: rest) "T A() ".toList tree.text " x\x7d".toList :=
    { text_eq := by decide
      plain_front := by decide
      balanced := tree.balanced
      plain_back := by decide }
  obtain ⟨-, hblock⟩ := methodBlocks_of_group hname hgroup
  exact ⟨hname, hgroup, hblock tree rfl⟩

end CSharp
end Code
end LineLint
