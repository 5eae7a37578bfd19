import LineLint.Code.Comment
import LineLint.Proofs.Checked.Reads
import LineLint.Rule.LoanTerms

/-! # Texts read byte by byte

Four functions on texts, evaluated with every read of a byte and every cut of a text
spelled out, each of which fails out of range: the split into lines, the removal of
comments, the count of words, and the split of names into parts.  None of their reads
fails, and they give what their namesakes give (`Checked.lines_eq`,
`Checked.stripComment_eq`, `Checked.countWord_eq`, `Checked.nameParts_eq`).

In each proof the text is put together from what has been passed and what is left, and
the place in bytes is the length of what has been passed.
-/
namespace LineLint
namespace Checked

open Text

/-! ## Lines -/

/-- The lines of a text from the one that starts at `start` on, once the bytes up to `i` have
been looked at. -/
def linesFrom (text : List Char) (start i : Nat) : Option (List (List Char)) :=
  if i < (bytes text).length then do
    let byte ← (bytes text)[i]?
    if byte = 0x0A then
      let line ← between? text start i
      let more ← linesFrom text (i + 1) (i + 1)
      return line :: more
    else if byte = 0x0D then
      let line ← between? text start i
      let next := if (bytes text)[i + 1]? = some 0x0A then i + 2 else i + 1
      let more ← linesFrom text next next
      return line :: more
    else linesFrom text start (i + 1)
  else do
    let line ← dropBytes? start text
    return [line]
termination_by (bytes text).length - i
decreasing_by all_goals first | omega | (split <;> omega)

/-- The lines of a text. -/
def lines (text : List Char) : Option (List (List Char)) :=
  linesFrom text 0 0

theorem byte_ne_of_ne {c d : Char} {byte : UInt8} (hd : d.toNat < 0x80) (hne : c ≠ d)
    (hmem : byte ∈ String.utf8EncodeChar c) : byte ≠ d.val.toUInt8 := by
  rintro rfl
  have hclass := apply_ofUInt8 (p := (· == d)) ?_ hmem
  · rw [(utf8EncodeChar_of_lt hd).2, beq_self_eq_true] at hclass
    exact hne (eq_of_beq hclass.symm)
  · intro c hc
    rwa [eq_of_beq hc]

/-- A byte that ends no line is passed. -/
theorem linesFrom_byte {text : List Char} {i : Nat} {byte : UInt8}
    (h : (bytes text)[i]? = some byte) (hn : byte ≠ 0x0A) (hr : byte ≠ 0x0D) (start : Nat) :
    linesFrom text start i = linesFrom text start (i + 1) := by
  have hlt : i < (bytes text).length := (List.getElem?_eq_some_iff.mp h).1
  rw [linesFrom, if_pos hlt, h]
  simp only [Option.bind_eq_bind, Option.bind_some, if_neg hn, if_neg hr]

/-- A character that ends no line is passed, byte by byte. -/
theorem linesFrom_char {c : Char} (hn : c ≠ '\n') (hr : c ≠ '\r') (front rest : List Char)
    (start : Nat) :
    linesFrom (front ++ c :: rest) start (byteLength front) =
      linesFrom (front ++ c :: rest) start (byteLength front + c.utf8Size) := by
  suffices h : ∀ k ≤ c.utf8Size, linesFrom (front ++ c :: rest) start (byteLength front) =
      linesFrom (front ++ c :: rest) start (byteLength front + k) from h _ (Nat.le_refl _)
  intro k
  induction k with
  | zero => exact fun _ => rfl
  | succ k ih =>
    intro hk
    obtain ⟨byte, hmem, hbyte⟩ := exists_byte hk front rest
    rw [ih (Nat.le_of_succ_le hk), linesFrom_byte hbyte (byte_ne_of_ne (by decide) hn hmem)
      (byte_ne_of_ne (by decide) hr hmem), Nat.add_assoc]

/-- The first byte of a text that does not start with a line feed is none. -/
theorem getElem?_bytes_ne_lf {rest : List Char} (h : ∀ more, rest ≠ '\n' :: more) :
    (bytes rest)[0]? ≠ some 0x0A := by
  cases rest with
  | nil => exact nofun
  | cons c rest =>
    obtain ⟨byte, hmem, hbyte⟩ := exists_byte c.utf8Size_pos [] rest
    have hc : c ≠ '\n' := fun hc => h rest (by rw [hc])
    intro hlf
    exact byte_ne_of_ne (by decide) hc hmem (Option.some.inj (hbyte.symm.trans hlf))

/-- A line feed ends the line. -/
theorem linesFrom_lf {text line : List Char} {start i : Nat}
    (h : (bytes text)[i]? = some 0x0A) (hline : between? text start i = some line) :
    linesFrom text start i = (linesFrom text (i + 1) (i + 1)).map (line :: ·) := by
  have hlt : i < (bytes text).length := (List.getElem?_eq_some_iff.mp h).1
  rw [linesFrom, if_pos hlt, h, hline]
  cases linesFrom text (i + 1) (i + 1) <;> rfl

/-- A carriage return ends the line, together with a line feed behind it. -/
theorem linesFrom_cr {text line : List Char} {start i next : Nat}
    (h : (bytes text)[i]? = some 0x0D) (hline : between? text start i = some line)
    (hnext : next = if (bytes text)[i + 1]? = some 0x0A then i + 2 else i + 1) :
    linesFrom text start i = (linesFrom text next next).map (line :: ·) := by
  have hlt : i < (bytes text).length := (List.getElem?_eq_some_iff.mp h).1
  rw [linesFrom, if_pos hlt, h, hline]
  simp only [Option.bind_eq_bind, Option.bind_some, ← hnext]
  cases linesFrom text next next <;> rfl

/-- Whether the lines of `rest` are read behind any text, and behind any part that has been
read of their first one. -/
def LinesRead (rest : List Char) : Prop :=
  ∀ front part : List Char,
    linesFrom (front ++ (part ++ rest)) (byteLength front) (byteLength front + byteLength part) =
      some ((Text.lines rest).modifyHead (part ++ ·))

theorem modifyHead_nil_append (parts : List (List Char)) :
    parts.modifyHead ([] ++ ·) = parts := by
  cases parts <;> rfl

/-- Behind an ending, a line starts of which nothing has been read. -/
theorem LinesRead.behind {rest : List Char} (h : LinesRead rest) (front part ending : List Char) :
    linesFrom (front ++ (part ++ (ending ++ rest)))
        (byteLength front + byteLength part + byteLength ending)
        (byteLength front + byteLength part + byteLength ending) = some (Text.lines rest) := by
  have hread := h (front ++ (part ++ ending)) []
  rwa [modifyHead_nil_append, List.nil_append, byteLength_nil, Nat.add_zero,
    byteLength_append, byteLength_append, ← Nat.add_assoc, List.append_assoc,
    List.append_assoc] at hread

/-- The bytes behind what has been read are those of the rest. -/
theorem getElem?_bytes_behind (front part rest : List Char) (k : Nat) :
    (bytes (front ++ (part ++ rest)))[byteLength front + byteLength part + k]? =
      (bytes rest)[k]? := by
  rw [← List.append_assoc, ← byteLength_append]
  exact getElem?_bytes_append (front ++ part) rest k

theorem linesRead (rest : List Char) : LinesRead rest := by
  fun_induction rows rest with
  | case1 =>
    intro front part
    have hend : ¬ byteLength front + byteLength part < (bytes (front ++ (part ++ []))).length := by
      rw [length_bytes, byteLength_append, byteLength_append, byteLength_nil, Nat.add_zero]
      exact Nat.lt_irrefl _
    rw [linesFrom, if_neg hend, dropBytes?_append]
    rfl
  | case2 rest ih =>
    intro front part
    have hmore := ih.behind front part ['\r', '\n']
    rw [linesFrom_cr (getElem?_bytes_behind front part _ 0) (between?_append front part _)
      (if_pos (getElem?_bytes_behind front part _ 1)).symm]
    exact (congrArg (Option.map (part :: ·)) hmore).trans (by simp [Text.lines])
  | case3 rest hrest ih =>
    intro front part
    have hmore := ih.behind front part ['\r']
    have hlf : ¬ (bytes (front ++ (part ++ '\r' :: rest)))[
        byteLength front + byteLength part + 0 + 1]? = some 0x0A := by
      rw [Nat.add_assoc, getElem?_bytes_behind]
      exact getElem?_bytes_ne_lf hrest
    rw [linesFrom_cr (getElem?_bytes_behind front part _ 0) (between?_append front part _)
      (if_neg hlf).symm]
    have hlines : Text.lines ('\r' :: rest) = [] :: Text.lines rest := by
      rw [Text.lines, rows, List.map_cons, Text.lines]
      exact hrest
    rw [hlines, List.modifyHead_cons, List.append_nil]
    exact congrArg (Option.map (part :: ·)) hmore
  | case4 rest ih =>
    intro front part
    have hmore := ih.behind front part ['\n']
    rw [linesFrom_lf (getElem?_bytes_behind front part _ 0) (between?_append front part _)]
    exact (congrArg (Option.map (part :: ·)) hmore).trans (by simp [Text.lines])
  | case5 c rest _ hr hn row more hrows ih =>
    intro front part
    have hpass := linesFrom_char hn hr (front ++ part) rest (byteLength front)
    have hread := ih front (part ++ [c])
    have hlines : Text.lines (c :: rest) = (Text.lines rest).modifyHead (c :: ·) := by
      obtain ⟨row, more, hrest, hcons⟩ := rows_cons_of_ne hr hn rest
      rw [Text.lines, Text.lines, hcons, hrest]
      rfl
    rw [byteLength_append, List.append_assoc] at hpass
    rw [byteLength_append, List.append_assoc, ← Nat.add_assoc] at hread
    rw [hpass, hlines, List.modifyHead_modifyHead]
    refine hread.trans (congrArg some (congrArg (List.modifyHead · _) ?_))
    funext line
    exact List.append_assoc part [c] line
  | case6 c rest _ _ _ hrows ih => exact absurd hrows (rows_ne_nil rest)

/-- **The split into lines** reads in range and cuts between characters. -/
theorem lines_eq (text : List Char) : lines text = some (Text.lines text) :=
  (linesRead text).behind [] [] []

/-! ## Comments -/

/-- Looks for the comment of a line in `rest`, which stands behind its first `i` bytes. -/
def cutComment (line marker : List Char) (inString : Bool) (i : Nat) :
    List Char → Option (List Char)
  | [] => some line
  | c :: rest =>
    if c = '"' then cutComment line marker (!inString) (i + c.utf8Size) rest
    else if inString then cutComment line marker inString (i + c.utf8Size) rest
    else do
      let here ← dropBytes? i line
      if marker.isPrefixOf here then takeBytes? i line
      else cutComment line marker inString (i + c.utf8Size) rest

/-- A line without its comment. -/
def stripComment (line marker : List Char) : Option (List Char) :=
  cutComment line marker false 0 line

theorem cutComment_eq (marker front rest : List Char) (inString : Bool) :
    cutComment (front ++ rest) marker inString (byteLength front) rest =
      some (front ++ Code.cutComment marker inString rest) := by
  induction rest generalizing front inString with
  | nil => rfl
  | cons c rest ih =>
    have hnext : ∀ inString,
        cutComment (front ++ c :: rest) marker inString (byteLength front + c.utf8Size) rest =
          some (front ++ c :: Code.cutComment marker inString rest) := by
      intro inString
      have hread := ih (front ++ [c]) inString
      rwa [byteLength_append, List.append_assoc, List.append_assoc] at hread
    rw [cutComment, Code.cutComment]
    by_cases hquote : c = '"'
    · rw [if_pos hquote, if_pos hquote, hnext]
    · rw [if_neg hquote, if_neg hquote]
      cases inString with
      | true => exact hnext true
      | false =>
        -- the comment marker is looked for in the rest of the line
        rw [dropBytes?_append]
        by_cases hmarker : marker.isPrefixOf (c :: rest) = true
        · simp only [Option.bind_eq_bind, Option.bind_some, Bool.false_eq_true, if_false, hmarker,
            if_true, Bool.not_false, Bool.and_self, takeBytes?_append, List.append_nil]
        · simp only [Option.bind_eq_bind, Option.bind_some, Bool.false_eq_true, if_false, hmarker,
            Bool.not_false, Bool.and_false, hnext]

/-- **The removal of a comment** cuts between characters. -/
theorem stripComment_eq (line marker : List Char) :
    stripComment line marker = some (Code.stripComment line marker) :=
  cutComment_eq marker [] line false

/-! ## Words -/

/-- Whether a byte is a character of names. -/
def isNameByte (byte : UInt8) : Bool :=
  isNameChar (Char.ofUInt8 byte)

/-- Where a word occurs in a text that starts at byte `i`, from left to right and without overlap;
the first `skip` characters belong to an occurrence already found. -/
def occurrences (word : List Char) (i skip : Nat) : List Char → List Nat
  | [] => if skip = 0 && word.isEmpty then [i] else []
  | c :: rest =>
    match skip with
    | skip + 1 => occurrences word (i + c.utf8Size) skip rest
    | 0 =>
      if word.isPrefixOf (c :: rest) then
        i :: occurrences word (i + c.utf8Size) (word.length - 1) rest
      else occurrences word (i + c.utf8Size) 0 rest

/-- Whether an occurrence of a word at byte `i` touches no name on either side. -/
def standsAlone (text word : List Char) (i : Nat) : Option Bool := do
  let before ← (Nat.psub i 1).mapM fun i => (bytes text)[i]?
  let after := (bytes text)[i + byteLength word]?
  return !(before.any isNameByte) && !(after.any isNameByte)

/-- Number of whole-word occurrences of a word in a line, in any case. -/
def countWord (line word : List Char) : Option Nat := do
  let text := lower line
  let word := lower word
  let alone ← (occurrences word 0 0 text).mapM (standsAlone text word)
  return alone.count true

theorem lt_of_isUpper {c : Char} (h : c.isUpper = true) : c.toNat < 0x80 := by
  have hle : c.val ≤ 'Z'.val := (of_decide_eq_true h : _ ∧ _).2
  exact Nat.lt_of_le_of_lt (UInt32.le_iff_toNat_le.mp hle) (by decide)

theorem lt_of_isLower {c : Char} (h : c.isLower = true) : c.toNat < 0x80 := by
  have hle : c.val ≤ 'z'.val := of_decide_eq_true (Bool.and_eq_true_iff.mp h).2
  exact Nat.lt_of_le_of_lt (UInt32.le_iff_toNat_le.mp hle) (by decide)

theorem lt_of_isDigit {c : Char} (h : c.isDigit = true) : c.toNat < 0x80 := by
  have hle : c.val ≤ '9'.val := of_decide_eq_true (Bool.and_eq_true_iff.mp h).2
  exact Nat.lt_of_le_of_lt (UInt32.le_iff_toNat_le.mp hle) (by decide)

theorem lt_of_isNameChar {c : Char} (h : isNameChar c = true) : c.toNat < 0x80 := by
  have hkinds : (((c.isUpper || c.isLower) || c.isDigit) || c == '_') = true := h
  simp only [Bool.or_eq_true, beq_iff_eq] at hkinds
  rcases hkinds with ((hupper | hlower) | hdigit) | hunderscore
  · exact lt_of_isUpper hupper
  · exact lt_of_isLower hlower
  · exact lt_of_isDigit hdigit
  · rw [hunderscore]
    decide

theorem isNameByte_eq {c : Char} {byte : UInt8} (hmem : byte ∈ String.utf8EncodeChar c) :
    isNameByte byte = isNameChar c :=
  apply_ofUInt8 (fun _ => lt_of_isNameChar) hmem

/-- Whether a text ends with a character of names. -/
def endsInName (text : List Char) : Bool :=
  text.getLast?.any isNameChar

theorem endsInName_append (front : List Char) (c : Char) :
    endsInName (front ++ [c]) = isNameChar c := by
  rw [endsInName, List.getLast?_append]
  rfl

/-- The byte in front of a place can be read unless the place is the start of the text. -/
theorem exists_byteBefore (front rest : List Char) :
    ∃ before, ((Nat.psub (byteLength front) 1).mapM fun i => (bytes (front ++ rest))[i]?) =
        some before ∧ before.any isNameByte = endsInName front := by
  rcases List.eq_nil_or_concat front with rfl | ⟨init, c, rfl⟩
  · exact ⟨none, rfl, rfl⟩
  · have hpos := c.utf8Size_pos
    obtain ⟨byte, hmem, hbyte⟩ := exists_byte (Nat.sub_one_lt_of_lt hpos) init rest
    have hlast : byteLength (init ++ [c]) = byteLength init + (c.utf8Size - 1) + 1 := by
      rw [byteLength_append, byteLength_cons, byteLength_nil]
      omega
    refine ⟨some byte, ?_, ?_⟩
    · rw [List.concat_eq_append, hlast, Nat.psub_eq_sub (Nat.le_add_left 1 _),
        Nat.add_sub_cancel, Option.mapM_some, List.append_assoc, List.singleton_append, hbyte]
      rfl
    · rw [List.concat_eq_append, endsInName_append]
      exact isNameByte_eq hmem

theorem any_byteBehind (front word rest : List Char) :
    (bytes (front ++ (word ++ rest)))[byteLength front + byteLength word]?.any isNameByte =
      startsInName rest := by
  have hread := getElem?_bytes_behind front word rest 0
  rw [Nat.add_zero] at hread
  rw [hread]
  cases rest with
  | nil => rfl
  | cons c rest =>
    obtain ⟨byte, hmem, hbyte⟩ := exists_byte c.utf8Size_pos [] rest
    have hfirst : (bytes (c :: rest))[0]? = some byte := hbyte
    rw [hfirst]
    exact isNameByte_eq hmem

theorem standsAlone_eq (front word rest : List Char) :
    standsAlone (front ++ (word ++ rest)) word (byteLength front) =
      some (!endsInName front && !startsInName rest) := by
  obtain ⟨before, hbefore, hends⟩ := exists_byteBefore front (word ++ rest)
  rw [standsAlone, hbefore, ← hends, ← any_byteBehind front word rest]
  rfl

theorem countWordFrom_eq (word front rest : List Char) (skip : Nat) :
    ((occurrences word (byteLength front) skip rest).mapM
        (standsAlone (front ++ rest) word)).map (List.count true) =
      some (countWordFrom word (endsInName front) skip rest) := by
  induction rest generalizing front skip with
  | nil =>
    -- only the empty word occurs at the end of the text
    rw [occurrences, countWordFrom]
    by_cases hempty : (skip = 0 && word.isEmpty) = true
    · obtain rfl : word = [] := List.isEmpty_iff.mp (Bool.and_eq_true_iff.mp hempty).2
      have halone := standsAlone_eq front [] []
      rw [List.append_nil, List.append_nil] at halone
      rw [if_pos hempty, hempty, List.mapM_cons, List.append_nil, halone]
      cases endsInName front <;> rfl
    · rw [if_neg hempty, Bool.eq_false_iff.mpr hempty]
      rfl
  | cons c rest ih =>
    have hnext : ∀ skip, ((occurrences word (byteLength front + c.utf8Size) skip rest).mapM
        (standsAlone (front ++ c :: rest) word)).map (List.count true) =
          some (countWordFrom word (isNameChar c) skip rest) := by
      intro skip
      have hread := ih (front ++ [c]) skip
      rwa [byteLength_append, List.append_assoc, endsInName_append] at hread
    cases skip with
    | succ skip => exact hnext skip
    | zero =>
      rw [occurrences, countWordFrom]
      by_cases hoccurs : word.isPrefixOf (c :: rest) = true
      · obtain ⟨back, hback⟩ := List.isPrefixOf_iff_prefix.mp hoccurs
        have halone := standsAlone_eq front word back
        rw [hback] at halone
        have hdrop : (c :: rest).drop word.length = back := by
          rw [← hback, List.drop_left]
        obtain ⟨more, hmore, hcount⟩ := Option.map_eq_some_iff.mp (hnext (word.length - 1))
        rw [if_pos hoccurs, if_pos hoccurs, List.mapM_cons, halone, hmore, hdrop, ← hcount]
        cases endsInName front <;> cases startsInName back <;> simp [Nat.add_comm]
      · rw [if_neg hoccurs, if_neg hoccurs]
        exact hnext 0

/-- **The count of words** looks at bytes of the text only. -/
theorem countWord_eq (line word : List Char) :
    countWord line word = some (Text.countWord line word) := by
  have hcount := countWordFrom_eq (lower word) [] (lower line) 0
  obtain ⟨alone, halone, hcount⟩ := Option.map_eq_some_iff.mp hcount
  rw [Text.countWord]
  exact (congrArg (Option.bind · fun alone => some (alone.count true)) halone).trans
    (congrArg some hcount)

/-! ## Parts of names -/

/-- Whether a new part of a name starts at byte `i`, which is not the first one. -/
def startsPart (name : List Char) (i : Nat) : Option Bool := do
  let here ← (bytes name)[i]?
  let before ← (bytes name)[← Nat.psub i 1]?
  return (Char.ofUInt8 here).isUpper && (Char.ofUInt8 before).isLower

/-- The stretches of a name between each of the bounds and the next. -/
def partsBetween (name : List Char) : List Nat → Option (List (List Char))
  | start :: stop :: bounds => do
    let part ← between? name start stop
    let parts ← partsBetween name (stop :: bounds)
    return part :: parts
  | _ => some []

/-- The parts of a name. -/
def nameParts (name : List Char) : Option (List (List Char)) := do
  let length := (bytes name).length
  let starts ← (List.range' 1 (length - 1)).filterM (startsPart name)
  partsBetween name (0 :: starts ++ [length])

/-- Where new parts start in `rest`, which stands behind `before` at byte `i`. -/
def partStarts (before : Char) (i : Nat) : List Char → List Nat
  | [] => []
  | c :: rest =>
    if before.isLower && c.isUpper then i :: partStarts c (i + c.utf8Size) rest
    else partStarts c (i + c.utf8Size) rest

theorem isLower_of_isUpper {c : Char} (h : c.isUpper = true) : c.isLower = false := by
  refine Bool.eq_false_iff.mpr fun hlower => ?_
  have hle : c.val ≤ 'Z'.val := (of_decide_eq_true h : _ ∧ _).2
  have hge : 'a'.val ≤ c.val := of_decide_eq_true (Bool.and_eq_true_iff.mp hlower).1
  exact absurd (UInt32.le_trans hge hle) (by decide)

/-- No part starts inside a character, which is not both a capital and a small letter. -/
theorem startsPart_inside (front : List Char) (c : Char) (rest : List Char) {k : Nat}
    (hk : k + 1 < c.utf8Size) :
    startsPart (front ++ c :: rest) (byteLength front + (k + 1)) = some false := by
  obtain ⟨here, hmem, hhere⟩ := exists_byte hk front rest
  obtain ⟨before, hmem', hbefore⟩ := exists_byte (Nat.lt_of_succ_lt hk) front rest
  have hupper : (Char.ofUInt8 here).isUpper = c.isUpper :=
    apply_ofUInt8 (fun _ => lt_of_isUpper) hmem
  have hlower : (Char.ofUInt8 before).isLower = c.isLower :=
    apply_ofUInt8 (fun _ => lt_of_isLower) hmem'
  have hsub : Nat.psub (byteLength front + (k + 1)) 1 = some (byteLength front + k) :=
    Nat.psub_eq_sub (Nat.le_add_left 1 _)
  have hnot : (c.isUpper && c.isLower) = false := by
    cases hc : c.isUpper with
    | false => rfl
    | true => exact isLower_of_isUpper hc
  rw [startsPart, hhere, hsub]
  simp only [Option.bind_eq_bind, Option.bind_some, hbefore, hupper, hlower, hnot]
  rfl

/-- A part starts at the first byte of a capital behind a small letter. -/
theorem startsPart_behind (front : List Char) (b c : Char) (rest : List Char) :
    startsPart (front ++ b :: c :: rest) (byteLength front + b.utf8Size) =
      some (b.isLower && c.isUpper) := by
  have hpos := b.utf8Size_pos
  obtain ⟨here, hmem, hhere⟩ := exists_byte c.utf8Size_pos (front ++ [b]) rest
  obtain ⟨before, hmem', hbefore⟩ := exists_byte (Nat.sub_one_lt_of_lt hpos) front (c :: rest)
  have hupper : (Char.ofUInt8 here).isUpper = c.isUpper :=
    apply_ofUInt8 (fun _ => lt_of_isUpper) hmem
  have hlower : (Char.ofUInt8 before).isLower = b.isLower :=
    apply_ofUInt8 (fun _ => lt_of_isLower) hmem'
  have hsub : Nat.psub (byteLength front + b.utf8Size) 1 =
      some (byteLength front + (b.utf8Size - 1)) := by
    rw [Nat.psub_eq_sub (by omega), Nat.add_sub_assoc hpos]
  rw [byteLength_append, List.append_assoc] at hhere
  rw [startsPart, show (bytes (front ++ b :: c :: rest))[byteLength front + b.utf8Size]? =
    some here from hhere, hsub]
  simp only [Option.bind_eq_bind, Option.bind_some, hbefore, hupper, hlower,
    Bool.and_comm c.isUpper]
  rfl

theorem filter_range_start (start : Nat) {n : Nat} (hn : 0 < n) (q : Bool) :
    (List.range' start n).filter (fun i => i == start && q) = if q then [start] else [] := by
  obtain ⟨n, rfl⟩ := Nat.exists_eq_add_one.mpr hn
  have htail : (List.range' (start + 1) n).filter (fun i => i == start && q) = [] := by
    refine List.filter_eq_nil_iff.mpr fun i hi h => ?_
    obtain ⟨hlt, -⟩ := List.mem_range'_1.mp hi
    exact absurd (eq_of_beq (Bool.and_eq_true_iff.mp h).1) (by omega)
  rw [List.range'_succ, List.filter_cons, htail, beq_self_eq_true,
    Bool.true_and]

theorem filterM_startsPart (front : List Char) (b : Char) (rest : List Char) :
    (List.range' (byteLength front + b.utf8Size) (byteLength rest)).filterM
        (startsPart (front ++ b :: rest)) =
      some (partStarts b (byteLength front + b.utf8Size) rest) := by
  induction rest generalizing front b with
  | nil => rfl
  | cons c rest ih =>
    have hmore := ih (front ++ [b]) c
    rw [byteLength_append, byteLength_cons, byteLength_nil, Nat.add_zero, List.append_assoc,
      List.singleton_append] at hmore
    -- only the first byte of a character may start a part
    have hread : ∀ i ∈ List.range' (byteLength front + b.utf8Size) c.utf8Size,
        startsPart (front ++ b :: c :: rest) i =
          some (i == byteLength front + b.utf8Size && (b.isLower && c.isUpper)) := by
      intro i hi
      obtain ⟨k, hk, rfl⟩ := List.mem_range'.mp hi
      cases k with
      | zero =>
        rw [Nat.mul_zero, Nat.add_zero, startsPart_behind, beq_self_eq_true, Bool.true_and]
      | succ k =>
        have hinside := startsPart_inside (front ++ [b]) c rest hk
        rw [byteLength_append, byteLength_cons, byteLength_nil, Nat.add_zero, List.append_assoc,
          List.singleton_append] at hinside
        rw [Nat.one_mul, hinside, Bool.and_eq_false_iff.mpr (Or.inl (beq_eq_false_iff_ne.mpr _))]
        omega
    rw [byteLength_cons, ← List.range'_append, Nat.one_mul, filterM_append hread hmore,
      filter_range_start _ c.utf8Size_pos, partStarts]
    cases b.isLower && c.isUpper <;> rfl

theorem partsBetween_cons {name part : List Char} {parts : List (List Char)} {start stop : Nat}
    {bounds : List Nat} (hpart : between? name start stop = some part)
    (hparts : partsBetween name (stop :: bounds) = some parts) :
    partsBetween name (start :: stop :: bounds) = some (part :: parts) := by
  rw [partsBetween, hpart, hparts]
  rfl

theorem nameParts_of_starts {b c : Char} (h : (b.isLower && c.isUpper) = true)
    (rest : List Char) :
    LoanTerms.nameParts (b :: c :: rest) = [b] :: LoanTerms.nameParts (c :: rest) := by
  rw [LoanTerms.nameParts, if_pos h]

theorem nameParts_of_goes_on {b c : Char} (h : ¬ (b.isLower && c.isUpper) = true)
    (rest : List Char) :
    LoanTerms.nameParts (b :: c :: rest) =
      (LoanTerms.nameParts (c :: rest)).modifyHead (b :: ·) := by
  rw [LoanTerms.nameParts, if_neg h]
  cases hparts : LoanTerms.nameParts (c :: rest) with
  | nil =>
    have hflatten := LoanTerms.flatten_nameParts (c :: rest)
    rw [hparts] at hflatten
    cases hflatten
  | cons part parts => rfl

theorem partsBetween_eq (front part : List Char) (b : Char) (rest : List Char) :
    partsBetween (front ++ (part ++ b :: rest))
        (byteLength front :: (partStarts b (byteLength front + byteLength (part ++ [b])) rest ++
          [byteLength (front ++ (part ++ b :: rest))])) =
      some ((LoanTerms.nameParts (b :: rest)).modifyHead (part ++ ·)) := by
  induction rest generalizing front part b with
  | nil =>
    have hread := between?_append front (part ++ [b]) []
    rw [List.append_nil, ← byteLength_append] at hread
    exact partsBetween_cons hread rfl
  | cons c rest ih =>
    have hread := between?_append front (part ++ [b]) (c :: rest)
    rw [List.append_assoc, List.singleton_append] at hread
    by_cases hstarts : (b.isLower && c.isUpper) = true
    · have hmore := ih (front ++ (part ++ [b])) [] c
      rw [modifyHead_nil_append, List.nil_append, byteLength_append, List.append_assoc,
        List.append_assoc, List.singleton_append] at hmore
      rw [partStarts, if_pos hstarts, nameParts_of_starts hstarts]
      exact partsBetween_cons hread hmore
    · have hmore := ih front (part ++ [b]) c
      have hjoin : ((part ++ ·) ∘ (b :: ·)) = (part ++ [b] ++ ·) :=
        funext fun word => (List.append_assoc part [b] word).symm
      rw [byteLength_append, ← Nat.add_assoc, List.append_assoc, List.singleton_append] at hmore
      rw [partStarts, if_neg hstarts, nameParts_of_goes_on hstarts, List.modifyHead_modifyHead,
        hjoin]
      exact hmore

/-- **The split of a name** reads in range and cuts between characters. -/
theorem nameParts_eq {name : List Char} (h : name ≠ []) :
    nameParts name = some (LoanTerms.nameParts name) := by
  obtain ⟨b, rest, rfl⟩ := List.exists_cons_of_ne_nil h
  have hpos := b.utf8Size_pos
  have hinside : ∀ i ∈ List.range' 1 (b.utf8Size - 1), startsPart (b :: rest) i = some false := by
    intro i hi
    obtain ⟨k, hk, rfl⟩ := List.mem_range'.mp hi
    have hread := startsPart_inside [] b rest (Nat.add_lt_of_lt_sub hk)
    rwa [byteLength_nil, Nat.zero_add, List.nil_append, Nat.add_comm k, ← Nat.one_mul k] at hread
  have hbehind := filterM_startsPart [] b rest
  rw [byteLength_nil, Nat.zero_add, List.nil_append] at hbehind
  have hlength : (bytes (b :: rest)).length - 1 = b.utf8Size - 1 + byteLength rest := by
    rw [length_bytes, byteLength_cons]
    omega
  have hfirst : 1 + 1 * (b.utf8Size - 1) = b.utf8Size := by omega
  have hstarts : (List.range' 1 ((bytes (b :: rest)).length - 1)).filterM (startsPart (b :: rest)) =
      some (partStarts b b.utf8Size rest) := by
    rw [hlength, ← List.range'_append, hfirst, filterM_append hinside hbehind, List.filter_false,
      List.nil_append]
  have hparts := partsBetween_eq [] [] b rest
  have htotal : byteLength ([] ++ ([] ++ b :: rest)) = (bytes (b :: rest)).length :=
    (length_bytes _).symm
  rw [modifyHead_nil_append, htotal, byteLength_nil, Nat.zero_add] at hparts
  rw [nameParts, hstarts]
  exact hparts

end Checked
end LineLint
