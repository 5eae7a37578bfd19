import Mathlib.Data.Nat.PSub
import LineLint.Proofs.Report.Anchors

/-! # Reads that may fail

A stretch of a text can be read only between the starts of characters, and a list
only up to its length.  The reads below say so: each of them gives nothing where it
is out of range.  `Nat.psub` is the subtraction that gives nothing below zero.

Bytes are those of the UTF-8 form.  Every byte of a text belongs to one of its
characters (`Text.exists_byte`), and of a class of ASCII characters it does not matter
at which of its bytes a character is looked at (`Text.apply_ofUInt8`).
-/
namespace LineLint

/-! ## Stretches -/

namespace Text

/-- The text from its byte `start` up to its byte `stop`. -/
def between? (text : List Char) (start stop : Nat) : Option (List Char) := do
  let length ← Nat.psub stop start
  slice? text start length

/-- A part is read between where it starts and where it stops. -/
theorem between?_append (front part back : List Char) :
    between? (front ++ (part ++ back)) (byteLength front) (byteLength front + byteLength part) =
      some part := by
  rw [between?, Nat.psub_eq_sub (Nat.le_add_right _ _), Nat.add_sub_cancel_left]
  exact slice?_append front part back

/-- No text can be cut inside a character. -/
example : dropBytes? 1 "é".toList = none ∧ between? "aé".toList 2 1 = none := by decide

end Text

namespace Checked

/-- The elements of a list from index `start` up to index `stop`. -/
def range? {α : Type} (xs : List α) (start stop : Nat) : Option (List α) :=
  if start ≤ stop ∧ stop ≤ xs.length then some ((xs.drop start).take (stop - start)) else none

/-- The first elements behind a part of a list are in range. -/
theorem range?_append {α : Type} (front : List α) {rest : List α} {n : Nat}
    (hn : n ≤ rest.length) :
    range? (front ++ rest) front.length (front.length + n) = some (rest.take n) := by
  have hrange : front.length ≤ front.length + n ∧
      front.length + n ≤ (front ++ rest).length := by
    rw [List.length_append]
    omega
  rw [range?, if_pos hrange, List.drop_left, Nat.add_sub_cancel_left]

/-! ## Lists of reads -/

variable {α β : Type} {xs : List α}

theorem mapM_eq_some {read : α → Option β} {f : α → β} (h : ∀ x ∈ xs, read x = some (f x)) :
    xs.mapM read = some (xs.map f) := by
  induction xs with
  | nil => rfl
  | cons x xs ih =>
    obtain ⟨hx, hxs⟩ := List.forall_mem_cons.mp h
    rw [List.mapM_cons, hx, ih hxs]
    rfl

theorem filterAuxM_eq (read : α → Option Bool) (xs kept : List α) :
    xs.filterAuxM read kept = (xs.filterAuxM read []).map (· ++ kept) := by
  induction xs generalizing kept with
  | nil => rfl
  | cons x xs ih =>
    rw [List.filterAuxM, List.filterAuxM]
    cases read x with
    | none => rfl
    | some chosen =>
      simp only [Option.bind_eq_bind, Option.bind_some]
      cases chosen with
      | true =>
        rw [cond_true, cond_true, ih (x :: kept), ih [x], Option.map_map]
        refine congrArg (Option.map · _) (funext fun found => ?_)
        exact (List.append_assoc found [x] kept).symm
      | false => exact ih kept

/-- An element is kept if its read says so. -/
theorem filterM_cons {read : α → Option Bool} {x : α} {chosen : Bool} {kept : List α}
    (hx : read x = some chosen) (hxs : xs.filterM read = some kept) :
    (x :: xs).filterM read = some (if chosen then x :: kept else kept) := by
  rw [List.filterM] at hxs ⊢
  obtain ⟨found, hfound, hkept⟩ := Option.bind_eq_some_iff.mp hxs
  obtain rfl : found.reverse = kept := Option.some.inj hkept
  rw [List.filterAuxM, hx]
  simp only [Option.bind_eq_bind, Option.bind_some]
  cases chosen with
  | true => simp [filterAuxM_eq read xs [x], hfound]
  | false => simp [hfound]

theorem filterM_append {read : α → Option Bool} {p : α → Bool} {ys kept : List α}
    (h : ∀ x ∈ xs, read x = some (p x)) (hys : ys.filterM read = some kept) :
    (xs ++ ys).filterM read = some (xs.filter p ++ kept) := by
  induction xs with
  | nil => exact hys
  | cons x xs ih =>
    obtain ⟨hx, hxs⟩ := List.forall_mem_cons.mp h
    rw [List.cons_append, filterM_cons hx (ih hxs), List.filter_cons]
    cases p x <;> rfl

theorem filterM_eq_some {read : α → Option Bool} {p : α → Bool}
    (h : ∀ x ∈ xs, read x = some (p x)) : xs.filterM read = some (xs.filter p) := by
  have hnil : ([] : List α).filterM read = some [] := rfl
  have hfilter := filterM_append h hnil
  rwa [List.append_nil, List.append_nil] at hfilter

theorem findSomeM?_eq_some {read : α → Option (Option β)} {f : α → Option β}
    (h : ∀ x ∈ xs, read x = some (f x)) : xs.findSomeM? read = some (xs.findSome? f) := by
  induction xs with
  | nil => rfl
  | cons x xs ih =>
    obtain ⟨hx, hxs⟩ := List.forall_mem_cons.mp h
    rw [List.findSomeM?, hx, List.findSome?_cons]
    cases f x with
    | some y => rfl
    | none => exact ih hxs

theorem optionMapM_eq_some {read : α → Option β} {f : α → β} {o : Option α}
    (h : ∀ x ∈ o, read x = some (f x)) : o.mapM read = some (o.map f) := by
  cases o with
  | none => rfl
  | some x =>
    rw [Option.mapM_some, h x rfl]
    rfl

end Checked

/-! ## Bytes -/

namespace Text

/-- The bytes of a text. -/
def bytes (text : List Char) : List UInt8 :=
  text.flatMap String.utf8EncodeChar

theorem bytes_append (a b : List Char) : bytes (a ++ b) = bytes a ++ bytes b :=
  List.flatMap_append

theorem length_bytes (text : List Char) : (bytes text).length = byteLength text := by
  induction text with
  | nil => rfl
  | cons c text ih =>
    rw [bytes, List.flatMap_cons, List.length_append, String.length_utf8EncodeChar,
      byteLength_cons, ← ih, bytes]

/-- The bytes behind a part of a text are those of the rest. -/
theorem getElem?_bytes_append (front rest : List Char) (k : Nat) :
    (bytes (front ++ rest))[byteLength front + k]? = (bytes rest)[k]? := by
  rw [bytes_append, ← length_bytes, List.getElem?_append_right (Nat.le_add_right _ _),
    Nat.add_sub_cancel_left]

/-- The first bytes of a text are those of its first character. -/
theorem getElem?_bytes_cons {c : Char} {k : Nat} (hk : k < c.utf8Size) (rest : List Char) :
    (bytes (c :: rest))[k]? = (String.utf8EncodeChar c)[k]? := by
  rw [bytes, List.flatMap_cons, List.getElem?_append_left]
  rwa [String.length_utf8EncodeChar]

/-- Each byte of a character can be read. -/
theorem exists_byte {c : Char} {k : Nat} (hk : k < c.utf8Size) (front rest : List Char) :
    ∃ byte ∈ String.utf8EncodeChar c,
      (bytes (front ++ c :: rest))[byteLength front + k]? = some byte := by
  have hlength : k < (String.utf8EncodeChar c).length := by rwa [String.length_utf8EncodeChar]
  refine ⟨(String.utf8EncodeChar c)[k], List.getElem_mem hlength, ?_⟩
  rw [getElem?_bytes_append, getElem?_bytes_cons hk, List.getElem?_eq_getElem hlength]

/-- A character of ASCII is a single byte. -/
theorem utf8EncodeChar_of_lt {c : Char} (hlt : c.toNat < 0x80) :
    String.utf8EncodeChar c = [c.val.toUInt8] ∧ Char.ofUInt8 c.val.toUInt8 = c := by
  have hval : c.val.toNat < 0x80 := hlt
  have hsize : c.utf8Size = 1 :=
    Char.utf8Size_eq_one_iff.mpr (UInt32.le_iff_toNat_le.mpr (Nat.le_of_lt_succ hval))
  refine ⟨String.utf8EncodeChar_eq_singleton hsize, Char.ext (UInt32.toNat_inj.mp ?_)⟩
  change c.val.toUInt8.toUInt32.toNat = c.val.toNat
  rw [UInt8.toNat_toUInt32, UInt32.toNat_toUInt8]
  omega

/-- All bytes of any other character have their highest bit set. -/
theorem le_of_mem_utf8EncodeChar {c : Char} {byte : UInt8} (hge : 0x80 ≤ c.toNat)
    (hmem : byte ∈ String.utf8EncodeChar c) : 0x80 ≤ byte.toNat := by
  have hval : ¬ c.val.toNat ≤ 0x7F := Nat.not_le.mpr hge
  have hbyte : ∀ n : Nat, 0x80 ≤ n → n < 0x100 → byte = UInt8.ofNat n → 0x80 ≤ byte.toNat := by
    rintro n hn hlt rfl
    rwa [UInt8.toNat_ofNat', Nat.mod_eq_of_lt hlt]
  unfold String.utf8EncodeChar at hmem
  simp only [hval, if_false] at hmem
  split at hmem
  · simp only [List.mem_cons, List.not_mem_nil, or_false] at hmem
    rcases hmem with h | h <;> exact hbyte _ (by omega) (by omega) h
  · split at hmem
    · simp only [List.mem_cons, List.not_mem_nil, or_false] at hmem
      rcases hmem with h | h | h <;> exact hbyte _ (by omega) (by omega) h
    · simp only [List.mem_cons, List.not_mem_nil, or_false] at hmem
      rcases hmem with h | h | h | h <;> exact hbyte _ (by omega) (by omega) h

/-- A class of characters of ASCII can be told at any byte of a character. -/
theorem apply_ofUInt8 {p : Char → Bool} (hascii : ∀ c, p c = true → c.toNat < 0x80) {c : Char}
    {byte : UInt8} (hmem : byte ∈ String.utf8EncodeChar c) : p (Char.ofUInt8 byte) = p c := by
  rcases Nat.lt_or_ge c.toNat 0x80 with hlt | hge
  · obtain ⟨hencode, hchar⟩ := utf8EncodeChar_of_lt hlt
    rw [hencode, List.mem_singleton] at hmem
    rw [hmem, hchar]
  · have hbyte : ¬ (Char.ofUInt8 byte).toNat < 0x80 :=
      Nat.not_lt.mpr (le_of_mem_utf8EncodeChar hge hmem)
    rw [Bool.eq_false_iff.mpr fun h => hbyte (hascii _ h),
      Bool.eq_false_iff.mpr fun h => Nat.not_lt.mpr hge (hascii _ h)]

end Text
end LineLint
