import Mathlib.Data.List.Basic
import Mathlib.Data.List.TakeWhile
import LineLint.Json.Reader
import LineLint.Json.Writer

/-!
# Scalars are read back

The first half of the law that what is written in JSON is read back: texts and
whole numbers.

* **Texts** (`scanString_quote`).  A character is written as itself, behind a
  backslash, or by its code in hexadecimal.  The last form is used below `0x20`
  only, so no half of a pair is ever written, and each character is one piece of
  its own (`IsPieceOf`).
* **Whole numbers** (`readNumber_int`).  The digits of a number are a numeral
  without a needless zero in front, and they spell the number
  (`natOf_digitsOf`); what 64 bits hold is kept as it is.

A numeral or a word is as long as the characters of its kind go on, so what
stands behind it matters: it must not go on with one of them (`EndsToken`).
-/

namespace LineLint
namespace Json

open Data

/-! ## What may stand behind a value -/

/-- A text that does not go on with a numeral or a word. -/
def EndsToken (rest : List Char) : Prop :=
  ∀ c ∈ rest.head?, isNumeralChar c = false ∧ c.isAlpha = false

theorem endsToken_cons {c : Char} {rest : List Char}
    (h : isNumeralChar c = false ∧ c.isAlpha = false) : EndsToken (c :: rest) := by
  simpa [EndsToken] using h

theorem EndsToken.append {front rest : List Char} (hf : EndsToken front) (hr : EndsToken rest) :
    EndsToken (front ++ rest) := by
  cases front with
  | nil => exact hr
  | cons c front => exact endsToken_cons (by simpa [EndsToken] using hf)

/-- A run of characters ends where the text behind it begins with another one. -/
theorem takeWhile_append_of_ends {p : Char → Bool} {front rest : List Char}
    (hf : ∀ c ∈ front, p c = true) (hr : ∀ c ∈ rest.head?, p c = false) :
    (front ++ rest).takeWhile p = front ∧ (front ++ rest).dropWhile p = rest := by
  rw [List.takeWhile_append_of_pos hf, List.dropWhile_append_of_pos hf]
  cases rest with
  | nil => simp
  | cons c rest =>
    have hc : p c = false := hr c rfl
    simp [hc]

/-! ## Texts -/

/-- A piece that stands for a character and is no half of a pair. -/
def IsPieceOf (c : Char) : Piece → Prop
  | .char d => d = c
  | .unit code => code < 0x20 ∧ Char.ofNat code = c

theorem joinPieces_cons {c : Char} {piece : Piece} (h : IsPieceOf c piece)
    (pieces : List Piece) :
    joinPieces (piece :: pieces) = (joinPieces pieces).map (c :: ·) := by
  cases piece with
  | char d => cases h; rw [joinPieces]
  | unit code =>
    obtain ⟨hlow, rfl⟩ := h
    have hhigh : isHighSurrogate code = false := by simp [isHighSurrogate]; omega
    have hsecond : isLowSurrogate code = false := by simp [isLowSurrogate]; omega
    -- The reader looks at the next piece, too, to see whether it is the half of a pair.
    rcases pieces with _ | ⟨_ | _, _⟩ <;> simp [joinPieces, hhigh, hsecond]

/-- The code of a control character is what its two hexadecimal digits spell. -/
theorem unit_of_control (n : Nat) (h : n < 0x20) :
    ['0', '0', hexDigit (n / 16), hexDigit (n % 16)].all Numeral.isHexDigit = true ∧
      Numeral.ofDigits 16 Numeral.hexValue ['0', '0', hexDigit (n / 16), hexDigit (n % 16)] =
        n := by
  revert n
  decide

/-- What a character is written as is read as one piece that stands for it. -/
theorem scanPieces_escapeChar (c : Char) (rest : List Char) :
    ∃ piece, IsPieceOf c piece ∧
      scanPieces (escapeChar c ++ rest) =
        (scanPieces rest).map fun (pieces, after) => (piece :: pieces, after) := by
  by_cases hq : c = '"'
  · subst hq; exact ⟨.char '"', rfl, by simp [escapeChar, scanPieces, unescape?]⟩
  by_cases hb : c = '\\'
  · subst hb; exact ⟨.char '\\', rfl, by simp [escapeChar, scanPieces, unescape?]⟩
  by_cases hn : c = '\n'
  · subst hn; exact ⟨.char '\n', rfl, by simp [escapeChar, scanPieces, unescape?]⟩
  by_cases hr : c = '\r'
  · subst hr; exact ⟨.char '\r', rfl, by simp [escapeChar, scanPieces, unescape?]⟩
  by_cases ht : c = '\t'
  · subst ht; exact ⟨.char '\t', rfl, by simp [escapeChar, scanPieces, unescape?]⟩
  by_cases hback : c = '\x08'
  · subst hback; exact ⟨.char '\x08', rfl, by simp [escapeChar, scanPieces, unescape?]⟩
  by_cases hfeed : c = '\x0c'
  · subst hfeed; exact ⟨.char '\x0c', rfl, by simp [escapeChar, scanPieces, unescape?]⟩
  by_cases hlow : c.toNat < 0x20
  · obtain ⟨hhex, hcode⟩ := unit_of_control c.toNat hlow
    refine ⟨.unit c.toNat, ⟨hlow, Char.ofNat_toNat c⟩, ?_⟩
    simp only [escapeChar, hq, hb, hn, hr, ht, hback, hfeed, hlow, if_true, if_false,
      List.cons_append, List.nil_append, scanPieces, hhex, hcode]
  · refine ⟨.char c, rfl, ?_⟩
    simp [escapeChar, scanPieces, hq, hb, hn, hr, ht, hback, hfeed, hlow]

/-- What is written between quotes is read back as the same text. -/
theorem scanString_quote (text rest : List Char) :
    scanString (text.flatMap escapeChar ++ '"' :: rest) = some (some (String.ofList text), rest) := by
  have (text : List Char) : ∃ pieces,
      scanPieces (text.flatMap escapeChar ++ '"' :: rest) = some (pieces, rest) ∧
        joinPieces pieces = some text := by
    induction text with
    | nil => exact ⟨[], by simp [scanPieces], rfl⟩
    | cons c text ih =>
      obtain ⟨pieces, hscan, hjoin⟩ := ih
      obtain ⟨piece, hpiece, hc⟩ :=
        scanPieces_escapeChar c (text.flatMap escapeChar ++ '"' :: rest)
      refine ⟨piece :: pieces, ?_, ?_⟩
      · rw [List.flatMap_cons, List.append_assoc, hc, hscan]
        rfl
      · rw [joinPieces_cons hpiece, hjoin]
        rfl
  obtain ⟨pieces, hscan, hjoin⟩ := this text
  simp [scanString, hscan, hjoin]

/-! ## Whole numbers -/

theorem natOf_toDigits (n : Nat) : Numeral.natOf (Nat.toDigits 10 n) = n := by
  have (digits : List Char) (start : Nat) :
      digits.foldl (fun n c => n * 10 + Numeral.digitValue c) start =
        Nat.ofDigitChars 10 digits start := by
    simp only [Nat.ofDigitChars_eq_foldl, Nat.mul_comm, Numeral.digitValue]
  rw [Numeral.natOf, Numeral.ofDigits, this, Nat.ofDigitChars_toDigits (by decide) (by decide)]

/-- A number other than zero is written without a zero in front. -/
theorem head?_toDigits_ne (n : Nat) (h : 0 < n) : (Nat.toDigits 10 n).head? ≠ some '0' := by
  induction n using Nat.strongRecOn with
  | ind n ih =>
    by_cases hlt : n < 10
    · rw [Nat.toDigits_of_lt_base hlt]
      have (m : Nat) (hm : m < 10) : 0 < m → [m.digitChar].head? ≠ some '0' := by
        revert m
        decide
      exact this n hlt h
    · have hpos : 0 < n / 10 := by omega
      have hne : Nat.toDigits 10 (n / 10) ≠ [] :=
        List.ne_nil_of_length_pos Nat.length_toDigits_pos
      rw [Nat.toDigits_of_base_le (by decide) (by omega), List.head?_append_of_ne_nil _ hne]
      exact ih (n / 10) (by omega) hpos

theorem isWhole_toDigits (n : Nat) : Numeral.isWhole (Nat.toDigits 10 n) = true := by
  have hne : Nat.toDigits 10 n ≠ [] := List.ne_nil_of_length_pos Nat.length_toDigits_pos
  rcases Nat.eq_zero_or_pos n with rfl | hpos
  · decide
  · simp [Numeral.isWhole, hne, head?_toDigits_ne n hpos]

theorem isDigit_of_mem_toDigits {n : Nat} {c : Char} (h : c ∈ Nat.toDigits 10 n) :
    c.isDigit = true :=
  Nat.isDigit_of_mem_toDigits (by decide) (by decide) h

theorem read?_toDigits (n : Nat) :
    Numeral.read? (Nat.toDigits 10 n) = some ⟨Nat.toDigits 10 n, none, none⟩ := by
  have htake := List.takeWhile_eq_self_iff.mpr fun c hc => isDigit_of_mem_toDigits (n := n) hc
  have hdrop := List.dropWhile_eq_nil_iff.mpr fun c hc => isDigit_of_mem_toDigits (n := n) hc
  simp [Numeral.read?, htake, hdrop, isWhole_toDigits, Numeral.readExponent]

/-- The digits of a whole number, behind a minus if it is negative. -/
theorem toList_toString (value : Int) :
    (toString value).toList =
      if value < 0 then '-' :: Nat.toDigits 10 value.natAbs else Nat.toDigits 10 value.natAbs := by
  cases value with
  | ofNat n =>
    change (Nat.repr n).toList = _
    simp
  | negSucc n =>
    change ("-" ++ Nat.repr (n + 1)).toList = _
    simp [Int.negSucc_lt_zero]

/-- A whole number that 64 bits hold, with its sign if it is negative, is kept as it is. -/
theorem readNumber_toString (value : Int) (h : -signedBound ≤ value ∧ value < wordBound) :
    readNumber (toString value).toList = some (.int value) := by
  rw [toList_toString]
  by_cases hneg : value < 0
  · obtain ⟨n, rfl⟩ : ∃ n : Nat, value = -(n : Int) := ⟨value.natAbs, by omega⟩
    have hbound : n ≤ signedBound := by omega
    have hpos : 0 < n := by omega
    simp [readNumber, read?_toDigits, number, Numeral.isInteger, natOf_toDigits, hpos, hbound]
  · have hnat : (value.natAbs : Int) = value := by omega
    have hbound : value.natAbs < wordBound := by omega
    have hdigits : readNumber (Nat.toDigits 10 value.natAbs) =
        (Numeral.read? (Nat.toDigits 10 value.natAbs)).map (number · false) := by
      unfold readNumber
      split
      · -- A digit is no minus.
        next digits heq =>
          have := isDigit_of_mem_toDigits (n := value.natAbs) (c := '-') (by simp [heq])
          simp at this
      · rfl
    simp [hneg, hdigits, read?_toDigits, number, Numeral.isInteger, natOf_toDigits, hbound, hnat]

theorem isNumeralChar_of_mem_toString {value : Int} {c : Char}
    (h : c ∈ (toString value).toList) : isNumeralChar c = true ∧ c.isAlpha = false := by
  have hc : c = '-' ∨ c.isDigit = true := by
    rw [toList_toString] at h
    split at h
    · exact (List.mem_cons.mp h).imp_right isDigit_of_mem_toDigits
    · exact .inr (isDigit_of_mem_toDigits h)
  obtain rfl | hdigit := hc
  · decide
  · have halpha : c.isAlpha = false := by
      unfold Char.isDigit at hdigit
      unfold Char.isAlpha Char.isUpper Char.isLower
      grind
    exact ⟨by simp [isNumeralChar, hdigit], halpha⟩

theorem toList_toString_ne_nil (value : Int) : (toString value).toList ≠ [] := by
  have hne : Nat.toDigits 10 value.natAbs ≠ [] :=
    List.ne_nil_of_length_pos Nat.length_toDigits_pos
  rw [toList_toString]
  split
  · exact List.cons_ne_nil _ _
  · exact hne

/-! ## Scalars in a text -/

theorem scanScalar_quote (text : String) (rest : List Char) :
    scanScalar (quote text.toList ++ rest) = ⟨some (.string text), some rest⟩ := by
  have hquote : quote text.toList ++ rest =
      '"' :: (text.toList.flatMap escapeChar ++ '"' :: rest) := by
    simp [quote]
  rw [hquote, scanScalar, scanString_quote, String.ofList_toList]

/-- The words that stand for values. -/
inductive IsWord : String → Value → Prop where
  | null : IsWord "null" .null
  | true : IsWord "true" (.bool true)
  | false : IsWord "false" (.bool false)

theorem scanScalar_word {word : String} {value : Value} (hw : IsWord word value)
    {rest : List Char} (h : EndsToken rest) :
    scanScalar (word.toList ++ rest) = ⟨some value, some rest⟩ := by
  have halpha : ∀ c ∈ word.toList, c.isAlpha = true := by
    refine List.all_eq_true.mp ?_
    cases hw <;> decide
  obtain ⟨htake, hdrop⟩ := takeWhile_append_of_ends halpha fun c hc => (h c hc).2
  have hword : scanWord (word.toList ++ rest) = ⟨some value, some rest⟩ := by
    rw [scanWord, htake, hdrop, String.ofList_toList]
    cases hw <;> rfl
  rw [← hword]
  cases hw <;> rfl

/-- A numeral ends where the text behind it goes on with another character. -/
theorem scanScalar_numeral {numeral rest : List Char} {value : Value}
    (hne : numeral ≠ []) (hchars : ∀ c ∈ numeral, isNumeralChar c = true ∧ c.isAlpha = false)
    (hread : readNumber numeral = some value) (h : EndsToken rest) :
    scanScalar (numeral ++ rest) = ⟨some value, some rest⟩ := by
  obtain ⟨htake, hdrop⟩ := takeWhile_append_of_ends (p := isNumeralChar)
    (fun c hc => (hchars c hc).1) fun c hc => (h c hc).1
  obtain ⟨c, digits, rfl⟩ := List.exists_cons_of_ne_nil hne
  obtain ⟨hnumeral, halpha⟩ := hchars c List.mem_cons_self
  unfold scanScalar
  split
  · next heq =>
    cases heq
    simp [isNumeralChar] at hnumeral
  · next heq =>
    cases heq
    rw [if_neg (by simp [halpha]), htake, hdrop, hread]
  · next heq => simp at heq

theorem scanScalar_toString {value : Int} (hvalue : -signedBound ≤ value ∧ value < wordBound)
    {rest : List Char} (h : EndsToken rest) :
    scanScalar ((toString value).toList ++ rest) = ⟨some (.int value), some rest⟩ :=
  scanScalar_numeral (toList_toString_ne_nil value)
    (fun _ hc => isNumeralChar_of_mem_toString hc) (readNumber_toString value hvalue) h

end Json
end LineLint
