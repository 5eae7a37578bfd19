import LineLint.Code.Nesting
import LineLint.Proofs.Pattern.WholeWords

/-! # Transactions and blocks

`BEGIN` opens a block unless it begins a transaction, which white space and one of three words
behind it say (`TransactSql.NamesTransaction`).  What a line opens is the difference of two counts,
of all words `BEGIN` and of those that begin a transaction.  Both count every place there is, and
the places of the second kind are among those of the first.  So the difference is the number of
words `BEGIN` that begin no transaction, and nothing is lost by its stopping at zero
(`TransactSql.delta_eq_encard`).
-/
namespace LineLint
namespace Code
namespace TransactSql

open Pattern

variable {front word back after line : List Char} {m : Match}

/-- The words that make `BEGIN` open a transaction. -/
def transactionWords : List String :=
  ["TRAN", "TRANSACTION", "DISTRIBUTED"]

/-- Whether a text begins with white space and, as a whole word, one of the words that make a
transaction. -/
def NamesTransaction (text : List Char) : Prop :=
  ∃ gap word rest, text = gap ++ (word ++ rest) ∧ IsGap gap ∧
    ∃ keyword ∈ transactionWords, IsWholeWord keyword gap word rest

/-! ## What the pattern matches -/

theorem isLetters_begin : IsLetters "BEGIN" := by decide

theorem isLetters_of_mem_transactionWords :
    ∀ keyword ∈ transactionWords, IsLetters keyword := by decide

theorem at?_beginTransaction (h : IsWholeWord "BEGIN" front word back)
    (hback : NamesTransaction back) :
    (beginTransactionPattern.at? ⟨front.reverse, word ++ back⟩).isSome = true := by
  obtain ⟨gap, name, rest, rfl, hgap, keyword, hkeyword, hname⟩ := hback
  have hpair : IsWordPair "BEGIN" transactionWords front.reverse word gap name rest :=
    ⟨h.spells, hgap, ⟨keyword, hkeyword, hname.spells⟩, h.starts, hname.ends⟩
  exact at?_isSome_iff.mpr ⟨_, (mem_reach_wordPair_iff isLetters_begin
    isLetters_of_mem_transactionWords).mpr ⟨word, gap, name, rest, rfl, hpair, rfl⟩⟩

/-- **A match is `BEGIN` with the word behind it.** -/
theorem exists_of_at?_beginTransaction
    (h : beginTransactionPattern.at? ⟨front.reverse, after⟩ = some m) :
    ∃ word gap name rest, after = word ++ (gap ++ (name ++ rest)) ∧
      IsWordPair "BEGIN" transactionWords front.reverse word gap name rest ∧
      m.length = (word ++ (gap ++ name)).length := by
  obtain ⟨s, hs, hm⟩ := exists_reach_of_at? h
  obtain ⟨word, gap, name, rest, rfl, hpair, rfl⟩ :=
    (mem_reach_wordPair_iff isLetters_begin isLetters_of_mem_transactionWords).mp hs
  refine ⟨word, gap, name, rest, rfl, hpair, ?_⟩
  have htext : word ++ (gap ++ (name ++ rest)) = word ++ (gap ++ name) ++ rest := by simp
  rw [htext] at h
  exact length_of_at? h (by rw [hm])

/-- A pair of words is a whole word `BEGIN` that begins a transaction. -/
theorem isWholeWord_of_isWordPair {gap name rest : List Char}
    (h : IsWordPair "BEGIN" transactionWords front.reverse word gap name rest) :
    IsWholeWord "BEGIN" front word (gap ++ (name ++ rest)) ∧
      NamesTransaction (gap ++ (name ++ rest)) := by
  obtain ⟨keyword, hkeyword, hname⟩ := h.isName
  have hstarts := touchesWord_reverse_gap h.isGap []
  rw [List.append_nil] at hstarts
  exact ⟨⟨h.spells, h.starts, touchesWord_gap h.isGap _⟩,
    gap, name, rest, rfl, h.isGap, keyword, hkeyword, hname, hstarts, h.ends⟩

theorem matchColumns_beginTransaction (line : List Char) :
    beginTransactionPattern.matchColumns line = wordColumns "BEGIN" NamesTransaction line := by
  ext column
  constructor
  · rintro ⟨front, after, rfl, hcolumn, hsome⟩
    obtain ⟨m, hat⟩ := Option.isSome_iff_exists.mp hsome
    obtain ⟨word, gap, name, rest, rfl, hpair, -⟩ := exists_of_at?_beginTransaction hat
    exact ⟨front, word, gap ++ (name ++ rest), rfl, hcolumn, isWholeWord_of_isWordPair hpair⟩
  · rintro ⟨front, word, back, rfl, hcolumn, hword, hback⟩
    exact ⟨front, word ++ back, rfl, hcolumn, at?_beginTransaction hword hback⟩

/-- No text begins both with `BEGIN` and with a word that makes a transaction. -/
theorem append_ne_of_begin {name rest : List Char} (h : Spells "BEGIN" word)
    (hname : ∃ keyword ∈ transactionWords, Spells keyword name) : name ++ rest ≠ word ++ back := by
  obtain ⟨keyword, hkeyword, hname⟩ := hname
  have hdiffer : ∀ keyword ∈ transactionWords, Differ keyword "BEGIN" := by decide
  exact hname.append_ne h (isLetters_of_mem_transactionWords keyword hkeyword).2 isLetters_begin.2
    (hdiffer keyword hkeyword)

/-- No `BEGIN` starts inside of a match: neither in a word, nor in white space, nor where the word
behind it starts. -/
theorem staysApart_beginTransaction : beginTransactionPattern.StaysApart := by
  intro front passed after earlier m hearlier hm hne
  obtain ⟨word', gap, name, rest, htext, hfirst, hlength⟩ :=
    exists_of_at?_beginTransaction hearlier
  obtain ⟨word, gap', name', rest', rfl, hlater, -⟩ := exists_of_at?_beginTransaction hm
  have hpassed := touchesWord_reverse_of_append hlater.starts
  have hsolid := head_solid (hlater.spells.ne_nil isLetters_begin.1)
    (hlater.spells.continues isLetters_begin.2) (gap' ++ (name' ++ rest'))
  obtain ⟨passed, rfl, hspace⟩ :=
    (cut_word (hfirst.spells.continues isLetters_begin.2) hpassed htext.symm).resolve_left hne
  obtain ⟨passed, rfl, hbehind⟩ := cut_gap hfirst.isGap.2 hsolid hspace
  obtain ⟨keyword, hkeyword, hname⟩ := hfirst.isName
  have hletters := isLetters_of_mem_transactionWords keyword hkeyword
  rcases cut_word (hname.continues hletters.2)
    (touchesWord_reverse_of_append (touchesWord_reverse_of_append hpassed)) hbehind with
    rfl | ⟨more, rfl, -⟩
  · exact (append_ne_of_begin hlater.spells ⟨keyword, hkeyword, hname⟩ hbehind).elim
  · rw [hlength]
    simp only [List.length_append]
    omega

/-- A sweep counts all words `BEGIN` that begin a transaction. -/
theorem count_beginTransaction (line : List Char) :
    (beginTransactionPattern.count line : ℕ∞) =
      (wordColumns "BEGIN" NamesTransaction line).encard := by
  rw [count_eq_encard staysApart_beginTransaction, matchColumns_beginTransaction]

/-! ## What a line opens -/

/-- **What a line of T-SQL opens and closes.**  It opens as many blocks as whole words `BEGIN` stand
on it without white space and a word that makes a transaction behind them.  There are never more
transactions than words `BEGIN`.  And it closes as many as whole words `END` stand on it. -/
theorem delta_eq_encard (line : List Char) :
    ((delta line).opens : ℕ∞) =
        (wordColumns "BEGIN" (fun back => ¬ NamesTransaction back) line).encard ∧
      beginTransactionPattern.count line ≤ beginPattern.count line ∧
      ((delta line).closes : ℕ∞) = (wordColumns "END" (fun _ => True) line).encard := by
  have hbegin : (beginPattern.count line : ℕ∞) =
      (wordColumns "BEGIN" (fun _ => True) line).encard :=
    count_wholeWord isLetters_begin line
  have hsum := encard_wordColumns_add "BEGIN" NamesTransaction line
  rw [← count_beginTransaction, ← hbegin] at hsum
  -- the words that open a block are among all words, so there are finitely many
  obtain ⟨openers, hopeners⟩ : ∃ openers : ℕ, (openers : ℕ∞) =
      (wordColumns "BEGIN" (fun back => ¬ NamesTransaction back) line).encard := by
    refine ENat.ne_top_iff_exists.mp fun htop => ?_
    rw [htop, top_add] at hsum
    exact ENat.top_ne_natCast _ hsum
  rw [← hopeners] at hsum ⊢
  have hcount : openers + beginTransactionPattern.count line = beginPattern.count line := by
    exact_mod_cast hsum
  refine ⟨?_, ?_, count_wholeWord (by decide) line⟩
  · rw [delta, ← hcount, Nat.add_sub_cancel]
  · omega

end TransactSql
end Code
end LineLint
