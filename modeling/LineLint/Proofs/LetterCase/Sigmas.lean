import LineLint.Snippet

/-! # Sigmas at the edges of texts that are looked for

A snippet and the text that is looked for in it are made small apart, each as if nothing stood around
it.  All letters but one are made small on their own: a capital sigma is read with what surrounds it.
So a text that stands in a snippet letter by letter is made small there as it is by itself exactly if
each of its sigmas ends a word in the snippet if it ends one in the text itself
(`Text.lowerBetween_eq_lower_iff`), and then it is found.

What a sigma in the middle of a text is read as does not change, because letters stand on both sides of
it.  Near the edges it may be *loose* (`Text.hasLooseSigma`): a first letter that a letter in front
would turn into the end of a word, or the end of a word that a letter behind would make go on.  A
text with a loose sigma is not found in some snippet that holds it, and a text without one is found
in each of them (`Snippet.containsIgnoringCase_of_infix_iff`).
-/
namespace LineLint
namespace Text

/-! ## Letters that are looked for on either side -/

theorem meetsCased_cons (c : Char) (text : List Char) :
    meetsCased (c :: text) = if isCaseIgnorable c then meetsCased text else isCased c := by
  rw [meetsCased, List.dropWhile_cons]
  cases isCaseIgnorable c <;> rfl

/-- A text is looked through only if each of its characters is. -/
theorem meetsCased_append (front back : List Char) :
    meetsCased (front ++ back) =
      if front.all isCaseIgnorable then meetsCased back else meetsCased front := by
  induction front with
  | nil => rfl
  | cons c front ih =>
    rw [List.cons_append, meetsCased_cons, meetsCased_cons, ih, List.all_cons]
    cases isCaseIgnorable c <;> rfl

theorem meetsCased_of_all {text : List Char} (h : text.all isCaseIgnorable = true) :
    meetsCased text = false := by
  have hnil := meetsCased_append text []
  rwa [List.append_nil, if_pos h] at hnil

theorem isCaseIgnorable_sigma : isCaseIgnorable 'Σ' = false := by decide +kernel

/-- Nothing is looked for beyond a sigma. -/
theorem meetsCased_append_sigma (front back back' : List Char) :
    meetsCased (front ++ 'Σ' :: back) = meetsCased (front ++ 'Σ' :: back') := by
  rw [meetsCased_append, meetsCased_append, meetsCased_cons, meetsCased_cons, isCaseIgnorable_sigma]
  rfl

/-! ## Small letters between two texts -/

/-- The lower-case form of a text that stands behind `before`, nearest character first, and in front
of `after`. -/
def lowerBetween (before after : List Char) : List Char → List Char
  | [] => []
  | c :: rest =>
    (if c = 'Σ' then [if isFinalSigma before (rest ++ after) then 'ς' else 'σ'] else lowerChar c) ++
      lowerBetween (c :: before) after rest

theorem lowerBehind_append (before text after : List Char) :
    lowerBehind before (text ++ after) =
      lowerBetween before after text ++ lowerBehind (text.reverse ++ before) after := by
  induction text generalizing before with
  | nil => rfl
  | cons c text ih =>
    rw [List.cons_append, lowerBehind, ih, lowerBetween, List.reverse_cons, List.append_assoc,
      List.append_assoc]
    rfl

theorem lowerBehind_eq_lowerBetween (before text : List Char) :
    lowerBehind before text = lowerBetween before [] text := by
  have h := lowerBehind_append before text []
  rwa [List.append_nil, lowerBehind, List.append_nil] at h

theorem lowerBetween_append (before after a b : List Char) :
    lowerBetween before after (a ++ b) =
      lowerBetween before (b ++ after) a ++ lowerBetween (a.reverse ++ before) after b := by
  induction a generalizing before with
  | nil => rfl
  | cons c a ih =>
    rw [List.cons_append, lowerBetween, lowerBetween, ih, List.append_assoc, List.append_assoc,
      List.reverse_cons, List.append_assoc]
    rfl

theorem lowerBetween_sigma (before after rest : List Char) :
    lowerBetween before after ('Σ' :: rest) =
      (if isFinalSigma before (rest ++ after) then 'ς' else 'σ') ::
        lowerBetween ('Σ' :: before) after rest := rfl

/-- What holds wherever a character is found in a text holds of the first character and of those
behind it. -/
theorem forall_cut_cons_iff {c d : Char} {text : List Char} {P : List Char → List Char → Prop} :
    (∀ front back, c :: text = front ++ d :: back → P front back) ↔
      (c = d → P [] text) ∧ ∀ front back, text = front ++ d :: back → P (c :: front) back := by
  constructor
  · intro h
    refine ⟨fun hc => h [] text (by rw [hc]; rfl), fun front back htext => ?_⟩
    exact h (c :: front) back (by rw [htext]; rfl)
  · rintro ⟨hfirst, hlater⟩ front back htext
    cases front with
    | nil =>
      obtain ⟨rfl, rfl⟩ := List.cons_eq_cons.mp htext
      exact hfirst rfl
    | cons c' front =>
      obtain ⟨rfl, htext'⟩ := List.cons_eq_cons.mp htext
      exact hlater front back htext'

/-- **Only sigmas tell two surroundings apart**, and only by whether they end a word. -/
theorem lowerBetween_eq_iff {text before after before' after' : List Char} :
    lowerBetween before after text = lowerBetween before' after' text ↔
      ∀ front back, text = front ++ 'Σ' :: back →
        isFinalSigma (front.reverse ++ before) (back ++ after) =
          isFinalSigma (front.reverse ++ before') (back ++ after') := by
  induction text generalizing before before' with
  | nil => exact iff_of_true rfl fun front back h => absurd h (by simp)
  | cons c text ih =>
    have hrest : lowerBetween (c :: before) after text = lowerBetween (c :: before') after' text ↔
        ∀ front back, text = front ++ 'Σ' :: back →
          isFinalSigma ((c :: front).reverse ++ before) (back ++ after) =
            isFinalSigma ((c :: front).reverse ++ before') (back ++ after') := by
      rw [ih]
      simp only [List.reverse_cons, List.append_assoc, List.singleton_append]
    rw [forall_cut_cons_iff, ← hrest]
    by_cases hc : c = 'Σ'
    · have hsigma : ∀ p q : Bool, ((if p then 'ς' else 'σ') = if q then 'ς' else 'σ') ↔ p = q := by
        decide
      subst hc
      rw [lowerBetween_sigma, lowerBetween_sigma, List.cons_eq_cons, hsigma]
      exact and_congr_left' ⟨fun h _ => h, fun h => h rfl⟩
    · rw [lowerBetween, lowerBetween, if_neg hc, if_neg hc, List.append_cancel_left_eq]
      exact (and_iff_right fun h => absurd h hc).symm

/-- Whether each sigma of a text ends a word between two other texts exactly if it ends one in the
text itself. -/
def SigmasKept (before after text : List Char) : Prop :=
  ∀ front back, text = front ++ 'Σ' :: back →
    isFinalSigma (front.reverse ++ before) (back ++ after) = isFinalSigma front.reverse back

theorem lowerBetween_eq_lower_iff {before after text : List Char} :
    lowerBetween before after text = lower text ↔ SigmasKept before after text := by
  rw [lower, lowerBehind_eq_lowerBetween, lowerBetween_eq_iff]
  simp only [List.append_nil]
  rfl

/-- **A text is found where its sigmas are kept.** -/
theorem contains_lower_of_sigmasKept {front needle back : List Char}
    (h : SigmasKept front.reverse back needle) :
    contains (lower (front ++ needle ++ back)) (lower needle) = true := by
  have hlower : lower (front ++ needle ++ back) =
      lowerBetween [] (needle ++ back) front ++
        (lower needle ++ lowerBehind (needle.reverse ++ front.reverse) back) := by
    rw [List.append_assoc, lower, lowerBehind_append, List.append_nil, lowerBehind_append,
      lowerBetween_eq_lower_iff.mpr h]
  rw [contains_iff, hlower, ← List.append_assoc]
  exact List.infix_append _ _ _

/-! ## Loose sigmas -/

/-- Whether the first character of a text that is not looked through is a sigma, and a condition holds
of what stands behind it. -/
def firstIsSigma (behind : List Char → Bool) (text : List Char) : Bool :=
  match text.dropWhile isCaseIgnorable with
  | c :: rest => c == 'Σ' && behind rest
  | [] => false

theorem firstIsSigma_iff {behind : List Char → Bool} {text : List Char} :
    firstIsSigma behind text = true ↔ ∃ front back, text = front ++ 'Σ' :: back ∧
      front.all isCaseIgnorable = true ∧ behind back = true := by
  constructor
  · intro h
    rw [firstIsSigma] at h
    split at h
    · rename_i c rest hrest
      obtain ⟨hc, hbehind⟩ := Bool.and_eq_true_iff.mp h
      refine ⟨text.takeWhile isCaseIgnorable, rest, ?_, List.all_takeWhile, hbehind⟩
      rw [← eq_of_beq hc, ← hrest, List.takeWhile_append_dropWhile]
    · cases h
  · rintro ⟨front, back, rfl, hfront, hbehind⟩
    have hdrop : (front ++ 'Σ' :: back).dropWhile isCaseIgnorable = 'Σ' :: back := by
      rw [List.dropWhile_append_of_pos (List.all_eq_true.mp hfront),
        List.dropWhile_cons_of_neg (by rw [isCaseIgnorable_sigma]; exact Bool.false_ne_true)]
    rw [firstIsSigma, hdrop]
    exact hbehind

/-- Whether a sigma in a text may be read differently when more stands around the text.  Either no
letter stands in front of it, and none follows, so that a letter in front would make it the end of
a word; or it is the end of a word, and nothing behind it keeps the word from going on. -/
def hasLooseSigma (text : List Char) : Bool :=
  firstIsSigma (fun back => !meetsCased back) text || firstIsSigma meetsCased text.reverse

theorem hasLooseSigma_iff {text : List Char} :
    hasLooseSigma text = true ↔ ∃ front back, text = front ++ 'Σ' :: back ∧
      (front.all isCaseIgnorable = true ∧ meetsCased back = false ∨
        meetsCased front.reverse = true ∧ back.all isCaseIgnorable = true) := by
  rw [hasLooseSigma, Bool.or_eq_true_iff, firstIsSigma_iff, firstIsSigma_iff]
  constructor
  · rintro (⟨front, back, rfl, hfront, hback⟩ | ⟨back, front, hreverse, hback, hfront⟩)
    · exact ⟨front, back, rfl, Or.inl ⟨hfront, by simpa using hback⟩⟩
    · refine ⟨front.reverse, back.reverse, ?_, Or.inr ⟨by rwa [List.reverse_reverse], ?_⟩⟩
      · rw [← List.reverse_reverse text, hreverse]
        simp
      · rwa [List.all_reverse]
  · rintro ⟨front, back, rfl, ⟨hfront, hback⟩ | ⟨hfront, hback⟩⟩
    · exact Or.inl ⟨front, back, rfl, hfront, by rw [hback]; rfl⟩
    · exact Or.inr ⟨back.reverse, front.reverse, by simp, by rwa [List.all_reverse], hfront⟩

/-- **Sigmas that are not loose are kept**, whatever stands around. -/
theorem sigmasKept_of_hasLooseSigma {text : List Char} (h : hasLooseSigma text = false)
    (before after : List Char) : SigmasKept before after text := by
  rintro front back htext
  have hnone : ¬ ∃ front back, text = front ++ 'Σ' :: back ∧
      (front.all isCaseIgnorable = true ∧ meetsCased back = false ∨
        meetsCased front.reverse = true ∧ back.all isCaseIgnorable = true) := by
    rw [← hasLooseSigma_iff, h]
    exact Bool.false_ne_true
  have hstarts : front.all isCaseIgnorable = true → meetsCased back = true := fun hfront =>
    (Bool.not_eq_false _).mp fun hback => hnone ⟨front, back, htext, Or.inl ⟨hfront, hback⟩⟩
  have hends : back.all isCaseIgnorable = true → meetsCased front.reverse = false := fun hback =>
    (Bool.not_eq_true _).mp fun hfront => hnone ⟨front, back, htext, Or.inr ⟨hfront, hback⟩⟩
  rw [isFinalSigma, isFinalSigma, meetsCased_append, meetsCased_append, List.all_reverse]
  cases hback : back.all isCaseIgnorable with
  | true =>
    -- nothing behind the sigma tells, so something in front of it does
    have hfront : front.all isCaseIgnorable = false := by
      refine (Bool.not_eq_true _).mp fun hfront => ?_
      rw [meetsCased_of_all hback] at hstarts
      exact Bool.false_ne_true (hstarts hfront)
    rw [hfront, hends hback]
    rfl
  | false =>
    cases hfront : front.all isCaseIgnorable with
    | true => rw [hstarts hfront]; simp
    | false => rfl

/-- A text that holds a character more often is not found. -/
theorem contains_eq_false_of_count_lt {text needle : List Char} (c : Char)
    (h : text.count c < needle.count c) : contains text needle = false := by
  refine (Bool.not_eq_true _).mp fun hfound => ?_
  exact absurd (((contains_iff text needle).mp hfound).sublist.count_le c) (Nat.not_le.mpr h)

section
variable {front back : List Char}

/-- What is looked through holds no sigma, so it is made small in the same way everywhere. -/
theorem lowerBetween_of_all {text : List Char} (h : text.all isCaseIgnorable = true)
    (before after before' after' : List Char) :
    lowerBetween before after text = lowerBetween before' after' text := by
  refine lowerBetween_eq_iff.mpr fun front back htext => ?_
  have hsigma := List.all_eq_true.mp h 'Σ' (by simp [htext])
  rw [isCaseIgnorable_sigma] at hsigma
  cases hsigma

/-- A letter in front makes a loose first sigma the end of a word. -/
theorem lower_letter_cons (hfront : front.all isCaseIgnorable = true)
    (hback : meetsCased back = false) :
    ∃ a b, lower (front ++ 'Σ' :: back) = a ++ 'σ' :: b ∧
      lower ('A' :: (front ++ 'Σ' :: back)) = 'a' :: (a ++ 'ς' :: b) := by
  have hletter : meetsCased ['A'] = true := by decide +kernel
  have hfront' : front.reverse.all isCaseIgnorable = true := List.all_reverse.trans hfront
  have hopen : isFinalSigma (front.reverse ++ []) (back ++ []) = false := by
    rw [isFinalSigma, List.append_nil, meetsCased_of_all hfront']
    rfl
  have hfinal : isFinalSigma (front.reverse ++ ['A']) (back ++ []) = true := by
    rw [isFinalSigma, meetsCased_append, if_pos hfront', hletter, List.append_nil, hback]
    rfl
  have hbehind : lowerBetween ('Σ' :: (front.reverse ++ ['A'])) [] back =
      lowerBetween ('Σ' :: (front.reverse ++ [])) [] back :=
    lowerBetween_eq_iff.mpr fun front' _ _ => by
      rw [isFinalSigma, isFinalSigma, meetsCased_append_sigma front'.reverse _ (front.reverse ++ [])]
  refine ⟨lowerBetween [] ('Σ' :: back ++ []) front,
    lowerBetween ('Σ' :: (front.reverse ++ [])) [] back, ?_, ?_⟩
  · rw [lower, lowerBehind_eq_lowerBetween, lowerBetween_append, lowerBetween_sigma, hopen]
    rfl
  · have hcons : lower ('A' :: (front ++ 'Σ' :: back)) =
        'a' :: lowerBehind ['A'] (front ++ 'Σ' :: back) := rfl
    rw [hcons, lowerBehind_eq_lowerBetween, lowerBetween_append, lowerBetween_sigma, hfinal,
      hbehind, lowerBetween_of_all hfront ['A'] _ [] ('Σ' :: back ++ [])]
    rfl

/-- A letter behind makes the word of a loose last sigma go on. -/
theorem lower_append_letter (hfront : meetsCased front.reverse = true)
    (hback : back.all isCaseIgnorable = true) :
    ∃ a b, lower (front ++ 'Σ' :: back) = a ++ 'ς' :: b ∧
      lower (front ++ 'Σ' :: back ++ ['A']) = a ++ 'σ' :: b ++ ['a'] := by
  have hletter : meetsCased ['A'] = true := by decide +kernel
  have hfinal : isFinalSigma (front.reverse ++ []) (back ++ []) = true := by
    rw [isFinalSigma, List.append_nil, List.append_nil, hfront, meetsCased_of_all hback]
    rfl
  have hopen : isFinalSigma (front.reverse ++ []) (back ++ ['A']) = false := by
    rw [isFinalSigma, meetsCased_append back, if_pos hback, hletter]
    exact Bool.and_false _
  have hahead : lowerBetween [] ('Σ' :: back ++ ['A']) front =
      lowerBetween [] ('Σ' :: back ++ []) front :=
    lowerBetween_eq_iff.mpr fun _ back' _ => by
      rw [isFinalSigma, isFinalSigma, List.cons_append, List.cons_append,
        meetsCased_append_sigma back' _ (back ++ [])]
  refine ⟨lowerBetween [] ('Σ' :: back ++ []) front,
    lowerBetween ('Σ' :: (front.reverse ++ [])) [] back, ?_, ?_⟩
  · rw [lower, lowerBehind_eq_lowerBetween, lowerBetween_append, lowerBetween_sigma, hfinal]
    rfl
  · have hlast : ∀ before, lowerBehind before ['A'] = ['a'] := fun _ => rfl
    rw [lower, lowerBehind_append, hlast, lowerBetween_append, lowerBetween_sigma, hopen, hahead,
      lowerBetween_of_all hback _ ['A'] ('Σ' :: (front.reverse ++ [])) []]
    rfl

/-- **A loose sigma is read differently somewhere**: a letter in front of the text, or one behind it,
hides the text. -/
theorem exists_hidden_of_hasLooseSigma {needle : List Char} (h : hasLooseSigma needle = true) :
    ∃ text, needle <:+: text ∧ contains (lower text) (lower needle) = false := by
  obtain ⟨front, back, rfl, ⟨hfront, hback⟩ | ⟨hfront, hback⟩⟩ := hasLooseSigma_iff.mp h
  · obtain ⟨a, b, hneedle, htext⟩ := lower_letter_cons hfront hback
    refine ⟨'A' :: (front ++ 'Σ' :: back), (List.suffix_cons _ _).isInfix, ?_⟩
    refine contains_eq_false_of_count_lt 'σ' ?_
    rw [hneedle, htext]
    simp
  · obtain ⟨a, b, hneedle, htext⟩ := lower_append_letter hfront hback
    refine ⟨front ++ 'Σ' :: back ++ ['A'], (List.prefix_append _ _).isInfix, ?_⟩
    refine contains_eq_false_of_count_lt 'ς' ?_
    rw [hneedle, htext]
    simp

end

end Text

namespace Snippet

/-- **Which texts are found wherever they stand.**  A text is found in every snippet that holds it
letter by letter exactly if it has no loose sigma; and it is found in each snippet where it stands
in a place that keeps its sigmas. -/
theorem containsIgnoringCase_of_infix_iff (needle : List Char) :
    ((∀ snippet : Snippet, needle <:+: snippet.text →
        snippet.containsIgnoringCase needle = true) ↔ Text.hasLooseSigma needle = false) ∧
    ∀ (snippet : Snippet) (front back : List Char), snippet.text = front ++ needle ++ back →
      Text.SigmasKept front.reverse back needle → snippet.containsIgnoringCase needle = true := by
  have hkept : ∀ (snippet : Snippet) (front back : List Char),
      snippet.text = front ++ needle ++ back → Text.SigmasKept front.reverse back needle →
        snippet.containsIgnoringCase needle = true := by
    intro snippet front back htext hsigmas
    rw [containsIgnoringCase, htext]
    exact Text.contains_lower_of_sigmasKept hsigmas
  refine ⟨⟨fun hall => ?_, fun hloose snippet hinfix => ?_⟩, hkept⟩
  · refine (Bool.not_eq_true _).mp fun hloose => ?_
    obtain ⟨text, hinfix, hhidden⟩ := Text.exists_hidden_of_hasLooseSigma hloose
    have hfound := hall ⟨text, .unknown⟩ hinfix
    rw [containsIgnoringCase, hhidden] at hfound
    cases hfound
  · obtain ⟨front, back, htext⟩ := hinfix
    exact hkept snippet front back htext.symm (Text.sigmasKept_of_hasLooseSigma hloose _ back)

/-- The sigma ends a word in the text that is looked for, and none in the snippet. -/
theorem containsIgnoringCase_of_loose_sigma :
    let snippet : Snippet := ⟨"ΑΣΑ".toList, .unknown⟩
    "ΑΣ".toList <:+: snippet.text ∧ snippet.containsIgnoringCase "ΑΣ".toList = false := by
  decide +kernel

end Snippet
end LineLint
