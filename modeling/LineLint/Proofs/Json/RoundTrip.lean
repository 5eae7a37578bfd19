import LineLint.Proofs.Json.Scalars

/-!
# Values are read back

`scan_write`: a value that JSON has a text for (`IsWritable`) is read back from
what is written of it, on one line or with indentation.  A layout only puts
blanks between tokens (`Layout.IsBlank`), and the reader passes over them.

The proof follows the reader.  A reader reads a text as a value (`ReadsAs`) if it
does so whatever comes behind, as long as the token is over there.  That is
what items and members need of the reader of their values: `scanItems_write`
and `scanMembers_write` go through a list with it, and `readsAs_write` is the
induction on the depth that remains.
-/

namespace LineLint
namespace Json

open Data

/-! ## Blanks -/

theorem skipBlank_append {gap : List Char} (h : ∀ c ∈ gap, isBlank c = true)
    (text : List Char) : skipBlank (gap ++ text) = skipBlank text :=
  List.dropWhile_append_of_pos h

theorem skipBlank_cons {c : Char} (h : isBlank c = false) (text : List Char) :
    skipBlank (c :: text) = c :: text := by
  simp [skipBlank, h]

theorem scanValue_append {gap : List Char} (h : ∀ c ∈ gap, isBlank c = true) (depth : Nat)
    (text : List Char) : scanValue depth (gap ++ text) = scanValue depth text := by
  cases depth <;> simp only [scanValue, skipBlank_append h]

theorem endsToken_of_isBlank {gap : List Char} (h : ∀ c ∈ gap, isBlank c = true) :
    EndsToken gap := by
  intro c hc
  have hblank := h c (List.mem_of_mem_head? hc)
  simp only [isBlank, Bool.or_eq_true, beq_iff_eq] at hblank
  obtain ((rfl | rfl) | rfl) | rfl := hblank <;> decide

theorem endsToken_comma (rest : List Char) : EndsToken (',' :: rest) :=
  endsToken_cons (by decide)

theorem not_isBlank_of_isNumeralChar {c : Char} (h : isNumeralChar c = true) :
    isBlank c = false := by
  by_contra hblank
  simp only [isBlank, Bool.not_eq_false, Bool.or_eq_true, beq_iff_eq] at hblank
  obtain ((rfl | rfl) | rfl) | rfl := hblank <;> simp [isNumeralChar] at h

/-- A layout that puts nothing but blanks between tokens. -/
structure Layout.IsBlank (layout : Layout) : Prop where
  /-- There are only blanks in front of an item. -/
  newline : ∀ depth, ∀ c ∈ layout.newline depth, Json.isBlank c = true
  /-- There are only blanks behind the colon. -/
  colon : ∃ gap, layout.colon = ':' :: gap ∧ ∀ c ∈ gap, Json.isBlank c = true

theorem oneLine_isBlank : oneLine.IsBlank :=
  ⟨by simp [oneLine], [], rfl, by simp⟩

theorem indented_isBlank : indented.IsBlank where
  newline depth c hc := by
    simp only [indented, List.mem_cons, List.mem_replicate] at hc
    obtain rfl | ⟨-, rfl⟩ := hc <;> decide
  colon := ⟨[' '], rfl, List.forall_mem_singleton.mpr rfl⟩

/-! ## Values with a text -/

/-- A value in which containers are nested up to some depth and that JSON has a text for: every
number in it is whole and held by 64 bits, and everything in it is readable. -/
def IsWritable : Nat → Value → Prop
  | _, .null => True
  | _, .bool _ => True
  | _, .int value => -signedBound ≤ value ∧ value < wordBound
  | _, .string _ => True
  | depth + 1, .array items => ∀ item ∈ items, IsWritable depth item
  | depth + 1, .object members => ∀ member ∈ members, IsWritable depth member.2
  | _, _ => False

/-- A text that a reader reads as a value, whatever comes behind it. -/
def ReadsAs (read : List Char → Scan (Option Value)) (text : List Char) (value : Value) : Prop :=
  ∀ rest, EndsToken rest → read (text ++ rest) = ⟨some value, some rest⟩

variable {layout : Layout} {read : List Char → Scan (Option Value)} {gap before rest : List Char}

/-! ## Items -/

/-- Each item behind the first has a comma in front, at least. -/
theorem length_le_writeItems (level : Nat) (items : List Value) :
    items.length ≤ (writeItems layout level false items).length := by
  induction items with
  | nil => simp
  | cons item items ih =>
    simp only [writeItems, List.length_cons, List.length_append, Bool.false_eq_true, if_false,
      List.length_nil]
    omega

theorem length_le_writeMembers (level : Nat) (members : List (String × Value)) :
    members.length ≤ (writeMembers layout level false members).length := by
  induction members with
  | nil => simp
  | cons member members ih =>
    simp only [writeMembers, List.length_cons, List.length_append, Bool.false_eq_true, if_false,
      List.length_nil]
    omega

theorem scanItems_write (hlayout : layout.IsBlank) (level : Nat)
    (hgap : ∀ c ∈ gap, isBlank c = true) (items : List Value) :
    ∀ (first : Value) (bound : Nat) (before : List Char), items.length < bound →
      (∀ c ∈ before, isBlank c = true) →
      (∀ item ∈ first :: items, ∀ before : List Char, (∀ c ∈ before, isBlank c = true) →
        ReadsAs read (before ++ write layout level item) item) →
      scanItems read bound
          (before ++ write layout level first ++
            (writeItems layout level false items ++ (gap ++ ']' :: rest))) =
        ⟨first :: items, some rest⟩ := by
  induction items with
  | nil =>
    intro first bound before hbound hbefore hread
    obtain ⟨bound, rfl⟩ := Nat.exists_eq_add_one_of_ne_zero (by omega : bound ≠ 0)
    have hends : EndsToken (gap ++ ']' :: rest) :=
      (endsToken_of_isBlank hgap).append (endsToken_cons (by decide))
    have hfirst := hread first (by simp) before hbefore _ hends
    simp only [scanItems, writeItems, List.nil_append, hfirst, skipBlank_append hgap,
      skipBlank_cons (c := ']') (by decide), Option.toList]
  | cons next items ih =>
    intro first bound before hbound hbefore hread
    obtain ⟨bound, rfl⟩ := Nat.exists_eq_add_one_of_ne_zero (by omega : bound ≠ 0)
    have hcomma : writeItems layout level false (next :: items) ++ (gap ++ ']' :: rest) =
        ',' :: (layout.newline level ++ write layout level next ++
          (writeItems layout level false items ++ (gap ++ ']' :: rest))) := by
      simp [writeItems]
    have hfirst := hread first (by simp) before hbefore _ <| endsToken_comma
      (layout.newline level ++ write layout level next ++
        (writeItems layout level false items ++ (gap ++ ']' :: rest)))
    have hothers := ih next bound (layout.newline level) (by simpa using hbound)
      (hlayout.newline level) fun item hitem => hread item (List.mem_cons_of_mem _ hitem)
    simp only [scanItems, hcomma, hfirst, skipBlank_cons (c := ',') (by decide), hothers,
      Option.toList, List.cons_append, List.nil_append]

/-! ## Members -/

/-- A name and the colon behind it. -/
theorem scanName_write (hlayout : layout.IsBlank) (hbefore : ∀ c ∈ before, isBlank c = true)
    (name : String) (rest : List Char) :
    ∃ between, (∀ c ∈ between, isBlank c = true) ∧
      scanName (before ++ quote name.toList ++ (layout.colon ++ rest)) =
        some (some name, between ++ rest) := by
  obtain ⟨between, hcolon, hblank⟩ := hlayout.colon
  refine ⟨between, hblank, ?_⟩
  have hquote : before ++ quote name.toList ++ (layout.colon ++ rest) =
      before ++ '"' :: (name.toList.flatMap escapeChar ++ '"' :: (':' :: (between ++ rest))) := by
    simp [quote, hcolon]
  rw [hquote, scanName, skipBlank_append hbefore, skipBlank_cons (by decide)]
  simp only [scanString_quote, skipBlank_cons (c := ':') (by decide), String.ofList_toList]

theorem scanMembers_write (hlayout : layout.IsBlank) (level : Nat)
    (hgap : ∀ c ∈ gap, isBlank c = true) (members : List (String × Value)) :
    ∀ (first : String × Value) (bound : Nat) (before : List Char), members.length < bound →
      (∀ c ∈ before, isBlank c = true) →
      (∀ member ∈ first :: members, ∀ before : List Char, (∀ c ∈ before, isBlank c = true) →
        ReadsAs read (before ++ write layout level member.2) member.2) →
      scanMembers read bound
          (before ++ quote first.1.toList ++
            (layout.colon ++ (write layout level first.2 ++
              (writeMembers layout level false members ++ (gap ++ '}' :: rest))))) =
        ⟨.object (first :: members), some rest⟩ := by
  induction members with
  | nil =>
    intro first bound before hbound hbefore hread
    obtain ⟨bound, rfl⟩ := Nat.exists_eq_add_one_of_ne_zero (by omega : bound ≠ 0)
    have hends : EndsToken (gap ++ '}' :: rest) :=
      (endsToken_of_isBlank hgap).append (endsToken_cons (by decide))
    obtain ⟨between, hbetween, hname⟩ := scanName_write hlayout hbefore first.1
      (write layout level first.2 ++ (gap ++ '}' :: rest))
    have hfirst := hread first (by simp) between hbetween _ hends
    rw [List.append_assoc] at hfirst
    simp only [scanMembers, writeMembers, List.nil_append, hname, hfirst, skipBlank_append hgap,
      skipBlank_cons (c := '}') (by decide), withMember]
  | cons next members ih =>
    intro first bound before hbound hbefore hread
    obtain ⟨bound, rfl⟩ := Nat.exists_eq_add_one_of_ne_zero (by omega : bound ≠ 0)
    obtain ⟨others, hothers⟩ : ∃ others, others = layout.newline level ++ quote next.1.toList ++
        (layout.colon ++ (write layout level next.2 ++
          (writeMembers layout level false members ++ (gap ++ '}' :: rest)))) := ⟨_, rfl⟩
    have hcomma : writeMembers layout level false (next :: members) ++ (gap ++ '}' :: rest) =
        ',' :: others := by
      simp [writeMembers, hothers]
    obtain ⟨between, hbetween, hname⟩ := scanName_write hlayout hbefore first.1
      (write layout level first.2 ++ ',' :: others)
    have hfirst := hread first (by simp) between hbetween _ (endsToken_comma others)
    rw [List.append_assoc] at hfirst
    have hrest := ih next bound (layout.newline level) (by simpa using hbound)
      (hlayout.newline level) fun member hmember => hread member (List.mem_cons_of_mem _ hmember)
    rw [← hothers] at hrest
    simp only [scanMembers, hcomma, hname, hfirst, skipBlank_cons (c := ',') (by decide), hrest,
      withMember]

/-! ## Values -/

theorem write_array_cons (level : Nat) (item : Value) (items : List Value) :
    write layout level (.array (item :: items)) =
      '[' :: (layout.newline (level + 1) ++ (write layout (level + 1) item ++
        (writeItems layout (level + 1) false items ++ (layout.newline level ++ [']'])))) := by
  simp [write, writeItems]

theorem write_object_cons (level : Nat) (member : String × Value)
    (members : List (String × Value)) :
    write layout level (.object (member :: members)) =
      '{' :: (layout.newline (level + 1) ++ (quote member.1.toList ++ (layout.colon ++
        (write layout (level + 1) member.2 ++
          (writeMembers layout (level + 1) false members ++
            (layout.newline level ++ ['}'])))))) := by
  simp [write, writeMembers]

/-- What a value is written as begins with neither a blank nor a closing bracket. -/
theorem exists_write_eq_cons (layout : Layout) (level : Nat) {depth : Nat} {value : Value}
    (h : IsWritable depth value) :
    ∃ c text, write layout level value = c :: text ∧ isBlank c = false ∧ c ≠ ']' := by
  cases value with
  | null => exact ⟨'n', "ull".toList, rfl, by decide⟩
  | bool value =>
    cases value with
    | true => exact ⟨'t', "rue".toList, rfl, by decide⟩
    | false => exact ⟨'f', "alse".toList, rfl, by decide⟩
  | int value =>
    obtain ⟨c, text, hwrite⟩ := List.exists_cons_of_ne_nil (toList_toString_ne_nil value)
    have hc : isNumeralChar c = true ∧ c.isAlpha = false :=
      isNumeralChar_of_mem_toString (hwrite ▸ List.mem_cons_self)
    exact ⟨c, text, by rw [write, hwrite], not_isBlank_of_isNumeralChar hc.1, by
      rintro rfl; simp [isNumeralChar] at hc⟩
  | string text => exact ⟨'"', _, by rw [write, quote, List.cons_append], by decide⟩
  | array items =>
    cases items with
    | nil => exact ⟨'[', [']'], by rw [write], by decide⟩
    | cons item items => exact ⟨'[', _, write_array_cons level item items, by decide⟩
  | object members =>
    cases members with
    | nil => exact ⟨'{', ['}'], by rw [write], by decide⟩
    | cons member members => exact ⟨'{', _, write_object_cons level member members, by decide⟩
  | fractional value => simp [IsWritable] at h
  | unreadable front => simp [IsWritable] at h

/-- A value that begins with neither a blank nor a bracket is a scalar. -/
theorem scanValue_scalar (depth : Nat) {c : Char} (h : isBlank c = false ∧ c ≠ '[' ∧ c ≠ '{')
    (text : List Char) : scanValue depth (c :: text) = scanScalar (c :: text) := by
  obtain ⟨hblank, hbracket, hbrace⟩ := h
  cases depth <;> simp [scanValue, skipBlank_cons hblank, hbracket, hbrace]

theorem readsAs_word (depth : Nat) {word : String} {value : Value} (h : IsWord word value) :
    ReadsAs (scanValue depth) word.toList value := by
  intro rest hrest
  rw [← scanScalar_word h hrest]
  cases h <;> exact scanValue_scalar depth (by decide) _

theorem readsAs_int (depth : Nat) {value : Int} (h : -signedBound ≤ value ∧ value < wordBound) :
    ReadsAs (scanValue depth) (toString value).toList (.int value) := by
  intro rest hrest
  rw [← scanScalar_toString h hrest]
  obtain ⟨c, text, htext⟩ := List.exists_cons_of_ne_nil (toList_toString_ne_nil value)
  have hc : isNumeralChar c = true ∧ c.isAlpha = false :=
    isNumeralChar_of_mem_toString (htext ▸ List.mem_cons_self)
  rw [htext, List.cons_append]
  refine scanValue_scalar depth ⟨not_isBlank_of_isNumeralChar hc.1, ?_, ?_⟩ _ <;>
    rintro rfl <;> simp [isNumeralChar] at hc

theorem readsAs_quote (depth : Nat) (text : String) :
    ReadsAs (scanValue depth) (quote text.toList) (.string text) := by
  intro rest _
  rw [← scanScalar_quote text rest, quote, List.cons_append, List.cons_append]
  exact scanValue_scalar depth (by decide) _

/-- An array that is not empty is read item by item. -/
theorem scanValue_array (depth : Nat) (hgap : ∀ c ∈ gap, isBlank c = true) {c : Char}
    (hc : isBlank c = false) (hclose : c ≠ ']') (text : List Char) :
    scanValue (depth + 1) ('[' :: (gap ++ c :: text)) =
      let items := scanItems (scanValue depth) (c :: text).length (c :: text)
      ⟨some (.array items.value), items.rest⟩ := by
  simp [scanValue, skipBlank_cons (c := '[') (by decide), skipBlank_append hgap,
    skipBlank_cons hc, hclose]

/-- An object that is not empty is read member by member. -/
theorem scanValue_object (depth : Nat) (hgap : ∀ c ∈ gap, isBlank c = true) {c : Char}
    (hc : isBlank c = false) (hclose : c ≠ '}') (text : List Char) :
    scanValue (depth + 1) ('{' :: (gap ++ c :: text)) =
      let members := scanMembers (scanValue depth) (c :: text).length (c :: text)
      ⟨some members.value, members.rest⟩ := by
  simp [scanValue, skipBlank_cons (c := '{') (by decide), skipBlank_append hgap,
    skipBlank_cons hc, hclose]

theorem readsAs_array (hlayout : layout.IsBlank) {depth : Nat} (level : Nat) {items : List Value}
    (hitems : ∀ item ∈ items, IsWritable depth item)
    (hread : ∀ item ∈ items, ∀ level, ReadsAs (scanValue depth) (write layout level item) item) :
    ReadsAs (scanValue (depth + 1)) (write layout level (.array items)) (.array items) := by
  intro rest _
  cases items with
  | nil =>
    simp only [write, scanValue, List.cons_append, List.nil_append,
      skipBlank_cons (c := '[') (by decide), skipBlank_cons (c := ']') (by decide)]
  | cons first items =>
    obtain ⟨others, hothers⟩ : ∃ others, others =
        writeItems layout (level + 1) false items ++ (layout.newline level ++ ']' :: rest) :=
      ⟨_, rfl⟩
    have hscan : scanItems (scanValue depth) (write layout (level + 1) first ++ others).length
        (write layout (level + 1) first ++ others) = ⟨first :: items, some rest⟩ := by
      have hlength : items.length ≤ (writeItems layout (level + 1) false items).length :=
        length_le_writeItems (level + 1) items
      rw [hothers]
      refine scanItems_write hlayout (level + 1) (hlayout.newline level) items first _ [] ?_
        (by simp) ?_
      · simp only [List.length_append, List.length_cons]
        omega
      · intro item hitem before hbefore rest hrest
        rw [List.append_assoc, scanValue_append hbefore]
        exact hread item hitem (level + 1) rest hrest
    obtain ⟨c, text, hwrite, hc, hclose⟩ :=
      exists_write_eq_cons layout (level + 1) (hitems first List.mem_cons_self)
    have htext : write layout level (.array (first :: items)) ++ rest =
        '[' :: (layout.newline (level + 1) ++ c :: (text ++ others)) := by
      simp [write_array_cons, hwrite, hothers]
    rw [hwrite, List.cons_append] at hscan
    rw [htext, scanValue_array depth (hlayout.newline (level + 1)) hc hclose, hscan]

theorem readsAs_object (hlayout : layout.IsBlank) {depth : Nat} (level : Nat)
    {members : List (String × Value)}
    (hread : ∀ member ∈ members, ∀ level,
      ReadsAs (scanValue depth) (write layout level member.2) member.2) :
    ReadsAs (scanValue (depth + 1)) (write layout level (.object members)) (.object members) := by
  intro rest _
  cases members with
  | nil =>
    simp only [write, scanValue, List.cons_append, List.nil_append,
      skipBlank_cons (c := '{') (by decide), skipBlank_cons (c := '}') (by decide)]
  | cons first members =>
    obtain ⟨others, hothers⟩ : ∃ others, others = layout.colon ++
        (write layout (level + 1) first.2 ++ (writeMembers layout (level + 1) false members ++
          (layout.newline level ++ '}' :: rest))) := ⟨_, rfl⟩
    have hscan : scanMembers (scanValue depth) (quote first.1.toList ++ others).length
        (quote first.1.toList ++ others) = ⟨.object (first :: members), some rest⟩ := by
      have hlength : members.length ≤ (writeMembers layout (level + 1) false members).length :=
        length_le_writeMembers (level + 1) members
      rw [hothers]
      refine scanMembers_write hlayout (level + 1) (hlayout.newline level) members first _ [] ?_
        (by simp) ?_
      · simp only [List.length_append, List.length_cons]
        omega
      · intro member hmember before hbefore rest hrest
        rw [List.append_assoc, scanValue_append hbefore]
        exact hread member hmember (level + 1) rest hrest
    obtain ⟨text, hquote⟩ : ∃ text, quote first.1.toList = '"' :: text :=
      ⟨_, by rw [quote, List.cons_append]⟩
    have htext : write layout level (.object (first :: members)) ++ rest =
        '{' :: (layout.newline (level + 1) ++ '"' :: (text ++ others)) := by
      simp [write_object_cons, hquote, hothers]
    rw [hquote, List.cons_append] at hscan
    rw [htext, scanValue_object depth (hlayout.newline (level + 1)) (by decide) (by decide),
      hscan]

/-- A value is read back from what is written of it, whatever comes behind. -/
theorem readsAs_write (hlayout : layout.IsBlank) :
    ∀ (depth : Nat) (value : Value), IsWritable depth value → ∀ level : Nat,
      ReadsAs (scanValue depth) (write layout level value) value
  | depth, .null, _, _ => by rw [write]; exact readsAs_word depth .null
  | depth, .bool true, _, _ => by rw [write]; exact readsAs_word depth .true
  | depth, .bool false, _, _ => by rw [write]; exact readsAs_word depth .false
  | depth, .int _, h, _ => by
    rw [write]
    exact readsAs_int depth (by simpa only [IsWritable] using h)
  | depth, .string text, _, _ => by rw [write]; exact readsAs_quote depth text
  | depth + 1, .array _, h, level =>
    readsAs_array hlayout level h fun item hitem =>
      readsAs_write hlayout depth item (h item hitem)
  | depth + 1, .object _, h, level =>
    readsAs_object hlayout level fun member hmember =>
      readsAs_write hlayout depth member.2 (h member hmember)
  | 0, .array _, h, _ | 0, .object _, h, _ => h.elim
  | _, .fractional _, h, _ | _, .unreadable _, h, _ => by simp [IsWritable] at h

/-- What is written of a value, with blanks behind it, is read without a fault as the same
value. -/
theorem scan_write (hlayout : layout.IsBlank) {value : Value} (h : IsWritable maxDepth value)
    (hgap : ∀ c ∈ gap, isBlank c = true) :
    scan (write layout 0 value ++ gap) = ⟨some value, true⟩ := by
  have hread := readsAs_write hlayout maxDepth value h 0 gap (endsToken_of_isBlank hgap)
  have hblank : skipBlank gap = [] := List.dropWhile_eq_nil_iff.mpr hgap
  simp [scan, hread, hblank]

end Json
end LineLint
