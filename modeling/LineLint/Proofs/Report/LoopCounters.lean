import LineLint.Proofs.Report.Parameters
import LineLint.Rule.Naming

/-! # Names, loop counters and comments

The rule for names gathers the names of a line from its code: string contents and comments are left
out.  The counters of loops, which may have short names, are gathered from whole lines, so the head
of a loop in a string or in a comment counts too (`Naming.reports_of_loops_outside_code`).

So two texts with the same code have the same names, and the same is reported of them exactly if the
same short variables are excused as counters (`Naming.reports_eq_iff_of_sameCode`), which is the
case if every line has the counter that its code has.
-/
namespace LineLint
namespace Naming

open Code (codeOnly)
open Text (asciiLower)

/-! ## Texts with the same code -/

/-- Whether two texts have as many lines, and the same code on each of them. -/
def SameCode (dialect : Dialect) (a b : List Char) : Prop :=
  (Text.lines a).map (codeOnly · (Rule.commentMarker dialect)) =
    (Text.lines b).map (codeOnly · (Rule.commentMarker dialect))

instance (dialect : Dialect) (a b : List Char) : Decidable (SameCode dialect a b) :=
  inferInstanceAs (Decidable (_ = _))

/-- What is gathered from numbered lines is the same if it is the same on lines that are read
alike. -/
theorem flatMap_zipIdx_congr {α β γ : Type} {read : α → γ} {gather : α × Nat → List β}
    (h : ∀ x y number, read x = read y → gather (x, number) = gather (y, number)) {xs ys : List α}
    (hread : xs.map read = ys.map read) (start : Nat) :
    (xs.zipIdx start).flatMap gather = (ys.zipIdx start).flatMap gather := by
  induction xs generalizing ys start with
  | nil =>
    rw [List.map_nil] at hread
    rw [List.map_eq_nil_iff.mp hread.symm]
  | cons x xs ih =>
    cases ys with
    | nil => cases hread
    | cons y ys =>
      obtain ⟨hx, hxs⟩ := List.cons_eq_cons.mp hread
      rw [List.zipIdx_cons, List.zipIdx_cons, List.flatMap_cons, List.flatMap_cons, h x y start hx,
        ih hxs]

variable {dialect : Dialect} {a b : List Char}

/-- The names of a line are those of its code. -/
theorem lineNames_eq_of_codeOnly_eq (hdialect : dialect = .csharp ∨ dialect = .vbnet)
    {line line' : List Char} (h : codeOnly line (Rule.commentMarker dialect) =
      codeOnly line' (Rule.commentMarker dialect)) :
    lineNames dialect line = lineNames dialect line' := by
  rcases hdialect with rfl | rfl
  · rw [Rule.commentMarker] at h
    simp only [lineNames, csharpNames, h]
  · rw [Rule.commentMarker] at h
    simp only [lineNames, vbnetNames, h]

/-- **Texts with the same code have the same names.** -/
theorem foundIn_eq_of_sameCode (hdialect : dialect = .csharp ∨ dialect = .vbnet)
    (h : SameCode dialect a b) : foundIn ⟨a, dialect⟩ = foundIn ⟨b, dialect⟩ := by
  refine flatMap_zipIdx_congr (fun line line' number hcode => ?_) h 1
  rw [lineNames_eq_of_codeOnly_eq hdialect hcode]

/-- Texts with the same code have the same counters if every line has the counter of its code. -/
theorem countersOf_eq_of_sameCode (h : SameCode dialect a b)
    (hcounters : ∀ line ∈ Text.lines a ++ Text.lines b,
      lineCounter? dialect line =
        lineCounter? dialect (codeOnly line (Rule.commentMarker dialect))) :
    countersOf ⟨a, dialect⟩ = countersOf ⟨b, dialect⟩ := by
  have hcode : ∀ text, (∀ line ∈ Text.lines text, lineCounter? dialect line =
        lineCounter? dialect (codeOnly line (Rule.commentMarker dialect))) →
      countersOf ⟨text, dialect⟩ =
        ((Text.lines text).map (codeOnly · (Rule.commentMarker dialect))).filterMap
          (lineCounter? dialect) := by
    intro text htext
    rw [List.filterMap_map]
    exact List.filterMap_congr htext
  rw [hcode a fun line hline => hcounters line (List.mem_append_left _ hline),
    hcode b fun line hline => hcounters line (List.mem_append_right _ hline), h]

/-! ## Reports -/

/-- The line and the message of everything that is reported of the names in a snippet. -/
def reports (snippet : Snippet) : List (Option Nat × String) :=
  (Rule.nonDescriptiveNames.check snippet).map fun issue => (issue.line, issue.message)

/-- Whether a name is one of the counters. -/
def isExcused (snippet : Snippet) (name : List Char) : Bool :=
  (countersOf snippet).contains (asciiLower name)

/-- What is reported of one name. -/
def reportsFor (excused : Bool) (found : Found) : List (Option Nat × String) :=
  (faults found.name found.role excused).map fun fault =>
    (some found.line, fault.message (String.ofList found.name))

theorem reports_eq (snippet : Snippet) : reports snippet =
    (foundIn snippet).flatMap fun found =>
      reportsFor (isExcused snippet found.name) found := by
  rw [reports, Rule.nonDescriptiveNames, List.map_flatMap]
  refine List.flatMap_congr fun found _ => ?_
  rw [issuesFor, List.map_map]
  rfl

theorem shortVariable_mem_faults_iff {name : List Char} {role : Role} {excused : Bool} :
    Fault.shortVariable ∈ faults name role excused ↔
      startsWithDigit name = false ∧ role = .variable ∧ name.length < 2 ∧ excused = false := by
  by_cases hdigit : startsWithDigit name = true
  · simp [faults, hdigit]
  · simp [faults, hdigit, and_assoc]

/-- Only for short variables it matters whether they are excused. -/
theorem faults_eq_of_not_mem {name : List Char} {role : Role}
    (h : Fault.shortVariable ∉ faults name role false) (excused : Bool) :
    faults name role excused = faults name role false := by
  rw [shortVariable_mem_faults_iff] at h
  by_cases hdigit : startsWithDigit name = true
  · rw [faults, faults, if_pos hdigit, if_pos hdigit]
  · have hlong : ∀ excused : Bool,
        (role = .variable && name.length < 2 && !excused) = false := by
      intro excused
      by_contra hshort
      simp only [Bool.not_eq_false, Bool.and_eq_true, decide_eq_true_eq] at hshort
      exact h ⟨by simpa using hdigit, hshort.1.1, hshort.1.2, rfl⟩
    rw [faults, faults, hlong excused, hlong false]

theorem head?_wording {front : String} {c : Char} (h : front.toList.head? = some c)
    (name back : String) : (front ++ name ++ back).toList.head? = some c := by
  rw [String.toList_append, String.toList_append, List.append_assoc, List.head?_append, h,
    Option.some_or]

theorem message_shortVariable (name : String) : Fault.shortVariable.message name =
    "Variable name '" ++ name ++ "' is too short." := rfl

/-- The message about a short variable tells that it is one, and its name. -/
theorem eq_of_message_eq {fault : Fault} {name name' : String}
    (h : fault.message name = Fault.shortVariable.message name') :
    fault = .shortVariable ∧ name = name' := by
  have hother : ∀ {front : String} {c : Char} (back : String), front.toList.head? = some c →
      c ≠ 'V' → front ++ name ++ back ≠ Fault.shortVariable.message name' := by
    intro front c back hfront hc heq
    have hhead := head?_wording hfront name back
    rw [heq, message_shortVariable,
      head?_wording (by decide : "Variable name '".toList.head? = some 'V')] at hhead
    exact hc (Option.some.inj hhead).symm
  cases fault with
  | shortVariable =>
    rw [message_shortVariable, message_shortVariable, ← String.toList_inj, String.toList_append,
      String.toList_append, String.toList_append, String.toList_append] at h
    exact ⟨rfl, String.toList_inj.mp (List.append_cancel_left (List.append_cancel_right h))⟩
  | startsWithDigit | generic => exact absurd h (hother _ (by decide) (by decide : 'N' ≠ 'V'))
  | shortCallable => exact absurd h (hother _ (by decide) (by decide : 'F' ≠ 'V'))

variable {snippet : Snippet} {found : Found}

/-- **A short variable is reported exactly if it is not excused.** -/
theorem mem_reports_iff (hfound : found ∈ foundIn snippet)
    (hshort : Fault.shortVariable ∈ faults found.name found.role false) :
    (some found.line, Fault.shortVariable.message (String.ofList found.name)) ∈ reports snippet ↔
      asciiLower found.name ∉ countersOf snippet := by
  have hexcused : isExcused snippet found.name = false ↔
      asciiLower found.name ∉ countersOf snippet := by
    rw [isExcused, ← List.contains_iff_mem, Bool.not_eq_true]
  rw [← hexcused, reports_eq, List.mem_flatMap]
  rw [shortVariable_mem_faults_iff] at hshort
  constructor
  · rintro ⟨other, -, hreport⟩
    obtain ⟨fault, hfault, heq⟩ := List.mem_map.mp hreport
    obtain ⟨-, hmessage⟩ := Prod.mk.inj heq
    obtain ⟨rfl, hname⟩ := eq_of_message_eq hmessage
    rw [← String.ofList_inj.mp hname]
    exact (shortVariable_mem_faults_iff.mp hfault).2.2.2
  · intro hnot
    refine ⟨found, hfound, List.mem_map.mpr ⟨.shortVariable, ?_, rfl⟩⟩
    exact shortVariable_mem_faults_iff.mpr ⟨hshort.1, hshort.2.1, hshort.2.2.1, hnot⟩

/-- **What loop heads outside of the code change.**  The same is reported of two texts with the same
code exactly if each short variable is a counter of both or of neither.  This is the case if every
line has the counter that its code has. -/
theorem reports_eq_iff_of_sameCode (hdialect : dialect = .csharp ∨ dialect = .vbnet)
    (hcode : SameCode dialect a b) :
    (reports ⟨a, dialect⟩ = reports ⟨b, dialect⟩ ↔
      ∀ found ∈ foundIn ⟨a, dialect⟩,
        Fault.shortVariable ∈ faults found.name found.role false →
          (asciiLower found.name ∈ countersOf ⟨a, dialect⟩ ↔
            asciiLower found.name ∈ countersOf ⟨b, dialect⟩)) ∧
    ((∀ line ∈ Text.lines a ++ Text.lines b,
        lineCounter? dialect line =
          lineCounter? dialect (codeOnly line (Rule.commentMarker dialect))) →
      reports ⟨a, dialect⟩ = reports ⟨b, dialect⟩) := by
  have hnames := foundIn_eq_of_sameCode hdialect hcode
  have hiff : reports ⟨a, dialect⟩ = reports ⟨b, dialect⟩ ↔
      ∀ found ∈ foundIn ⟨a, dialect⟩,
        Fault.shortVariable ∈ faults found.name found.role false →
          (asciiLower found.name ∈ countersOf ⟨a, dialect⟩ ↔
            asciiLower found.name ∈ countersOf ⟨b, dialect⟩) := by
    constructor
    · intro heq found hfound hshort
      have ha := mem_reports_iff hfound hshort
      have hb := mem_reports_iff (hnames ▸ hfound) hshort
      rw [← heq] at hb
      exact not_iff_not.mp (ha.symm.trans hb)
    · intro hall
      rw [reports_eq, reports_eq, ← hnames]
      refine List.flatMap_congr fun found hfound => ?_
      by_cases hshort : Fault.shortVariable ∈ faults found.name found.role false
      · have hexcused : isExcused ⟨a, dialect⟩ found.name = isExcused ⟨b, dialect⟩ found.name := by
          rw [isExcused, isExcused, Bool.eq_iff_iff, List.contains_iff_mem, List.contains_iff_mem]
          exact hall found hfound hshort
        rw [hexcused]
      · rw [reportsFor, reportsFor, faults_eq_of_not_mem hshort (isExcused ⟨a, dialect⟩ _),
          faults_eq_of_not_mem hshort (isExcused ⟨b, dialect⟩ _)]
  refine ⟨hiff, fun hcounters => hiff.mpr fun found _ _ => ?_⟩
  rw [countersOf_eq_of_sameCode hcode hcounters]

/-- The two texts differ in a comment and in a string, and both excuse their counter. -/
theorem reports_eq_iff_of_sameCode_in_loop :
    let a := "for (int i = 0; i < 9; i++) { } // for j\nint i = 2; int k = 1; Log(\"j\");".toList
    let b := "for (int i = 0; i < 9; i++) { } // tmp x;\nint i = 2; int k = 1; Log(\"\");".toList
    SameCode .csharp a b ∧ reports ⟨a, .csharp⟩ = reports ⟨b, .csharp⟩ ∧
      reports ⟨a, .csharp⟩ = [(some 2, "Variable name 'k' is too short.")] := by
  intro a b
  have hcode : SameCode .csharp a b := by decide +kernel
  exact ⟨hcode, (reports_eq_iff_of_sameCode (Or.inl rfl) hcode).2 (by decide +kernel),
    by decide +kernel⟩

/-- **Loops in comments and in strings excuse variables**: each of these texts has the code of the
one behind it, and less is reported of it. -/
theorem reports_of_loops_outside_code :
    let excusing : List (Dialect × List Char × List Char) :=
      [(.csharp, "int i = 0; // for (int i = 0; i < n; i++)".toList, "int i = 0; ".toList),
       (.csharp, "int j = f(\"for (var j = 0)\");".toList, "int j = f(\"\");".toList),
       (.vbnet, "Dim i ' For i = 1 To 2".toList, "Dim i ".toList),
       (.vbnet, "Dim j = \"For j = 1\"".toList, "Dim j = \"\"".toList)]
    ∀ texts ∈ excusing, SameCode texts.1 texts.2.1 texts.2.2 ∧
      reports ⟨texts.2.1, texts.1⟩ = [] ∧ (reports ⟨texts.2.2, texts.1⟩).length = 1 := by
  decide +kernel

end Naming
end LineLint
