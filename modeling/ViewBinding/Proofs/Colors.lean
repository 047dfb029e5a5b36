import ViewBinding.Diagnostic.Terminal

namespace ViewBinding.Proofs.Colors

open Terminal

def isParameter (c : Char) : Bool := c.isDigit || c = ';'

/-- An escape character and a bracket, digits and semicolons, and the letter at the end. -/
def IsSequence (w : List Char) : Prop :=
  ∃ parameters, (∀ c ∈ parameters, isParameter c) ∧ w = '\x1b' :: '[' :: parameters ++ ['m']

def afterSequence? : List Char → Option (List Char)
  | '\x1b' :: '[' :: r =>
      match r.dropWhile isParameter with
      | 'm' :: rest => some rest
      | _ => none
  | _ => none

theorem afterSequence?_eq_some_iff {s rest : List Char} :
    afterSequence? s = some rest ↔ ∃ w, IsSequence w ∧ s = w ++ rest := by
  constructor
  · intro h
    unfold afterSequence? at h
    split at h
    · next r =>
        split at h
        · next after hafter =>
            obtain rfl := Option.some.inj h
            have hparameters : ∀ c ∈ r.takeWhile isParameter, isParameter c :=
              fun c hc => List.all_eq_true.mp List.all_takeWhile c hc
            have hr : r = r.takeWhile isParameter ++ 'm' :: after := by
              rw [← hafter, List.takeWhile_append_dropWhile]
            refine ⟨_, ⟨r.takeWhile isParameter, hparameters, rfl⟩, ?_⟩
            rw [List.append_assoc, List.cons_append, List.cons_append, List.singleton_append, ← hr]
        · cases h
    · cases h
  · rintro ⟨w, ⟨parameters, hparameters, rfl⟩, rfl⟩
    have hdrop : (parameters ++ 'm' :: rest).dropWhile isParameter = 'm' :: rest :=
      List.dropWhile_append_of_pos hparameters
    simp [afterSequence?, hdrop]

theorem length_lt_of_afterSequence? {s rest : List Char} (h : afterSequence? s = some rest) :
    rest.length < s.length := by
  obtain ⟨w, ⟨parameters, -, rfl⟩, rfl⟩ := afterSequence?_eq_some_iff.mp h
  simp only [List.length_append, List.length_cons]
  omega

/-- Deletes the sequences from a text. -/
def strip : List Char → List Char
  | [] => []
  | c :: r =>
      match _h : afterSequence? (c :: r) with
      | some rest => strip rest
      | none => c :: strip r
termination_by s => s.length
decreasing_by
  · exact length_lt_of_afterSequence? _h
  · exact Nat.lt_succ_self _

theorem strip_of_none {c : Char} {r : List Char} (h : afterSequence? (c :: r) = none) :
    strip (c :: r) = c :: strip r := by
  rw [strip]
  split
  · next hsome => cases h.symm.trans hsome
  · rfl

theorem strip_sequence {w : List Char} (hw : IsSequence w) (rest : List Char) :
    strip (w ++ rest) = strip rest := by
  have hafter : afterSequence? (w ++ rest) = some rest :=
    afterSequence?_eq_some_iff.mpr ⟨w, hw, rfl⟩
  obtain ⟨parameters, -, rfl⟩ := hw
  rw [List.cons_append, List.cons_append] at hafter ⊢
  rw [strip]
  split
  · next hsome => rw [Option.some.inj (hafter.symm.trans hsome)]
  · next hnone => cases hafter.symm.trans hnone

theorem strip_append {s : List Char} (hs : '\x1b' ∉ s) (rest : List Char) :
    strip (s ++ rest) = s ++ strip rest := by
  induction s with
  | nil => rfl
  | cons c s ih =>
      rw [List.mem_cons, not_or] at hs
      have hnone : afterSequence? (c :: (s ++ rest)) = none := by
        rw [← Option.not_isSome_iff_eq_none, Option.isSome_iff_exists]
        rintro ⟨after, hafter⟩
        obtain ⟨w, ⟨parameters, -, rfl⟩, htext⟩ := afterSequence?_eq_some_iff.mp hafter
        exact hs.1 (List.cons.inj htext).1.symm
      rw [List.cons_append, strip_of_none hnone, ih hs.2, List.cons_append]

def Unescaped (s : String) : Prop := '\x1b' ∉ s.toList

instance (s : String) : Decidable (Unescaped s) := inferInstanceAs (Decidable (¬ _))

@[simp] theorem unescaped_append {s t : String} : Unescaped (s ++ t) ↔ Unescaped s ∧ Unescaped t := by
  rw [Unescaped, String.toList_append, List.mem_append, not_or]
  rfl

@[simp] theorem unescaped_toString {s : String} : Unescaped (toString s) ↔ Unescaped s := Iff.rfl

@[simp] theorem unescaped_number (n : Nat) : Unescaped n.repr := by
  intro hmem
  have hdigit := Nat.isDigit_of_mem_toDigits (b := 10) (n := n) (by decide) (by decide)
    (by simpa [Nat.repr] using hmem)
  exact absurd hdigit (by decide)

def texts (d : Diagnostic) : List String :=
  d.message :: d.labels.flatMap (fun l => [l.site.text, l.message]) ++ d.notes ++ d.suggestions

theorem isSequence_sequence {parameters : String} (h : parameters.toList.all isParameter) :
    IsSequence (sequence parameters).toList := by
  refine ⟨parameters.toList, List.all_eq_true.mp h, ?_⟩
  rw [Terminal.sequence, String.toList_append, String.toList_append]
  rfl

theorem isSequence_style (style : Style) : IsSequence (sequence style.parameters).toList :=
  isSequence_sequence (by cases style <;> decide)

theorem isSequence_reset : IsSequence (sequence "0").toList := isSequence_sequence (by decide)

theorem write_colored (style : Style) (text : String) :
    (styled style text).write true = sequence style.parameters ++ text ++ sequence "0" := rfl

theorem write_plain (s : Span) : s.write false = s.text := rfl

theorem strip_span {s : Span} (h : Unescaped s.text) (rest : List Char) :
    strip ((s.write true).toList ++ rest) = s.text.toList ++ strip rest := by
  obtain ⟨style, text⟩ := s
  cases style with
  | none => exact strip_append h rest
  | some style =>
      have hwritten : ((styled style text).write true).toList ++ rest =
          (sequence style.parameters).toList ++ (text.toList ++ ((sequence "0").toList ++ rest)) := by
        simp [write_colored]
      change strip (((styled style text).write true).toList ++ rest) = _
      rw [hwritten, strip_sequence (isSequence_style style), strip_append h, strip_sequence isSequence_reset]

theorem toList_write_cons (colors : Bool) (s : Span) (spans : List Span) :
    (write colors (s :: spans)).toList = (s.write colors).toList ++ (write colors spans).toList := by
  rw [write, List.map_cons, String.join_cons, String.toList_append, ← write]

theorem strip_write {spans : List Span} (h : ∀ s ∈ spans, Unescaped s.text) :
    strip (write true spans).toList = (write false spans).toList := by
  induction spans with
  | nil => rw [write, write, List.map_nil, List.map_nil, String.join_nil, String.toList_empty, strip]
  | cons s spans ih =>
      obtain ⟨hs, hspans⟩ := List.forall_mem_cons.mp h
      rw [toList_write_cons, toList_write_cons, strip_span hs, ih hspans, write_plain]

theorem unescaped_write {spans : List Span} (h : ∀ s ∈ spans, Unescaped s.text) :
    Unescaped (write false spans) := by
  induction spans with
  | nil => decide
  | cons s spans ih =>
      obtain ⟨hs, hspans⟩ := List.forall_mem_cons.mp h
      rw [Unescaped, toList_write_cons, List.mem_append, not_or]
      exact ⟨hs, ih hspans⟩

theorem unescaped_labelSpans {l : Label} (hsite : Unescaped l.site.text) (hmessage : Unescaped l.message) :
    ∀ s ∈ labelSpans l, Unescaped s.text := by
  have harrow : Unescaped (Diagnostic.arrow l) := by
    rw [Diagnostic.arrow]
    split <;> decide
  simp +decide [labelSpans, plain, styled, harrow, hsite, hmessage]

theorem unescaped_spans {d : Diagnostic} (h : ∀ t ∈ texts d, Unescaped t) :
    ∀ s ∈ spans d, Unescaped s.text := by
  simp only [texts, List.cons_append, List.forall_mem_cons, List.forall_mem_append,
    List.forall_mem_flatMap] at h
  obtain ⟨hmessage, ⟨hlabels, hnotes⟩, hsuggestions⟩ := h
  have hseverity : Unescaped d.severity.text := by cases d.severity <;> decide
  have hcode : Unescaped (toString d.code) := by cases d.code <;> decide
  have hlabelSpans : ∀ l ∈ d.labels, ∀ s ∈ labelSpans l, Unescaped s.text :=
    fun l hl => unescaped_labelSpans (hlabels l hl).1 (hlabels l hl).2.1
  simp +decide only [spans, plain, styled, List.forall_mem_append, List.forall_mem_cons,
    List.forall_mem_flatMap, unescaped_append, unescaped_toString, hseverity, hcode, hmessage, true_and,
    and_true]
  exact ⟨⟨hlabelSpans, hnotes⟩, hsuggestions⟩

theorem unescaped_counted (n : Nat) {noun : String} (h : Unescaped noun) : Unescaped (counted n noun) := by
  rw [counted]
  split <;> simp +decide [h]

theorem unescaped_summarySpans (errors warnings : Nat) :
    ∀ s ∈ summarySpans errors warnings, Unescaped s.text := by
  have hnoun : Unescaped "warning" := by decide
  have hcounted := unescaped_counted warnings hnoun
  have hcause : Unescaped (if errors = 1 then "previous error" else s!"{errors} previous errors") := by
    split <;> simp +decide
  rw [summarySpans]
  generalize counted warnings "warning" = tally at hcounted
  have hrest : Unescaped (if 0 < warnings then s!"; {tally} emitted" else "") := by
    split <;> simp +decide [hcounted]
  split
  · simp +decide only [plain, styled, List.forall_mem_cons, unescaped_append, unescaped_toString, hcause,
      hrest]
  · split
    · simp +decide only [plain, styled, List.forall_mem_cons, unescaped_append, unescaped_toString, hcounted]
    · exact List.forall_mem_nil _

/-- What is written of diagnostics and of the numbers of errors and warnings. -/
def report (colors : Bool) (ds : List Diagnostic) (errors warnings : Nat) : String :=
  diagnostics colors ds ++ summary colors errors warnings

theorem report_eq (colors : Bool) (ds : List Diagnostic) (errors warnings : Nat) :
    report colors ds errors warnings = write colors (ds.flatMap spans ++ summarySpans errors warnings) := by
  rw [report, diagnostics, summary, write, write, write, List.map_append, String.join_append]

theorem not_unescaped_write {spans : List Span} {style : Style} {text : String}
    (h : styled style text ∈ spans) : ¬ Unescaped (write true spans) := by
  rw [Unescaped, Classical.not_not, write, String.toList_join, List.mem_flatMap]
  refine ⟨_, List.mem_map_of_mem h, ?_⟩
  simp [write_colored, Terminal.sequence]

theorem unescaped_report_iff (ds : List Diagnostic) (errors warnings : Nat) :
    Unescaped (report true ds errors warnings) ↔ ds = [] ∧ errors = 0 ∧ warnings = 0 := by
  rw [report_eq]
  constructor
  · intro h
    have hstyled (style : Style) (text : String) :
        styled style text ∉ ds.flatMap spans ∧ styled style text ∉ summarySpans errors warnings := by
      rw [← not_or, ← List.mem_append]
      exact fun hmem => not_unescaped_write hmem h
    have hds : ds = [] := by
      refine List.eq_nil_iff_forall_not_mem.mpr fun d hd => ?_
      refine (hstyled (severityStyle d.severity) d.severity.text).1 (List.mem_flatMap.mpr ⟨d, hd, ?_⟩)
      simp [spans]
    have herrors : errors = 0 := by
      refine Nat.eq_zero_of_not_pos fun hpos => (hstyled .error "error").2 ?_
      simp [summarySpans, hpos]
    have hwarnings : warnings = 0 := by
      refine Nat.eq_zero_of_not_pos fun hpos => (hstyled .warning "warning").2 ?_
      simp [summarySpans, herrors, hpos]
    exact ⟨hds, herrors, hwarnings⟩
  · rintro ⟨rfl, rfl, rfl⟩
    decide

/-- If the texts of some diagnostics have no escape characters in them, a report of them in colours becomes
the report without colours when its sequences are deleted, and this one has no escape character in it.
The colours show wherever something is reported. -/
theorem strip_report (ds : List Diagnostic) (errors warnings : Nat)
    (h : ∀ d ∈ ds, ∀ t ∈ texts d, Unescaped t) :
    strip (report true ds errors warnings).toList = (report false ds errors warnings).toList ∧
    Unescaped (report false ds errors warnings) ∧
    (Unescaped (report true ds errors warnings) ↔ ds = [] ∧ errors = 0 ∧ warnings = 0) := by
  have hspans : ∀ s ∈ ds.flatMap spans ++ summarySpans errors warnings, Unescaped s.text :=
    List.forall_mem_append.mpr ⟨List.forall_mem_flatMap.mpr fun d hd => unescaped_spans (h d hd),
      unescaped_summarySpans errors warnings⟩
  refine ⟨?_, ?_, unescaped_report_iff ds errors warnings⟩
  · rw [report_eq, report_eq, strip_write hspans]
  · rw [report_eq]
    exact unescaped_write hspans

def hidden : Diagnostic :=
  ((Diagnostic.error .hiddenMember "hidden").about (.field (.ofTopLevel "app" "Screen") "panel") "here").note
    "private"

theorem strip_report_hidden :
    (∀ d ∈ [hidden], ∀ t ∈ texts d, Unescaped t) ∧
    strip (report true [hidden] 1 2).toList =
      ("error[E1001]: hidden\n  --> app.Screen#panel: here\n  = note: private\n\n" ++
        "error: aborting due to previous error; 2 warnings emitted\n").toList := by
  have hplain : ∀ d ∈ [hidden], ∀ t ∈ texts d, Unescaped t := by decide +kernel
  have htext : report false [hidden] 1 2 =
      "error[E1001]: hidden\n  --> app.Screen#panel: here\n  = note: private\n\n" ++
        "error: aborting due to previous error; 2 warnings emitted\n" := by decide +kernel
  exact ⟨hplain, (strip_report [hidden] 1 2 hplain).1.trans (congrArg String.toList htext)⟩

end ViewBinding.Proofs.Colors
