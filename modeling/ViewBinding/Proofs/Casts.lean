import ViewBinding.Companion
import ViewBinding.Proofs.Capture
import ViewBinding.Proofs.TypeText

namespace ViewBinding.Proofs.Casts

open Text Java ClassName Reading TypeText Ownership Capture

variable (t : ImportTable)

/-- The bare name of a class of the default package is the text of a class of a package. -/
structure Masked (c d : ClassName) : Prop where
  default : c.package = ""
  packaged : d.package ≠ ""
  names : c.names = d.names
  owner : t.owner? d.outermost = some d.topLevel

theorem Masked.className_eq {t : ImportTable} {c d : ClassName} (h : Masked t c d) :
    t.className c = t.className d := by
  have hbare : { d with package := "" } = c := ext_names h.default.symm h.names.symm
  have hd : t.className d = c.dotted := by
    rw [ImportTable.className, if_pos h.owner, ← hbare]
    rfl
  have hc : c.canonical = c.dotted := by
    rw [canonical, qualify, h.default]
    rfl
  rw [hd, ImportTable.className, hc, ite_self]

theorem masked_of_bare {c d : ClassName} (howner : t.owner? c.outermost = some c.topLevel)
    (hbare : { c with package := "" } = d) : c = d ∨ Masked t d c := by
  subst hbare
  by_cases h : c.package = ""
  · exact .inl (ext_names h rfl)
  · exact .inr ⟨rfl, h, rfl, howner⟩

theorem className_eq_iff {c d : ClassName} (hc : Conventional c) (hd : Conventional d) :
    t.className c = t.className d ↔ c = d ∨ Masked t c d ∨ Masked t d c := by
  constructor
  · intro h
    rcases className_cases t c with ⟨hco, hct⟩ | ⟨-, hct⟩ <;>
      rcases className_cases t d with ⟨hdo, hdt⟩ | ⟨-, hdt⟩ <;> rw [hct, hdt] at h
    · -- both own the same name, so they have the same outermost class
      obtain ⟨-, houtermost, hinner⟩ := ClassName.mk.inj (hc.unpackaged.canonical_inj hd.unpackaged h)
      rw [houtermost, hdo] at hco
      obtain ⟨hpackage, -, -⟩ := ClassName.mk.inj (Option.some.inj hco)
      exact .inl (ext_names hpackage.symm (by rw [names, names, houtermost, hinner]))
    · exact (masked_of_bare t hco (hc.unpackaged.canonical_inj hd h)).imp_right .inr
    · rcases masked_of_bare t hdo (hd.unpackaged.canonical_inj hc h.symm) with heq | hmasked
      · exact .inl heq.symm
      · exact .inr (.inl hmasked)
    · exact .inl (hc.canonical_inj hd h)
  · rintro (rfl | h | h)
    · rfl
    · exact h.className_eq
    · exact h.className_eq.symm

/-- A type without the packages that are left out in its text. -/
def shown : TypeName → TypeName
  | .ofClass c => .ofClass (if t.owner? c.outermost = some c.topLevel then { c with package := "" } else c)
  | .array u => .array (shown u)
  | u => u

theorem text_shown (u : TypeName) : (shown t u).text = t.typeName (.declared u) := by
  induction u with
  | primitive p => rfl
  | verbatim s => rfl
  | array u ih => exact congrArg (· ++ "[]") ih
  | ofClass c =>
      change ClassName.canonical _ = t.className c
      rw [ImportTable.className]
      split <;> rfl

theorem shown_arrays (n : Nat) (u : TypeName) :
    shown t (TypeName.arrays n u) = TypeName.arrays n (shown t u) := by
  induction n with
  | zero => rfl
  | succ n ih => exact congrArg TypeName.array ih

theorem shown_eq_ofClass {u : TypeName} {c : ClassName} (h : shown t u = .ofClass c) :
    ∃ d, u = .ofClass d := by
  cases u with
  | ofClass d => exact ⟨d, rfl⟩
  | primitive p => cases h
  | array u => cases h
  | verbatim s => cases h

theorem declared_shown {u : TypeName} (h : ∃ s, TypeName.declared s = .ok u) :
    TypeName.declared (shown t u).text = .ok (shown t u) := by
  obtain ⟨s, hs⟩ := h
  rcases declared_cases hs with ⟨n, p, rfl⟩ | ⟨n, c, hc, rfl⟩ | ⟨text, rfl⟩
  · have hshown : shown t (TypeName.arrays n (.primitive p)) = TypeName.arrays n (.primitive p) :=
      shown_arrays t n _
    rw [hshown]
    exact declared_text ⟨s, hs⟩
  · rw [shown_arrays, shown]
    split
    · exact declared_canonical hc.unpackaged n
    · exact declared_canonical hc n
  · exact declared_text ⟨s, hs⟩

/-- A class of identifiers, whatever their capitalization. -/
def Lawful (c : ClassName) : Prop := ∀ s ∈ segments c.package ++ c.names, isIdentifier s.toList = true

theorem className_eq_join {c : ClassName} (h : Lawful c) :
    ∃ parts, parts ≠ [] ∧ (∀ p ∈ parts, isIdentifier p.toList = true) ∧
      t.className c = join "." parts := by
  rcases className_cases t c with ⟨-, htext⟩ | ⟨-, htext⟩ <;> rw [htext, canonical_eq_join]
  · exact ⟨c.names, c.names_ne_nil, fun p hp => h p (List.mem_append_right _ hp), rfl⟩
  · exact ⟨_, List.append_ne_nil_of_right_ne_nil _ c.names_ne_nil, h, rfl⟩

section Types

variable {t} {u : TypeName} (hu : ∃ s, TypeName.declared s = .ok u) {c : ClassName}

include hu

theorem declared_of_typeName_eq (h : t.typeName (.declared u) = t.className c) :
    TypeName.declared (t.className c) = .ok (shown t u) := by
  rw [← h, ← text_shown]
  exact declared_shown t hu

omit hu in
theorem typeName_eq_of_declared (hc : Lawful c)
    (h : TypeName.declared (t.className c) = .ok (shown t u)) :
    t.typeName (.declared u) = t.className c := by
  obtain ⟨parts, hne, hparts, htext⟩ := className_eq_join t hc
  rw [htext] at h ⊢
  rw [← text_shown, text_of_declared_join hne hparts h]

theorem typeName_eq_iff (hc : Readable c) :
    t.typeName (.declared u) = t.className c ↔
      u = .ofClass c ∨ ∃ d, u = .ofClass d ∧ (Masked t d c ∨ Masked t c d) := by
  have hc := conventional_of_readable hc
  constructor
  · intro h
    have hread := declared_of_typeName_eq hu h
    have hclass : ∃ d, TypeName.declared (t.className c) = .ok (.ofClass d) := by
      rcases className_cases t c with ⟨-, htext⟩ | ⟨-, htext⟩ <;> rw [htext]
      · exact ⟨_, declared_canonical hc.unpackaged 0⟩
      · exact ⟨_, declared_canonical hc 0⟩
    obtain ⟨d, hd⟩ := hclass
    obtain ⟨d, rfl⟩ := shown_eq_ofClass t (Except.ok.inj (hread.symm.trans hd))
    obtain ⟨s, hs⟩ := hu
    rcases (className_eq_iff t (conventional_of_declared hs) hc).mp h with rfl | hmasked
    · exact .inl rfl
    · exact .inr ⟨d, rfl, hmasked⟩
  · rintro (rfl | ⟨d, rfl, hmasked | hmasked⟩)
    · rfl
    · exact hmasked.className_eq
    · exact hmasked.className_eq.symm

end Types

section Lines

variable (options : Options) (c : Companion) (text : ClassName → String)

def castLine (b : FieldBinding) : String :=
  margin 2 ++ ("target." ++ b.name ++ " = (" ++ (TypeExpr.declared b.type).write text ++ ")" ++
    Companion.viewLookup b.id ++ ";")

def headLines : List String :=
  ["public class " ++ (options.companionName c.host).simple ++ " implements " ++
      text options.companionInterface ++ "<" ++ text c.host ++ "> \x7b",
    margin 1 ++ "public void inject(final " ++ text c.host ++ " target, " ++ text options.viewType ++
      " root) \x7b"]

theorem prefix_addListener (b : MethodBinding) (code : CodeBlock) :
    bodyLines text code <+: bodyLines text (Companion.addListener options b code) := by
  simp only [Companion.addListener, bodyLines_closing, bodyLines_statement, bodyLines_opening,
    bodyLines_line, List.append_assoc]
  exact List.prefix_append _ _

theorem prefix_foldl {α : Type} {add : CodeBlock → α → CodeBlock}
    (h : ∀ code a, bodyLines text code <+: bodyLines text (add code a)) (as : List α) (code : CodeBlock) :
    bodyLines text code <+: bodyLines text (as.foldl add code) := by
  induction as generalizing code with
  | nil => exact List.prefix_rfl
  | cons a as ih => exact (h code a).trans (ih _)

theorem prefix_statement (x : Snippet) (code : CodeBlock) :
    bodyLines text code <+: bodyLines text (code.statement x) := by
  rw [bodyLines_statement]
  exact List.prefix_append _ _

theorem prefix_addHandler (code : CodeBlock) (b : MethodBinding) :
    bodyLines text code <+: bodyLines text (Companion.addHandler options code b) :=
  (prefix_addListener options text b code).trans
    (prefix_foldl text (fun code _ => prefix_statement text _ code) b.ids _)

theorem bodyLines_assignments (fields : List FieldBinding) {code : CodeBlock} (hcode : code.depth = 0) :
    bodyLines text (fields.foldl (fun code b => code.statement (Companion.assignment b)) code) =
      bodyLines text code ++ fields.map (castLine text) := by
  induction fields generalizing code with
  | nil => exact (List.append_nil _).symm
  | cons b fields ih =>
      have hline : margin (2 + code.depth) ++ ((Companion.assignment b).write text ++ ";") =
          castLine text b := by
        rw [hcode, castLine, Companion.assignment]
        simp only [Snippet.write_text, Snippet.write_type, Snippet.write_ofText, String.append_assoc]
        rfl
      rw [List.foldl_cons, ih ((CodeBlock.depth_statement _ _).trans hcode), bodyLines_statement, hline,
        List.append_assoc, List.map_cons, List.singleton_append]

theorem castLine_mem_body {b : FieldBinding} (hb : b ∈ c.fields) :
    castLine text b ∈ bodyLines text (c.body options) := by
  have hassigned : castLine text b ∈ bodyLines text
      (c.fields.foldl (fun code b => code.statement (Companion.assignment b)) CodeBlock.empty) := by
    rw [bodyLines_assignments text c.fields CodeBlock.depth_empty]
    exact List.mem_append_right _ (List.mem_map_of_mem hb)
  rw [Companion.body]
  split
  · exact hassigned
  · refine (prefix_foldl text (prefix_addHandler options text) c.methods _).subset ?_
    exact (prefix_statement text _ _).subset hassigned

theorem modifierFragments_public :
    modifierFragments (.ofList [.publicAccess]) = [.text "public "] := by rfl

theorem writeLine_classHeader :
    SourceFile.writeLine text (c.file options).type.header =
      "public class " ++ (options.companionName c.host).simple ++ " implements " ++
        text options.companionInterface ++ "<" ++ text c.host ++ "> \x7b" := by
  have hheader : (c.file options).type.header =
      [.text "public ", .text "class ", .text (options.companionName c.host).simple,
        .text " implements ", .type (.generic options.companionInterface [.ofClass c.host]),
        .text " \x7b"] := by
    rw [Class.header]
    change modifierFragments (.ofList [.publicAccess]) ++ _ ++ _ ++ _ = _
    rw [modifierFragments_public]
    rfl
  have hpublic : "public class " = "public " ++ "class " := by rfl
  have hopened : "> \x7b" = ">" ++ " \x7b" := by rfl
  rw [hheader, hpublic, hopened]
  simp only [SourceFile.writeLine_cons, SourceFile.writeLine_nil, Fragment.write, TypeExpr.ofClass,
    TypeExpr.write, TypeExpr.writeAll, TypeExpr.writeDeclared, join_singleton, String.append_assoc,
    String.append_empty]

theorem writeLine_injectHeader (typeName : String) :
    SourceFile.writeLine text ((c.inject options).header typeName 1) =
      margin 1 ++ "public void inject(final " ++ text c.host ++ " target, " ++ text options.viewType ++
        " root) \x7b" := by
  have hheader : (c.inject options).header typeName 1 =
      [indentation 1, .text "public ", .type .void, .text " ", .text "inject", .text "(",
        .text "final ", .type (.ofClass c.host), .text " ", .text "target", .text ", ",
        .type (.ofClass options.viewType), .text " ", .text "root", .text ") \x7b"] := by
    have hfinal : modifierFragments (.ofList [.final]) = [.text "final "] := by rfl
    have hnone : modifierFragments ∅ = [] := by rfl
    have hparameters : separated [.text ", "] ((c.inject options).parameters.map Parameter.layout) =
        [.text "final ", .type (.ofClass c.host), .text " ", .text "target", .text ", ",
          .type (.ofClass options.viewType), .text " ", .text "root"] := by
      simp only [Companion.inject, List.map_cons, List.map_nil, Parameter.layout, hfinal, hnone]
      rfl
    rw [Method.header, hparameters]
    change indentation 1 :: modifierFragments (.ofList [.publicAccess]) ++ _ ++ _ ++ _ ++ _ = _
    rw [modifierFragments_public]
    rfl
  have hpublic : "public void inject(final " =
      "public " ++ ("void" ++ (" " ++ ("inject" ++ ("(" ++ "final ")))) := by rfl
  have htarget : " target, " = " " ++ ("target" ++ ", ") := by rfl
  have hroot : " root) \x7b" = " " ++ ("root" ++ ") \x7b") := by rfl
  rw [hheader, hpublic, htarget, hroot]
  simp only [SourceFile.writeLine_cons, SourceFile.writeLine_nil, Fragment.write, indentation, margin,
    TypeExpr.void, TypeExpr.ofClass, TypeExpr.write, TypeExpr.writeDeclared, String.append_assoc,
    String.append_empty]
  rfl

theorem lines_mem_typeLines :
    (∀ b ∈ c.fields, castLine (c.file options).table.className b ∈ (c.file options).typeLines) ∧
    ∀ line ∈ headLines options c (c.file options).table.className, line ∈ (c.file options).typeLines := by
  have hlines : (c.file options).typeLines =
      SourceFile.writeLine (c.file options).table.className (c.file options).type.header ::
        ((c.inject options).layout (c.file options).type.name 1 ++ [[Fragment.text "\x7d"]]).map
          (SourceFile.writeLine (c.file options).table.className) := rfl
  have hmethod : ∀ line ∈ [(c.inject options).header (c.file options).type.name 1] ++
      (c.body options).layout 2,
      SourceFile.writeLine (c.file options).table.className line ∈ (c.file options).typeLines := by
    intro line hline
    rw [hlines]
    refine List.mem_cons_of_mem _ (List.mem_map_of_mem (List.mem_append_left _ ?_))
    rw [Method.layout, List.append_assoc _ [_]]
    exact List.mem_append_left _ (List.mem_append_right _ hline)
  refine ⟨fun b hb => ?_, ?_⟩
  · obtain ⟨line, hline, htext⟩ := List.mem_map.mp (castLine_mem_body options c _ hb)
    exact htext ▸ hmethod line (List.mem_append_right _ hline)
  · rw [headLines, List.forall_mem_cons, List.forall_mem_singleton, ← writeLine_classHeader,
      ← writeLine_injectHeader options c _ (c.file options).type.name]
    exact ⟨hlines ▸ List.mem_cons_self, hmethod _ List.mem_cons_self⟩

end Lines

/-- A companion stands in its file with the texts of the file's table. Two of its fields with declared
types that are different classes are cast to one text exactly if one class is masked by the other. A
field has the text of one of the three classes that the companion itself needs only if this text declares
the type of the field as it is written, and whenever it does, where the class is made of identifiers. Of a
class that can be declared itself that leaves its own type and the classes masked by it or masking it. -/
theorem casts_tell_types (options : Options) (c : Companion)
    (hfields : ∀ b ∈ c.fields, ∃ text, TypeName.declared text = .ok b.type) :
    let t := (c.file options).table
    ((∀ b ∈ c.fields, castLine t.className b ∈ (c.file options).typeLines) ∧
      ∀ line ∈ headLines options c t.className, line ∈ (c.file options).typeLines) ∧
    (∀ b ∈ c.fields, ∀ b' ∈ c.fields, ∀ d d', b.type = .ofClass d → b'.type = .ofClass d' →
      (t.typeName (.declared b.type) = t.typeName (.declared b'.type) ↔
        d = d' ∨ Masked t d d' ∨ Masked t d' d)) ∧
    ∀ b ∈ c.fields, ∀ own ∈ [c.host, options.viewType, options.companionInterface],
      (t.typeName (.declared b.type) = t.className own →
        TypeName.declared (t.className own) = .ok (shown t b.type)) ∧
      (Lawful own → TypeName.declared (t.className own) = .ok (shown t b.type) →
        t.typeName (.declared b.type) = t.className own) ∧
      (Readable own → (t.typeName (.declared b.type) = t.className own ↔
        b.type = .ofClass own ∨ ∃ d, b.type = .ofClass d ∧ (Masked t d own ∨ Masked t own d))) := by
  intro t
  refine ⟨lines_mem_typeLines options c, fun b hb b' hb' d d' hd hd' => ?_, fun b hb own _ =>
    ⟨declared_of_typeName_eq (hfields b hb), fun hown => typeName_eq_of_declared hown,
      typeName_eq_iff (hfields b hb)⟩⟩
  obtain ⟨s, hs⟩ := hfields b hb
  obtain ⟨s', hs'⟩ := hfields b' hb'
  rw [hd] at hs ⊢
  rw [hd'] at hs' ⊢
  exact className_eq_iff t (conventional_of_declared hs) (conventional_of_declared hs')

def plainView : ClassName := .ofTopLevel "" "View"

def button : ClassName := .ofTopLevel "android.widget" "Button"

def viewsOfMain : Companion :=
  let main := ClassName.ofTopLevel "" "Main"
  ⟨main, false, [⟨.field main "panel", 1, "panel", .ofClass plainView⟩,
    ⟨.field main "button", 2, "button", .ofClass button⟩], [], ∅⟩

/-- The second field has a text of its own, the first has that of the view type. -/
theorem casts_tell_viewsOfMain :
    (∀ b ∈ viewsOfMain.fields, ∃ text, TypeName.declared text = .ok b.type) ∧
    Readable Options.viewClass ∧
    let t := (viewsOfMain.file .standard).table
    t.className plainView ≠ t.className button ∧ t.className button ≠ t.className Options.viewClass ∧
    t.className plainView = t.className Options.viewClass := by
  have hfields : ∀ b ∈ viewsOfMain.fields, ∃ text, TypeName.declared text = .ok b.type :=
    List.forall_mem_cons.mpr ⟨⟨"View", by rfl⟩,
      List.forall_mem_singleton.mpr ⟨"android.widget.Button", by rfl⟩⟩
  have hview : Readable Options.viewClass := ⟨"android.view.View", by rfl⟩
  obtain ⟨-, hpairs, hown⟩ := casts_tell_types .standard viewsOfMain hfields
  have hpanel : viewsOfMain.fields[0] ∈ viewsOfMain.fields := List.getElem_mem _
  have hbutton : viewsOfMain.fields[1] ∈ viewsOfMain.fields := List.getElem_mem _
  have hviewType : Options.viewClass ∈
      [viewsOfMain.host, Options.standard.viewType, Options.standard.companionInterface] := by decide
  refine ⟨hfields, hview, fun heq => ?_, fun heq => ?_, ?_⟩
  · have hnames : plainView.names ≠ button.names := by decide
    rcases (hpairs _ hpanel _ hbutton _ _ rfl rfl).mp heq with h | h | h
    · exact hnames (congrArg ClassName.names h)
    · exact hnames h.names
    · exact hnames h.names.symm
  · have hnames : button.names ≠ Options.viewClass.names := by decide
    rcases ((hown _ hbutton _ hviewType).2.2 hview).mp heq with h | ⟨d, hd, h⟩
    · exact hnames (congrArg ClassName.names (TypeName.ofClass.inj h))
    · obtain rfl : button = d := TypeName.ofClass.inj hd
      rcases h with h | h
      · exact hnames h.names
      · exact hnames h.names.symm
  · have howner : (viewsOfMain.file .standard).table.owner? Options.viewClass.outermost =
        some Options.viewClass.topLevel := by decide +kernel
    refine ((hown _ hpanel _ hviewType).2.2 hview).mpr (.inr ⟨plainView, rfl, .inl ?_⟩)
    exact ⟨rfl, by decide, rfl, howner⟩

/-- A field whose class has no package is cast to the view type: both are written alike, and only the view
type is imported. -/
theorem cast_masks_plainView :
    TypeName.declared "View" = .ok (.ofClass plainView) ∧
    plainView ∉ [viewsOfMain.host, Options.standard.viewType, Options.standard.companionInterface] ∧
    "        target.panel = (View)(root.findViewById(1));" ∈ (viewsOfMain.file .standard).typeLines ∧
    "    public void inject(final Main target, View root) \x7b" ∈ (viewsOfMain.file .standard).typeLines ∧
    Options.viewClass ∈ (viewsOfMain.file .standard).table.imports := by
  refine ⟨by rfl, by decide, by decide +kernel, by decide +kernel, ?_⟩
  rw [SourceFile.table, mem_imports]
  decide +kernel

end ViewBinding.Proofs.Casts
