import ViewBinding.Companion
import ViewBinding.Proofs.Imports
import ViewBinding.Proofs.Pieces
import ViewBinding.Registry

namespace ViewBinding.Proofs.Mentions

open Text Java ClassName Ownership Imports Pieces

theorem mentions_writeDeclared (type : TypeName) :
    Mentions (fun name => TypeExpr.writeDeclared name type) type.mentioned?.toList := by
  induction type with
  | primitive p => exact mentions_text p.keyword
  | ofClass c => exact mentions_name c
  | array component ih => exact ih.append_text "[]"
  | verbatim s => exact mentions_text s

mutual

theorem mentions_write : (e : TypeExpr) → Mentions (fun name => e.write name) e.classes
  | .declared type => mentions_writeDeclared type
  | .generic raw arguments =>
      ((mentions_name raw).append_text "<").append (mentions_writeAll arguments) |>.append_text ">"
  | .variable v => mentions_text v

theorem mentions_writeAll : (es : List TypeExpr) →
    Mentions (fun name => join ", " (TypeExpr.writeAll name es)) (TypeExpr.classesOfAll es)
  | [] => mentions_text ""
  | [e] => by
      simp only [TypeExpr.writeAll, TypeExpr.classesOfAll, join_singleton, List.append_nil]
      exact mentions_write e
  | e :: e' :: es => by
      have hrest := mentions_writeAll (e' :: es)
      simp only [TypeExpr.writeAll, join_cons_cons] at hrest ⊢
      exact ((mentions_write e).append_text ", ").append hrest

end

theorem mentions_fragment (x : Fragment) : Mentions (fun name => x.write name) x.classes := by
  cases x with
  | text s => exact mentions_text s
  | type e => exact mentions_write e

theorem mentions_writeLine (line : List Fragment) :
    Mentions (fun name => SourceFile.writeLine name line) (line.flatMap Fragment.classes) :=
  mentions_join mentions_fragment line

def lineClasses (line : List Fragment) : List ClassName := line.flatMap Fragment.classes

def layoutClasses (l : Layout) : List ClassName := l.flatMap lineClasses

theorem lineClasses_append (x y : List Fragment) :
    lineClasses (x ++ y) = lineClasses x ++ lineClasses y := List.flatMap_append

theorem lineClasses_cons (x : Fragment) (line : List Fragment) :
    lineClasses (x :: line) = x.classes ++ lineClasses line := rfl

theorem layoutClasses_append (k l : Layout) :
    layoutClasses (k ++ l) = layoutClasses k ++ layoutClasses l := List.flatMap_append

theorem lineClasses_modifierFragments (ms : Modifiers) : lineClasses (modifierFragments ms) = [] := by
  rw [lineClasses, modifierFragments, List.flatMap_map]
  exact List.flatMap_eq_nil_iff.mpr fun _ _ => rfl

theorem lineClasses_separated (s : String) (parts : Layout) :
    lineClasses (separated [.text s] parts) = layoutClasses parts := by
  fun_induction separated [.text s] parts with
  | case1 => rfl
  | case2 part => exact (List.append_nil _).symm
  | case3 part next parts ih =>
      rw [lineClasses_append, lineClasses_append, ih]
      exact congrArg (· ++ _) (List.append_nil _)

theorem layoutClasses_map {α : Type} (f : α → List Fragment) (as : List α) :
    layoutClasses (as.map f) = as.flatMap fun a => lineClasses (f a) := by
  rw [layoutClasses, List.flatMap_map]

theorem layoutClasses_annotations (as : List AnnotationUse) (level : Nat) :
    layoutClasses (as.map (AnnotationUse.layout level)) = as.map AnnotationUse.type := by
  have hmark (a : AnnotationUse) : lineClasses (a.layout level) = [a.type] := by
    rw [AnnotationUse.layout, lineClasses_append]
    cases a.value <;> rfl
  rw [layoutClasses_map, List.map_eq_flatMap]
  simp only [hmark]

theorem layoutClasses_parameters (ps : List Parameter) :
    layoutClasses (ps.map Parameter.layout) = ps.flatMap fun p => p.type.classes := by
  have hparameter (p : Parameter) : lineClasses p.layout = p.type.classes := by
    rw [Parameter.layout, lineClasses_append, lineClasses_modifierFragments]
    exact List.append_nil _
  rw [layoutClasses_map]
  simp only [hparameter]

theorem layoutClasses_block (level : Nat) (b : CodeBlock) : layoutClasses (b.layout level) = b.classes :=
  layoutClasses_map _ _

theorem lineClasses_header (typeName : String) (level : Nat) (m : Method) :
    lineClasses (m.header typeName level) =
      (if m.isConstructor then [] else m.returns.classes) ++
        m.parameters.flatMap fun p => p.type.classes := by
  have hvariables : lineClasses (if m.typeVariables.isEmpty then []
      else [.text ("<" ++ join ", " m.typeVariables ++ "> ")]) = [] := by
    split <;> rfl
  have hreturns : lineClasses (if m.isConstructor then [.text typeName]
      else [.type m.returns, .text " ", .text m.name]) =
        if m.isConstructor then [] else m.returns.classes := by
    split
    · rfl
    · exact List.append_nil _
  rw [Method.header, lineClasses_append, lineClasses_append, lineClasses_append, lineClasses_append,
    lineClasses_cons, lineClasses_modifierFragments, hvariables, hreturns, lineClasses_cons,
    lineClasses_separated, layoutClasses_parameters]
  exact List.append_nil _

/-- Constructors keep the type that methods return if none is given. -/
def PlainConstructors (ms : List Method) : Prop := ∀ m ∈ ms, m.isConstructor = true → m.returns = .void

theorem layoutClasses_method (typeName : String) (level : Nat) {m : Method}
    (h : m.isConstructor = true → m.returns = .void) :
    layoutClasses (m.layout typeName level) = m.classes := by
  have hreturns : (if m.isConstructor then [] else m.returns.classes) = m.returns.classes := by
    split
    · next hconstructor =>
        rw [h hconstructor]
        rfl
    · rfl
  have hheader : layoutClasses [m.header typeName level] = lineClasses (m.header typeName level) :=
    List.append_nil _
  rw [Method.layout, layoutClasses_append, layoutClasses_append, layoutClasses_append,
    layoutClasses_annotations, hheader, lineClasses_header, hreturns, layoutClasses_block, Method.classes,
    ← List.append_assoc]
  exact List.append_nil _

theorem layoutClasses_methods (typeName : String) {ms : List Method} (h : PlainConstructors ms) :
    layoutClasses (methodsLayout typeName ms) = ms.flatMap Method.classes := by
  fun_induction methodsLayout typeName ms with
  | case1 => rfl
  | case2 m => rw [layoutClasses_method typeName 1 (h m List.mem_cons_self), List.flatMap_singleton]
  | case3 m n ms ih =>
      obtain ⟨hm, hrest⟩ := List.forall_mem_cons.mp h
      have hblank : layoutClasses [[]] = [] := rfl
      rw [layoutClasses_append, layoutClasses_append, layoutClasses_method typeName 1 hm, hblank,
        List.append_nil, ih hrest]
      exact List.flatMap_cons.symm

theorem lineClasses_classHeader (c : Java.Class) : lineClasses c.header = c.interfaces.flatMap TypeExpr.classes := by
  have hinterface (e : TypeExpr) : lineClasses [.type e] = e.classes := List.append_nil _
  have hinterfaces : lineClasses (if c.interfaces.isEmpty then [] else
      .text " implements " :: separated [.text ", "] (c.interfaces.map fun i => [.type i])) =
        c.interfaces.flatMap TypeExpr.classes := by
    split
    · next hempty =>
        rw [List.isEmpty_iff.mp hempty]
        rfl
    · rw [lineClasses_cons, lineClasses_separated, layoutClasses_map]
      simp only [hinterface]
      rfl
  rw [Class.header, lineClasses_append, lineClasses_append, lineClasses_append,
    lineClasses_modifierFragments, hinterfaces]
  exact List.append_nil _

theorem layoutClasses_layout {c : Java.Class} (h : PlainConstructors c.methods) :
    layoutClasses c.layout = c.classes := by
  have hhead : layoutClasses (c.header :: methodsLayout c.name c.methods) =
      lineClasses c.header ++ layoutClasses (methodsLayout c.name c.methods) := rfl
  rw [Class.layout, layoutClasses_append, hhead, lineClasses_classHeader, layoutClasses_methods c.name h,
    Class.classes]
  exact List.append_nil _

/-- The text of a file for each way to write classes. -/
def fileWording (f : SourceFile) : Wording := fun name =>
  ((f.commentLines ++ f.packageLines ++ f.importLines ++ f.type.layout.map (SourceFile.writeLine name)).foldl
    (fun p line => (p.write line).newline) Page.empty).trim.endLine.toString

theorem render_eq_fileWording (f : SourceFile) : f.render = fileWording f f.table.className := rfl

theorem tidy_foldl (ls : List String) :
    ((ls ++ ["\x7d"]).foldl (fun p line => (p.write line).newline) Page.empty).trim.endLine.toString =
      String.join ((ls ++ ["\x7d"]).map (· ++ "\n")) := by
  have htext := Page.text_foldl (ls ++ ["\x7d"]) Page.empty
  rw [List.foldl_append, List.foldl_cons, List.foldl_nil] at htext ⊢
  rw [Page.trim_closed, Page.endLine_newline]
  rw [Page.toString, htext, Page.text_empty, List.nil_append, String.ofList_toList]

theorem fileWording_eq (f : SourceFile) (name : ClassName → String) :
    fileWording f name =
      String.join ((f.commentLines ++ f.packageLines ++ f.importLines).map (· ++ "\n")) ++
        String.join (f.type.layout.map fun line => SourceFile.writeLine name line ++ "\n") := by
  have hclosed : f.type.layout.map (SourceFile.writeLine name) =
      (f.type.header :: methodsLayout f.type.name f.type.methods).map (SourceFile.writeLine name) ++
        ["\x7d"] := by
    rw [Class.layout, List.map_append]
    rfl
  rw [fileWording, hclosed, ← List.append_assoc, tidy_foldl, List.append_assoc, ← hclosed, List.map_append,
    String.join_append, List.map_map]
  rfl

theorem mentions_fileWording {f : SourceFile} (h : PlainConstructors f.type.methods) :
    Mentions (fileWording f) f.type.classes := by
  have hlines : Mentions _ (layoutClasses f.type.layout) :=
    mentions_join (fun line => (mentions_writeLine line).append_text "\n") f.type.layout
  have hfile := (mentions_text
    (String.join ((f.commentLines ++ f.packageLines ++ f.importLines).map (· ++ "\n")))).append hlines
  rw [layoutClasses_layout h, List.nil_append] at hfile
  have hwording := funext (fileWording_eq f)
  rwa [hwording]

/-- What is imported are the outermost classes around those that are written without their packages
somewhere in the file, each of them once, and no others. -/
def ImportsNeeded (f : SourceFile) : Prop :=
  ∃ mentioned imported, Mentions (fileWording f) mentioned ∧
    f.importLines =
      (if imported = [] then [] else imported.map (fun c => "import " ++ c.canonical ++ ";") ++ [""]) ∧
    imported.Nodup ∧
    ∀ o, o ∈ imported ↔ ∃ c ∈ mentioned, f.table.className c = c.dotted ∧ c.topLevel = o ∧
      o.package ≠ "" ∧ o.package ≠ f.package ∧ o.package ≠ "java.lang"

theorem mem_imports_table_iff {f : SourceFile} {o : ClassName} :
    o ∈ f.table.imports ↔ ∃ c ∈ f.type.classes, f.table.className c = c.dotted ∧ c.topLevel = o ∧
      o.package ≠ "" ∧ o.package ≠ f.package ∧ o.package ≠ "java.lang" := by
  constructor
  · intro ho
    obtain ⟨howner, hplaces⟩ := (mem_imports_iff _ _ _).mp ho
    obtain ⟨c, hc, rfl⟩ := listed_of_mem_imports _ _ _ ho
    have hnamed : c.package ≠ "" := hplaces.1
    exact ⟨c, hc, (className_eq_dotted_iff _ _ _ hnamed).mpr howner, rfl, hplaces⟩
  · rintro ⟨c, -, hshort, rfl, hplaces⟩
    have hnamed : c.package ≠ "" := hplaces.1
    exact (mem_imports_iff _ _ _).mpr ⟨(className_eq_dotted_iff _ _ _ hnamed).mp hshort, hplaces⟩

theorem importsNeeded {f : SourceFile} (h : PlainConstructors f.type.methods) : ImportsNeeded f := by
  refine ⟨f.type.classes, f.table.imports, mentions_fileWording h, ?_, ?_, fun o => mem_imports_table_iff⟩
  · simp only [SourceFile.importLines, List.isEmpty_iff]
  · exact List.Nodup.of_map outermost (nodup_imports _ _ _)

theorem plainConstructors_companion (options : Options) (c : Companion) :
    PlainConstructors (c.file options).type.methods := by
  have hinject : (c.inject options).isConstructor = false := by rfl
  refine List.forall_mem_singleton.mpr fun hconstructor => ?_
  rw [hinject] at hconstructor
  cases hconstructor

theorem plainConstructors_registry (options : Options) (name : ClassName) (entries : List RegistryEntry) :
    PlainConstructors (Registry.file options name entries).type.methods := by
  have hfind : (Registry.find options entries).isConstructor = false := by rfl
  refine List.forall_mem_cons.mpr ⟨fun _ => rfl, List.forall_mem_singleton.mpr fun hconstructor => ?_⟩
  rw [hfind] at hconstructor
  cases hconstructor

/-- A file is rendered as it is worded with the texts of its table. If its constructors keep their types,
it mentions the classes that were collected for the table, in this order, and no other reading of it is
possible. All companions and tables are such files, so their imports are the ones they need. -/
theorem mentions_collected :
    (∀ f : SourceFile, f.render = fileWording f f.table.className) ∧
    (∀ f : SourceFile, PlainConstructors f.type.methods →
      ∀ mentioned, Mentions (fileWording f) mentioned ↔ mentioned = f.type.classes) ∧
    (∀ options (c : Companion), ImportsNeeded (c.file options)) ∧
    ∀ options name entries, ImportsNeeded (Registry.file options name entries) := by
  refine ⟨render_eq_fileWording, fun f h mentioned => ⟨?_, ?_⟩, ?_, ?_⟩
  · exact fun hmentions => hmentions.unique (mentions_fileWording h)
  · rintro rfl
    exact mentions_fileWording h
  · exact fun options c => importsNeeded (plainConstructors_companion options c)
  · exact fun options name entries => importsNeeded (plainConstructors_registry options name entries)

def grid : SourceFile where
  package := "app"
  comment := none
  type := {
    name := "Grid"
    modifiers := ∅
    interfaces := [.ofClass (.ofTopLevel "app" "Scene"), .generic (.ofTopLevel "java.util" "Map")
      [.ofClass shopRow, .declared (.array (.ofClass shopItem))]]
    methods := [{ name := "", parameters := [⟨∅, .ofClass Options.viewClass, "root"⟩] }] }

theorem mentions_collected_grid :
    PlainConstructors grid.type.methods ∧
    Mentions (fileWording grid) [.ofTopLevel "app" "Scene", .ofTopLevel "java.util" "Map", shopRow, shopItem,
      Options.viewClass] := by
  have hplain : PlainConstructors grid.type.methods := List.forall_mem_singleton.mpr fun _ => rfl
  exact ⟨hplain, (mentions_collected.2.1 grid hplain _).mpr rfl⟩

end ViewBinding.Proofs.Mentions
