import ViewBinding.Options
import ViewBinding.Proofs.Breaks
import ViewBinding.Proofs.Imports

namespace ViewBinding.Proofs.Outline

open Text Java Breaks SourceFile

def spaces (n : Nat) : String := String.ofList (List.replicate n ' ')

def keywords (ms : Modifiers) : String := String.join (ms.toList.map fun m => m.keyword ++ " ")

section Lines

variable (text : ClassName → String)

def annotationLine (a : AnnotationUse) : String :=
  spaces 4 ++ "@" ++ text a.type ++ a.value.elim "" fun value => "(" ++ value ++ ")"

def parameterText (p : Parameter) : String := keywords p.modifiers ++ p.type.write text ++ " " ++ p.name

def methodHead (typeName : String) (m : Method) : String :=
  spaces 4 ++ keywords m.modifiers
    ++ (if m.typeVariables = [] then "" else "<" ++ join ", " m.typeVariables ++ "> ")
    ++ (if m.name = "" then typeName else m.returns.write text ++ " " ++ m.name)
    ++ "(" ++ join ", " (m.parameters.map (parameterText text)) ++ ") \x7b"

/-- Four spaces for each brace around the line, those of the class and the method among them. -/
def codeLine (l : CodeLine) : String :=
  spaces (4 * (2 + l.depth)) ++ String.join (l.snippet.fragments.map (Fragment.write text))

def methodLines (typeName : String) (m : Method) : List String :=
  m.annotations.map (annotationLine text) ++ [methodHead text typeName m]
    ++ m.body.lines.toList.map (codeLine text) ++ [spaces 4 ++ "\x7d"]

def classHead (c : Java.Class) : String :=
  keywords c.modifiers ++ "class " ++ c.name
    ++ (if c.interfaces = [] then "" else " implements " ++ join ", " (c.interfaces.map (TypeExpr.write text)))
    ++ " \x7b"

def classLines (c : Java.Class) : List String :=
  classHead text c :: [""].intercalate (c.methods.map (methodLines text c.name)) ++ ["\x7d"]

end Lines

/-- The lines of a file: comment, package, imports and class, where a blank line follows the package and
another one the imports, if there are any. -/
def outline (f : SourceFile) : List String :=
  f.comment.elim [] (fun comment => (lines comment).map fun l => if l = "" then "//" else "// " ++ l)
    ++ (if f.package = "" then [] else ["package " ++ f.package ++ ";", ""])
    ++ (if f.table.imports = [] then []
      else f.table.imports.map (fun c => "import " ++ c.canonical ++ ";") ++ [""])
    ++ classLines f.table.className f.type

section Layout

variable (text : ClassName → String)

theorem write_text (s : String) : (Fragment.text s).write text = s := rfl

theorem write_type (e : TypeExpr) : (Fragment.type e).write text = e.write text := rfl

theorem write_indentation (level : Nat) : (indentation level).write text = spaces (4 * level) := rfl

theorem map_writeLine_map {α : Type} {layout : α → List Fragment} {line : α → String}
    (h : ∀ a, writeLine text (layout a) = line a) (as : List α) :
    (as.map layout).map (writeLine text) = as.map line := by
  rw [List.map_map]
  exact List.map_congr_left fun a _ => h a

theorem writeLine_modifiers (ms : Modifiers) : writeLine text (modifierFragments ms) = keywords ms := by
  rw [writeLine, modifierFragments, List.map_map]
  rfl

theorem writeLine_separated (s : String) (parts : Layout) :
    writeLine text (separated [.text s] parts) = join s (parts.map (writeLine text)) := by
  fun_induction separated [.text s] parts with
  | case1 => rfl
  | case2 part => exact (join_singleton s _).symm
  | case3 part next parts ih =>
      rw [List.map_cons] at ih
      rw [writeLine_append, writeLine_append, ih, writeLine_cons, writeLine_nil, String.append_empty,
        List.map_cons, List.map_cons, join_cons_cons]
      rfl

theorem writeLine_mark (a : AnnotationUse) :
    writeLine text (a.layout 1) = annotationLine text a := by
  have htype : (TypeExpr.ofClass a.type).write text = text a.type := rfl
  rw [AnnotationUse.layout, annotationLine, writeLine_append]
  cases a.value <;>
    simp [writeLine_cons, writeLine_nil, write_indentation, write_text, write_type, htype,
      String.append_assoc]

theorem writeLine_parameter (p : Parameter) : writeLine text p.layout = parameterText text p := by
  rw [Parameter.layout, writeLine_append, writeLine_modifiers, parameterText]
  simp [writeLine_cons, writeLine_nil, write_text, write_type, String.append_assoc]

theorem writeLine_methodHead (typeName : String) (m : Method) :
    writeLine text (m.header typeName 1) = methodHead text typeName m := by
  have hparameters := map_writeLine_map text (writeLine_parameter text) m.parameters
  have hvariables : writeLine text (if m.typeVariables.isEmpty then []
      else [.text ("<" ++ join ", " m.typeVariables ++ "> ")]) =
        if m.typeVariables = [] then "" else "<" ++ join ", " m.typeVariables ++ "> " := by
    cases m.typeVariables <;> simp [writeLine_cons, writeLine_nil, write_text]
  have hname : writeLine text (if m.isConstructor then [.text typeName]
      else [.type m.returns, .text " ", .text m.name]) =
        if m.name = "" then typeName else m.returns.write text ++ " " ++ m.name := by
    simp only [Method.isConstructor, String.isEmpty_iff]
    split <;> simp [writeLine_cons, writeLine_nil, write_text, write_type, String.append_assoc]
  rw [Method.header, methodHead]
  simp only [writeLine_append, writeLine_cons, writeLine_nil, writeLine_modifiers, writeLine_separated,
    hparameters, hvariables, hname, write_indentation, write_text, String.append_empty]
  simp only [String.append_assoc]

theorem writeLine_code (l : CodeLine) :
    writeLine text (indentation (2 + l.depth) :: l.snippet.fragments) = codeLine text l :=
  writeLine_cons text _ _

theorem writeLine_closing : writeLine text [indentation 1, .text "\x7d"] = spaces 4 ++ "\x7d" := by
  rw [writeLine_cons, writeLine_cons, writeLine_nil, write_indentation, write_text, String.append_empty]

theorem map_writeLine_method (typeName : String) (m : Method) :
    (m.layout typeName 1).map (writeLine text) = methodLines text typeName m := by
  have hannotations := map_writeLine_map text (writeLine_mark text) m.annotations
  have hcode : (m.body.layout (1 + 1)).map (writeLine text) = m.body.lines.toList.map (codeLine text) :=
    map_writeLine_map text (writeLine_code text) m.body.lines.toList
  simp only [Method.layout, List.map_append, List.map_cons, List.map_nil, hannotations, hcode,
    writeLine_methodHead, writeLine_closing, methodLines]

theorem map_writeLine_methods (typeName : String) (ms : List Method) :
    (methodsLayout typeName ms).map (writeLine text) =
      [""].intercalate (ms.map (methodLines text typeName)) := by
  fun_induction methodsLayout typeName ms with
  | case1 => rfl
  | case2 m => rw [map_writeLine_method, List.map_singleton, List.intercalate_singleton]
  | case3 m n ms ih =>
      rw [List.map_cons] at ih
      rw [List.map_append, List.map_append, map_writeLine_method, ih]
      simp only [List.map_cons, List.intercalate_cons_cons]
      rfl

theorem writeLine_classHead (c : Java.Class) : writeLine text c.header = classHead text c := by
  have hinterface (e : TypeExpr) : writeLine text [.type e] = e.write text := by
    rw [writeLine_cons, writeLine_nil, String.append_empty, write_type]
  have hinterfaces := map_writeLine_map text hinterface c.interfaces
  have himplements : writeLine text (if c.interfaces.isEmpty then []
      else .text " implements " :: separated [.text ", "] (c.interfaces.map fun i => [.type i])) =
        if c.interfaces = [] then ""
        else " implements " ++ join ", " (c.interfaces.map (TypeExpr.write text)) := by
    simp only [List.isEmpty_iff]
    split
    · rfl
    · rw [writeLine_cons, writeLine_separated, hinterfaces]
      rfl
  simp only [Class.header, classHead, writeLine_append, writeLine_cons, writeLine_nil,
    writeLine_modifiers, himplements, write_text, String.append_empty, String.append_assoc]

theorem map_writeLine_class (c : Java.Class) :
    c.layout.map (writeLine text) = classLines text c := by
  rw [Class.layout, List.map_append, List.map_cons, writeLine_classHead, map_writeLine_methods]
  rfl

end Layout

theorem sourceLines_eq (f : SourceFile) : f.sourceLines = outline f := by
  have hcomment : f.commentLines = f.comment.elim [] fun comment =>
      (lines comment).map fun l => if l = "" then "//" else "// " ++ l := by
    rw [commentLines]
    cases f.comment with
    | none => rfl
    | some comment => simp [commentLine, String.isEmpty_iff]
  simp only [sourceLines, outline, hcomment, packageLines, importLines, typeLines, map_writeLine_class,
    String.isEmpty_iff, List.isEmpty_iff]

theorem unbroken_spaces (n : Nat) : Unbroken (spaces n) := by
  rw [Unbroken, spaces, String.toList_ofList, List.mem_replicate, not_and]
  exact fun _ => by decide

theorem unbroken_keywords (ms : Modifiers) : Unbroken (keywords ms) := by
  refine unbroken_concat (allUnbroken_map.mpr fun m _ => ?_)
  cases m <;> decide

theorem allUnbroken_intercalate {parts : List (List String)} (h : ∀ p ∈ parts, AllUnbroken p) :
    AllUnbroken ([""].intercalate parts) := by
  induction parts with
  | nil => exact allUnbroken_nil
  | cons p parts ih =>
      obtain ⟨hp, hparts⟩ := List.forall_mem_cons.mp h
      cases parts with
      | nil => rwa [List.intercalate_singleton]
      | cons q parts =>
          rw [List.intercalate_cons_cons, allUnbroken_append, allUnbroken_append]
          exact ⟨⟨hp, allUnbroken_cons.mpr ⟨by decide, allUnbroken_nil⟩⟩, ih hparts⟩

section Unbroken

variable (t : ImportTable)

theorem unbroken_annotationLine {a : AnnotationUse} (h : AllUnbroken (annotationTexts a)) :
    Unbroken (annotationLine t.className a) := by
  obtain ⟨htype, hvalue⟩ := allUnbroken_append.mp h
  rw [annotationLine, unbroken_append, unbroken_append, unbroken_append]
  refine ⟨⟨⟨unbroken_spaces 4, by decide⟩, unbroken_className t htype⟩, ?_⟩
  cases hvalued : a.value with
  | none => decide
  | some value =>
      rw [hvalued] at hvalue
      exact unbroken_append.mpr
        ⟨unbroken_append.mpr ⟨by decide, hvalue value List.mem_cons_self⟩, by decide⟩

theorem unbroken_parameterText {p : Parameter} (h : AllUnbroken (parameterTexts p)) :
    Unbroken (parameterText t.className p) := by
  obtain ⟨htype, hname⟩ := allUnbroken_append.mp h
  simp only [parameterText, unbroken_append]
  exact ⟨⟨⟨unbroken_keywords _, unbroken_write t p.type htype⟩, by decide⟩, hname _ List.mem_cons_self⟩

theorem unbroken_codeLine {l : CodeLine} (h : ∀ x ∈ l.snippet.fragments, AllUnbroken (fragmentTexts x)) :
    Unbroken (codeLine t.className l) := by
  have hfragments := allUnbroken_map.mpr fun x hx => unbroken_fragment t (h x hx)
  exact unbroken_append.mpr ⟨unbroken_spaces _, unbroken_concat hfragments⟩

theorem unbroken_methodHead {typeName : String} (htype : Unbroken typeName) {m : Method}
    (hvariables : AllUnbroken m.typeVariables) (hreturns : AllUnbroken (typeTexts m.returns))
    (hname : Unbroken m.name) (hparameters : ∀ p ∈ m.parameters, AllUnbroken (parameterTexts p)) :
    Unbroken (methodHead t.className typeName m) := by
  have hjoin : Unbroken (join ", " (m.parameters.map (parameterText t.className))) :=
    unbroken_join (by decide)
      (allUnbroken_map.mpr fun p hp => unbroken_parameterText t (hparameters p hp))
  simp only [methodHead, unbroken_append]
  refine ⟨⟨⟨⟨⟨⟨unbroken_spaces 4, unbroken_keywords _⟩, ?_⟩, ?_⟩, by decide⟩, hjoin⟩, by decide⟩
  · split
    · decide
    · simp only [unbroken_append]
      exact ⟨⟨by decide, unbroken_join (by decide) hvariables⟩, by decide⟩
  · split
    · exact htype
    · simp only [unbroken_append]
      exact ⟨⟨unbroken_write t m.returns hreturns, by decide⟩, hname⟩

theorem unbroken_methodLines {typeName : String} (htype : Unbroken typeName) {m : Method}
    (h : AllUnbroken (methodTexts m)) : AllUnbroken (methodLines t.className typeName m) := by
  simp only [methodTexts, codeTexts, allUnbroken_append, allUnbroken_flatMap] at h
  obtain ⟨⟨⟨⟨⟨hannotations, hvariables⟩, hreturns⟩, hname⟩, hparameters⟩, hcode⟩ := h
  have hclosing : Unbroken (spaces 4 ++ "\x7d") := by decide
  simp only [methodLines, allUnbroken_append, allUnbroken_cons]
  refine ⟨⟨⟨?_, ?_, allUnbroken_nil⟩, ?_⟩, hclosing, allUnbroken_nil⟩
  · exact allUnbroken_map.mpr fun a ha => unbroken_annotationLine t (hannotations a ha)
  · exact unbroken_methodHead t htype hvariables hreturns (hname _ List.mem_cons_self) hparameters
  · exact allUnbroken_map.mpr fun l hl => unbroken_codeLine t (hcode l hl)

theorem unbroken_classLines {c : Java.Class} (hname : Unbroken c.name)
    (hinterfaces : ∀ e ∈ c.interfaces, AllUnbroken (typeTexts e))
    (hmethods : ∀ m ∈ c.methods, AllUnbroken (methodTexts m)) :
    AllUnbroken (classLines t.className c) := by
  have hjoin : Unbroken (join ", " (c.interfaces.map (TypeExpr.write t.className))) :=
    unbroken_join (by decide) (allUnbroken_map.mpr fun e he => unbroken_write t e (hinterfaces e he))
  simp only [classLines, List.cons_append, allUnbroken_cons, allUnbroken_append]
  refine ⟨?_, allUnbroken_intercalate ?_, by decide, allUnbroken_nil⟩
  · simp only [classHead, unbroken_append]
    refine ⟨⟨⟨⟨unbroken_keywords _, by decide⟩, hname⟩, ?_⟩, by decide⟩
    split
    · decide
    · exact unbroken_append.mpr ⟨by decide, hjoin⟩
  · rw [List.forall_mem_map]
    exact fun m hm => unbroken_methodLines t hname (hmethods m hm)

end Unbroken

theorem unbroken_outline {f : SourceFile} (h : AllUnbroken (fileTexts f)) : AllUnbroken (outline f) := by
  have hclasses := classTexts_of_file h
  simp only [fileTexts, List.cons_append, allUnbroken_cons, allUnbroken_append, allUnbroken_flatMap] at h
  obtain ⟨hpackage, hname, hinterfaces, hmethods⟩ := h
  simp only [outline, allUnbroken_append]
  refine ⟨⟨⟨?_, ?_⟩, ?_⟩, unbroken_classLines _ hname hinterfaces hmethods⟩
  · cases f.comment with
    | none => exact allUnbroken_nil
    | some comment =>
        refine allUnbroken_map.mpr fun l hl => ?_
        split
        · decide
        · exact unbroken_append.mpr ⟨by decide, unbroken_lines comment l hl⟩
  · split
    · exact allUnbroken_nil
    · simp only [allUnbroken_cons, unbroken_append]
      exact ⟨⟨⟨by decide, hpackage⟩, by decide⟩, by decide, allUnbroken_nil⟩
  · split
    · exact allUnbroken_nil
    · have hblank : AllUnbroken [""] := by decide
      refine allUnbroken_append.mpr ⟨allUnbroken_map.mpr fun o ho => ?_, hblank⟩
      obtain ⟨c, hc, rfl⟩ := Imports.listed_of_mem_imports _ _ _ ho
      have hc := hclasses c hc
      simp only [classTexts, ClassName.names, allUnbroken_cons] at hc
      have htop : AllUnbroken (classTexts c.topLevel) :=
        allUnbroken_cons.mpr ⟨hc.1, allUnbroken_cons.mpr ⟨hc.2.1, allUnbroken_nil⟩⟩
      simp only [unbroken_append]
      exact ⟨⟨by decide, unbroken_canonical htop⟩, by decide⟩

theorem split_ended {ls : List String} (h : AllUnbroken ls) :
    split '\n' (String.join (ls.map (· ++ "\n"))) = ls ++ [""] := by
  have htext : (String.join (ls.map (· ++ "\n"))).toList =
      (ls.map String.toList).flatMap (· ++ ['\n']) := by
    rw [String.toList_join, List.flatMap_map, List.flatMap_map]
    simp only [String.toList_append]
    rfl
  rw [split, htext, cut_ended (List.forall_mem_map.mpr h), List.map_append, List.map_map]
  simp [Function.comp_def]

def untidied (f : SourceFile) : Page :=
  f.sourceLines.foldl (fun p line => (p.write line).newline) Page.empty

theorem toString_untidied (f : SourceFile) :
    (untidied f).toString = String.join ((outline f).map (· ++ "\n")) := by
  rw [Page.toString, untidied, Page.text_foldl, Page.text_empty, List.nil_append, String.ofList_toList,
    sourceLines_eq]

theorem outline_closed (f : SourceFile) : ∃ ls, outline f = ls ++ ["\x7d"] :=
  ⟨_, (List.append_assoc _ _ _).symm⟩

theorem untidied_closed (f : SourceFile) : ∃ p : Page, untidied f = (p.write "\x7d").newline := by
  obtain ⟨ls, hls⟩ := outline_closed f
  refine ⟨ls.foldl (fun p line => (p.write line).newline) Page.empty, ?_⟩
  rw [untidied, sourceLines_eq, hls, List.foldl_append, List.foldl_cons, List.foldl_nil]

theorem trim_untidied (f : SourceFile) : (untidied f).trim = untidied f := by
  obtain ⟨p, hp⟩ := untidied_closed f
  rw [hp, Page.trim_closed]

theorem endLine_untidied (f : SourceFile) : (untidied f).endLine = untidied f := by
  obtain ⟨p, hp⟩ := untidied_closed f
  rw [hp, Page.endLine_newline]

theorem render_untidied (f : SourceFile) : f.render = (untidied f).toString := by
  have hrender : f.render = (untidied f).trim.endLine.toString := rfl
  rw [hrender, trim_untidied, endLine_untidied]

/-- If no text of a file has a line break in it, the text of the file cut at its line breaks is the
outline of the file, with nothing after the last line. Every file ends with its closing brace and one
line break, so there is nothing to tidy. -/
theorem split_render (f : SourceFile) :
    (AllUnbroken (fileTexts f) → split '\n' f.render = outline f ++ [""]) ∧
    (∃ before, f.render = before ++ "\x7d\n") ∧
    f.render = (untidied f).toString ∧
    (untidied f).trim = untidied f ∧ (untidied f).endLine = untidied f := by
  refine ⟨fun h => ?_, ?_, render_untidied f, trim_untidied f, endLine_untidied f⟩
  · rw [render_untidied, toString_untidied, split_ended (unbroken_outline h)]
  · obtain ⟨ls, hls⟩ := outline_closed f
    refine ⟨String.join (ls.map (· ++ "\n")), ?_⟩
    rw [render_untidied, toString_untidied, hls, List.map_append, String.join_append]
    rfl

def taps : SourceFile where
  package := "app"
  comment := some "Generated.\n\nDo not edit."
  type := {
    name := "Taps"
    modifiers := .ofList [.publicAccess, .final]
    interfaces := []
    methods := [
      { name := "", modifiers := .ofList [.privateAccess] },
      { name := "wire"
        annotations := [.override]
        parameters := [⟨∅, .ofClass Options.viewClass, "view"⟩]
        body := CodeBlock.empty
          |>.opening ((Snippet.ofText "view.on(new ").cls (Options.viewClass.nested "Tap") |>.text "()")
          |>.opening "if (ready)" |>.statement "tap()" |>.closing "" |>.closing ");" }] }

theorem split_render_taps :
    AllUnbroken (fileTexts taps) ∧
    split '\n' taps.render =
      ["// Generated.", "//", "// Do not edit.",
        "package app;", "",
        "import android.view.View;", "",
        "public final class Taps \x7b",
        "    private Taps() \x7b", "    \x7d", "",
        "    @Override",
        "    void wire(View view) \x7b",
        "        view.on(new View.Tap() \x7b",
        "            if (ready) \x7b",
        "                tap();",
        "            \x7d",
        "        \x7d);",
        "    \x7d",
        "\x7d", ""] := by
  have hunbroken : AllUnbroken (fileTexts taps) := by decide +kernel
  have houtline := (split_render taps).1 hunbroken
  exact ⟨hunbroken, houtline.trans (by decide +kernel)⟩

end ViewBinding.Proofs.Outline
