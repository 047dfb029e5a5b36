import ViewBinding.Proofs.Ownership
import ViewBinding.Proofs.Reach

namespace ViewBinding.Proofs.Capture

open Text Java ClassName Ownership Reach

/-- The first name of a dotted text, which decides what the text is looked up as. -/
def first (text : String) : String := (split '.' text).headD ""

theorem first_append (s t : String) : first (s ++ "." ++ t) = first s := by
  have hlist : (s ++ "." ++ t).toList = s.toList ++ '.' :: t.toList := by simp
  rw [first, first, split, split, hlist, cut_append_sep, List.map_append]
  cases hs : cut '.' s.toList with
  | nil => exact absurd hs (cut_ne_nil '.' s.toList)
  | cons w ws => rfl

theorem first_dotted (c : ClassName) : first c.dotted = first c.outermost := by
  rw [dotted, names]
  cases c.inner with
  | nil => rw [join_singleton]
  | cons n ns => rw [join_cons_cons, first_append]

theorem first_canonical (c : ClassName) :
    first c.canonical = if c.package = "" then first c.outermost else first c.package := by
  rw [canonical, qualify]
  by_cases h : c.package = ""
  · rw [if_pos (String.isEmpty_iff.mpr h), if_pos h, first_dotted]
  · rw [if_neg (fun he => h (String.isEmpty_iff.mp he)), if_neg h, first_append]

theorem first_className (t : ImportTable) (c : ClassName) :
    first (t.className c) =
      if t.owner? c.outermost = some c.topLevel ∨ c.package = "" then first c.outermost
      else first c.package := by
  rcases className_cases t c with ⟨howner, htext⟩ | ⟨howner, htext⟩ <;> rw [htext, first_canonical]
  · rw [if_pos rfl, if_pos (.inl howner)]
  · simp only [howner, false_or]

section Texts

variable (package ownType : String) (classes : List ClassName)

theorem exists_owner {c : ClassName} (hc : c ∈ classes) (hown : ownType ≠ c.outermost) :
    ∃ d ∈ classes, d.outermost = c.outermost ∧
      winner package ownType classes d.outermost = some d.topLevel := by
  have hfound : (classes.find? fun d => d.outermost = c.outermost).isSome = true :=
    List.find?_isSome.mpr ⟨c, hc, decide_eq_true rfl⟩
  obtain ⟨d, hd⟩ := Option.isSome_iff_exists.mp hfound
  have hname : d.outermost = c.outermost := by simpa using List.find?_some hd
  refine ⟨d, List.mem_of_find?_eq_some hd, hname, ?_⟩
  rw [hname, winner, if_neg hown, hd, Option.map_some]

theorem winner_own {c : ClassName} (hown : ownType = c.outermost) (hp : c.package = package) :
    winner package ownType classes c.outermost = some c.topLevel := by
  rw [winner, if_pos hown, hown, ← hp]
  rfl

theorem texts_avoid_iff {v : String} (hv : v ≠ "") :
    (∀ c ∈ classes, first ((ImportTable.collect package ownType classes).className c) ≠ v) ↔
    ∀ c ∈ classes,
      (first c.outermost = v → ownType = c.outermost ∧ c.package ≠ "" ∧ c.package ≠ package) ∧
      (first c.package = v → winner package ownType classes c.outermost = some c.topLevel) := by
  simp only [first_className, owner?_collect]
  constructor
  · intro hall c hc
    constructor
    · intro hname
      have hfull : ¬ (winner package ownType classes c.outermost = some c.topLevel ∨ c.package = "") :=
        fun hshort => hall c hc (by rw [if_pos hshort, hname])
      rw [not_or] at hfull
      have hown : ownType = c.outermost := by
        -- otherwise the owner of the name is listed too, and its text starts with the name
        refine Decidable.byContradiction fun hother => ?_
        obtain ⟨d, hd, hd_name, howns⟩ := exists_owner package ownType classes hc hother
        exact hall d hd (by rw [if_pos (.inl howns), hd_name, hname])
      exact ⟨hown, hfull.2, fun hp => hfull.1 (winner_own package ownType classes hown hp)⟩
    · intro hpackage
      refine Decidable.byContradiction fun hother => ?_
      have hnamed : c.package ≠ "" := by
        intro hdefault
        rw [hdefault] at hpackage
        exact hv hpackage.symm
      exact hall c hc (by rw [if_neg (not_or.mpr ⟨hother, hnamed⟩), hpackage])
  · intro hall c hc
    obtain ⟨hname, hpackage⟩ := hall c hc
    split
    · next hshort =>
        intro htext
        obtain ⟨hown, hnamed, hother⟩ := hname htext
        rcases hshort with howner | hdefault
        · rw [winner, if_pos hown] at howner
          exact hother (congrArg ClassName.package (Option.some.inj howner)).symm
        · exact hnamed hdefault
    · next hfull => exact fun htext => hfull (.inl (hpackage htext))

end Texts

section Lines

variable (options : Options) (name : ClassName) (entries : List RegistryEntry)
  (text : ClassName → String)

def margin (level : Nat) : String := String.ofList (List.replicate (4 * level) ' ')

def bodyLines (code : CodeBlock) : List String := (code.layout 2).map (SourceFile.writeLine text)

theorem bodyLines_line (code : CodeBlock) (x : Snippet) :
    bodyLines text (code.line x) = bodyLines text code ++ [margin (2 + code.depth) ++ x.write text] := by
  simp [bodyLines, CodeBlock.layout, CodeBlock.line, SourceFile.writeLine, String.join_cons, indentation,
    Fragment.write, margin, Snippet.write]

theorem bodyLines_statement (code : CodeBlock) (x : Snippet) :
    bodyLines text (code.statement x) =
      bodyLines text code ++ [margin (2 + code.depth) ++ (x.write text ++ ";")] := by
  rw [CodeBlock.statement, bodyLines_line, Snippet.write_text]

theorem bodyLines_opening (code : CodeBlock) (x : Snippet) :
    bodyLines text (code.opening x) =
      bodyLines text code ++ [margin (2 + code.depth) ++ (x.write text ++ " \x7b")] := by
  have hline := bodyLines_line text code (x.text " \x7b")
  rwa [Snippet.write_text] at hline

theorem bodyLines_closing (code : CodeBlock) (suffix : String) :
    bodyLines text (code.closing suffix) =
      bodyLines text code ++ [margin (2 + (code.depth - 1)) ++ ("\x7d" ++ suffix)] := by
  have hline := bodyLines_line text ⟨code.lines, code.depth - 1⟩ ((Snippet.ofText "\x7d").text suffix)
  rwa [Snippet.write_text, Snippet.write_ofText] at hline

def entryLines (e : RegistryEntry) : List String :=
  [margin 2 ++ ("if (hostType == " ++ text e.host ++ ".class)" ++ " \x7b"),
    margin 3 ++ ("return (" ++ text options.companionInterface ++ "<T>" ++ ") new " ++ text e.companion ++
      "()" ++ ";"),
    margin 2 ++ "\x7d"]

def findLines : List String :=
  [margin 1 ++ "@" ++ text (.ofTopLevel "java.lang" "SuppressWarnings") ++ "(\"unchecked\")",
    margin 1 ++ "public static <T> " ++ text options.companionInterface ++ "<T> find(" ++
      text (.ofTopLevel "java.lang" "Class") ++ "<T> hostType) \x7b"] ++
    (entries.flatMap (entryLines options text) ++ [margin 2 ++ "return null;"]) ++ [margin 1 ++ "\x7d"]

theorem depth_addEntry (code : CodeBlock) (e : RegistryEntry) :
    (Registry.addEntry options code e).depth = code.depth := by
  simp [Registry.addEntry]

theorem write_applied (c : ClassName) :
    (TypeExpr.generic c [Registry.typeVariable]).write text = text c ++ "<T>" := by
  have hargument : "<" ++ "T" ++ ">" = "<T>" := by rfl
  rw [← hargument, ← String.append_assoc, ← String.append_assoc]
  simp [Registry.typeVariable, TypeExpr.write, TypeExpr.writeAll, join_singleton]

theorem bodyLines_addEntry {code : CodeBlock} (h : code.depth = 0) (e : RegistryEntry) :
    bodyLines text (Registry.addEntry options code e) = bodyLines text code ++ entryLines options text e := by
  simp only [Registry.addEntry, bodyLines_opening, bodyLines_statement, bodyLines_closing,
    CodeBlock.depth_statement, CodeBlock.depth_opening, h, Snippet.write_text, Snippet.write_cls,
    Snippet.write_type, Snippet.write_ofText, Registry.companionType, write_applied, List.append_assoc]
  rfl

theorem bodyLines_foldl {code : CodeBlock} (h : code.depth = 0) :
    (entries.foldl (Registry.addEntry options) code).depth = 0 ∧
      bodyLines text (entries.foldl (Registry.addEntry options) code) =
        bodyLines text code ++ entries.flatMap (entryLines options text) := by
  induction entries generalizing code with
  | nil => exact ⟨h, by simp⟩
  | cons e entries ih =>
      obtain ⟨hdepth, hlines⟩ := ih ((depth_addEntry options code e).trans h)
      rw [bodyLines_addEntry options text h, List.append_assoc, ← List.flatMap_cons] at hlines
      exact ⟨hdepth, hlines⟩

theorem bodyLines_find :
    bodyLines text (Registry.find options entries).body =
      entries.flatMap (entryLines options text) ++ [margin 2 ++ "return null;"] := by
  obtain ⟨hdepth, hlines⟩ := bodyLines_foldl options entries text CodeBlock.depth_empty
  change bodyLines text (CodeBlock.statement _ _) = _
  rw [bodyLines_statement, hdepth, hlines, Snippet.write_ofText]
  rfl

theorem header_find (typeName : String) :
    (Registry.find options entries).header typeName 1 =
      [indentation 1, .text "public ", .text "static ", .text "<T> ",
        .type (Registry.companionType options), .text " ", .text "find", .text "(",
        .type Registry.hostType, .text " ", .text "hostType", .text ") \x7b"] := by
  have hmodifiers : modifierFragments (Modifiers.ofList [.publicAccess, .static]) =
      [.text "public ", .text "static "] := by rfl
  have hvariables : "<" ++ join ", " ["T"] ++ "> " = "<T> " := by rfl
  have hparameters : separated [.text ", "] [Parameter.layout ⟨∅, Registry.hostType, "hostType"⟩] =
      [.type Registry.hostType, .text " ", .text "hostType"] := by rfl
  have hnamed : (Registry.find options entries).isConstructor = false := by rfl
  rw [Method.header, hnamed]
  simp only [Registry.find, hmodifiers, hvariables, List.map_cons, List.map_nil, hparameters]
  rfl

theorem writeLine_header (typeName : String) :
    SourceFile.writeLine text ((Registry.find options entries).header typeName 1) =
      margin 1 ++ "public static <T> " ++ text options.companionInterface ++ "<T> find(" ++
        text (.ofTopLevel "java.lang" "Class") ++ "<T> hostType) \x7b" := by
  have hpublic : "public static <T> " = "public " ++ ("static " ++ "<T> ") := by rfl
  have hfind : "<T> find(" = "<T>" ++ (" " ++ ("find" ++ "(")) := by rfl
  have hgiven : "<T> hostType) \x7b" = "<T>" ++ (" " ++ ("hostType" ++ ") \x7b")) := by rfl
  rw [header_find, hpublic, hfind, hgiven]
  simp only [SourceFile.writeLine_cons, SourceFile.writeLine_nil, Fragment.write, indentation, margin,
    Registry.companionType, Registry.hostType, write_applied, String.append_assoc, String.append_empty]

theorem writeLine_mark :
    SourceFile.writeLine text ((AnnotationUse.suppressWarnings "unchecked").layout 1) =
      margin 1 ++ "@" ++ text (.ofTopLevel "java.lang" "SuppressWarnings") ++ "(\"unchecked\")" := by
  have hmark : (AnnotationUse.suppressWarnings "unchecked").layout 1 =
      [indentation 1, .text "@", .type (.ofClass (.ofTopLevel "java.lang" "SuppressWarnings")),
        .text "(", .text "\"unchecked\"", .text ")"] := by rfl
  have hvalue : "(\"unchecked\")" = "(" ++ ("\"unchecked\"" ++ ")") := by rfl
  rw [hmark, hvalue]
  simp only [SourceFile.writeLine_cons, SourceFile.writeLine_nil, Fragment.write, indentation, margin,
    TypeExpr.ofClass, TypeExpr.write, TypeExpr.writeDeclared, String.append_assoc, String.append_empty]

theorem writeLine_layout_find (typeName : String) :
    ((Registry.find options entries).layout typeName 1).map (SourceFile.writeLine text) =
      findLines options entries text := by
  have hbody : ((Registry.find options entries).body.layout (1 + 1)).map (SourceFile.writeLine text) = _ :=
    bodyLines_find options entries text
  have hmarks : (Registry.find options entries).annotations = [.suppressWarnings "unchecked"] := rfl
  simp only [Method.layout, List.map_append, hbody, hmarks, List.map_cons, List.map_nil, writeLine_mark,
    writeLine_header]
  rfl

theorem findLines_isInfix_typeLines :
    findLines options entries (Registry.file options name entries).table.className <:+:
      (Registry.file options name entries).typeLines := by
  have hlayout : (Registry.file options name entries).type.layout =
      ((Registry.file options name entries).type.header ::
          Registry.hiddenConstructor.layout name.simple 1 ++ [[]]) ++
        (Registry.find options entries).layout name.simple 1 ++ [[.text "\x7d"]] := by rfl
  rw [SourceFile.typeLines, hlayout, ← writeLine_layout_find options entries _ name.simple, List.map_append,
    List.map_append]
  exact List.infix_append _ _ _

end Lines

variable (options : Options) (name : ClassName) (entries : List RegistryEntry)

theorem classes_file :
    (Registry.file options name entries).type.classes = (Registry.find options entries).classes :=
  List.append_nil _

theorem classes_addEntry (code : CodeBlock) (e : RegistryEntry) :
    (Registry.addEntry options code e).classes =
      code.classes ++ [e.host, options.companionInterface, e.companion] := by
  simp [Registry.addEntry, Registry.companionType, Registry.typeVariable, TypeExpr.classes,
    TypeExpr.classesOfAll]

theorem classes_find :
    (Registry.find options entries).classes =
      [.ofTopLevel "java.lang" "SuppressWarnings", options.companionInterface,
          .ofTopLevel "java.lang" "Class"] ++
        entries.flatMap fun e => [e.host, options.companionInterface, e.companion] := by
  have hentries : ∀ (entries : List RegistryEntry) (code : CodeBlock),
      (entries.foldl (Registry.addEntry options) code).classes =
        code.classes ++ entries.flatMap fun e => [e.host, options.companionInterface, e.companion] := by
    intro entries
    induction entries with
    | nil => exact fun code => (List.append_nil _).symm
    | cons e entries ih =>
        intro code
        rw [List.foldl_cons, ih, classes_addEntry, List.append_assoc, List.flatMap_cons]
  have hbody : (Registry.find options entries).body.classes =
      entries.flatMap fun e => [e.host, options.companionInterface, e.companion] := by
    change (CodeBlock.statement _ _).classes = _
    rw [CodeBlock.classes_statement, hentries, Snippet.classes_ofText, List.append_nil]
    rfl
  rw [Method.classes, hbody]
  rfl

/-- The name of the variable hides a class from the method. -/
def Captured (method : Method) (text : ClassName → String) (c : ClassName) : Prop :=
  first (text c) ∈ method.typeVariables

theorem captured_find {text : ClassName → String} {c : ClassName} :
    Captured (Registry.find options entries) text c ↔ first (text c) = "T" := List.mem_singleton

/-- The search stands in the file with the texts of the file's table. None of the classes it mentions is
hidden by its variable exactly if the table itself is called like the variable wherever a class is, and
that class has a named package other than the table's. -/
theorem find_uncaptured_iff :
    findLines options entries (Registry.file options name entries).table.className <:+:
      (Registry.file options name entries).typeLines ∧
    ((∀ c ∈ (Registry.find options entries).classes, ¬ Captured (Registry.find options entries)
        (Registry.file options name entries).table.className c) ↔
      ∀ c ∈ (Registry.find options entries).classes,
        (first c.outermost = "T" →
          name.simple = c.outermost ∧ c.package ≠ "" ∧ c.package ≠ name.package) ∧
        (first c.package = "T" →
          winner name.package name.simple (Registry.find options entries).classes c.outermost =
            some c.topLevel)) := by
  refine ⟨findLines_isInfix_typeLines options name entries, ?_⟩
  simp only [captured_find, SourceFile.table, classes_file]
  exact texts_avoid_iff name.package name.simple _ (by decide)

def letterHost : ClassName := .ofTopLevel "app" "T"

def letterEntry : RegistryEntry := ⟨letterHost, Options.standard.companionName letterHost⟩

/-- A host called like the variable is compared under the name of the variable. -/
theorem find_captures_letterHost :
    Manifest.parse (hostManifest "app.T").text = .ok [⟨[publicHost letterHost]⟩] ∧
    letterHost ∈ (Registry.find .standard [letterEntry]).classes ∧
    Captured (Registry.find .standard [letterEntry])
      (Registry.file .standard screenTable [letterEntry]).table.className letterHost ∧
    "        if (hostType == T.class) \x7b" ∈
      (Registry.file .standard screenTable [letterEntry]).typeLines := by
  have htext : (Registry.file .standard screenTable [letterEntry]).table.className letterEntry.host =
      "T" := by decide +kernel
  have hline : "        if (hostType == T.class) \x7b" ∈ entryLines .standard
      (Registry.file .standard screenTable [letterEntry]).table.className letterEntry := by
    have htest : margin 2 ++ ("if (hostType == " ++ "T" ++ ".class)" ++ " \x7b") =
        "        if (hostType == T.class) \x7b" := by rfl
    rw [entryLines, htext, htest]
    exact List.mem_cons_self
  refine ⟨parse_hostManifest (by rfl), ?_, ?_, ?_⟩
  · rw [classes_find]
    decide
  · exact (captured_find .standard [letterEntry]).mpr ((congrArg first htext).trans (by rfl))
  · refine (findLines_isInfix_typeLines .standard screenTable [letterEntry]).subset ?_
    have hentries := List.mem_flatMap.mpr ⟨letterEntry, List.mem_singleton.mpr rfl, hline⟩
    exact List.mem_append_left _ (List.mem_append_right _ (List.mem_append_left _ hentries))

end ViewBinding.Proofs.Capture
