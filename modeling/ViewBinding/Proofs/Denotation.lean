import ViewBinding.Proofs.Ownership

namespace ViewBinding.Proofs.Denotation

open Text Java ClassName Reading Ownership

/-- What names stand for in a file. `neighbours` are the known classes of its package, and `core` the
names of the classes of `java.lang`. -/
structure Scope where
  ownType : ClassName
  imports : List ClassName
  neighbours : List ClassName
  core : List String

namespace Scope

def topLevel? (s : Scope) (simple : String) : Option ClassName :=
  ((s.ownType :: s.imports).find? fun c => c.outermost = simple).or
    (((s.neighbours.find? fun c => c.outermost = simple).map topLevel).or
      (if simple ∈ s.core then some (.ofTopLevel "java.lang" simple) else none))

/-- The class that a text stands for. If its first name stands for nothing, it is a full name. -/
def denoted? (s : Scope) (text : String) : Option ClassName :=
  match split '.' text with
  | [] => none
  | first :: rest =>
      match s.topLevel? first with
      | some c => some { c with inner := rest }
      | none => (guess text).toOption

theorem denoted?_unpackaged {s : Scope} {c d : ClassName} (h : Conventional c)
    (hs : s.topLevel? c.outermost = some d) :
    s.denoted? { c with package := "" }.canonical = some { d with inner := c.inner } := by
  have hsplit : split '.' { c with package := "" }.canonical = c.outermost :: c.inner :=
    h.unpackaged.split_canonical
  rw [denoted?, hsplit]
  simp only [hs]

theorem denoted?_canonical {s : Scope} {c : ClassName} (h : Conventional c) (hp : c.package ≠ "")
    (hs : ∀ first, startsUpper first = false → s.topLevel? first = none) :
    s.denoted? c.canonical = some c := by
  cases hsegments : segments c.package with
  | nil =>
      have hjoin := join_segments c.package
      rw [hsegments, join_nil] at hjoin
      exact absurd hjoin.symm hp
  | cons first rest =>
      have hsplit := h.split_canonical
      have hfirst := h.lower first (by rw [hsegments]; exact List.mem_cons_self)
      rw [hsegments, List.cons_append] at hsplit
      rw [denoted?, hsplit]
      simp only [hs first hfirst, h.guess_canonical]
      rfl

end Scope

variable (package ownType : String) (classes : List ClassName) (core : List String)

def scopeOf : Scope where
  ownType := .ofTopLevel package ownType
  imports := (ImportTable.collect package ownType classes).imports
  neighbours := classes.filter fun c => c.package = package
  core := core

def nearby (o : ClassName) : Bool :=
  o = .ofTopLevel package ownType || (ImportTable.collect package ownType classes).needsImport o

theorem mem_ownType_imports {o : ClassName} :
    o ∈ (scopeOf package ownType classes core).ownType :: (scopeOf package ownType classes core).imports ↔
      winner package ownType classes o.outermost = some o ∧
        nearby package ownType classes o = true := by
  rw [List.mem_cons, scopeOf, mem_imports, nearby, Bool.or_eq_true, decide_eq_true_eq]
  constructor
  · rintro (rfl | ⟨hw, hi⟩)
    · exact ⟨if_pos rfl, .inl rfl⟩
    · exact ⟨hw, .inr hi⟩
  · rintro ⟨hw, rfl | hi⟩
    · exact .inl rfl
    · exact .inr ⟨hw, hi⟩

theorem find?_ownType_imports (simple : String) :
    (((scopeOf package ownType classes core).ownType ::
        (scopeOf package ownType classes core).imports).find? fun c => c.outermost = simple) =
      (winner package ownType classes simple).filter (nearby package ownType classes) := by
  cases hf : ((scopeOf package ownType classes core).ownType ::
      (scopeOf package ownType classes core).imports).find? fun c => c.outermost = simple with
  | some o =>
      have hname : o.outermost = simple := by simpa using List.find?_some hf
      obtain ⟨hw, hnear⟩ :=
        (mem_ownType_imports package ownType classes core).mp (List.mem_of_find?_eq_some hf)
      rw [← hname, hw, Option.filter_some, if_pos hnear]
  | none =>
      cases hw : winner package ownType classes simple with
      | none => rfl
      | some o =>
          have hname := outermost_of_winner package ownType classes hw
          rw [Option.filter_some, if_neg]
          intro hnear
          rw [← hname] at hw
          have hmem := (mem_ownType_imports package ownType classes core).mpr ⟨hw, hnear⟩
          exact List.find?_eq_none.mp hf o hmem (by simpa using hname)

theorem find?_neighbours (simple : String) :
    ((scopeOf package ownType classes core).neighbours.find? fun c => c.outermost = simple).map
        topLevel =
      if ∃ d ∈ classes, d.package = package ∧ d.outermost = simple then
        some (.ofTopLevel package simple)
      else none := by
  rw [scopeOf]
  cases hf : (classes.filter fun c => c.package = package).find? fun c => c.outermost = simple with
  | some d =>
      have hname : d.outermost = simple := by simpa using List.find?_some hf
      obtain ⟨hmem, hpackage⟩ := List.mem_filter.mp (List.mem_of_find?_eq_some hf)
      have hpackage : d.package = package := by simpa using hpackage
      rw [if_pos ⟨d, hmem, hpackage, hname⟩, Option.map_some, topLevel, hpackage, hname]
      rfl
  | none =>
      rw [if_neg]
      · rfl
      · rintro ⟨d, hmem, hpackage, hname⟩
        refine List.find?_eq_none.mp hf d (List.mem_filter.mpr ⟨hmem, ?_⟩) ?_
        · simpa using hpackage
        · simpa using hname

theorem topLevel?_scopeOf (simple : String) :
    (scopeOf package ownType classes core).topLevel? simple =
      ((winner package ownType classes simple).filter (nearby package ownType classes)).or
        ((if ∃ d ∈ classes, d.package = package ∧ d.outermost = simple then
          some (.ofTopLevel package simple) else none).or
        (if simple ∈ core then some (.ofTopLevel "java.lang" simple) else none)) := by
  rw [Scope.topLevel?, find?_ownType_imports, find?_neighbours]
  rfl

variable {package ownType classes core}

theorem topLevel?_lower (hown : startsUpper ownType = true)
    (hclasses : ∀ c ∈ classes, Conventional c) (hcore : ∀ n ∈ core, startsUpper n = true)
    {simple : String} (h : startsUpper simple = false) :
    (scopeOf package ownType classes core).topLevel? simple = none := by
  have hne : ∀ {n : String}, startsUpper n = true → n ≠ simple := by
    rintro n hn rfl
    rw [hn] at h
    cases h
  have hlisted : ∀ c ∈ classes, c.outermost ≠ simple := fun c hc => hne (hclasses c hc).upper
  have hwinner : winner package ownType classes simple = none := by
    rw [winner, if_neg (hne hown), Option.map_eq_none_iff, List.find?_eq_none]
    simpa using hlisted
  rw [topLevel?_scopeOf, hwinner, if_neg, if_neg]
  · rfl
  · exact fun hm => hne (hcore _ hm) rfl
  · rintro ⟨d, hd, -, hname⟩
    exact hlisted d hd hname

variable (package ownType classes) in
/-- A class of `java.lang` owns its name, and the file's package has a class of the same name. -/
def Eclipsed (c : ClassName) : Prop :=
  c.package = "java.lang" ∧ package ≠ "java.lang" ∧
    winner package ownType classes c.outermost = some c.topLevel ∧
    ∃ d ∈ classes, d.package = package ∧ d.outermost = c.outermost

instance (c : ClassName) : Decidable (Eclipsed package ownType classes c) :=
  inferInstanceAs (Decidable (_ ∧ _))

theorem topLevel?_of_eclipsed {c : ClassName} (h : Eclipsed package ownType classes c) :
    (scopeOf package ownType classes core).topLevel? c.outermost =
      some (.ofTopLevel package c.outermost) := by
  obtain ⟨hc, hpackage, hw, hd⟩ := h
  have hnear : nearby package ownType classes c.topLevel = false := by
    simp [nearby, ImportTable.needsImport, topLevel, ofTopLevel, hc, hpackage.symm]
  rw [topLevel?_scopeOf, hw, Option.filter_some, hnear, if_pos hd]
  rfl

theorem topLevel?_of_owner {c : ClassName} (hc : c ∈ classes) (hp : c.package ≠ "")
    (hcore : c.package = "java.lang" → c.outermost ∈ core)
    (hw : winner package ownType classes c.outermost = some c.topLevel)
    (h : ¬ Eclipsed package ownType classes c) :
    (scopeOf package ownType classes core).topLevel? c.outermost = some c.topLevel := by
  rw [topLevel?_scopeOf, hw, Option.filter_some]
  by_cases hnear : nearby package ownType classes c.topLevel = true
  · rw [if_pos hnear, Option.some_or]
  · rw [if_neg hnear, Option.none_or]
    by_cases hhere : c.package = package
    · rw [if_pos ⟨c, hc, hhere, rfl⟩, ← hhere, Option.some_or]
      rfl
    · -- neither imported nor of this package: the class is in `java.lang`, with no neighbour before it
      have hlang : c.package = "java.lang" := by
        refine Classical.byContradiction fun hlang => hnear ?_
        simp [nearby, ImportTable.needsImport, topLevel, package_collect, hp, hhere, hlang]
      rw [if_neg, Option.none_or, if_pos (hcore hlang), topLevel, hlang]
      · rfl
      · exact fun hd => h ⟨hlang, fun he => hhere (hlang.trans he.symm), hw, hd⟩

/-- In a file the text of each class mentioned denotes that class, but for those that are eclipsed:
their texts denote classes of the file's package. -/
theorem denoted?_className (hown : startsUpper ownType = true)
    (hclasses : ∀ c ∈ classes, Readable c ∧ c.package ≠ "")
    (hcore : ∀ c ∈ classes, c.package = "java.lang" → c.outermost ∈ core)
    (hupper : ∀ n ∈ core, startsUpper n = true) :
    ∀ c ∈ classes,
      (¬ Eclipsed package ownType classes c →
        (scopeOf package ownType classes core).denoted?
          ((ImportTable.collect package ownType classes).className c) = some c) ∧
      (Eclipsed package ownType classes c →
        (scopeOf package ownType classes core).denoted?
          ((ImportTable.collect package ownType classes).className c) = some { c with package }) := by
  have hconventional : ∀ c ∈ classes, Conventional c :=
    fun c hc => conventional_of_readable (hclasses c hc).1
  intro c hc
  rcases className_cases (ImportTable.collect package ownType classes) c with
    ⟨howner, htext⟩ | ⟨howner, htext⟩ <;> rw [owner?_collect] at howner <;> rw [htext]
  · refine ⟨fun h => ?_, fun h => ?_⟩
    · rw [Scope.denoted?_unpackaged (hconventional c hc)
        (topLevel?_of_owner hc (hclasses c hc).2 (hcore c hc) howner h)]
      rfl
    · rw [Scope.denoted?_unpackaged (hconventional c hc) (topLevel?_of_eclipsed h)]
      rfl
  · refine ⟨fun _ => ?_, fun h => absurd h.2.2.1 howner⟩
    exact Scope.denoted?_canonical (hconventional c hc) (hclasses c hc).2
      fun first hfirst => topLevel?_lower hown hconventional hupper hfirst

def langString : ClassName := .ofTopLevel "java.lang" "String"

def appString : ClassName := .ofTopLevel "app" "String"

def clickListener : ClassName := (ofTopLevel "android.view" "View").nested "OnClickListener"

def shopScreen : ClassName := .ofTopLevel "shop" "Screen"

theorem denoted?_className_screen :
    startsUpper "Screen" = true ∧
    (∀ c ∈ [clickListener, langString, shopScreen], Readable c ∧ c.package ≠ "") ∧
    (∀ c ∈ [clickListener, langString, shopScreen], c.package = "java.lang" → c.outermost ∈ ["String"]) ∧
    (∀ n ∈ ["String"], startsUpper n = true) ∧
    ∀ c ∈ [clickListener, langString, shopScreen],
      (scopeOf "app" "Screen" [clickListener, langString, shopScreen] ["String"]).denoted?
        ((ImportTable.collect "app" "Screen" [clickListener, langString, shopScreen]).className c) =
          some c := by
  have hown : startsUpper "Screen" = true := by decide
  have hclasses : ∀ c ∈ [clickListener, langString, shopScreen], Readable c ∧ c.package ≠ "" := by
    simp only [List.forall_mem_cons]
    exact ⟨⟨⟨"android.view.View.OnClickListener", rfl⟩, by decide⟩,
      ⟨⟨"java.lang.String", rfl⟩, by decide⟩, ⟨⟨"shop.Screen", rfl⟩, by decide⟩, nofun⟩
  have hcore : ∀ c ∈ [clickListener, langString, shopScreen],
      c.package = "java.lang" → c.outermost ∈ ["String"] := by decide
  have hupper : ∀ n ∈ ["String"], startsUpper n = true := by decide
  have hnot : ∀ c ∈ [clickListener, langString, shopScreen],
      ¬ Eclipsed "app" "Screen" [clickListener, langString, shopScreen] c := by decide
  exact ⟨hown, hclasses, hcore, hupper, fun c hc =>
    (denoted?_className hown hclasses hcore hupper c hc).1 (hnot c hc)⟩

/-- The class of `java.lang` is mentioned first, so its text is its simple name. In the file this name
denotes the class of the file's own package. -/
theorem denoted?_langString :
    startsUpper "Screen" = true ∧
    (∀ c ∈ [langString, appString], Readable c ∧ c.package ≠ "") ∧
    (∀ c ∈ [langString, appString], c.package = "java.lang" → c.outermost ∈ ["String"]) ∧
    (∀ n ∈ ["String"], startsUpper n = true) ∧
    (ImportTable.collect "app" "Screen" [langString, appString]).className langString = "String" ∧
    appString.package = "app" ∧ appString.outermost = langString.outermost ∧
    (scopeOf "app" "Screen" [langString, appString] ["String"]).denoted?
      ((ImportTable.collect "app" "Screen" [langString, appString]).className langString) =
        some appString ∧
    appString ≠ langString := by
  have htext : (ImportTable.collect "app" "Screen" [langString, appString]).className langString =
      { langString with package := "" }.canonical := by decide
  have hread : Readable langString := ⟨"java.lang.String", rfl⟩
  have heclipsed : Eclipsed "app" "Screen" [langString, appString] langString := by decide
  refine ⟨by decide, ?_, by decide, by decide, by decide, rfl, rfl, ?_, by decide⟩
  · simp only [List.forall_mem_cons]
    exact ⟨⟨hread, by decide⟩, ⟨⟨"app.String", rfl⟩, by decide⟩, nofun⟩
  · rw [htext, Scope.denoted?_unpackaged (conventional_of_readable hread)
      (topLevel?_of_eclipsed heclipsed)]
    rfl

end ViewBinding.Proofs.Denotation
