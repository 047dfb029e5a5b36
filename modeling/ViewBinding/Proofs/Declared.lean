import ViewBinding.Proofs.Arguments
import ViewBinding.Proofs.Deposit
import ViewBinding.Proofs.Reading

namespace ViewBinding.Proofs.Declared

open Text Java ClassName Reading Arguments Handover History Deposit

theorem readFrom_registry_iff {s settings : Settings} {v : String} :
    Settings.readFrom s ["--registry=" ++ v] = (settings, []) ↔
      ∃ name, guess v = .ok name ∧ settings = s.apply (.registry (some name)) := by
  rw [Settings.readFrom_cons (append_ne (by decide) start_not_short v),
    readArgument_valued (.tail _ (.tail _ (.head _)))]
  cases guess v with
  | error cause => simp [Settings.readFrom]
  | ok name => simp [Settings.readFrom, eq_comm]

theorem ofTopLevel_simple_eq_iff {c : ClassName} : ofTopLevel c.package c.simple = c ↔ c.inner = [] := by
  constructor
  · intro h
    rw [← h]
    rfl
  · intro h
    obtain ⟨package, outermost, inner⟩ := c
    cases h
    rfl

theorem inner_eq_nil_iff {v : String} {c : ClassName} (h : guess v = .ok c) :
    c.inner = [] ↔ ∀ s ∈ (split '.' (trimmed v)).dropLast, startsUpper s = false := by
  obtain ⟨hsplit, hc⟩ := guess_eq_ok h
  rw [hsplit, List.dropLast_append_of_ne_nil c.names_ne_nil, names]
  cases hinner : c.inner with
  | nil => simpa using hc.lower
  | cons n ns =>
      have houtermost : c.outermost ∈ segments c.package ++ (c.outermost :: n :: ns).dropLast :=
        List.mem_append_right _ List.mem_cons_self
      have hupper := hc.upper
      simp only [reduceCtorEq, false_iff]
      intro hall
      rw [hall _ houtermost] at hupper
      cases hupper

theorem writeLine_declaration (text : ClassName → String) (simple : String) :
    SourceFile.writeLine text
        [.text "public ", .text "final ", .text "class ", .text simple, .text " \x7b"] =
      "public final class " ++ simple ++ " \x7b" := by
  have hhead : "public final class " = "public " ++ ("final " ++ "class ") := by rfl
  rw [hhead]
  simp only [SourceFile.writeLine_cons, SourceFile.writeLine_nil, Fragment.write, String.append_assoc,
    String.append_empty]

theorem declaration_mem (options : Options) (name : ClassName) (entries : List RegistryEntry) :
    "public final class " ++ name.simple ++ " \x7b" ∈ (Registry.file options name entries).typeLines := by
  have hmodifiers : modifierFragments (Modifiers.ofList [.publicAccess, .final]) =
      [.text "public ", .text "final "] := by rfl
  have hheader : (Registry.file options name entries).type.header =
      [.text "public ", .text "final ", .text "class ", .text name.simple, .text " \x7b"] := by
    rw [Class.header]
    simp only [Registry.file, generated, hmodifiers]
    rfl
  rw [SourceFile.typeLines, Class.layout, List.map_append, List.map_cons, hheader, writeLine_declaration]
  exact List.mem_append_left _ List.mem_cons_self

variable {σ : Type} (create : Filer (StateM σ))

/-- An argument that is accepted asks for the class it names. If there are entries, one file is handed
over; it declares the top-level class with the package and the simple name of that class, and lies where
the class it declares belongs. If it cannot be written, this is reported about the class that was asked
for. That is the class declared exactly if it is not nested. -/
theorem table_declares {s settings : Settings} {v : String}
    (haccepted : Settings.readFrom s ["--registry=" ++ v] = (settings, [])) {entries : List RegistryEntry}
    (hentries : entries ≠ []) (queue : Queue) (w : σ) :
    ∃ name file, guess v = .ok name ∧ settings = s.apply (.registry (some name)) ∧
      file = Registry.file settings.options name entries ∧
      observe (Session.finish settings.options (logged create) ⟨entries, queue⟩) w =
        (concludedFinish name ⟨entries, queue⟩ ((create file).run w).1, callsFor create [file] w,
          (answersTo create [file] w).2) ∧
      (∀ fault, (Session.writeError fault name).primary? = some (.type name)) ∧
      file.className = .ofTopLevel name.package name.simple ∧
      "public final class " ++ name.simple ++ " \x7b" ∈ file.typeLines ∧ file.path = place file.className ∧
      (file.className = name ↔
        ∀ segment ∈ (split '.' (trimmed v)).dropLast, startsUpper segment = false) := by
  obtain ⟨name, hname, rfl⟩ := readFrom_registry_iff.mp haccepted
  refine ⟨name, _, hname, rfl, rfl, ?_, fun _ => rfl, rfl, declaration_mem _ name entries,
    path_eq_place _, ?_⟩
  · have hfinish : Session.finish _ (logged create) ⟨entries, queue⟩ = _ :=
      finish_eq (s.apply (.registry (some name))).options _ rfl hentries
    rw [hfinish, observe_map, observe_logged]
  · rw [← inner_eq_nil_iff hname]
    exact ofTopLevel_simple_eq_iff

def screenEntry : RegistryEntry := ⟨.ofTopLevel "app" "Screen", .ofTopLevel "app" "Screen$$Proxy"⟩

def appRegistry : ClassName := .ofTopLevel "app" "Registry"

theorem table_declares_appRegistry :
    Settings.readFrom .standard ["--registry=" ++ "app.Registry"] =
      (Settings.standard.apply (.registry (some appRegistry)), []) ∧
    [screenEntry] ≠ [] ∧
    ∃ file, (observe (Session.finish (Settings.standard.apply (.registry (some appRegistry))).options
        (logged MemoryFiles.create) ⟨[screenEntry], .empty .standard⟩) .empty).2.1 =
          callsFor MemoryFiles.create [file] .empty ∧
      file.className = appRegistry := by
  have haccepted : Settings.readFrom .standard ["--registry=" ++ "app.Registry"] =
      (Settings.standard.apply (.registry (some appRegistry)), []) :=
    readFrom_registry_iff.mpr ⟨appRegistry, rfl, rfl⟩
  have hentries : [screenEntry] ≠ [] := List.cons_ne_nil _ _
  obtain ⟨name, file, hname, -, -, hrun, -, -, -, -, hclass⟩ :=
    table_declares MemoryFiles.create haccepted hentries (.empty .standard) .empty
  have happ : name = appRegistry := by
    have hread : ClassName.guess "app.Registry" = .ok appRegistry := rfl
    rw [hread] at hname
    exact (Except.ok.inj hname).symm
  subst happ
  refine ⟨haccepted, hentries, file, by rw [hrun], hclass.mpr (by decide +kernel)⟩

def nestedRegistry : ClassName := (ofTopLevel "app" "Outer").nested "Registry"

/-- A nested class is asked for and reported about, and another one declared. -/
theorem table_misses_nestedRegistry :
    Settings.readFrom .standard ["--registry=" ++ "app.Outer.Registry"] =
      (Settings.standard.apply (.registry (some nestedRegistry)), []) ∧
    ((observe (Session.finish (Settings.standard.apply (.registry (some nestedRegistry))).options
        (logged MemoryFiles.create) ⟨[screenEntry], .empty .standard⟩) .empty).2.1.map
          fun call => call.file.className) = [appRegistry] ∧
    (∀ fault, (Session.writeError fault nestedRegistry).primary? = some (.type nestedRegistry)) ∧
    appRegistry ≠ nestedRegistry := by
  refine ⟨readFrom_registry_iff.mpr ⟨nestedRegistry, rfl, rfl⟩, ?_, fun _ => rfl, by decide⟩
  have hfinish : Session.finish (Settings.standard.apply (.registry (some nestedRegistry))).options
      (logged MemoryFiles.create) ⟨[screenEntry], .empty .standard⟩ = _ :=
    finish_eq _ _ rfl (List.cons_ne_nil _ _)
  rw [hfinish, observe_map, observe_logged, callsFor_singleton]
  rfl

end ViewBinding.Proofs.Declared
