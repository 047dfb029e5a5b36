import ViewBinding.Proofs.Chronicle
import ViewBinding.Proofs.Deposit
import ViewBinding.Proofs.Meaning

namespace ViewBinding.Proofs.Reach

open Java Grouping Scan Handover History Lookup Course Chronicle

/-- Whether the code of a package can name a public class. -/
def Nameable (package : String) (c : ClassName) : Prop := c.package ≠ "" ∨ c.package = package

instance (package : String) (c : ClassName) : Decidable (Nameable package c) :=
  inferInstanceAs (Decidable (_ ∨ _))

def classOf? : SearchLine → Option ClassName
  | .test _ c => some c
  | .give c => some c
  | .leave | .giveNull => none

/-- The classes that a search compares with or makes. -/
def mentionedBy (method : Method) : List ClassName :=
  (method.body.lines.toList.filterMap fun l => readSearch l.snippet.fragments).filterMap classOf?

def mentioned (f : SourceFile) : List ClassName := f.type.methods.flatMap mentionedBy

theorem filterMap_of_mapM {α β : Type} {f : α → Option β} {as : List α} {bs : List β}
    (h : as.mapM f = some bs) : as.filterMap f = bs := by
  induction as generalizing bs with
  | nil => exact Option.some.inj h
  | cons a as ih =>
      simp only [List.mapM_cons, Option.bind_eq_bind, Option.bind_eq_some_iff] at h
      obtain ⟨b, hb, bs, hbs, h⟩ := h
      cases h
      rw [List.filterMap_cons, hb, ih hbs]

variable (options : Options)

theorem mentioned_file (name : ClassName) (entries : List RegistryEntry) :
    mentioned (Registry.file options name entries) = entries.flatMap fun e => [e.host, e.companion] := by
  have hfind : mentionedBy (Registry.find options entries) =
      entries.flatMap fun e => [e.host, e.companion] := by
    rw [mentionedBy, filterMap_of_mapM (says_body options entries), List.filterMap_append,
      List.filterMap_flatMap]
    exact List.append_nil _
  have hhidden : mentionedBy Registry.hiddenConstructor = [] := rfl
  change ([Registry.hiddenConstructor, Registry.find options entries] : List Method).flatMap mentionedBy = _
  rw [List.flatMap_cons, List.flatMap_singleton, hhidden, hfind, List.nil_append]

theorem mem_mentioned {name : ClassName} {entries : List RegistryEntry} {c : ClassName} :
    c ∈ mentioned (Registry.file options name entries) ↔
      ∃ e ∈ entries, c = e.host ∨ c = e.companion := by
  simp [mentioned_file]

variable {σ : Type} (create : Filer (StateM σ))

/-- A companion was written for a visible host. -/
def Entered (rs : List Round) (w : σ) (host : ClassName) : Prop :=
  ∃ a ∈ answered options create rs w, ∃ call,
    (host, call) ∈ (hosts (scanned a.round)).zip (a.calls options) ∧ call.answer.isOk = true ∧
      visible (scanned a.round) host = true

/-- The entries of the table at the end of a run. -/
def tabled (rs : List Round) (w : σ) : List RegistryEntry :=
  (answered options create rs w).flatMap (Answered.entries options)

theorem mem_kept {round : Round} {calls : List Call} {e : RegistryEntry} :
    e ∈ kept round calls ↔ ∃ call, (e.host, call) ∈ (hosts (scanned round)).zip calls ∧
      call.answer.isOk = true ∧ visible (scanned round) e.host = true ∧
        e.companion = call.file.className := by
  rw [kept, List.mem_filterMap]
  constructor
  · rintro ⟨⟨host, call⟩, hmem, h⟩
    obtain ⟨hkeep, he⟩ := Option.ite_none_right_eq_some.mp h
    cases he
    obtain ⟨hok, hvisible⟩ := Bool.and_eq_true_iff.mp hkeep
    exact ⟨call, hmem, hok, hvisible, rfl⟩
  · rintro ⟨call, hmem, hok, hvisible, hcompanion⟩
    refine ⟨(e.host, call), hmem, ?_⟩
    simp only [hok, hvisible, Bool.and_self, if_true, ← hcompanion]

theorem mem_tabled_host {rs : List Round} {w : σ} {host : ClassName} :
    host ∈ (tabled options create rs w).map RegistryEntry.host ↔ Entered options create rs w host := by
  simp only [tabled, List.mem_map, List.mem_flatMap, Answered.entries, mem_kept, Entered]
  constructor
  · rintro ⟨e, ⟨a, ha, call, hmem, hok, hvisible, -⟩, rfl⟩
    exact ⟨a, ha, call, hmem, hok, hvisible⟩
  · rintro ⟨a, ha, call, hmem, hok, hvisible⟩
    exact ⟨⟨host, call.file.className⟩, ⟨a, ha, call, hmem, hok, hvisible, rfl⟩, rfl⟩

theorem answered_of_mem {rs : List Round} {w : σ} {a : Answered}
    (ha : a ∈ answered options create rs w) : ∃ round v, a = answerRound options create round v := by
  induction rs generalizing w with
  | nil => cases ha
  | cons round rs ih =>
      rcases List.mem_cons.mp ha with rfl | ha
      · exact ⟨round, w, rfl⟩
      · exact ih ha

theorem companion_of_mem_tabled {rs : List Round} {w : σ} {e : RegistryEntry}
    (he : e ∈ tabled options create rs w) : e.companion = options.companionName e.host := by
  obtain ⟨a, ha, he⟩ := List.mem_flatMap.mp he
  obtain ⟨round, v, rfl⟩ := answered_of_mem options create ha
  exact companion_of_mem_kept options create he

theorem map_file_calls {rs : List Round} {w : σ} :
    ((answered options create rs w).flatMap (Answered.calls options)).map Call.file =
      rs.flatMap (handed options) := by
  induction rs generalizing w with
  | nil => rfl
  | cons round rs ih =>
      have hround : ((answerRound options create round w).calls options).map Call.file =
          handed options round := map_file_zipWith _ _ (length_answersTo create _ w)
      rw [answered, List.flatMap_cons, List.map_append, hround, ih, List.flatMap_cons]

theorem map_file_account (rs : List Round) (w : σ) :
    (account options create rs w).calls.map Call.file =
      rs.flatMap (handed options) ++ closing options (tabled options create rs w) := by
  have hlast : (callsFor create (closing options (tabled options create rs w))
      (leftBy options create rs w)).map Call.file = closing options (tabled options create rs w) :=
    map_file_zipWith _ _ (length_answersTo create _ _)
  rw [account, List.map_append, map_file_calls]
  exact congrArg _ hlast

theorem mem_closing {options : Options} {name : ClassName} (hname : options.registry = some name)
    {entries : List RegistryEntry} {f : SourceFile} :
    f ∈ closing options entries ↔ entries ≠ [] ∧ f = Registry.file options name entries := by
  rw [closing, hname]
  cases entries <;> simp

theorem nameable_companionName {package : String} {host : ClassName} :
    Nameable package (options.companionName host) ↔ Nameable package host := Iff.rfl

theorem table_mem_calls {name : ClassName} (hname : options.registry = some name) (limit : Nat)
    {rs : List Round} {w : σ} {entries : List RegistryEntry}
    (hentries : tabled options create rs w = entries) (hne : entries ≠ []) :
    ⟨Registry.file options name entries,
        ((create (Registry.file options name entries)).run (leftBy options create rs w)).1⟩ ∈
      (observe (Run.rounds options (logged create) limit rs) w).2.1 := by
  have hlast : closing options entries = [Registry.file options name entries] := by
    simp only [closing, hname, List.isEmpty_iff, if_neg hne]
  rw [(rounds_told options create limit rs w).calls_eq, account]
  refine List.mem_append_right _ ?_
  change _ ∈ callsFor create (closing options (tabled options create rs w)) _
  rw [hentries, hlast, callsFor_singleton]
  exact List.mem_singleton.mpr rfl

/-- A run hands over the files of its rounds and, if anything was entered, a table. The hosts in the
table are the visible ones for which a companion was written. All classes that the table mentions can be
named from its package exactly if none of these hosts is in the default package, or the table is there
as well. -/
theorem table_nameable_iff {name : ClassName} (hname : options.registry = some name) (limit : Nat)
    (rs : List Round) (w : σ) :
    ∃ entries : List RegistryEntry,
      (observe (Run.rounds options (logged create) limit rs) w).2.1.map Call.file =
        rs.flatMap (handed options) ++ closing options entries ∧
      (∀ table ∈ closing options entries,
        mentioned table = entries.flatMap fun e => [e.host, e.companion]) ∧
      (∀ host, host ∈ entries.map RegistryEntry.host ↔ Entered options create rs w host) ∧
      ((∀ table ∈ closing options entries, ∀ c ∈ mentioned table, Nameable name.package c) ↔
        ∀ host, Entered options create rs w host → host.package = "" → name.package = "") := by
  have htable : ∀ table ∈ closing options (tabled options create rs w),
      mentioned table = (tabled options create rs w).flatMap fun e => [e.host, e.companion] := by
    intro table ht
    rw [((mem_closing hname).mp ht).2, mentioned_file]
  refine ⟨tabled options create rs w, ?_, htable, fun host => mem_tabled_host options create, ?_, ?_⟩
  · rw [(rounds_told options create limit rs w).calls_eq, map_file_account]
  · intro hall host hentered hdefault
    obtain ⟨e, he, rfl⟩ := List.mem_map.mp ((mem_tabled_host options create).mpr hentered)
    have hmem : Registry.file options name (tabled options create rs w) ∈
        closing options (tabled options create rs w) :=
      (mem_closing hname).mpr ⟨List.ne_nil_of_mem he, rfl⟩
    rcases hall _ hmem e.host ((mem_mentioned options).mpr ⟨e, he, .inl rfl⟩) with hnamed | hhere
    · exact absurd hdefault hnamed
    · exact hhere.symm.trans hdefault
  · intro hall table ht c hc
    rw [((mem_closing hname).mp ht).2, mem_mentioned] at hc
    obtain ⟨e, he, hc⟩ := hc
    have hentered := (mem_tabled_host options create).mp (List.mem_map_of_mem he)
    have hhost : Nameable name.package e.host := by
      by_cases hdefault : e.host.package = ""
      · exact .inr (hdefault.trans (hall e.host hentered hdefault).symm)
      · exact .inl hdefault
    rcases hc with rfl | rfl
    · exact hhost
    · rw [companion_of_mem_tabled options create he]
      exact (nameable_companionName options).mpr hhost

def screenTable : ClassName := .ofTopLevel "proxytool.generated" "ProxyRegistry"

theorem table_nameable_publicScreen :
    Options.standard.registry = some screenTable ∧
    ∃ entries : List RegistryEntry,
      (observe (Run.rounds .standard (logged MemoryFiles.create) 50 [⟨[publicScreen]⟩])
          .empty).2.1.map Call.file =
        handed .standard ⟨[publicScreen]⟩ ++ closing .standard entries ∧
      publicScreen.name ∈ entries.map RegistryEntry.host ∧
      ∀ table ∈ closing .standard entries, ∀ c ∈ mentioned table, Nameable screenTable.package c := by
  have hname : Options.standard.registry = some screenTable := rfl
  have htabled : (tabled .standard MemoryFiles.create [⟨[publicScreen]⟩] .empty).map RegistryEntry.host =
      [publicScreen.name] := by rfl
  obtain ⟨entries, hcalls, -, hentered, hnameable⟩ :=
    table_nameable_iff .standard MemoryFiles.create hname 50 [⟨[publicScreen]⟩] .empty
  refine ⟨hname, entries, ?_, ?_, hnameable.mpr fun host hhost => ?_⟩
  · rw [hcalls, List.flatMap_singleton]
  · rw [hentered, ← mem_tabled_host, htabled]
    exact List.mem_singleton.mpr rfl
  · rw [← mem_tabled_host, htabled, List.mem_singleton] at hhost
    rw [hhost]
    decide

def publicHost (c : ClassName) : TypeDecl :=
  ⟨c, .ordinary, .ofList [.publicAccess], [], [⟨"panel", .ofClass Options.viewClass, ∅, some 1⟩], []⟩

def hostManifest (name : String) : Json :=
  .object [("rounds", .array [.object [("types", .array [.object [("name", .string name),
    ("modifiers", .array [.string "public"]),
    ("fields", .array [.object [("name", .string "panel"), ("type", .string "android.view.View"),
      ("view_by_id", .integer 1)]])]])]])]

def hostRecords (name : String) : Manifest.shape.Carrier :=
  ([([(name, none, .ordinary, [.publicAccess], [],
    [("panel", "android.view.View", [], some 1, ())], [], ())], ())], ())

theorem parse_hostManifest {name : String} {c : ClassName} (h : ClassName.guess name = .ok c) :
    Manifest.parse (hostManifest name).text = .ok [⟨[publicHost c]⟩] := by
  have hplain : Printing.Plain (hostManifest name) := by
    simp [hostManifest, Printing.Plain, Printing.PlainElements, Printing.PlainMembers]
  have hpublic : Standing.Stands .modifier (.string "public") Modifier.publicAccess :=
    Standing.modifier_iff.mpr (.inl rfl)
  have hstands : Standing.Stands Manifest.shape (hostManifest name) (hostRecords name) := by
    simpa [hostManifest, hostRecords, Standing.Stands, Standing.Named, Standing.valuesOf_cons,
      Standing.others_cons, Manifest.Shape.absent?, Manifest.Shape.default?] using hpublic
  have htype : Manifest.typeDecl (name, none, .ordinary, [.publicAccess], [],
      [("panel", "android.view.View", [], some 1, ())], [], ()) = .ok (publicHost c) := by
    rw [Manifest.typeDecl, Manifest.typeName, h]
    rfl
  rw [Manifest.parse, Records.parse_eq_ok_iff.mpr ⟨_, Printing.parse_text hplain, hstands⟩]
  refine Remainder.bind_eq_ok.mpr ⟨hostRecords name, rfl, ?_⟩
  simp only [hostRecords, List.mapM_cons, List.mapM_nil, Manifest.round, htype]
  rfl

def mainScreen : TypeDecl := publicHost (.ofTopLevel "" "Main")

def mainEntry : RegistryEntry := ⟨mainScreen.name, .ofTopLevel "" "Main$$Proxy"⟩

/-- The table of a run is written to a named package and mentions a class of the default package. -/
theorem table_mentions_main :
    Manifest.parse (hostManifest "Main").text = .ok [⟨[mainScreen]⟩] ∧
    Options.standard.registry = some screenTable ∧
    (∃ call ∈ (observe (Run.rounds .standard (logged MemoryFiles.create) 50 [⟨[mainScreen]⟩])
        .empty).2.1,
      call.answer.isOk = true ∧ call.file.className = screenTable ∧
        mainScreen.name ∈ mentioned call.file) ∧
    mainScreen.visibleOutside = true ∧ ¬ Nameable screenTable.package mainScreen.name := by
  have hentries : tabled .standard MemoryFiles.create [⟨[mainScreen]⟩] .empty = [mainEntry] := by rfl
  have hname : Options.standard.registry = some screenTable := rfl
  have hcall := table_mem_calls .standard MemoryFiles.create hname 50 hentries (List.cons_ne_nil _ _)
  have hfree : (leftBy .standard MemoryFiles.create [⟨[mainScreen]⟩] .empty).get?
      (Registry.file .standard screenTable [mainEntry]).path = none := by
    rw [leftBy, Deposit.get?_answersTo]
    decide +kernel
  refine ⟨parse_hostManifest (by rfl), hname, ⟨_, hcall, ?_, rfl, ?_⟩, by decide, by decide⟩
  · rcases run_create (Registry.file .standard screenTable [mainEntry])
        (leftBy .standard MemoryFiles.create [⟨[mainScreen]⟩] .empty) with ⟨hsome, -⟩ | ⟨-, hrun⟩
    · rw [hfree] at hsome
      cases hsome
    · rw [hrun]
      rfl
  · exact (mem_mentioned .standard).mpr ⟨mainEntry, List.mem_singleton.mpr rfl, .inl rfl⟩

end ViewBinding.Proofs.Reach
