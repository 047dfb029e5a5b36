import ViewBinding.Filer.Basic
import ViewBinding.Proofs.Handover
import ViewBinding.Proofs.Lookup

namespace ViewBinding.Proofs.History

open Java Grouping Scan Handover Lookup

variable {σ : Type} (options : Options) (create : Filer (StateM σ))

def callsFor (files : List SourceFile) (w : σ) : List Call :=
  List.zipWith Call.mk files (answersTo create files w).1

/-- The classes that were created, in order. -/
def created (calls : List Call) : List ClassName :=
  (calls.filter fun c => c.answer.isOk).map fun c => c.file.className

def CreatesOnce (w : σ) : Prop := ∀ files, (created (callsFor create files w)).Nodup

theorem answersTo_append (fs gs : List SourceFile) (w : σ) :
    answersTo create (fs ++ gs) w =
      ((answersTo create fs w).1 ++ (answersTo create gs (answersTo create fs w).2).1,
        (answersTo create gs (answersTo create fs w).2).2) := by
  induction fs generalizing w with
  | nil => rfl
  | cons f fs ih =>
      rw [List.cons_append, answersTo_cons, answersTo_cons, ih]
      rfl

theorem callsFor_append (fs gs : List SourceFile) (w : σ) :
    callsFor create (fs ++ gs) w =
      callsFor create fs w ++ callsFor create gs (answersTo create fs w).2 := by
  rw [callsFor, answersTo_append, List.zipWith_append (length_answersTo create fs w).symm]
  rfl

theorem callsFor_cons (f : SourceFile) (fs : List SourceFile) (w : σ) :
    callsFor create (f :: fs) w =
      ⟨f, ((create f).run w).1⟩ :: callsFor create fs ((create f).run w).2 := by
  rw [callsFor, answersTo_cons]
  rfl

theorem callsFor_singleton (f : SourceFile) (w : σ) :
    callsFor create [f] w = [⟨f, ((create f).run w).1⟩] := callsFor_cons create f [] w

theorem created_cons (f : SourceFile) (fs : List SourceFile) (w : σ) :
    created (callsFor create (f :: fs) w) =
      (if ((create f).run w).1.isOk then [f.className] else []) ++
        created (callsFor create fs ((create f).run w).2) := by
  rw [callsFor_cons]
  cases ho : ((create f).run w).1.isOk <;> simp [created, ho]

theorem created_append (cs ds : List Call) : created (cs ++ ds) = created cs ++ created ds := by
  simp [created]

theorem run_create (f : SourceFile) (files : MemoryFiles) :
    (files.get? f.path).isSome = true ∧
        (MemoryFiles.create f).run files = (.error (.recreated f.className.canonical), files) ∨
      files.get? f.path = none ∧
        (MemoryFiles.create f).run files = (.ok f.path, ⟨files.entries ++ [(f.path, f.render)]⟩) := by
  cases h : files.get? f.path with
  | some text => exact .inl ⟨rfl, if_pos (by rw [h]; rfl)⟩
  | none => exact .inr ⟨rfl, if_neg (by rw [h]; exact Bool.false_ne_true)⟩

theorem get?_append (files : MemoryFiles) (f : SourceFile) (path : Path) :
    MemoryFiles.get? ⟨files.entries ++ [(f.path, f.render)]⟩ path =
      (files.get? path).or (if f.path.same path then some f.render else none) := by
  rw [MemoryFiles.get?, List.find?_append, Option.map_or, MemoryFiles.get?]
  cases hs : f.path.same path <;> simp [hs]

theorem createsOnce_memoryFiles (w : MemoryFiles) : CreatesOnce MemoryFiles.create w := by
  have hpath : ∀ f g : SourceFile, f.className = g.className → f.path = g.path := by
    intro f g h
    obtain ⟨hpackage, hname, -⟩ := ClassName.mk.inj h
    rw [SourceFile.path, SourceFile.path, hpackage, hname]
  have hgo : ∀ fs w, (created (callsFor MemoryFiles.create fs w)).Nodup ∧
      ∀ f : SourceFile, (w.get? f.path).isSome →
        f.className ∉ created (callsFor MemoryFiles.create fs w) := by
    intro fs
    induction fs with
    | nil => exact fun w => ⟨List.nodup_nil, fun _ _ => List.not_mem_nil⟩
    | cons f fs ih =>
        intro w
        rw [created_cons]
        rcases run_create f w with ⟨-, hrun⟩ | ⟨hfree, hrun⟩ <;> rw [hrun]
        · exact ih w
        · obtain ⟨hnodup, hnew⟩ := ih ⟨w.entries ++ [(f.path, f.render)]⟩
          have hsame : f.path.same f.path = true := decide_eq_true rfl
          refine ⟨List.nodup_cons.mpr ⟨hnew f ?_, hnodup⟩, fun g hg hm => ?_⟩
          · rw [get?_append, hfree, if_pos hsame]
            rfl
          · rcases List.mem_cons.mp hm with hm | hm
            · rw [hpath g f hm, hfree] at hg
              cases hg
            · refine hnew g ?_ hm
              rw [get?_append, Option.isSome_or, hg, Bool.true_or]
  exact fun fs => (hgo fs w).1

/-- What is asked of a session. The queue of diagnostics is handed in with each request. -/
inductive Move where
  | process (queue : Queue) (round : Round)
  | finish (queue : Queue)

inductive Event where
  | processed (round : Round) (calls : List Call)
  | finished (calls : List Call) (result : Except ErrorsReported (Option Path))

def Event.calls : Event → List Call
  | .processed _ calls => calls
  | .finished calls _ => calls

structure World (σ : Type) where
  registry : List RegistryEntry
  files : σ
  events : List Event

def play (x : World σ) : Move → World σ
  | .process queue round =>
      match observe (Session.process options (logged create) round ⟨x.registry, queue⟩) x.files with
      | ((_, after), calls, left) => ⟨after.registry, left, x.events ++ [.processed round calls]⟩
  | .finish queue =>
      match observe (Session.finish options (logged create) ⟨x.registry, queue⟩) x.files with
      | ((result, after), calls, left) =>
          ⟨after.registry, left, x.events ++ [.finished calls result]⟩

def playAll (moves : List Move) (w : σ) : World σ := moves.foldl (play options create) ⟨[], w, []⟩

/-- The visible hosts of a round whose companions were written. The calls of a round are made for its
hosts in order. -/
def kept (round : Round) (calls : List Call) : List RegistryEntry :=
  ((hosts (scanned round)).zip calls).filterMap fun (host, call) =>
    if call.answer.isOk && visible (scanned round) host then some ⟨host, call.file.className⟩ else none

def entriesAfter (entries : List RegistryEntry) : Event → List RegistryEntry
  | .processed round calls => entries ++ kept round calls
  | .finished _ (.ok (some _)) => []
  | .finished _ _ => entries

/-- What was written for visible hosts since the registry was last written. -/
def entriesOf (events : List Event) : List RegistryEntry := events.foldl entriesAfter []

theorem registry_settled (cs : List Companion) (answers : List (Except WriteFault Path))
    (state : Summary × Session) :
    (settled options cs answers state).2.registry = state.2.registry ++
      (cs.zip answers).filterMap fun p =>
        if p.2.isOk && p.1.hostVisible then some ⟨p.1.host, (p.1.file options).className⟩
        else none := by
  induction cs generalizing answers state with
  | nil => exact (List.append_nil _).symm
  | cons c cs ih =>
      cases answers with
      | nil => exact (List.append_nil _).symm
      | cons answer answers =>
          have hrest := ih answers (Session.settle c (c.file options).className answer state)
          obtain ⟨summary, s⟩ := state
          change (settled options cs answers _).2.registry = _
          rw [hrest, List.zip_cons_cons, List.filterMap_cons]
          cases answer with
          | error fault => rfl
          | ok path => cases hv : c.hostVisible <;> simp [Session.settle, Except.isOk, Except.toBool, hv]

theorem kept_eq (round : Round) (answers : List (Except WriteFault Path)) :
    kept round (List.zipWith Call.mk (Handover.files options round) answers) =
      ((companions (scanned round)).zip answers).filterMap fun p =>
        if p.2.isOk && p.1.hostVisible then some ⟨p.1.host, (p.1.file options).className⟩
        else none := by
  rw [kept, Handover.files, companions]
  generalize hosts (scanned round) = hs
  induction hs generalizing answers with
  | nil => rfl
  | cons host hs ih =>
      cases answers with
      | nil => rfl
      | cons answer answers =>
          simp only [List.map_cons, List.zipWith_cons_cons, List.zip_cons_cons, List.filterMap_cons, ih]
          rfl

/-- The files a round hands over: none if something speaks against one of its members. -/
def handed (round : Round) : List SourceFile :=
  if (scanned round).all fun e => (complaints options e).isEmpty then Handover.files options round
  else []

theorem observe_process (round : Round) (s : Session) (w : σ) :
    ∃ result after, observe (Session.process options (logged create) round s) w =
        ((result, after), callsFor create (handed options round) w,
          (answersTo create (handed options round) w).2) ∧
      after.registry = s.registry ++ kept round (callsFor create (handed options round) w) := by
  rcases process_cases options (logged create) round s with
    ⟨hall, h⟩ | ⟨before, e, later, hes, -, he, reported, h⟩
  · have hhanded : handed options round = Handover.files options round :=
      if_pos (List.all_eq_true.mpr fun e he => List.isEmpty_iff.mpr (hall e he))
    rw [h, observe_map_mapM, hhanded]
    refine ⟨_, _, rfl, ?_⟩
    rw [callsFor, kept_eq]
    exact registry_settled options _ _ _
  · have hhanded : handed options round = [] := by
      refine if_neg fun hall => he (List.isEmpty_iff.mp (List.all_eq_true.mp hall e ?_))
      rw [hes]
      exact List.mem_append_right _ List.mem_cons_self
    rw [h, observe_pure, hhanded]
    refine ⟨_, _, rfl, ?_⟩
    simp [callsFor, kept]

theorem observe_map {α β : Type} (f : α → β) (program : StateT (List Call) (StateM σ) α) (w : σ) :
    observe (f <$> program) w =
      (f (observe program w).1, (observe program w).2.1, (observe program w).2.2) := rfl

theorem observe_logged (file : SourceFile) (w : σ) :
    observe (logged create file) w =
      (((create file).run w).1, callsFor create [file] w, (answersTo create [file] w).2) := by
  rw [callsFor, answersTo_cons]
  rfl

theorem finish_idle {m : Type → Type} [Monad m] (create : Filer m) {s : Session}
    (h : options.registry = none ∨ s.registry = []) :
    Session.finish options create s = pure (.ok none, s) := by
  rw [Session.finish]
  cases hname : options.registry with
  | none => rfl
  | some name =>
      rw [hname] at h
      rcases h with h | h
      · cases h
      · exact if_pos (List.isEmpty_iff.mpr h)

def concludedFinish (name : ClassName) (s : Session) :
    Except WriteFault Path → Except ErrorsReported (Option Path) × Session
  | .ok path => (.ok (some path), { s with registry := [] })
  | .error fault => (.error (s.queue.report (Session.writeError fault name)).1,
      { s with queue := (s.queue.report (Session.writeError fault name)).2 })

theorem finish_eq {m : Type → Type} [Monad m] [LawfulMonad m] (create : Filer m) {name : ClassName}
    (hname : options.registry = some name) {s : Session} (hs : s.registry ≠ []) :
    Session.finish options create s =
      concludedFinish name s <$> create (Registry.file options name s.registry) := by
  have hentries : ¬ s.registry.isEmpty = true := fun h => hs (List.isEmpty_iff.mp h)
  rw [Session.finish, hname, ← bind_pure_comp]
  refine (if_neg hentries).trans (congrArg (create _ >>= ·) (funext fun answer => ?_))
  cases answer <;> rfl

theorem finish_cases {m : Type → Type} [Monad m] [LawfulMonad m] (create : Filer m) (s : Session) :
    ((options.registry = none ∨ s.registry = []) ∧
      Session.finish options create s = pure (.ok none, s)) ∨
    ∃ name, options.registry = some name ∧
      Session.finish options create s =
        concludedFinish name s <$> create (Registry.file options name s.registry) := by
  by_cases hidle : options.registry = none ∨ s.registry = []
  · exact .inl ⟨hidle, finish_idle options create hidle⟩
  · obtain ⟨hwanted, hentries⟩ := not_or.mp hidle
    obtain ⟨name, hname⟩ := Option.ne_none_iff_exists'.mp hwanted
    exact .inr ⟨name, hname, finish_eq options create hname hentries⟩

theorem observe_finish_nil (queue : Queue) (w : σ) :
    observe (Session.finish options (logged create) ⟨[], queue⟩) w =
      ((.ok none, ⟨[], queue⟩), [], w) := by
  rw [finish_idle options _ (.inr rfl), observe_pure]

theorem observe_finish (s : Session) (w : σ) :
    ((options.registry = none ∨ s.registry = []) ∧
      observe (Session.finish options (logged create) s) w = ((.ok none, s), [], w)) ∨
    ∃ name, options.registry = some name ∧
      ((∃ path, observe (Session.finish options (logged create) s) w =
          ((.ok (some path), { s with registry := [] }),
            callsFor create [Registry.file options name s.registry] w,
            (answersTo create [Registry.file options name s.registry] w).2)) ∨
      ∃ reported q, observe (Session.finish options (logged create) s) w =
          ((.error reported, { s with queue := q }),
            callsFor create [Registry.file options name s.registry] w,
            (answersTo create [Registry.file options name s.registry] w).2)) := by
  rcases finish_cases options (logged create) s with ⟨hidle, h⟩ | ⟨name, hname, h⟩
  · exact .inl ⟨hidle, by rw [h, observe_pure]⟩
  · refine .inr ⟨name, hname, ?_⟩
    rw [h, observe_map, observe_logged]
    cases ((create (Registry.file options name s.registry)).run w).1 with
    | ok path => exact .inl ⟨path, rfl⟩
    | error fault => exact .inr ⟨_, _, rfl⟩

theorem companion_of_mem_kept {round : Round} {w : σ} {e : RegistryEntry}
    (he : e ∈ kept round (callsFor create (handed options round) w)) :
    e.companion = options.companionName e.host := by
  rw [handed] at he
  split at he
  · rw [callsFor, kept_eq] at he
    obtain ⟨⟨c, answer⟩, -, hc⟩ := List.mem_filterMap.mp he
    split at hc
    · cases hc
      rfl
    · cases hc
  · simp [callsFor, kept] at he

theorem kept_sublist (round : Round) (calls : List Call) :
    ((kept round calls).map RegistryEntry.companion).Sublist (created calls) := by
  rw [kept]
  generalize hosts (scanned round) = hs
  induction hs generalizing calls with
  | nil => exact List.nil_sublist _
  | cons host hs ih =>
      cases calls with
      | nil => exact List.nil_sublist _
      | cons call calls =>
          have hrest := ih calls
          rw [List.zip_cons_cons, List.filterMap_cons]
          cases ho : call.answer.isOk with
          | false => simpa [created, ho] using hrest
          | true =>
              cases hv : visible (scanned round) host with
              | false => simpa [created, ho, hv] using hrest.cons call.file.className
              | true => simpa [created, ho, hv] using hrest.cons_cons call.file.className

/-- What holds all through a history. Its calls are those of a filer that is handed one file after the
other, so they create no class twice if the filer does not. -/
structure Told (w : σ) (x : World σ) : Prop where
  replayed : ∃ fs, x.events.flatMap Event.calls = callsFor create fs w ∧
    x.files = (answersTo create fs w).2
  entries : x.registry = entriesOf x.events
  named : ∀ e ∈ x.registry, e.companion = options.companionName e.host
  listed : (x.registry.map RegistryEntry.companion).Sublist (created (x.events.flatMap Event.calls))

theorem told_start (w : σ) : Told options create w ⟨[], w, []⟩ :=
  ⟨⟨[], rfl, rfl⟩, rfl, nofun, List.nil_sublist _⟩

theorem Told.next {w : σ} {x : World σ} (h : Told options create w x) {event : Event}
    (fs : List SourceFile) {registry : List RegistryEntry}
    (hcalls : event.calls = callsFor create fs x.files)
    (hentries : registry = entriesAfter x.registry event)
    (hnamed : ∀ e ∈ registry, e.companion = options.companionName e.host)
    (hlisted : (registry.map RegistryEntry.companion).Sublist
      (created (x.events.flatMap Event.calls) ++ created event.calls)) :
    Told options create w ⟨registry, (answersTo create fs x.files).2, x.events ++ [event]⟩ where
  replayed := by
    obtain ⟨gs, hgs, hfiles⟩ := h.replayed
    refine ⟨gs ++ fs, ?_, ?_⟩
    · rw [List.flatMap_append, List.flatMap_singleton, hgs, hcalls, callsFor_append, hfiles]
    · rw [answersTo_append, hfiles]
  entries := by
    rw [hentries, h.entries, entriesOf, entriesOf, List.foldl_append]
    rfl
  named := hnamed
  listed := by
    rw [List.flatMap_append, List.flatMap_singleton, created_append]
    exact hlisted

theorem told_play {w : σ} {x : World σ} (h : Told options create w x) (m : Move) :
    Told options create w (play options create x m) := by
  have hkeep : ∀ calls, (x.registry.map RegistryEntry.companion).Sublist
      (created (x.events.flatMap Event.calls) ++ calls) := fun calls =>
    h.listed.trans (List.sublist_append_left _ _)
  cases m with
  | process queue round =>
      obtain ⟨result, after, hrun, hregistry⟩ :=
        observe_process options create round ⟨x.registry, queue⟩ x.files
      rw [play, hrun]
      refine h.next options create _ rfl hregistry ?_ ?_
      · intro e he
        rw [hregistry] at he
        rcases List.mem_append.mp he with he | he
        · exact h.named e he
        · exact companion_of_mem_kept options create he
      · rw [hregistry, List.map_append]
        exact h.listed.append (kept_sublist round _)
  | finish queue =>
      rcases observe_finish options create ⟨x.registry, queue⟩ x.files with
        ⟨-, hrun⟩ | ⟨name, -, ⟨path, hrun⟩ | ⟨reported, q, hrun⟩⟩
      · rw [play, hrun]
        exact h.next options create [] rfl rfl h.named (hkeep _)
      · rw [play, hrun]
        exact h.next options create _ rfl rfl nofun (List.nil_sublist _)
      · rw [play, hrun]
        exact h.next options create _ rfl rfl h.named (hkeep _)

theorem told_playAll (moves : List Move) (w : σ) :
    Told options create w (playAll options create moves w) := by
  rw [playAll]
  have hgo : ∀ x, Told options create w x →
      Told options create w (moves.foldl (play options create) x) := by
    induction moves with
    | nil => exact fun _ h => h
    | cons m moves ih => exact fun x h => ih _ (told_play options create h m)
  exact hgo _ (told_start options create w)

theorem nodup_companions {w : σ} {x : World σ} (h : Told options create w x)
    (hw : CreatesOnce create w) : (x.registry.map RegistryEntry.companion).Nodup := by
  obtain ⟨fs, hfs, -⟩ := h.replayed
  have hcreated := hw fs
  rw [← hfs] at hcreated
  exact h.listed.nodup hcreated

theorem nodup_hosts {w : σ} {x : World σ} (h : Told options create w x)
    (hw : CreatesOnce create w) : (x.registry.map RegistryEntry.host).Nodup := by
  have hmap : x.registry.map RegistryEntry.companion =
      (x.registry.map RegistryEntry.host).map options.companionName := by
    rw [List.map_map]
    exact List.map_congr_left h.named
  have hcompanions := nodup_companions options create h hw
  rw [hmap] at hcompanions
  exact hcompanions.of_map

/-- At every point of a history the registry holds, in order, what was written for visible hosts since
it was last written itself, with no host and no companion twice. An attempt to write it that has
nothing to write touches nothing; one that succeeds leaves no entries, so that the next one has nothing
to write; one that fails leaves the entries. And the file it writes finds the companion of every host
that has an entry, and nothing for any other class. -/
theorem registry_tells_history (w : σ) (hw : CreatesOnce create w) (moves : List Move) :
    match playAll options create moves w with
    | ⟨registry, files, events⟩ =>
        registry = entriesOf events ∧
        (registry.map RegistryEntry.host).Nodup ∧ (registry.map RegistryEntry.companion).Nodup ∧
        (∀ queue,
          match observe (Session.finish options (logged create) ⟨registry, queue⟩) files with
          | ((.ok none, after), calls, left) => calls = [] ∧ left = files ∧ after.registry = registry
          | ((.ok (some _), after), calls, left) =>
              (∃ name, options.registry = some name ∧
                calls.map Call.file = [Registry.file options name registry]) ∧
              after.registry = [] ∧
              ∀ q, observe (Session.finish options (logged create) ⟨after.registry, q⟩) left =
                ((.ok none, ⟨[], q⟩), [], left)
          | ((.error _, after), _, _) => after.registry = registry) ∧
        ∀ name, ∃ find ∈ (Registry.file options name registry).type.methods, find.name = "find" ∧
          (∀ e ∈ registry, callWith find e.host = some (some e.companion)) ∧
          ∀ host ∉ registry.map RegistryEntry.host, callWith find host = some none := by
  have h := told_playAll options create moves w
  have hhosts := nodup_hosts options create h hw
  have hcompanions := nodup_companions options create h hw
  generalize playAll options create moves w = x at h hhosts hcompanions
  obtain ⟨registry, files, events⟩ := x
  refine ⟨h.entries, hhosts, hcompanions, ?_, fun name =>
    ⟨Registry.find options registry, by simp [Registry.file, generated], rfl,
      callWith_find_of_nodup options hhosts⟩⟩
  intro queue
  rcases observe_finish options create ⟨registry, queue⟩ files with
    ⟨-, hrun⟩ | ⟨name, hname, ⟨path, hrun⟩ | ⟨reported, q, hrun⟩⟩
  · rw [hrun]
    exact ⟨rfl, rfl, rfl⟩
  · rw [hrun]
    refine ⟨⟨name, hname, ?_⟩, rfl, ?_⟩
    · exact map_file_zipWith _ _ (length_answersTo create _ files)
    · exact fun q => observe_finish_nil options create q _
  · rw [hrun]

def publicScreen : TypeDecl :=
  ⟨.ofTopLevel "app" "Screen", .ordinary, .ofList [.publicAccess], [], [],
    [⟨"save", ∅, [], some [1]⟩]⟩

theorem registry_tells_publicScreen :
    CreatesOnce MemoryFiles.create .empty ∧
    match playAll .standard MemoryFiles.create [.process (.empty .standard) ⟨[publicScreen]⟩] .empty with
    | ⟨registry, _, events⟩ =>
        registry = [⟨publicScreen.name, .ofTopLevel "app" "Screen$$Proxy"⟩] ∧
        registry = entriesOf events ∧
        ∃ find ∈ (Registry.file .standard (.ofTopLevel "app" "Companions") registry).type.methods,
          callWith find publicScreen.name = some (some (.ofTopLevel "app" "Screen$$Proxy")) := by
  have hw := createsOnce_memoryFiles .empty
  have h := registry_tells_history .standard MemoryFiles.create .empty hw
    [.process (.empty .standard) ⟨[publicScreen]⟩]
  have hregistry : (playAll .standard MemoryFiles.create
      [.process (.empty .standard) ⟨[publicScreen]⟩] .empty).registry =
      [⟨publicScreen.name, .ofTopLevel "app" "Screen$$Proxy"⟩] := by
    obtain ⟨result, after, hrun, hafter⟩ := observe_process .standard MemoryFiles.create
      ⟨[publicScreen]⟩ ⟨[], .empty .standard⟩ .empty
    rw [playAll, List.foldl_cons, List.foldl_nil, play, hrun]
    exact hafter.trans (by rfl)
  refine ⟨hw, ?_⟩
  generalize playAll .standard MemoryFiles.create
    [.process (.empty .standard) ⟨[publicScreen]⟩] .empty = x at h hregistry ⊢
  obtain ⟨registry, files, events⟩ := x
  obtain ⟨hentries, -, -, -, hfind⟩ := h
  obtain ⟨find, hmem, -, hfound, -⟩ := hfind (.ofTopLevel "app" "Companions")
  cases hregistry
  exact ⟨rfl, hentries, find, hmem, hfound _ List.mem_cons_self⟩

end ViewBinding.Proofs.History
