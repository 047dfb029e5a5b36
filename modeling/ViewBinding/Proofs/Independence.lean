import ViewBinding.Proofs.Chronicle
import ViewBinding.Proofs.Deposit

namespace ViewBinding.Proofs.Independence

open Java Grouping Scan Handover History Course Tally Truncation Chronicle Deposit

def Clear (taken : List (Path × String)) (fs : List SourceFile) : Prop :=
  ∀ e ∈ taken, ∀ f ∈ fs, e.1.same f.path = false

theorem run_create_beside {taken : List (Path × String)} {f : SourceFile}
    (h : ∀ e ∈ taken, e.1.same f.path = false) (files : MemoryFiles) :
    (MemoryFiles.create f).run ⟨taken ++ files.entries⟩ =
      (((MemoryFiles.create f).run files).1, ⟨taken ++ ((MemoryFiles.create f).run files).2.entries⟩) := by
  have hget : MemoryFiles.get? ⟨taken ++ files.entries⟩ f.path = files.get? f.path := by
    have hnone : (taken.find? fun e => e.1.same f.path) = none :=
      List.find?_eq_none.mpr fun e he => by simp [h e he]
    rw [MemoryFiles.get?, List.find?_append, hnone, Option.none_or, MemoryFiles.get?]
  rcases run_create f files with ⟨hsome, hrun⟩ | ⟨hfree, hrun⟩
  · rw [hrun]
    rcases run_create f ⟨taken ++ files.entries⟩ with ⟨-, hbeside⟩ | ⟨hfree, -⟩
    · exact hbeside
    · rw [← hget, hfree] at hsome
      cases hsome
  · rw [hrun]
    rcases run_create f ⟨taken ++ files.entries⟩ with ⟨hsome, -⟩ | ⟨-, hbeside⟩
    · rw [hget, hfree] at hsome
      cases hsome
    · rw [hbeside, List.append_assoc]

theorem answersTo_beside {taken : List (Path × String)} {fs : List SourceFile} (h : Clear taken fs)
    (files : MemoryFiles) :
    answersTo MemoryFiles.create fs ⟨taken ++ files.entries⟩ =
      ((answersTo MemoryFiles.create fs files).1,
        ⟨taken ++ (answersTo MemoryFiles.create fs files).2.entries⟩) := by
  induction fs generalizing files with
  | nil => rfl
  | cons f fs ih =>
      have hrest : Clear taken fs := fun e he g hg => h e he g (List.mem_cons_of_mem f hg)
      rw [answersTo_cons, answersTo_cons, run_create_beside fun e he => h e he f List.mem_cons_self,
        ih hrest]

theorem answersTo_clear {fs : List SourceFile} {files : MemoryFiles} (h : Clear files.entries fs) :
    answersTo MemoryFiles.create fs files =
      ((answersTo MemoryFiles.create fs .empty).1,
        ⟨files.entries ++ (answersTo MemoryFiles.create fs .empty).2.entries⟩) := by
  have hbeside := answersTo_beside h .empty
  rwa [MemoryFiles.empty, List.append_nil] at hbeside

theorem path_of_mem_answersTo {fs : List SourceFile} {e : Path × String}
    (he : e ∈ (answersTo MemoryFiles.create fs .empty).2.entries) : ∃ f ∈ fs, f.path = e.1 := by
  rw [entries_answersTo] at he
  obtain ⟨f, hf, rfl⟩ := List.mem_map.mp he
  obtain ⟨call, hcall, rfl⟩ := List.mem_map.mp hf
  refine ⟨call.file, ?_, rfl⟩
  have hfiles : (callsFor MemoryFiles.create fs .empty).map Call.file = fs :=
    map_file_zipWith _ _ (length_answersTo MemoryFiles.create fs .empty)
  rw [← hfiles]
  exact List.mem_map_of_mem (List.mem_of_mem_filter hcall)

variable (options : Options)

/-- No companion of one round has the place of a companion of the other. -/
def Apart (one other : Round) : Prop :=
  ∀ f ∈ handed options one, ∀ g ∈ handed options other, f.path.same g.path = false

instance (one other : Round) : Decidable (Apart options one other) :=
  inferInstanceAs (Decidable (∀ f ∈ _, ∀ g ∈ _, _))

theorem Apart.symm {one other : Round} (h : Apart options one other) : Apart options other one := by
  intro g hg f hf
  have hfg := h f hf g hg
  rw [Path.same, decide_eq_false_iff_not] at hfg ⊢
  exact fun he => hfg he.symm

theorem answered_apart {rs : List Round} (hrs : rs.Pairwise (Apart options)) (files : MemoryFiles)
    (hfiles : ∀ round ∈ rs, Clear files.entries (handed options round)) :
    answered options MemoryFiles.create rs files =
        rs.map (fun round => answerRound options MemoryFiles.create round .empty) ∧
      (leftBy options MemoryFiles.create rs files).entries =
        files.entries ++
          rs.flatMap fun round => (leftBy options MemoryFiles.create [round] .empty).entries := by
  induction rs generalizing files with
  | nil => exact ⟨rfl, (List.append_nil _).symm⟩
  | cons round rs ih =>
      obtain ⟨hround, hrs⟩ := List.pairwise_cons.mp hrs
      obtain ⟨hclear, hclears⟩ := List.forall_mem_cons.mp hfiles
      have hanswers := answersTo_clear hclear
      have hanswer : answerRound options MemoryFiles.create round files =
          answerRound options MemoryFiles.create round .empty := by
        rw [answerRound, hanswers, answerRound]
      have hleft : leftBy options MemoryFiles.create [round] files =
          ⟨files.entries ++ (leftBy options MemoryFiles.create [round] .empty).entries⟩ := by
        rw [leftBy_singleton, hanswers, leftBy_singleton]
      -- what the first round adds lies at its own places, and those are apart from the later ones
      have hnext : ∀ other ∈ rs,
          Clear (leftBy options MemoryFiles.create [round] files).entries (handed options other) := by
        intro other hother e he g hg
        rw [hleft, leftBy_singleton] at he
        rcases List.mem_append.mp he with he | he
        · exact hclears other hother e he g hg
        · obtain ⟨f, hf, hpath⟩ := path_of_mem_answersTo he
          rw [← hpath]
          exact hround other hother f hf g hg
      obtain ⟨hanswered, hentries⟩ := ih hrs _ hnext
      refine ⟨?_, ?_⟩
      · rw [answered, hanswer, hanswered, List.map_cons]
      · rw [leftBy_cons options _ round rs, hentries, hleft, List.flatMap_cons, List.append_assoc]

variable {options}

theorem account_unregistered {σ : Type} (hregistry : options.registry = none)
    (create : Filer (StateM σ)) (rs : List Round) (w : σ) :
    account options create rs w =
      { calls := (answered options create rs w).flatMap (Answered.calls options)
        left := leftBy options create rs w
        written := created ((answered options create rs w).flatMap (Answered.calls options))
        registry := none
        offered := (answered options create rs w).map (Answered.reports options) ++ [[]] } := by
  have hclosing : ∀ entries, closing options entries = [] := fun entries => by rw [closing, hregistry]
  simp only [account, hclosing]
  simp [callsFor, answersTo, closingReports]

theorem created_flatMap {α : Type} (f : α → List Call) (l : List α) :
    created (l.flatMap f) = l.flatMap fun a => created (f a) := by
  rw [created, List.filter_flatMap, List.map_flatMap]
  rfl

theorem rounds_apart (hregistry : options.registry = none) (limit : Nat) {rs : List Round}
    (hrs : rs.Pairwise (Apart options)) :
    let run := fun rs => observe (Run.rounds options (logged MemoryFiles.create) limit rs) .empty
    (run rs).2.1 = rs.flatMap (fun round => (run [round]).2.1) ∧
      (run rs).2.2.entries = rs.flatMap (fun round => (run [round]).2.2.entries) ∧
      (run rs).1.outcome.written = rs.flatMap (fun round => (run [round]).1.outcome.written) ∧
      (run rs).1.batches = rs.flatMap (fun round => (run [round]).1.batches.dropLast) ++ [[]] := by
  intro run
  -- both the run over all rounds and the runs over one are read off their accounts
  let single := fun round => answerRound options MemoryFiles.create round .empty
  have told := fun rs => rounds_told options MemoryFiles.create limit rs .empty
  simp only [account_unregistered hregistry] at told
  obtain ⟨hanswered, hentries⟩ := answered_apart options hrs .empty fun _ _ => nofun
  have hcalls : ∀ round, (run [round]).2.1 = (single round).calls options := fun round =>
    (told [round]).calls_eq.trans (List.flatMap_singleton _ _)
  have hleft : ∀ round, (run [round]).2.2 = leftBy options MemoryFiles.create [round] .empty :=
    fun round => (told [round]).left_eq
  have hwritten : ∀ round, (run [round]).1.outcome.written = created ((single round).calls options) :=
    fun round => (told [round]).written.trans (congrArg created (List.flatMap_singleton _ _))
  have hbatches : ∀ round, (run [round]).1.batches =
      [held limit ((single round).reports options), []] := fun round => (told [round]).batches
  refine ⟨?_, ?_, ?_, ?_⟩
  · rw [(told rs).calls_eq, hanswered, List.flatMap_map]
    simp only [hcalls, single]
  · rw [(told rs).left_eq, hentries]
    simp only [hleft]
    rfl
  · rw [(told rs).written, hanswered, List.flatMap_map, created_flatMap]
    simp only [hwritten, single]
  · rw [(told rs).batches, hanswered, List.map_append, List.map_map, List.map_map, List.map_eq_flatMap]
    simp only [hbatches]
    rfl

theorem get?_eq_some_iff {entries : List (Path × String)}
    (h : entries.Pairwise fun a b => a.1.same b.1 = false) {path : Path} {text : String} :
    MemoryFiles.get? ⟨entries⟩ path = some text ↔
      ∃ e ∈ entries, e.1.same path = true ∧ e.2 = text := by
  induction entries with
  | nil => simp [MemoryFiles.get?]
  | cons e entries ih =>
      obtain ⟨he, hentries⟩ := List.pairwise_cons.mp h
      have hih := ih hentries
      rw [MemoryFiles.get?] at hih ⊢
      rw [List.exists_mem_cons_iff, List.find?_cons]
      cases hs : e.1.same path with
      | false => simpa using hih
      | true =>
          have hother : ¬ ∃ d ∈ entries, d.1.same path = true ∧ d.2 = text := by
            rintro ⟨d, hd, hsame, -⟩
            have hne := he d hd
            rw [Path.same, decide_eq_false_iff_not] at hne
            exact hne ((of_decide_eq_true hs).trans (of_decide_eq_true hsame).symm)
          simp [hother]

theorem pairwise_rounds (hregistry : options.registry = none) (limit : Nat) (rs : List Round) :
    (observe (Run.rounds options (logged MemoryFiles.create) limit rs)
      .empty).2.2.entries.Pairwise fun a b => a.1.same b.1 = false := by
  have hleft := (rounds_told options MemoryFiles.create limit rs .empty).left_eq
  rw [account_unregistered hregistry] at hleft
  rw [hleft]
  exact pairwise_answersTo _ _ List.Pairwise.nil

/-- Let no round have a companion at the place of a companion of another round, and let no registry be
wanted. Then in whatever order the rounds are processed, the same files stand in memory, as many rounds
are given up, and as many errors and warnings are reported; the companions written are told of in
another order. The files are those of the runs over each round by itself, and so are the calls and the
batches. -/
theorem rounds_of_perm (limit : Nat) {rs rs' : List Round} (hregistry : options.registry = none)
    (hapart : rs.Pairwise (Apart options)) (hperm : rs.Perm rs') :
    let run := fun rs => observe (Run.rounds options (logged MemoryFiles.create) limit rs) .empty
    (∀ path, (run rs').2.2.get? path = (run rs).2.2.get? path) ∧
      (run rs').2.2.entries.Perm (run rs).2.2.entries ∧
      (run rs').1.outcome.abortedRounds = (run rs).1.outcome.abortedRounds ∧
      (run rs').1.outcome.errors = (run rs).1.outcome.errors ∧
      (run rs').1.outcome.warnings = (run rs).1.outcome.warnings ∧
      (run rs').1.outcome.written.Perm (run rs).1.outcome.written ∧
      (∀ path text, (run rs).2.2.get? path = some text ↔
        ∃ round ∈ rs, (run [round]).2.2.get? path = some text) ∧
      (run rs).2.1 = rs.flatMap (fun round => (run [round]).2.1) ∧
      (run rs).1.batches.dropLast = rs.flatMap fun round => (run [round]).1.batches.dropLast := by
  intro run
  have faithful := fun rs => rounds_faithful options MemoryFiles.create limit rs .empty
  have hapart' : rs'.Pairwise (Apart options) := (hperm.pairwise_iff (Apart.symm options)).mp hapart
  obtain ⟨hcalls, hentries, hwritten, hbatches⟩ := rounds_apart hregistry limit hapart
  obtain ⟨-, hentries', hwritten', hbatches'⟩ := rounds_apart hregistry limit hapart'
  have hfiles : (run rs').2.2.entries.Perm (run rs).2.2.entries := by
    rw [hentries, hentries']
    exact hperm.symm.flatMap_right _
  have hreported : (run rs').1.batches.flatten.Perm (run rs).1.batches.flatten := by
    rw [hbatches, hbatches']
    exact ((hperm.symm.flatMap_right _).append_right _).flatten
  have hunion : ∀ rs path text, (run rs).2.2.get? path = some text ↔
      ∃ e ∈ (run rs).2.2.entries, e.1.same path = true ∧ e.2 = text := fun rs _ _ =>
    get?_eq_some_iff (pairwise_rounds hregistry limit rs)
  refine ⟨fun path => Option.ext fun text => ?_, hfiles, ?_, ?_, ?_, ?_, fun path text => ?_, hcalls, ?_⟩
  · rw [hunion, hunion]
    simp only [hfiles.mem_iff]
  · rw [(faithful rs').aborted, (faithful rs).aborted, hperm.countP_eq]
  · rw [(faithful rs').errors, (faithful rs).errors, hreported.countP_eq]
  · rw [(faithful rs').warnings, (faithful rs).warnings, hreported.countP_eq]
  · rw [hwritten, hwritten']
    exact hperm.symm.flatMap_right _
  · rw [hunion, hentries]
    simp only [hunion, List.mem_flatMap]
    constructor
    · rintro ⟨e, ⟨round, hround, he⟩, hsame⟩
      exact ⟨round, hround, e, he, hsame⟩
    · rintro ⟨round, hround, e, he, hsame⟩
      exact ⟨e, ⟨round, hround, he⟩, hsame⟩
  · rw [hbatches, List.dropLast_concat]

def room (name : ClassName) (modifiers : Modifiers) : TypeDecl :=
  ⟨name, .ordinary, ∅, [], [], [⟨"enter", modifiers, [], some [1]⟩]⟩

def lobby : Round := ⟨[room (.ofTopLevel "house" "Lobby") ∅]⟩

def cellar : Round := ⟨[room (.ofTopLevel "house" "Cellar") (.ofList [.privateAccess])]⟩

def attic : Round :=
  ⟨[room ⟨"house", "Attic", ["Chest"]⟩ ∅, room (.ofTopLevel "house" "Attic$Chest") ∅]⟩

def unregistered : Options := { Options.standard with registry := none }

theorem rounds_of_perm_house :
    unregistered.registry = none ∧ [lobby, cellar, attic].Pairwise (Apart unregistered) ∧
    [lobby, cellar, attic].Perm [attic, lobby, cellar] ∧
    let run := fun rs => observe (Run.rounds unregistered (logged MemoryFiles.create) 1 rs) .empty
    (∀ path, (run [attic, lobby, cellar]).2.2.get? path = (run [lobby, cellar, attic]).2.2.get? path) ∧
      (run [attic, lobby, cellar]).1.outcome.errors = (run [lobby, cellar, attic]).1.outcome.errors := by
  have hapart : [lobby, cellar, attic].Pairwise (Apart unregistered) := by decide +kernel
  have hperm : [lobby, cellar, attic].Perm [attic, lobby, cellar] := by decide
  obtain ⟨hfiles, -, -, herrors, -⟩ := rounds_of_perm 1 rfl hapart hperm
  exact ⟨rfl, hapart, hperm, hfiles, herrors⟩

end ViewBinding.Proofs.Independence
