import ViewBinding.Proofs.Course

namespace ViewBinding.Proofs.Deposit

open Text Java Grouping Scan Handover History Course

def place (c : ClassName) : Path :=
  (((split '.' c.package).filter fun s => !s.isEmpty).foldl Path.push ⟨""⟩).push
    (c.outermost ++ ".java")

theorem path_eq_place (f : SourceFile) : f.path = place f.className := rfl

/-- The files that were created, in order. -/
def stored (calls : List Call) : List SourceFile := (calls.filter fun c => c.answer.isOk).map Call.file

theorem created_eq_stored (calls : List Call) : created calls = (stored calls).map SourceFile.className := by
  rw [created, stored, List.map_map]
  rfl

theorem entries_answersTo (fs : List SourceFile) (files : MemoryFiles) :
    (answersTo MemoryFiles.create fs files).2.entries =
      files.entries ++
        (stored (callsFor MemoryFiles.create fs files)).map fun f => (f.path, f.render) := by
  induction fs generalizing files with
  | nil => simp [answersTo, callsFor, stored]
  | cons f fs ih =>
      rw [answersTo_cons, callsFor_cons, ih]
      rcases run_create f files with ⟨-, h⟩ | ⟨-, h⟩ <;> rw [h]
      · rfl
      · simp [stored, Except.isOk, Except.toBool]

theorem get?_answersTo (fs : List SourceFile) (files : MemoryFiles) (path : Path) :
    (answersTo MemoryFiles.create fs files).2.get? path =
      (files.get? path).or ((fs.find? fun f => f.path.same path).map SourceFile.render) := by
  induction fs generalizing files with
  | nil => exact Option.or_none.symm
  | cons f fs ih =>
      rw [answersTo_cons, ih, List.find?_cons]
      rcases run_create f files with ⟨hsome, h⟩ | ⟨hnone, h⟩ <;> rw [h]
      · cases hs : f.path.same path with
        | false => rfl
        | true =>
            have hcomponents : f.path.components = path.components := of_decide_eq_true hs
            have hget : files.get? path = files.get? f.path := by
              simp only [MemoryFiles.get?, Path.same, hcomponents]
            obtain ⟨text, htext⟩ := Option.isSome_iff_exists.mp hsome
            rw [hget, htext]
            rfl
      · change (MemoryFiles.get? ⟨_⟩ path).or _ = _
        rw [get?_append, Option.or_assoc]
        cases f.path.same path <;> simp

theorem pairwise_answersTo (fs : List SourceFile) (files : MemoryFiles)
    (h : files.entries.Pairwise fun a b => a.1.same b.1 = false) :
    (answersTo MemoryFiles.create fs files).2.entries.Pairwise fun a b => a.1.same b.1 = false := by
  induction fs generalizing files with
  | nil => exact h
  | cons f fs ih =>
      rw [answersTo_cons]
      rcases run_create f files with ⟨-, hrun⟩ | ⟨hnone, hrun⟩ <;> rw [hrun]
      · exact ih files h
      · refine ih _ (List.pairwise_append.mpr ⟨h, List.pairwise_singleton _ _, fun a ha b hb => ?_⟩)
        rw [MemoryFiles.get?, Option.map_eq_none_iff, List.find?_eq_none] at hnone
        rw [List.mem_singleton.mp hb]
        exact Bool.eq_false_iff.mpr (hnone a ha)

variable (options : Options)

theorem stored_append (cs ds : List Call) : stored (cs ++ ds) = stored cs ++ stored ds := by
  simp [stored]

structure Deposited (done : List Round) (r : Run) (calls : List Call) (files : MemoryFiles) : Prop where
  calls_eq : calls = callsFor MemoryFiles.create (done.flatMap (handed options)) .empty
  files_eq : files = (answersTo MemoryFiles.create (done.flatMap (handed options)) .empty).2
  written : r.outcome.written = created calls
  registry : r.outcome.registry = none

theorem deposited_start (limit : Nat) : Deposited options [] (Run.start limit) [] .empty :=
  ⟨rfl, rfl, rfl, rfl⟩

theorem Deposited.addRound {done : List Round} {r : Run} {calls : List Call} {files : MemoryFiles}
    (h : Deposited options done r calls files) (round : Round) :
    let x := observe (Session.process options (logged MemoryFiles.create) round r.session) files
    Deposited options (done ++ [round]) (r.addRound x.1.1 x.1.2) (calls ++ x.2.1) x.2.2 := by
  obtain ⟨hresult, -, hcalls⟩ := observe_process_eq options MemoryFiles.create round r.session files
  generalize observe (Session.process options (logged MemoryFiles.create) round r.session) files = x
    at hresult hcalls
  obtain ⟨⟨result, s⟩, new, left⟩ := x
  cases hcalls
  have hdone : (done ++ [round]).flatMap (handed options) =
      done.flatMap (handed options) ++ handed options round := by simp
  refine ⟨?_, ?_, ?_, ?_⟩
  · rw [hdone, callsFor_append, ← h.calls_eq, ← h.files_eq]
  · rw [hdone, answersTo_append, ← h.files_eq]
  · rw [created_append, ← h.written]
    cases hup : givenUp options round with
    | true =>
        rw [handed_eq, hup]
        rw [hup] at hresult
        cases result with
        | ok summary => cases hresult
        | error reported => exact (List.append_nil _).symm
    | false =>
        rw [hup] at hresult
        cases result with
        | ok summary =>
            cases hresult
            rfl
        | error reported => cases hresult
  · cases result <;> exact h.registry

/-- What holds of a run at its end. `last` is what was handed over after the rounds. -/
structure Finished (rs : List Round) (r : Run) (calls : List Call) (files : MemoryFiles)
    (last : Option SourceFile) : Prop where
  calls_eq : calls = callsFor MemoryFiles.create (rs.flatMap (handed options) ++ last.toList) .empty
  files_eq : files =
    (answersTo MemoryFiles.create (rs.flatMap (handed options) ++ last.toList) .empty).2
  written : r.outcome.written =
    created (callsFor MemoryFiles.create (rs.flatMap (handed options)) .empty)
  places : (stored calls).map SourceFile.path =
    r.outcome.written.map place ++ r.outcome.registry.toList
  ofRegistry : ∀ f ∈ last, ∃ name entries, options.registry = some name ∧
    f = Registry.file options name entries

theorem Deposited.addEnd {done : List Round} {r : Run} {calls : List Call} {files : MemoryFiles}
    (h : Deposited options done r calls files) :
    let x := observe (Session.finish options (logged MemoryFiles.create) r.session) files
    ∃ last, Finished options done (r.addEnd x.1.1 x.1.2) (calls ++ x.2.1) x.2.2 last := by
  have hwritten : r.outcome.written =
      created (callsFor MemoryFiles.create (done.flatMap (handed options)) .empty) := by
    rw [h.written, h.calls_eq]
  have hplaces : (stored calls).map SourceFile.path = r.outcome.written.map place := by
    rw [h.written, created_eq_stored, List.map_map]
    exact List.map_congr_left fun f _ => path_eq_place f
  rcases finish_cases options (logged MemoryFiles.create) r.session with
    ⟨-, hfinish⟩ | ⟨name, hname, hfinish⟩
  · rw [hfinish, observe_pure]
    refine ⟨none, ?_, ?_, hwritten, ?_, nofun⟩
    · rw [Option.toList_none, List.append_nil, List.append_nil, h.calls_eq]
    · rw [Option.toList_none, List.append_nil, h.files_eq]
    · rw [List.append_nil, hplaces]
      exact (List.append_nil _).symm
  · have hrun := run_create (Registry.file options name r.session.registry) files
    rw [hfinish, observe_map, observe_logged]
    refine ⟨some (Registry.file options name r.session.registry), ?_, ?_, ?_, ?_, ?_⟩
    · rw [Option.toList_some, callsFor_append, ← h.calls_eq, ← h.files_eq]
    · rw [Option.toList_some, answersTo_append, ← h.files_eq]
    · rcases hrun with ⟨-, hrun⟩ | ⟨-, hrun⟩ <;> rw [hrun] <;> exact hwritten
    · rw [stored_append, callsFor_singleton, List.map_append, hplaces]
      rcases hrun with ⟨-, hrun⟩ | ⟨-, hrun⟩ <;> rw [hrun]
      · exact congrArg (fun p : Option Path => _ ++ p.toList) h.registry.symm
      · rfl
    · intro f hf
      exact ⟨name, r.session.registry, hname, (Option.mem_some.mp hf).symm⟩

namespace Finished

variable {options} {rs : List Round} {r : Run} {calls : List Call} {files : MemoryFiles}
  {last : Option SourceFile}

theorem map_file (h : Finished options rs r calls files last) :
    calls.map Call.file = rs.flatMap (handed options) ++ last.toList := by
  rw [h.calls_eq]
  exact map_file_zipWith _ _ (length_answersTo MemoryFiles.create _ _)

theorem map_fst (h : Finished options rs r calls files last) :
    files.entries.map Prod.fst = r.outcome.written.map place ++ r.outcome.registry.toList := by
  rw [h.files_eq, entries_answersTo, ← h.calls_eq, ← h.places, MemoryFiles.empty, List.nil_append,
    List.map_map]
  rfl

theorem size_eq (h : Finished options rs r calls files last) :
    files.size = r.outcome.written.length + if r.outcome.registry.isSome then 1 else 0 := by
  have hlength := congrArg List.length h.map_fst
  rw [List.length_map, List.length_append, List.length_map] at hlength
  rw [MemoryFiles.size, hlength]
  cases r.outcome.registry <;> rfl

theorem get?_eq (h : Finished options rs r calls files last) (path : Path) :
    files.get? path =
      (calls.find? fun c => c.file.path.same path).map fun c => c.file.render := by
  rw [h.files_eq, get?_answersTo, ← h.map_file, List.find?_map, Option.map_map]
  rfl

theorem nodup_written (h : Finished options rs r calls files last) : r.outcome.written.Nodup := by
  rw [h.written]
  exact createsOnce_memoryFiles .empty _

theorem pairwise_entries (h : Finished options rs r calls files last) :
    files.entries.Pairwise fun a b => a.1.same b.1 = false := by
  rw [h.files_eq]
  exact pairwise_answersTo _ _ List.Pairwise.nil

end Finished

/-- A run that starts with an empty memory hands over the files of its rounds and at most one more,
that of the registry. It ends with one file for each companion that it tells of and for the registry if
it tells of one, all under different places, and under each path stands the file that was handed over
for it first. -/
theorem rounds_fill_memory (limit : Nat) (rs : List Round) :
    match observe (Run.rounds options (logged MemoryFiles.create) limit rs) .empty with
    | (run, calls, files) =>
        (∃ last : Option SourceFile,
          calls.map Call.file = rs.flatMap (handed options) ++ last.toList ∧
          ∀ f ∈ last, ∃ name entries, options.registry = some name ∧
            f = Registry.file options name entries) ∧
        run.outcome.written.Nodup ∧
        files.entries.map Prod.fst = run.outcome.written.map place ++ run.outcome.registry.toList ∧
        (files.entries.Pairwise fun a b => a.1.same b.1 = false) ∧
        files.size = run.outcome.written.length + (if run.outcome.registry.isSome then 1 else 0) ∧
        ∀ path, files.get? path =
          (calls.find? fun c => c.file.path.same path).map fun c => c.file.render := by
  obtain ⟨last, h⟩ := observe_rounds options MemoryFiles.create (Deposited options)
    (fun done r calls files => ∃ last, Finished options done r calls files last)
    (deposited_start options limit) (fun _ _ _ _ round h => h.addRound options round)
    (fun _ _ _ _ h => h.addEnd options) rs
  exact ⟨⟨last, h.map_file, h.ofRegistry⟩, h.nodup_written, h.map_fst, h.pairwise_entries, h.size_eq,
    h.get?_eq⟩

end ViewBinding.Proofs.Deposit
