import ViewBinding.Proofs.Course
import ViewBinding.Proofs.Verdict

namespace ViewBinding.Proofs.Attempts

open Java Grouping Scan Handover History Course Verdict

variable {σ : Type} (options : Options)

/-- Each host of a round with the call that was made for it. -/
def attempts (round : Round) (calls : List Call) : List (ClassName × Call) :=
  (hosts (scanned round)).zip calls

def fulfilled (a : ClassName × Call) : Bool := a.2.answer.isOk

def refusal? (a : ClassName × Call) : Option Diagnostic :=
  match a.2.answer with
  | .ok _ => none
  | .error fault => some (Session.writeError fault a.1)

def brief (d : Diagnostic) : Severity × String × Option Site := (d.severity, d.code.text, d.primary?)

def briefRefusal? (a : ClassName × Call) : Option (Severity × String × Option Site) :=
  match a.2.answer with
  | .ok _ => none
  | .error (.recreated _) => some (.error, "E3002", some (.type a.1))
  | .error (.failed _ _) => some (.error, "E3001", some (.type a.1))

section Sorted

variable {round : Round} {calls : List Call} (h : calls.map Call.file = Handover.files options round)

include h

theorem length_calls : calls.length = (hosts (scanned round)).length := by
  have hlength := congrArg List.length h
  rwa [List.length_map, Handover.files, companions, List.length_map, List.length_map] at hlength

theorem map_snd_attempts : (attempts round calls).map Prod.snd = calls :=
  List.map_snd_zip (Nat.le_of_eq (length_calls options h))

theorem map_fst_attempts : (attempts round calls).map Prod.fst = hosts (scanned round) :=
  List.map_fst_zip (Nat.le_of_eq (length_calls options h).symm)

theorem map_attempts :
    (attempts round calls).map (fun a => (a.1, a.2.file)) =
      (hosts (scanned round)).map fun host => (host, (companionOf (scanned round) host).file options) := by
  have hzip : (attempts round calls).map (fun a => (a.1, a.2.file)) =
      (hosts (scanned round)).zip (calls.map Call.file) := List.zip_map_right.symm
  have hpairs := List.zip_map' (f := fun host : ClassName => host)
    (g := fun host => (companionOf (scanned round) host).file options) (l := hosts (scanned round))
  rw [List.map_id'] at hpairs
  rw [hzip, h, Handover.files, companions, List.map_map]
  exact hpairs

theorem className_attempt {a : ClassName × Call} (ha : a ∈ attempts round calls) :
    a.2.file.className = options.companionName a.1 := by
  have hmem := List.mem_map_of_mem (f := fun a : ClassName × Call => (a.1, a.2.file)) ha
  rw [map_attempts options h] at hmem
  obtain ⟨host, -, hhost⟩ := List.mem_map.mp hmem
  obtain ⟨hname, hfile⟩ := Prod.mk.inj hhost
  rw [← hname, ← hfile]
  rfl

theorem map_className_filter (p : Call → Bool) :
    (calls.filter p).map (fun c => c.file.className) =
      ((attempts round calls).filter fun a => p a.2).map fun a => options.companionName a.1 := by
  conv_lhs => rw [← map_snd_attempts options h]
  rw [List.filter_map, List.map_map]
  exact List.map_congr_left fun a ha => className_attempt options h (List.mem_of_mem_filter ha)

theorem kept_eq_attempts :
    kept round calls =
      ((attempts round calls).filter fun a => fulfilled a && visible (scanned round) a.1).map
        fun a => ⟨a.1, options.companionName a.1⟩ := by
  rw [← List.filterMap_eq_map', List.filterMap_filter]
  refine List.filterMap_congr fun (host, call) ha => ?_
  rw [← className_attempt options h ha]
  rfl

end Sorted

theorem refusals_eq_attempts (round : Round) (calls : List Call) :
    refusals (companions (scanned round)) (calls.map Call.answer) =
      (attempts round calls).filterMap refusal? := by
  rw [refusals, companions, List.zip_map, List.filterMap_map]
  refine List.filterMap_congr fun a _ => ?_
  rw [refusal?]
  rfl

theorem map_answer_callsFor (create : Filer (StateM σ)) (files : List SourceFile) (w : σ) :
    (callsFor create files w).map Call.answer = (answersTo create files w).1 := by
  induction files generalizing w with
  | nil => rfl
  | cons f files ih => rw [callsFor_cons, answersTo_cons, List.map_cons, ih]

theorem flatMap_warnings_scanned (round : Round) :
    (scanned round).flatMap warnings =
      (round.markedMethods.filter fun m => m.ids.isEmpty).map fun m => Session.noIdsWarning m.site := by
  have hfields : (round.markedFields.map Marked.field).flatMap warnings = [] := by
    simp [List.flatMap_map, warnings]
  rw [scanned, List.flatMap_append, hfields, List.nil_append, List.flatMap_map]
  induction round.markedMethods with
  | nil => rfl
  | cons m ms ih =>
      rw [List.flatMap_cons, ih, List.filter_cons, warnings]
      split <;> rfl

theorem map_brief_reports (handlers : List MarkedMethod) (as : List (ClassName × Call)) :
    (handlers.map (fun m => Session.noIdsWarning m.site) ++ as.filterMap refusal?).map brief =
      handlers.map (fun m => (.warning, "W2001", some m.site)) ++ as.filterMap briefRefusal? := by
  have hrefusal : ∀ a, (refusal? a).map brief = briefRefusal? a := by
    intro a
    rw [refusal?, briefRefusal?]
    cases a.2.answer with
    | ok path => rfl
    | error fault => cases fault <;> rfl
  rw [List.map_append, List.map_map, List.map_filterMap]
  simp only [hrefusal]
  rfl

/-- A round that is not given up makes one attempt for each of its hosts, in the order in which they
are first met, whatever the filer answers. The companions written and those that failed are the
fulfilled attempts and the others; the visible hosts of the fulfilled ones enter the registry; and an
unlimited queue gets the warnings about handlers without views and then a report of each attempt that
failed, with the code of the fault, about the host. -/
theorem process_sorts_attempts (create : Filer (StateM σ)) (round : Round) (s : Session) (w : σ) :
    match observe (Session.process options (logged create) round s) w with
    | ((.ok summary, after), calls, _) =>
        (attempts round calls).map (fun a => (a.1, a.2.file)) =
          (hosts (scanned round)).map
            (fun host => (host, (companionOf (scanned round) host).file options)) ∧
        (attempts round calls).map Prod.snd = calls ∧
        summary.written =
          ((attempts round calls).filter fulfilled).map (fun a => options.companionName a.1) ∧
        summary.failed =
          ((attempts round calls).filter fun a => !fulfilled a).map
            (fun a => options.companionName a.1) ∧
        (summary.written ++ summary.failed).Perm
          ((hosts (scanned round)).map options.companionName) ∧
        after.registry = s.registry ++
          ((attempts round calls).filter fun a => fulfilled a && visible (scanned round) a.1).map
            (fun a => ⟨a.1, options.companionName a.1⟩) ∧
        (s.queue.config = .unlimited →
          let handlers := round.markedMethods.filter fun m => m.ids.isEmpty
          let reports := handlers.map (fun m => Session.noIdsWarning m.site) ++
            (attempts round calls).filterMap refusal?
          after.queue.items = s.queue.items ++ reports ∧
          reports.map brief =
            handlers.map (fun m => (.warning, "W2001", some m.site)) ++
              (attempts round calls).filterMap briefRefusal?)
    | ((.error _, _), _, _) => ∃ e ∈ scanned round, Offends options e := by
  obtain ⟨result, after, hrun, ⟨hup, -, reported, rfl⟩ | ⟨hup, rfl⟩, hregistry, hqueue⟩ :=
    observe_process_cases options create round s w
  · rw [hrun]
    obtain ⟨e, he, hcomplaints⟩ := List.any_eq_true.mp hup
    refine ⟨e, he, not_not.mp ((complaints_eq_nil options).not.mp fun hnil => ?_)⟩
    rw [hnil] at hcomplaints
    cases hcomplaints
  · have hhanded : handed options round = Handover.files options round := by
      rw [handed_eq, hup]
      rfl
    have hpassed : ∀ e ∈ scanned round, complaints options e = [] := by
      simpa [givenUp] using hup
    rw [reports, scanReports_passed options hpassed, flatMap_warnings_scanned,
      ← map_answer_callsFor, refusals_eq_attempts] at hqueue
    rw [hrun]
    rw [hhanded] at hregistry hqueue ⊢
    have hfiles : (callsFor create (Handover.files options round) w).map Call.file =
        Handover.files options round := map_file_zipWith _ _ (length_answersTo create _ w)
    generalize callsFor create (Handover.files options round) w = calls at hregistry hqueue hfiles
    have hwritten : created calls = _ := map_className_filter options hfiles fun c => c.answer.isOk
    have hfailed : refused calls = _ := map_className_filter options hfiles fun c => !c.answer.isOk
    refine ⟨map_attempts options hfiles, map_snd_attempts options hfiles, hwritten, hfailed, ?_, ?_,
      fun hq => ⟨?_, map_brief_reports _ _⟩⟩
    -- every attempt is fulfilled or not, and never both
    · rw [hwritten, hfailed, ← List.map_append, ← map_fst_attempts options hfiles, List.map_map]
      exact (List.filter_append_perm fulfilled _).map _
    · rw [hregistry, kept_eq_attempts options hfiles]
    · rw [hqueue, items_addAll_unlimited hq]

def handling (name : String) (ids : List ViewId) : TypeDecl :=
  ⟨.ofTopLevel "app" name, .ordinary, .ofList [.publicAccess], [], [], [⟨"choose", ∅, [], some ids⟩]⟩

def menuAndGallery : Round := ⟨[handling "Menu" [], handling "Gallery" [1]]⟩

def withoutMenu : Filer (StateM MemoryFiles) := Filer.refusing ["Menu$$Proxy"] MemoryFiles.create

/-- The companion of the first host cannot be written; that of the second is, and enters the registry. -/
theorem process_sorts_menuAndGallery :
    (Session.start .unlimited).queue.config = .unlimited ∧
    match observe (Session.process .standard (logged withoutMenu) menuAndGallery (.start .unlimited))
      .empty with
    | ((.ok summary, after), _, _) =>
        summary.written = [.ofTopLevel "app" "Gallery$$Proxy"] ∧
        summary.failed = [.ofTopLevel "app" "Menu$$Proxy"] ∧
        after.registry = [⟨.ofTopLevel "app" "Gallery", .ofTopLevel "app" "Gallery$$Proxy"⟩] ∧
        after.queue.items.map brief =
          [(.warning, "W2001", some (.method (.ofTopLevel "app" "Menu") "choose" [])),
            (.error, "E3001", some (.type (.ofTopLevel "app" "Menu")))]
    | ((.error _, _), _, _) => False := by
  have h := process_sorts_attempts .standard withoutMenu menuAndGallery (.start .unlimited) .empty
  have hpassed : givenUp .standard menuAndGallery = false := rfl
  refine ⟨rfl, ?_⟩
  obtain ⟨result, after, hrun, ⟨hup, -⟩ | ⟨-, rfl⟩, -⟩ :=
    observe_process_cases .standard withoutMenu menuAndGallery (.start .unlimited) .empty
  · rw [hpassed] at hup
    cases hup
  · rw [hrun] at h ⊢
    obtain ⟨-, -, hwritten, hfailed, -, hregistry, hqueue⟩ := h
    exact ⟨hwritten, hfailed, hregistry, (congrArg (List.map brief) (hqueue rfl).1).trans (hqueue rfl).2⟩

end ViewBinding.Proofs.Attempts
