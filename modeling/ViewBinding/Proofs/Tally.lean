import ViewBinding.Proofs.Course

namespace ViewBinding.Proofs.Tally

open Java Grouping Scan Handover History Course

/-- The counts of a queue are those of its diagnostics. -/
structure Counted (q : Queue) : Prop where
  errors : q.errors = q.items.countP Diagnostic.isError
  warnings : q.warnings = q.items.countP Diagnostic.isWarning

theorem counted_empty (config : QueueConfig) : Counted (.empty config) := ⟨rfl, rfl⟩

namespace Counted

variable {q : Queue}

theorem push (h : Counted q) (d : Diagnostic) : Counted (q.push d) where
  errors := by
    simp only [Queue.push, h.errors, List.countP_append, List.countP_singleton]
    split <;> rfl
  warnings := by
    simp only [Queue.push, h.warnings, List.countP_append, List.countP_singleton]
    split <;> rfl

theorem add (h : Counted q) (d : Diagnostic) : Counted (q.add d) := by
  rw [Queue.add]
  split
  · exact h
  · exact h.push d

theorem addAll (h : Counted q) (ds : List Diagnostic) : Counted (q.addAll ds) := by
  induction ds generalizing q with
  | nil => exact h
  | cons d ds ih => exact ih (h.add d)

theorem errors_add_pos (h : Counted q) (d : Diagnostic) :
    0 < (q.add d).errors ↔ 0 < q.errors ∨ d.isError = true := by
  rw [Queue.add]
  split
  · next hrefuses =>
      refine ⟨Or.inl, fun hd => hd.elim id fun hd => ?_⟩
      rw [Queue.refuses, Bool.or_eq_true, Bool.and_eq_true, Bool.and_eq_true] at hrefuses
      rcases hrefuses with ⟨-, hlimit⟩ | ⟨-, hheld⟩
      · simp only [Queue.limitReached, Bool.and_eq_true, decide_eq_true_eq] at hlimit
        exact Nat.lt_of_lt_of_le hlimit.1 hlimit.2
      · rw [h.errors, List.countP_pos_iff]
        exact ⟨d, by simpa using hheld, hd⟩
  · cases hd : d.isError <;> simp [Queue.push, hd]

theorem errors_addAll_pos (h : Counted q) (ds : List Diagnostic) :
    0 < (q.addAll ds).errors ↔ 0 < q.errors ∨ ∃ d ∈ ds, d.isError = true := by
  induction ds generalizing q with
  | nil => simp [Queue.addAll]
  | cons d ds ih =>
      have hstep : q.addAll (d :: ds) = (q.add d).addAll ds := rfl
      rw [hstep, ih (h.add d), h.errors_add_pos, List.exists_mem_cons_iff, or_assoc]

end Counted

variable {σ : Type} (options : Options) (create : Filer (StateM σ))

theorem isError_of_mem_complaints {e : Marked} {d : Diagnostic} (hd : d ∈ complaints options e) :
    d.isError = true := by
  rcases complaints_cases options hd with ⟨marker, member, -, hd⟩ | ⟨fault, -, rfl⟩
  · exact decide_eq_true (of_mem_objections options hd).1
  · cases fault <;> rfl

theorem isError_of_mem_warnings {e : Marked} {d : Diagnostic} (hd : d ∈ warnings e) :
    d.isError = false := by
  cases e with
  | field f => cases hd
  | method m =>
      rw [warnings] at hd
      split at hd
      · rw [List.mem_singleton.mp hd]
        rfl
      · cases hd

theorem isError_writeError (fault : WriteFault) (c : ClassName) :
    (Session.writeError fault c).isError = true := rfl

theorem error_mem_scanReports (es : List Marked) :
    (∃ d ∈ scanReports options es, d.isError = true) ↔ ∃ e ∈ es, complaints options e ≠ [] :=
  exists_mem_scanReports options (fun _ _ hd => Bool.eq_false_iff.mp (isError_of_mem_warnings hd))
    (fun _ _ hd => isError_of_mem_complaints options hd) es

theorem error_mem_refusals (cs : List Companion) (answers : List (Except WriteFault Path)) :
    (∃ d ∈ refusals cs answers, d.isError = true) ↔
      ∃ call ∈ List.zipWith Call.mk (cs.map (Companion.file options)) answers,
        call.answer.isOk = false := by
  induction cs generalizing answers with
  | nil => simp [refusals]
  | cons c cs ih =>
      cases answers with
      | nil => simp [refusals]
      | cons answer answers =>
          rw [List.map_cons, List.zipWith_cons_cons, List.exists_mem_cons_iff, ← ih]
          cases answer with
          | ok path => simp [refusals, Except.isOk, Except.toBool]
          | error fault => simp [refusals, Except.isOk, Except.toBool, isError_writeError]

theorem error_mem_reports (round : Round) (w : σ) :
    (∃ d ∈ reports options round (answersTo create (handed options round) w).1, d.isError = true) ↔
      givenUp options round = true ∨
        ∃ call ∈ callsFor create (handed options round) w, call.answer.isOk = false := by
  have hscan : (∃ d ∈ scanReports options (scanned round), d.isError = true) ↔
      givenUp options round = true := by
    rw [error_mem_scanReports, givenUp, List.any_eq_true]
    simp
  have hrefusals : (∃ d ∈ refusals (companions (scanned round))
      (answersTo create (handed options round) w).1, d.isError = true) ↔
        ∃ call ∈ callsFor create (handed options round) w, call.answer.isOk = false := by
    rw [error_mem_refusals options, callsFor, handed_eq]
    cases givenUp options round
    · rfl
    · simp [answersTo]
  simp only [reports, List.mem_append, or_and_right, exists_or, hscan, hrefusals]

structure Faithful (done : List Round) (r : Run) (calls : List Call) : Prop where
  drained : r.session.queue = .empty r.session.queue.config
  errors : r.outcome.errors = r.batches.flatten.countP Diagnostic.isError
  warnings : r.outcome.warnings = r.batches.flatten.countP Diagnostic.isWarning
  aborted : r.outcome.abortedRounds = done.countP (givenUp options)
  failed : 0 < r.outcome.errors ↔
    0 < r.outcome.abortedRounds ∨ ∃ call ∈ calls, call.answer.isOk = false

theorem faithful_start (limit : Nat) : Faithful options [] (Run.start limit) [] :=
  ⟨rfl, rfl, rfl, rfl, by simp [Run.start]⟩

theorem Faithful.drain {done : List Round} {r : Run} {calls : List Call}
    (h : Faithful options done r calls) (rounds : List Round) (new : List Call)
    (ds : List Diagnostic) {s : Session} (hs : s.queue = r.session.queue.addAll ds) {o : Outcome}
    (herrors : o.errors = r.outcome.errors) (hwarnings : o.warnings = r.outcome.warnings)
    (haborted : o.abortedRounds = r.outcome.abortedRounds + rounds.countP (givenUp options))
    (hds : (∃ d ∈ ds, d.isError = true) ↔
      0 < rounds.countP (givenUp options) ∨ ∃ call ∈ new, call.answer.isOk = false) :
    Faithful options (done ++ rounds) (Run.drain ⟨s, o, r.batches⟩) (calls ++ new) := by
  have hempty : Counted r.session.queue := by
    rw [h.drained]
    exact counted_empty _
  have hcounted : Counted s.queue := by
    rw [hs]
    exact hempty.addAll ds
  have hpos : 0 < s.queue.errors ↔ ∃ d ∈ ds, d.isError = true := by
    rw [hs, hempty.errors_addAll_pos, h.drained]
    exact or_iff_right (Nat.lt_irrefl 0)
  refine ⟨rfl, ?_, ?_, ?_, ?_⟩
  · simp [Run.drain, Queue.flush, herrors, h.errors, hcounted.errors]
  · simp [Run.drain, Queue.flush, hwarnings, h.warnings, hcounted.warnings]
  · rw [List.countP_append, ← h.aborted]
    exact haborted
  · change 0 < o.errors + s.queue.errors ↔ 0 < o.abortedRounds ∨ _
    simp only [herrors, haborted, Nat.add_pos_iff_pos_or_pos, h.failed, hpos, hds, List.mem_append,
      or_and_right, exists_or]
    exact or_or_or_comm

theorem Faithful.addRound {done : List Round} {r : Run} {calls : List Call}
    (h : Faithful options done r calls) (round : Round) (w : σ) :
    let x := observe (Session.process options (logged create) round r.session) w
    Faithful options (done ++ [round]) (r.addRound x.1.1 x.1.2) (calls ++ x.2.1) := by
  obtain ⟨hresult, hqueue, hcalls⟩ := observe_process_eq options create round r.session w
  have hds := error_mem_reports options create round w
  generalize observe (Session.process options (logged create) round r.session) w = x
    at hresult hqueue hcalls
  obtain ⟨⟨result, s⟩, new, left⟩ := x
  cases hcalls
  cases hup : givenUp options round with
  | true =>
      rw [hup] at hresult
      cases result with
      | ok summary => cases hresult
      | error reported =>
          exact h.drain options [round] _ _ hqueue rfl rfl (by simp [hup]) (by simpa [hup] using hds)
  | false =>
      rw [hup] at hresult
      cases result with
      | ok summary =>
          exact h.drain options [round] _ _ hqueue rfl rfl (by simp [hup]) (by simpa [hup] using hds)
      | error reported => cases hresult

theorem Faithful.addEnd {done : List Round} {r : Run} {calls : List Call}
    (h : Faithful options done r calls) (w : σ) :
    let x := observe (Session.finish options (logged create) r.session) w
    Faithful options done (r.addEnd x.1.1 x.1.2) (calls ++ x.2.1) := by
  have hdone : done = done ++ [] := (List.append_nil done).symm
  rcases finish_cases options (logged create) r.session with ⟨-, hfinish⟩ | ⟨name, -, hfinish⟩
  · rw [hfinish, observe_pure, hdone]
    exact h.drain options [] [] [] rfl rfl rfl rfl (by simp)
  · rw [hfinish, observe_map, observe_logged, callsFor_singleton, hdone]
    cases ((create (Registry.file options name r.session.registry)).run w).1 with
    | ok path =>
        exact h.drain options [] [⟨_, .ok path⟩] [] (s := { r.session with registry := [] })
          (o := { r.outcome with registry := some path }) rfl rfl rfl rfl
          (by simp [Except.isOk, Except.toBool])
    | error fault =>
        exact h.drain options [] [⟨_, .error fault⟩] [Session.writeError fault name] rfl rfl rfl rfl
          (by simp [Except.isOk, Except.toBool, isError_writeError])

/-- A run counts the errors and warnings among the diagnostics that it gives out, and it has errors
exactly if a round was given up or a file could not be created, whatever the error limit. -/
theorem rounds_report_failures (limit : Nat) (rs : List Round) (w : σ) :
    match observe (Run.rounds options (logged create) limit rs) w with
    | (run, calls, _) =>
        run.outcome.errors = run.batches.flatten.countP Diagnostic.isError ∧
        run.outcome.warnings = run.batches.flatten.countP Diagnostic.isWarning ∧
        run.outcome.abortedRounds = rs.countP (givenUp options) ∧
        (run.outcome.hasErrors = true ↔
          0 < run.outcome.abortedRounds ∨ ∃ call ∈ calls, call.answer.isOk = false) := by
  have h := observe_rounds options create (fun done r calls _ => Faithful options done r calls)
    (fun done r calls _ => Faithful options done r calls) (w := w) (faithful_start options limit)
    (fun _ _ _ left round h => h.addRound options create round left)
    (fun _ _ _ left h => h.addEnd options create left) rs
  exact ⟨h.errors, h.warnings, h.aborted, decide_eq_true_iff.trans h.failed⟩

end ViewBinding.Proofs.Tally
