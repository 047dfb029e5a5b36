import ViewBinding.Proofs.Truncation

namespace ViewBinding.Proofs.Evidence

open Tally Truncation

inductive Request where
  | offer (d : Diagnostic)
  | report (d : Diagnostic)
  | flush

def serve (q : Queue) : Request → List Diagnostic × Queue
  | .offer d => ([], (q.offer d).2)
  | .report d => ([], (q.report d).2)
  | .flush => q.flush

def serveAll (q : Queue) : List Request → List Diagnostic × Queue
  | [] => ([], q)
  | r :: rs =>
      let (taken, q) := serve q r
      let (more, q) := serveAll q rs
      (taken ++ more, q)

variable {config : QueueConfig} {q : Queue} {d : Diagnostic}

theorem refuses_iff : q.refuses d = true ↔
    (d.isError = true ∧ 0 < q.config.errorLimit ∧ q.config.errorLimit ≤ q.errors) ∨
      (q.config.deduplicate = true ∧ d ∈ q.items) := by
  simp [Queue.refuses, Queue.limitReached]

theorem add_of_refuses (h : q.refuses d = true) : q.add d = q := if_pos h

theorem add_of_not_refuses (h : q.refuses d = false) : q.add d = q.push d :=
  if_neg (Bool.eq_false_iff.mp h)

theorem push_ne (q : Queue) (d : Diagnostic) : q.push d ≠ q := by
  intro h
  have hlength := congrArg (fun q => q.items.length) h
  simp [Queue.push] at hlength

theorem offer_refused_iff (q : Queue) (d : Diagnostic) :
    (q.offer d).1 = false ↔ (q.offer d).2 = q := by
  cases hr : q.refuses d with
  | false => simp [Queue.offer, hr, add_of_not_refuses hr, push_ne]
  | true => simp [Queue.offer, hr, add_of_refuses hr]

structure Kept (config : QueueConfig) (q : Queue) : Prop extends Counted q where
  config_eq : q.config = config
  within : 0 < config.errorLimit → q.errors ≤ config.errorLimit
  distinct : config.deduplicate = true → q.items.Nodup

theorem kept_empty (config : QueueConfig) : Kept config (.empty config) where
  toCounted := counted_empty config
  config_eq := rfl
  within _ := Nat.zero_le _
  distinct _ := List.nodup_nil

namespace Kept

theorem push (h : Kept config q) (hd : q.refuses d = false) : Kept config (q.push d) := by
  have hnot := refuses_iff.not.mp (Bool.eq_false_iff.mp hd)
  rw [h.config_eq, not_or] at hnot
  obtain ⟨hlimit, hdouble⟩ := hnot
  refine ⟨h.toCounted.push d, h.config_eq, fun hpos => ?_, fun hdedup => ?_⟩
  · have hwithin := h.within hpos
    cases he : d.isError with
    | false => simpa [Queue.push, he] using hwithin
    | true =>
        have hroom : q.errors < config.errorLimit :=
          Nat.lt_of_not_le fun hle => hlimit ⟨he, hpos, hle⟩
        simpa [Queue.push, he] using Nat.succ_le_of_lt hroom
  · have hnew : d ∉ q.items := fun hm => hdouble ⟨hdedup, hm⟩
    have hitems : (q.push d).items = q.items.concat d := List.concat_eq_append.symm
    rw [hitems]
    exact (h.distinct hdedup).concat hnew

theorem add (h : Kept config q) (d : Diagnostic) : Kept config (q.add d) := by
  cases hd : q.refuses d with
  | false => exact add_of_not_refuses hd ▸ h.push hd
  | true => exact (add_of_refuses hd).symm ▸ h

theorem serve (h : Kept config q) (r : Request) : Kept config (serve q r).2 := by
  cases r with
  | offer d => exact h.add d
  | report d => exact h.add d
  | flush => exact h.config_eq ▸ kept_empty q.config

theorem serveAll (h : Kept config q) (rs : List Request) : Kept config (serveAll q rs).2 := by
  induction rs generalizing q with
  | nil => exact h
  | cons r rs ih => exact ih (h.serve r)

theorem held_or_full (h : Kept config q) (d : Diagnostic) :
    d ∈ (q.add d).items ∨ 0 < config.errorLimit ∧ (q.add d).errors = config.errorLimit := by
  cases hr : q.refuses d with
  | false =>
      rw [add_of_not_refuses hr]
      exact .inl (List.mem_append_right _ List.mem_cons_self)
  | true =>
      rw [add_of_refuses hr]
      rcases refuses_iff.mp hr with ⟨-, hpos, hfull⟩ | ⟨-, hm⟩
      · rw [h.config_eq] at hpos hfull
        exact .inr ⟨hpos, Nat.le_antisymm (h.within hpos) hfull⟩
      · exact .inl hm

theorem reported?_isSome_iff (h : Kept config q) :
    q.reported?.isSome = true ↔ ∃ d ∈ q.items, d.isError = true := by
  rw [← List.countP_pos_iff, ← h.errors, Queue.reported?]
  split <;> simp_all

end Kept

theorem mem_add (h : d ∈ q.items) (e : Diagnostic) : d ∈ (q.add e).items := by
  rw [items_add]
  split
  · exact h
  · exact List.mem_append_left _ h

theorem mem_serve (h : d ∈ q.items) (r : Request) : d ∈ (serve q r).1 ++ (serve q r).2.items := by
  cases r with
  | offer e => exact mem_add h e
  | report e => exact mem_add h e
  | flush => exact List.mem_append_left _ h

theorem mem_serveAll (h : d ∈ q.items) (rs : List Request) :
    d ∈ (serveAll q rs).1 ++ (serveAll q rs).2.items := by
  induction rs generalizing q with
  | nil => exact h
  | cons r rs ih =>
      rw [serveAll, List.append_assoc]
      rcases List.mem_append.mp (mem_serve h r) with hm | hm
      · exact List.mem_append_left _ hm
      · exact List.mem_append_right _ (ih hm)

/-- Over any course of requests to an empty queue the counts are those of the diagnostics held, no more
errors are held than the limit allows, and none twice if duplicates are refused. A diagnostic is said not
to be taken exactly if nothing has changed. Whoever reports an error finds evidence of errors: the error
itself or a queue full of them. And an error stays with the queue until it is taken out, so the evidence
is borne out by what has been taken out since and what is held. -/
theorem evidence_holds (config : QueueConfig) (requests : List Request) :
    let q := (serveAll (.empty config) requests).2
    q.errors = q.items.countP Diagnostic.isError ∧
    q.warnings = q.items.countP Diagnostic.isWarning ∧
    (0 < config.errorLimit → q.errors ≤ config.errorLimit) ∧
    (config.deduplicate = true → q.items.Nodup) ∧
    (∀ d, (q.offer d).1 = false ↔ (q.offer d).2 = q) ∧
    (q.reported?.isSome = true ↔ ∃ d ∈ q.items, d.isError = true) ∧
    ∀ d, d.isError = true →
      let after := (q.report d).2
      after.reported?.isSome = true ∧
      (d ∈ after.items ∨
        0 < config.errorLimit ∧ after.items.countP Diagnostic.isError = config.errorLimit) ∧
      ∀ later, ∃ e ∈ (serveAll after later).1 ++ (serveAll after later).2.items,
        e.isError = true := by
  intro q
  have h : Kept config q := (kept_empty config).serveAll requests
  refine ⟨h.errors, h.warnings, h.within, h.distinct, offer_refused_iff q, h.reported?_isSome_iff,
    fun d hd => ?_⟩
  have hafter := h.add d
  have hpos : 0 < (q.add d).errors := (h.errors_add_pos d).mpr (.inr hd)
  rw [hafter.errors, List.countP_pos_iff] at hpos
  refine ⟨hafter.reported?_isSome_iff.mpr hpos, ?_, fun later => ?_⟩
  · have hheld := h.held_or_full d
    rwa [hafter.errors] at hheld
  · obtain ⟨e, hm, he⟩ := hpos
    exact ⟨e, mem_serveAll hm later, he⟩

end ViewBinding.Proofs.Evidence
