import ViewBinding.Proofs.Tally

namespace ViewBinding.Proofs.Truncation

open Tally

/-- A list without the errors after the first `n`. -/
def capped : Nat → List Diagnostic → List Diagnostic
  | _, [] => []
  | 0, d :: ds => if d.isError then capped 0 ds else d :: capped 0 ds
  | n + 1, d :: ds => d :: capped (if d.isError then n else n + 1) ds

theorem capped_append_singleton (n : Nat) (ds : List Diagnostic) (d : Diagnostic) :
    capped n (ds ++ [d]) =
      capped n ds ++ if d.isError = true ∧ n ≤ ds.countP Diagnostic.isError then [] else [d] := by
  induction ds generalizing n with
  | nil => cases n <;> cases hd : d.isError <;> simp [capped, hd]
  | cons e ds ih => cases n <;> cases he : e.isError <;> simp [capped, he, ih]

theorem capped_of_le {n : Nat} {ds : List Diagnostic} (h : ds.countP Diagnostic.isError ≤ n) :
    capped n ds = ds := by
  induction ds using List.reverseRecOn with
  | nil => cases n <;> rfl
  | append_singleton ds d ih =>
      rw [List.countP_append, List.countP_singleton] at h
      rw [capped_append_singleton, ih (by omega), if_neg]
      rintro ⟨hd, hn⟩
      rw [if_pos hd] at h
      omega

theorem countP_isError_capped (n : Nat) (ds : List Diagnostic) :
    (capped n ds).countP Diagnostic.isError = min n (ds.countP Diagnostic.isError) := by
  induction ds using List.reverseRecOn with
  | nil => cases n <;> simp [capped]
  | append_singleton ds d ih =>
      rw [capped_append_singleton, List.countP_append, List.countP_append, List.countP_singleton, ih]
      split
      · next h =>
          rw [if_pos h.1, List.countP_nil]
          omega
      · next h =>
          rw [List.countP_singleton]
          split
          · next hd =>
              have hn : ¬ n ≤ ds.countP Diagnostic.isError := fun hn => h ⟨hd, hn⟩
              omega
          · omega

theorem filter_capped {p : Diagnostic → Bool} (hp : ∀ d, d.isError = true → p d = false) (n : Nat)
    (ds : List Diagnostic) : (capped n ds).filter p = ds.filter p := by
  induction ds using List.reverseRecOn with
  | nil => cases n <;> rfl
  | append_singleton ds d ih =>
      rw [capped_append_singleton, List.filter_append, List.filter_append, ih]
      split
      · next h => rw [List.filter_cons_of_neg (by simp [hp d h.1])]
      · rfl

theorem mem_capped {d : Diagnostic} (hd : d.isError = false) (n : Nat) (ds : List Diagnostic) :
    d ∈ capped n ds ↔ d ∈ ds := by
  have hfilter := filter_capped (p := fun d => !d.isError) (fun _ h => by simp [h]) n ds
  have hmem : d ∈ (capped n ds).filter (fun d => !d.isError) ↔ d ∈ ds.filter fun d => !d.isError := by
    rw [hfilter]
  simpa [hd] using hmem

theorem countP_isWarning_capped (n : Nat) (ds : List Diagnostic) :
    (capped n ds).countP Diagnostic.isWarning = ds.countP Diagnostic.isWarning := by
  have hwarning : ∀ d : Diagnostic, d.isError = true → d.isWarning = false := by
    intro d hd
    rw [Diagnostic.isError, decide_eq_true_eq] at hd
    rw [Diagnostic.isWarning, hd]
    rfl
  rw [List.countP_eq_length_filter, List.countP_eq_length_filter, filter_capped hwarning]

theorem config_add (q : Queue) (d : Diagnostic) : (q.add d).config = q.config := by
  rw [Queue.add]
  split <;> rfl

theorem items_add (q : Queue) (d : Diagnostic) :
    (q.add d).items = if q.refuses d = true then q.items else q.items ++ [d] := by
  rw [Queue.add]
  split <;> rfl

theorem config_addAll (q : Queue) (ds : List Diagnostic) : (q.addAll ds).config = q.config := by
  induction ds generalizing q with
  | nil => rfl
  | cons d ds ih => exact (ih (q.add d)).trans (config_add q d)

/-- A queue with the limit `n + 1` beside one without a limit. -/
structure Cut (n : Nat) (q u : Queue) : Prop where
  limit : q.config.errorLimit = n + 1
  unlimited : u.config.errorLimit = 0
  deduplicate : q.config.deduplicate = u.config.deduplicate
  counted : Counted q
  items : q.items = capped (n + 1) u.items

namespace Cut

variable {n : Nat} {q u : Queue}

theorem limitReached_iff (h : Cut n q u) :
    q.limitReached = true ↔ n + 1 ≤ u.items.countP Diagnostic.isError := by
  have herrors : q.errors = min (n + 1) (u.items.countP Diagnostic.isError) := by
    rw [h.counted.errors, h.items, countP_isError_capped]
  simp only [Queue.limitReached, h.limit, herrors, Bool.and_eq_true, decide_eq_true_eq]
  omega

theorem refuses_unlimited (h : Cut n q u) (d : Diagnostic) :
    u.refuses d = (u.config.deduplicate && u.items.contains d) := by
  simp [Queue.refuses, Queue.limitReached, h.unlimited]

theorem refuses_eq (h : Cut n q u) {d : Diagnostic}
    (hd : ¬ (d.isError = true ∧ n + 1 ≤ u.items.countP Diagnostic.isError)) :
    q.refuses d = u.refuses d := by
  have hlimit : (d.isError && q.limitReached) = false := by
    rw [Bool.and_eq_false_iff, or_iff_not_imp_left]
    intro he
    rw [← Bool.not_eq_true, h.limitReached_iff]
    exact fun hn => hd ⟨by simpa using he, hn⟩
  have hmem : d ∈ q.items ↔ d ∈ u.items := by
    rw [h.items]
    cases he : d.isError with
    | false => exact mem_capped he _ _
    | true =>
        have hn : ¬ n + 1 ≤ u.items.countP Diagnostic.isError := fun hn => hd ⟨he, hn⟩
        rw [capped_of_le (by omega)]
  have hcontains : q.items.contains d = u.items.contains d := by
    rw [Bool.eq_iff_iff, List.contains_iff_mem, List.contains_iff_mem, hmem]
  rw [h.refuses_unlimited, Queue.refuses, hlimit, Bool.false_or, h.deduplicate, hcontains]

theorem add (h : Cut n q u) (d : Diagnostic) : Cut n (q.add d) (u.add d) where
  limit := by rw [config_add, h.limit]
  unlimited := by rw [config_add, h.unlimited]
  deduplicate := by rw [config_add, config_add, h.deduplicate]
  counted := h.counted.add d
  items := by
    rw [items_add, items_add]
    by_cases hd : d.isError = true ∧ n + 1 ≤ u.items.countP Diagnostic.isError
    -- beyond the limit the one queue refuses `d`; what the other does with it is cut off
    · have hrefuses : q.refuses d = true := by
        rw [Queue.refuses, hd.1, h.limitReached_iff.mpr hd.2]
        rfl
      rw [if_pos hrefuses, h.items]
      split
      · rfl
      · rw [capped_append_singleton, if_pos hd, List.append_nil]
    · rw [h.refuses_eq hd, h.items]
      split
      · rfl
      · rw [capped_append_singleton, if_neg hd]

theorem addAll (h : Cut n q u) (ds : List Diagnostic) : Cut n (q.addAll ds) (u.addAll ds) := by
  induction ds generalizing q u with
  | nil => exact h
  | cons d ds ih => exact ih (h.add d)

end Cut

/-- What an empty queue of a run holds after some diagnostics have been offered to it. -/
def held (limit : Nat) (ds : List Diagnostic) : List Diagnostic :=
  ((Queue.empty ⟨limit, true⟩).addAll ds).items

theorem items_addAll_limited (n : Nat) (deduplicate : Bool) (ds : List Diagnostic) :
    ((Queue.empty ⟨n + 1, deduplicate⟩).addAll ds).items =
      capped (n + 1) ((Queue.empty ⟨0, deduplicate⟩).addAll ds).items := by
  have hempty : Cut n (.empty ⟨n + 1, deduplicate⟩) (.empty ⟨0, deduplicate⟩) :=
    ⟨rfl, rfl, rfl, counted_empty _, rfl⟩
  exact (hempty.addAll ds).items

end ViewBinding.Proofs.Truncation
