import ViewBinding.Proofs.Truncation
import ViewBinding.Proofs.Verdict

namespace ViewBinding.Proofs.Keeping

open Scan Truncation Verdict

/-- The distinct diagnostics of a sequence by their first occurrences. -/
structure Firsts (ds items : List Diagnostic) : Prop where
  mem_iff : ∀ d, d ∈ items ↔ d ∈ ds
  inOrder : items.Pairwise fun d e => ds.idxOf d < ds.idxOf e

theorem refuses_distinct_iff {q : Queue} (hq : q.config = ⟨0, true⟩) (d : Diagnostic) :
    q.refuses d = true ↔ d ∈ q.items := by
  simp [Queue.refuses, Queue.limitReached, hq]

theorem Firsts.add {q : Queue} {ds : List Diagnostic} (h : Firsts ds q.items)
    (hq : q.config = ⟨0, true⟩) (d : Diagnostic) : Firsts (ds ++ [d]) (q.add d).items := by
  have hidx : ∀ e ∈ q.items, (ds ++ [d]).idxOf e = ds.idxOf e := fun e he =>
    List.idxOf_append_of_mem ((h.mem_iff e).mp he)
  have hinOrder : q.items.Pairwise fun e f => (ds ++ [d]).idxOf e < (ds ++ [d]).idxOf f := by
    refine h.inOrder.imp_of_mem fun he hf hlt => ?_
    rwa [hidx _ he, hidx _ hf]
  rw [items_add]
  split
  · next hheld =>
      have hd : d ∈ ds := (h.mem_iff d).mp ((refuses_distinct_iff hq d).mp hheld)
      refine ⟨fun e => ?_, hinOrder⟩
      rw [h.mem_iff, List.mem_append, List.mem_singleton]
      exact ⟨.inl, fun he => he.elim id fun heq => heq ▸ hd⟩
  · next hnew =>
      have hd : d ∉ ds := fun hd => hnew ((refuses_distinct_iff hq d).mpr ((h.mem_iff d).mpr hd))
      refine ⟨fun e => ?_, List.pairwise_append.mpr ⟨hinOrder, List.pairwise_singleton _ d, ?_⟩⟩
      · rw [List.mem_append, List.mem_append, h.mem_iff]
      · intro e he f hf
        have heds : e ∈ ds := (h.mem_iff e).mp he
        rw [List.mem_singleton.mp hf, hidx e he, List.idxOf_append_of_notMem hd]
        exact Nat.lt_of_lt_of_le (List.idxOf_lt_length_of_mem heds) (Nat.le_add_right _ _)

theorem firsts_addAll (ds : List Diagnostic) :
    Firsts ds ((Queue.empty ⟨0, true⟩).addAll ds).items := by
  induction ds using List.reverseRecOn with
  | nil => exact ⟨fun _ => Iff.rfl, .nil⟩
  | append_singleton ds d ih =>
      rw [addAll_append]
      exact ih.add (config_addAll _ ds) d

/-- A list less the errors after the first `n`, told by the place from which on errors are missing. -/
def Less (n : Nat) (ds kept : List Diagnostic) : Prop :=
  ∃ before after, ds = before ++ after ∧ kept = before ++ after.filter (fun d => !d.isError) ∧
    before.countP Diagnostic.isError ≤ n ∧ (after ≠ [] → before.countP Diagnostic.isError = n)

theorem capped_zero (ds : List Diagnostic) : capped 0 ds = ds.filter fun d => !d.isError := by
  induction ds with
  | nil => rfl
  | cons d ds ih => cases hd : d.isError <;> simp [capped, hd, ih]

theorem less_capped (n : Nat) (ds : List Diagnostic) : Less n ds (capped n ds) := by
  induction ds generalizing n with
  | nil => exact ⟨[], [], rfl, by cases n <;> rfl, Nat.zero_le n, fun h => absurd rfl h⟩
  | cons d ds ih =>
      cases n with
      | zero => exact ⟨[], d :: ds, rfl, capped_zero (d :: ds), Nat.le_refl 0, fun _ => rfl⟩
      | succ n =>
          obtain ⟨before, after, hds, hkept, hle, heq⟩ := ih (if d.isError then n else n + 1)
          refine ⟨d :: before, after, ?_, ?_, ?_, fun hafter => ?_⟩
          · rw [hds, List.cons_append]
          · rw [capped, hkept, List.cons_append]
          · rw [List.countP_cons]
            split_ifs at hle ⊢ <;> omega
          · rw [List.countP_cons, heq hafter]
            split_ifs <;> rfl

variable {config : QueueConfig}

theorem cut_addAll (hlimit : 0 < config.errorLimit) (ds : List Diagnostic) :
    Cut (config.errorLimit - 1) ((Queue.empty config).addAll ds)
      ((Queue.empty { config with errorLimit := 0 }).addAll ds) := by
  have hempty : Cut (config.errorLimit - 1) (.empty config) (.empty { config with errorLimit := 0 }) :=
    ⟨(Nat.sub_add_cancel hlimit).symm, rfl, rfl, Tally.counted_empty _, rfl⟩
  exact hempty.addAll ds

/-- Offered the same diagnostics, a queue with a limit holds what one without holds, less the errors after
the last one allowed. Warnings and notes are taken or refused by both alike and held in the same order.
What the queue without a limit holds is the whole sequence or, if duplicates are refused, its distinct
diagnostics by their first occurrences. -/
theorem limit_removes_later_errors (hlimit : 0 < config.errorLimit) (ds : List Diagnostic) :
    let limited := (Queue.empty config).addAll ds
    let unlimited := (Queue.empty { config with errorLimit := 0 }).addAll ds
    Less config.errorLimit unlimited.items limited.items ∧
    limited.items.filter (fun d => !d.isError) = unlimited.items.filter (fun d => !d.isError) ∧
    (∀ d, d.isError = false → (limited.offer d).1 = (unlimited.offer d).1) ∧
    (config.deduplicate = true → Firsts ds unlimited.items) ∧
    (config.deduplicate = false → unlimited.items = ds) := by
  intro limited unlimited
  have hcut := cut_addAll hlimit ds
  have hitems : limited.items = capped config.errorLimit unlimited.items := by
    rw [← Nat.sub_add_cancel hlimit]
    exact hcut.items
  refine ⟨?_, ?_, fun d hd => ?_, fun hdistinct => ?_, fun hall => ?_⟩
  · rw [hitems]
    exact less_capped _ _
  · rw [hitems]
    exact filter_capped (fun _ he => by rw [he]; rfl) _ _
  · have hrefuses := hcut.refuses_eq (d := d) fun h => by
      rw [hd] at h
      cases h.1
    exact congrArg (!·) hrefuses
  · have hconfig : { config with errorLimit := 0 } = (⟨0, true⟩ : QueueConfig) := by rw [hdistinct]
    have hfirsts := firsts_addAll ds
    rwa [← hconfig] at hfirsts
  · exact items_addAll_unlimited (q := .empty { config with errorLimit := 0 }) (by rw [hall]; rfl) ds

def hidden (field : String) : Diagnostic := .error .hiddenMember field

def idle (method : String) : Diagnostic := .warning .noViewIds method

/-- One error is allowed. The second one comes before a warning, and all come twice. -/
theorem limit_removes_later_errors_repeated :
    0 < (⟨1, true⟩ : QueueConfig).errorLimit ∧
    let ds := [hidden "a", hidden "a", hidden "b", idle "tap", hidden "b", idle "tap"]
    ((Queue.empty ⟨1, true⟩).addAll ds).items = [hidden "a", idle "tap"] ∧
    ((Queue.empty ⟨0, true⟩).addAll ds).items = [hidden "a", hidden "b", idle "tap"] ∧
    Less 1 [hidden "a", hidden "b", idle "tap"] [hidden "a", idle "tap"] ∧
    Firsts ds [hidden "a", hidden "b", idle "tap"] := by
  have hlimit : 0 < (⟨1, true⟩ : QueueConfig).errorLimit := Nat.one_pos
  obtain ⟨hless, -, -, hfirsts, -⟩ := limit_removes_later_errors hlimit
    [hidden "a", hidden "a", hidden "b", idle "tap", hidden "b", idle "tap"]
  exact ⟨hlimit, by decide, by decide, hless, hfirsts rfl⟩

end ViewBinding.Proofs.Keeping
