import ViewBinding.Proofs.Chronicle

namespace ViewBinding.Proofs.Limits

open Handover History Course Tally Truncation Chronicle

variable {σ : Type} (options : Options) (create : Filer (StateM σ))

theorem countP_isWarning_held (limit : Nat) (ds : List Diagnostic) :
    (held limit ds).countP Diagnostic.isWarning = (held 0 ds).countP Diagnostic.isWarning := by
  cases limit with
  | zero => rfl
  | succ n => rw [held, items_addAll_limited, countP_isWarning_capped, held]

theorem countP_isWarning_flatten_held (limit : Nat) (offered : List (List Diagnostic)) :
    (offered.map (held limit)).flatten.countP Diagnostic.isWarning =
      (offered.map (held 0)).flatten.countP Diagnostic.isWarning := by
  rw [List.countP_flatten, List.countP_flatten, List.map_map, List.map_map]
  exact congrArg List.sum (List.map_congr_left fun ds _ => countP_isWarning_held limit ds)

theorem map_held_succ (n : Nat) (offered : List (List Diagnostic)) :
    offered.map (held (n + 1)) = (offered.map (held 0)).map (capped (n + 1)) := by
  rw [List.map_map]
  exact List.map_congr_left fun ds _ => items_addAll_limited n true ds

/-- Runs over the same rounds make the same calls and leave the filer in the same state, whatever their
error limits are. They tell of the same companions, of the same registry, of as many rounds given up
and of as many warnings, and either both have errors or neither has. They give out one batch for each
round and one for the end; with a limit these are the batches of the unlimited run without the errors
beyond the limit. -/
theorem rounds_agree_up_to_limit (rs : List Round) (w : σ) :
    let run := fun limit => observe (Run.rounds options (logged create) limit rs) w
    (∀ m n,
      (run m).2 = (run n).2 ∧
      (run m).1.outcome.written = (run n).1.outcome.written ∧
      (run m).1.outcome.registry = (run n).1.outcome.registry ∧
      (run m).1.outcome.abortedRounds = (run n).1.outcome.abortedRounds ∧
      (run m).1.outcome.warnings = (run n).1.outcome.warnings ∧
      (run m).1.outcome.hasErrors = (run n).1.outcome.hasErrors) ∧
    ∀ n,
      (run n).1.batches.length = rs.length + 1 ∧
      (run (n + 1)).1.batches = (run 0).1.batches.map (capped (n + 1)) := by
  intro run
  have told := fun limit => rounds_told options create limit rs w
  have faithful := fun limit => rounds_faithful options create limit rs w
  refine ⟨fun m n => ?_, fun n => ⟨?_, ?_⟩⟩
  · have hcalls : (run m).2.1 = (run n).2.1 := (told m).calls_eq.trans (told n).calls_eq.symm
    have haborted := (faithful m).aborted.trans (faithful n).aborted.symm
    refine ⟨Prod.ext hcalls ((told m).left_eq.trans (told n).left_eq.symm),
      (told m).written.trans (told n).written.symm, (told m).registry.trans (told n).registry.symm,
      haborted, ?_, ?_⟩
    · have hwarnings : ∀ limit, (run limit).1.outcome.warnings =
          ((account options create rs w).offered.map (held 0)).flatten.countP Diagnostic.isWarning := by
        intro limit
        rw [(faithful limit).warnings, (told limit).batches, countP_isWarning_flatten_held]
      rw [hwarnings, hwarnings]
    · have hfailed : 0 < (run m).1.outcome.errors ↔ 0 < (run n).1.outcome.errors := by
        rw [(faithful m).failed, (faithful n).failed, haborted, hcalls]
      exact decide_eq_decide.mpr hfailed
  · rw [(told n).batches, List.length_map, account, List.length_append, List.length_map,
      length_answered]
    rfl
  · rw [(told (n + 1)).batches, (told 0).batches, map_held_succ]

end ViewBinding.Proofs.Limits
