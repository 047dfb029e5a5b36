import ViewBinding.Proofs.Chronicle

namespace ViewBinding.Proofs.Survivors

open Java Grouping Scan Handover History Course Tally Chronicle

variable {σ : Type} (options : Options) (create : Filer (StateM σ))

/-- The rounds that a run does not give up, found by going through it. -/
def survivors : List Round → Run → σ → List Round
  | [], _, _ => []
  | round :: rs, r, w =>
      match observe (Session.process options (logged create) round r.session) w with
      | ((.ok summary, s), _, left) => round :: survivors rs (r.addRound (.ok summary) s) left
      | ((.error reported, s), _, left) => survivors rs (r.addRound (.error reported) s) left

theorem survivors_eq (rs : List Round) (r : Run) (w : σ) :
    survivors options create rs r w = rs.filter fun round => !givenUp options round := by
  induction rs generalizing r w with
  | nil => rfl
  | cons round rs ih =>
      obtain ⟨result, s, hrun, ⟨hup, -, reported, rfl⟩ | ⟨hup, rfl⟩, -⟩ :=
        observe_process_cases options create round r.session w
      · rw [survivors, hrun, List.filter_cons_of_neg (by simp [hup])]
        exact ih _ _
      · rw [survivors, hrun, List.filter_cons_of_pos (by simp [hup])]
        exact congrArg (round :: ·) (ih _ _)

theorem flatMap_filter_not {α β : Type} {p : α → Bool} {f : α → List β}
    (hf : ∀ a, p a = true → f a = []) (l : List α) :
    (l.filter fun a => !p a).flatMap f = l.flatMap f := by
  induction l with
  | nil => rfl
  | cons a l ih =>
      rw [List.filter_cons, List.flatMap_cons]
      cases hp : p a with
      | true => rw [hf a hp, List.nil_append, ← ih]; rfl
      | false => rw [← ih, ← List.flatMap_cons]; rfl

theorem handed_of_givenUp (round : Round) (h : givenUp options round = true) :
    handed options round = [] := by
  rw [handed_eq, if_pos h]

theorem calls_of_givenUp (a : Answered) (h : givenUp options a.round = true) : a.calls options = [] := by
  rw [Answered.calls, handed_of_givenUp options _ h, List.zipWith_nil_left]

theorem entries_of_givenUp (a : Answered) (h : givenUp options a.round = true) :
    a.entries options = [] := by
  rw [Answered.entries, calls_of_givenUp options a h, kept, List.zip_nil_right, List.filterMap_nil]

theorem leftBy_survivors (rs : List Round) (w : σ) :
    leftBy options create (rs.filter fun round => !givenUp options round) w =
      leftBy options create rs w := by
  rw [leftBy, flatMap_filter_not (handed_of_givenUp options), leftBy]

theorem answered_survivors (rs : List Round) (w : σ) :
    answered options create (rs.filter fun round => !givenUp options round) w =
      (answered options create rs w).filter fun a => !givenUp options a.round := by
  induction rs generalizing w with
  | nil => rfl
  | cons round rs ih =>
      rw [answered, List.filter_cons, List.filter_cons, ← ih]
      cases hup : givenUp options round with
      | true =>
          -- nothing is asked of the filer, so the next round meets the state that this one met
          have hleft : leftBy options create [round] w = w := by
            rw [leftBy_singleton, handed_of_givenUp options round hup]
            rfl
          simp only [answerRound, hup, hleft, Bool.not_true, Bool.false_eq_true, if_false]
      | false => simp only [answerRound, hup, Bool.not_false, if_true, answered]

theorem account_survivors (rs : List Round) (w : σ) :
    ∃ offered, account options create (rs.filter fun round => !givenUp options round) w =
      { account options create rs w with offered } := by
  have hcalls := flatMap_filter_not (calls_of_givenUp options) (answered options create rs w)
  have hentries := flatMap_filter_not (entries_of_givenUp options) (answered options create rs w)
  refine ⟨(account options create (rs.filter fun round => !givenUp options round) w).offered, ?_⟩
  simp only [account, answered_survivors, leftBy_survivors, hcalls, hentries]

/-- Let a run be repeated without the rounds that it gives up, from the same state of the filer. No round
is given up this time, and the calls, the state in which they leave the filer, the companions written
and the registry are the same. -/
theorem rounds_survivors (limit : Nat) (rs : List Round) (w : σ) :
    let run := fun rs => observe (Run.rounds options (logged create) limit rs) w
    let rest := survivors options create rs (Run.start limit) w
    rest.Sublist rs ∧ rest.length + (run rs).1.outcome.abortedRounds = rs.length ∧
      (run rest).1.outcome.abortedRounds = 0 ∧
      (run rest).2 = (run rs).2 ∧
      (run rest).1.outcome.written = (run rs).1.outcome.written ∧
      (run rest).1.outcome.registry = (run rs).1.outcome.registry := by
  intro run rest
  have hrest : rest = rs.filter fun round => !givenUp options round := survivors_eq ..
  have told := fun rs => rounds_told options create limit rs w
  have aborted := fun rs => (rounds_faithful options create limit rs w).aborted
  obtain ⟨offered, haccount⟩ := account_survivors options create rs w
  rw [← hrest] at haccount
  refine ⟨hrest ▸ List.filter_sublist, ?_, ?_, Prod.ext ?_ ?_, ?_, ?_⟩
  · rw [aborted rs, hrest, ← List.countP_eq_length_filter, Nat.add_comm]
    simpa using (List.length_eq_countP_add_countP (givenUp options) (l := rs)).symm
  · rw [aborted rest, hrest, List.countP_filter, List.countP_eq_zero]
    intro round _
    cases givenUp options round <;> simp
  · rw [(told rest).calls_eq, haccount, (told rs).calls_eq]
  · rw [(told rest).left_eq, haccount, (told rs).left_eq]
  · rw [(told rest).written, haccount, (told rs).written]
  · rw [(told rest).registry, haccount, (told rs).registry]

end ViewBinding.Proofs.Survivors
