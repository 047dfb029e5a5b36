import ViewBinding.Proofs.Truncation

namespace ViewBinding.Proofs.Chronicle

open Java Grouping Scan Handover History Course Tally Truncation

variable {σ : Type} (options : Options) (create : Filer (StateM σ))

structure Answered where
  round : Round
  answers : List (Except WriteFault Path)

namespace Answered

variable (a : Answered)

def calls : List Call := List.zipWith Call.mk (handed options a.round) a.answers

def entries : List RegistryEntry := kept a.round (a.calls options)

def reports : List Diagnostic := Course.reports options a.round a.answers

end Answered

def answerRound (round : Round) (w : σ) : Answered :=
  ⟨round, (answersTo create (handed options round) w).1⟩

/-- The state in which some rounds leave the filer. -/
def leftBy (rs : List Round) (w : σ) : σ := (answersTo create (rs.flatMap (handed options)) w).2

def answered : List Round → σ → List Answered
  | [], _ => []
  | round :: rs, w => answerRound options create round w :: answered rs (leftBy options create [round] w)

theorem leftBy_singleton (round : Round) (w : σ) :
    leftBy options create [round] w = (answersTo create (handed options round) w).2 := by
  rw [leftBy, List.flatMap_singleton]

theorem leftBy_append (rs ss : List Round) (w : σ) :
    leftBy options create (rs ++ ss) w = leftBy options create ss (leftBy options create rs w) := by
  rw [leftBy, List.flatMap_append, answersTo_append]
  rfl

theorem leftBy_cons (round : Round) (rs : List Round) (w : σ) :
    leftBy options create (round :: rs) w =
      leftBy options create rs (leftBy options create [round] w) :=
  leftBy_append options create [round] rs w

theorem answered_append (rs ss : List Round) (w : σ) :
    answered options create (rs ++ ss) w =
      answered options create rs w ++ answered options create ss (leftBy options create rs w) := by
  induction rs generalizing w with
  | nil => rfl
  | cons round rs ih =>
      rw [List.cons_append, answered, answered, ih, List.cons_append,
        leftBy_cons options create round rs]

theorem length_answered (rs : List Round) (w : σ) :
    (answered options create rs w).length = rs.length := by
  induction rs generalizing w with
  | nil => rfl
  | cons round rs ih => rw [answered, List.length_cons, List.length_cons, ih]

/-- What is handed over after the rounds: the file of the registry, if it is wanted and has entries. -/
def closing (entries : List RegistryEntry) : List SourceFile :=
  match options.registry with
  | none => []
  | some name => if entries.isEmpty then [] else [Registry.file options name entries]

def closingReports (answers : List (Except WriteFault Path)) : List Diagnostic :=
  answers.filterMap fun
    | .ok _ => none
    | .error fault => options.registry.map (Session.writeError fault)

theorem observe_finish_eq (s : Session) (w : σ) :
    let last := closing options s.registry
    let answers := (answersTo create last w).1
    let x := observe (Session.finish options (logged create) s) w
    x.1.1.toOption.join = answers.findSome? Except.toOption ∧
      x.1.2.queue = s.queue.addAll (closingReports options answers) ∧
      x.2 = (callsFor create last w, (answersTo create last w).2) := by
  by_cases hidle : options.registry = none ∨ s.registry = []
  · have hlast : closing options s.registry = [] := by
      rw [closing]
      rcases hidle with h | h
      · rw [h]
      · rw [h]
        cases options.registry <;> rfl
    rw [finish_idle options _ hidle, observe_pure, hlast]
    exact ⟨rfl, rfl, rfl⟩
  · obtain ⟨hwanted, hentries⟩ := not_or.mp hidle
    obtain ⟨name, hname⟩ := Option.ne_none_iff_exists'.mp hwanted
    have hlast : closing options s.registry = [Registry.file options name s.registry] := by
      simp only [closing, hname, List.isEmpty_iff, if_neg hentries]
    have hanswers : answersTo create [Registry.file options name s.registry] w =
        ([((create (Registry.file options name s.registry)).run w).1],
          ((create (Registry.file options name s.registry)).run w).2) := answersTo_cons create _ [] w
    rw [finish_eq options _ hname hentries, observe_map, observe_logged, hlast]
    dsimp only
    rw [hanswers]
    cases ((create (Registry.file options name s.registry)).run w).1 with
    | ok path => exact ⟨rfl, rfl, rfl⟩
    | error fault =>
        have hreports : closingReports options [.error fault] = [Session.writeError fault name] := by
          simp [closingReports, hname]
        exact ⟨rfl, by rw [hreports]; rfl, rfl⟩

/-- `offered` is what is reported in each round and at the end, whether the queue takes it or not. -/
structure Account (σ : Type) where
  calls : List Call
  left : σ
  written : List ClassName
  registry : Option Path
  offered : List (List Diagnostic)

/-- All of a run but what its queue lets through, told from its rounds and the answers of the filer. -/
def account (rs : List Round) (w : σ) : Account σ :=
  let rounds := answered options create rs w
  let calls := rounds.flatMap (Answered.calls options)
  let last := closing options (rounds.flatMap (Answered.entries options))
  let ending := answersTo create last (leftBy options create rs w)
  { calls := calls ++ callsFor create last (leftBy options create rs w)
    left := ending.2
    written := created calls
    registry := ending.1.findSome? Except.toOption
    offered := rounds.map (Answered.reports options) ++ [closingReports options ending.1] }

/-- All of a run but its counts and what its queue lets through is in the account, and the queue takes
from what the account offers. -/
structure Account.Tells (a : Account σ) (limit : Nat) (r : Run) (calls : List Call) (left : σ) : Prop where
  calls_eq : calls = a.calls
  left_eq : left = a.left
  written : r.outcome.written = a.written
  registry : r.outcome.registry = a.registry
  batches : r.batches = a.offered.map (held limit)

structure Recorded (limit : Nat) (w : σ) (done : List Round) (r : Run) (calls : List Call) (left : σ) :
    Prop where
  left_eq : left = leftBy options create done w
  calls_eq : calls = (answered options create done w).flatMap (Answered.calls options)
  queue : r.session.queue = .empty ⟨limit, true⟩
  entries : r.session.registry =
    (answered options create done w).flatMap (Answered.entries options)
  written : r.outcome.written = created calls
  registry : r.outcome.registry = none
  batches : r.batches =
    (answered options create done w).map fun a => held limit (a.reports options)

theorem recorded_start (limit : Nat) (w : σ) :
    Recorded options create limit w [] (Run.start limit) [] w :=
  ⟨rfl, rfl, rfl, rfl, rfl, rfl, rfl⟩

variable {options create} {limit : Nat} {w : σ} {done : List Round} {r : Run} {calls : List Call}
  {left : σ}

theorem Recorded.addRound (h : Recorded options create limit w done r calls left) (round : Round) :
    let x := observe (Session.process options (logged create) round r.session) left
    Recorded options create limit w (done ++ [round]) (r.addRound x.1.1 x.1.2) (calls ++ x.2.1)
      x.2.2 := by
  obtain ⟨result, s, hrun, hresult, hregistry, hqueue⟩ :=
    observe_process_cases options create round r.session left
  rw [hrun]
  have hlast : answered options create (done ++ [round]) w =
      answered options create done w ++ [answerRound options create round left] := by
    rw [answered_append, ← h.left_eq]
    rfl
  -- the queue was drained before, so what it holds now is what it let through of this round
  rw [h.queue] at hqueue
  exact {
    left_eq := by rw [leftBy_append, ← h.left_eq, leftBy_singleton]
    calls_eq := by
      rw [hlast, List.flatMap_append, ← h.calls_eq, List.flatMap_singleton]
      rfl
    queue := by
      have hconfig : s.queue.config = ⟨limit, true⟩ := by rw [hqueue, config_addAll]; rfl
      change Queue.empty s.queue.config = _
      rw [hconfig]
    entries := by
      rw [hlast, List.flatMap_append, ← h.entries, List.flatMap_singleton]
      exact hregistry
    written := by
      rw [created_append, ← h.written]
      rcases hresult with ⟨-, hnone, reported, rfl⟩ | ⟨-, rfl⟩
      · rw [hnone]
        exact (List.append_nil _).symm
      · rfl
    registry := by cases result <;> exact h.registry
    batches := by
      rw [hlast, List.map_append, ← h.batches]
      change r.batches ++ [s.queue.items] = _
      rw [hqueue]
      rfl }

theorem Recorded.addEnd (h : Recorded options create limit w done r calls left) :
    let x := observe (Session.finish options (logged create) r.session) left
    (account options create done w).Tells limit (r.addEnd x.1.1 x.1.2) (calls ++ x.2.1) x.2.2 := by
  have hleft := h.left_eq
  subst hleft
  obtain ⟨hpath, hqueue, hcalls⟩ :=
    observe_finish_eq options create r.session (leftBy options create done w)
  rw [h.entries] at hpath hqueue hcalls
  generalize observe (Session.finish options (logged create) r.session) (leftBy options create done w) = x
    at hpath hqueue hcalls ⊢
  obtain ⟨⟨result, s⟩, new, left⟩ := x
  cases hcalls
  exact {
    calls_eq := by
      rw [h.calls_eq]
      rfl
    left_eq := rfl
    written := by
      have hwritten := h.written
      rw [h.calls_eq] at hwritten
      cases result <;> exact hwritten
    registry := by
      cases result with
      | ok path => exact hpath
      | error reported => exact h.registry.trans hpath
    batches := by
      change r.batches ++ [s.queue.items] = _
      rw [hqueue, h.queue, h.batches, account, List.map_append, List.map_map]
      rfl }

variable (options create)

theorem rounds_told (limit : Nat) (rs : List Round) (w : σ) :
    let x := observe (Run.rounds options (logged create) limit rs) w
    (account options create rs w).Tells limit x.1 x.2.1 x.2.2 :=
  observe_rounds options create (Recorded options create limit w)
    (fun rs => (account options create rs w).Tells limit) (recorded_start options create limit w)
    (fun _ _ _ _ round h => h.addRound round) (fun _ _ _ _ h => h.addEnd) rs

theorem rounds_faithful (limit : Nat) (rs : List Round) (w : σ) :
    let x := observe (Run.rounds options (logged create) limit rs) w
    Faithful options rs x.1 x.2.1 :=
  observe_rounds options create (fun done r calls _ => Faithful options done r calls)
    (fun done r calls _ => Faithful options done r calls) (faithful_start options limit)
    (fun _ _ _ left round h => h.addRound options create round left)
    (fun _ _ _ left h => h.addEnd options create left) rs

end ViewBinding.Proofs.Chronicle
