import ViewBinding.Proofs.History
import ViewBinding.Run

namespace ViewBinding.Proofs.Course

open Java Grouping Scan Handover History

variable {σ : Type} (options : Options) (create : Filer (StateM σ))

/-- A program that adds to the book of its filer, whatever stands there already. -/
def Appends {α : Type} (program : StateT (List Call) (StateM σ) α) : Prop :=
  ∀ calls w, (program.run calls).run w =
    (((observe program w).1, calls ++ (observe program w).2.1), (observe program w).2.2)

theorem appends_pure {α : Type} (a : α) :
    Appends (pure a : StateT (List Call) (StateM σ) α) := by
  intro calls w
  rw [observe_pure, List.append_nil]
  rfl

theorem appends_map_mapM {α : Type} (f : List (Except WriteFault Path) → α) (files : List SourceFile) :
    Appends (f <$> files.mapM (logged create)) := by
  intro calls w
  rw [observe_map_mapM, StateT.run_map, mapM_logged]
  rfl

theorem observe_bind {α β : Type} {program : StateT (List Call) (StateM σ) α}
    {next : α → StateT (List Call) (StateM σ) β} (hnext : ∀ a, Appends (next a)) (w : σ) :
    observe (program >>= next) w =
      let x := observe program w
      let y := observe (next x.1) x.2.2
      (y.1, x.2.1 ++ y.2.1, y.2.2) := by
  have hrun : ((program >>= next).run []).run w =
      ((next (observe program w).1).run (observe program w).2.1).run (observe program w).2.2 := rfl
  rw [hnext] at hrun
  rw [observe, hrun]
  rfl

theorem Appends.bind {α β : Type} {program : StateT (List Call) (StateM σ) α}
    {next : α → StateT (List Call) (StateM σ) β} (hprogram : Appends program)
    (hnext : ∀ a, Appends (next a)) : Appends (program >>= next) := by
  intro calls w
  have hrun : ((program >>= next).run calls).run w =
      ((next ((program.run calls).run w).1.1).run ((program.run calls).run w).1.2).run
        ((program.run calls).run w).2 := rfl
  rw [hrun, hprogram, hnext, observe_bind hnext, List.append_assoc]

theorem appends_process (round : Round) (s : Session) :
    Appends (Session.process options (logged create) round s) := by
  rcases process_cases options (logged create) round s with ⟨-, h⟩ | ⟨_, _, _, -, -, -, reported, h⟩
  · rw [h]
    exact appends_map_mapM create _ _
  · rw [h]
    exact appends_pure _

theorem appends_finish (s : Session) : Appends (Session.finish options (logged create) s) := by
  rcases finish_cases options (logged create) s with ⟨-, h⟩ | ⟨name, -, h⟩
  · rw [h]
    exact appends_pure _
  · rw [h]
    exact fun _ _ => rfl

theorem appends_processAll (rs : List Round) (r : Run) :
    Appends (Run.processAll options (logged create) rs r) := by
  induction rs generalizing r with
  | nil => exact appends_pure r
  | cons round rs ih => exact (appends_process options create round r.session).bind fun _ => ih _

theorem observe_finishRun (r : Run) (w : σ) :
    observe (Run.finish options (logged create) r) w =
      let x := observe (Session.finish options (logged create) r.session) w
      (r.addEnd x.1.1 x.1.2, x.2) := by
  rw [Run.finish, observe_bind fun _ => appends_pure _]
  simp only [observe_pure, List.append_nil]

/-- What holds at the start, is kept by each round, and lets the end establish something, lets the
whole run establish it. `done` are the rounds up to now, and `calls` the calls they made. -/
theorem observe_rounds (Kept Final : List Round → Run → List Call → σ → Prop) {limit : Nat} {w : σ}
    (hstart : Kept [] (Run.start limit) [] w)
    (hround : ∀ done r calls left round, Kept done r calls left →
      let x := observe (Session.process options (logged create) round r.session) left
      Kept (done ++ [round]) (r.addRound x.1.1 x.1.2) (calls ++ x.2.1) x.2.2)
    (hend : ∀ done r calls left, Kept done r calls left →
      let x := observe (Session.finish options (logged create) r.session) left
      Final done (r.addEnd x.1.1 x.1.2) (calls ++ x.2.1) x.2.2)
    (rs : List Round) :
    let x := observe (Run.rounds options (logged create) limit rs) w
    Final rs x.1 x.2.1 x.2.2 := by
  have hall : ∀ rs done r calls left, Kept done r calls left →
      let x := observe (Run.processAll options (logged create) rs r) left
      Kept (done ++ rs) x.1 (calls ++ x.2.1) x.2.2 := by
    intro rs
    induction rs with
    | nil =>
        intro done r calls left h
        simpa only [Run.processAll, observe_pure, List.append_nil] using h
    | cons round rs ih =>
        intro done r calls left h
        have hrest := ih _ _ _ _ (hround done r calls left round h)
        simp only [List.append_assoc, List.singleton_append] at hrest
        rw [Run.processAll, observe_bind fun _ => appends_processAll options create rs _]
        exact hrest
  have hfinish : ∀ r, Appends (Run.finish options (logged create) r) := fun r =>
    (appends_finish options create r.session).bind fun _ => appends_pure _
  have hrounds := hend _ _ _ _ (hall rs [] _ [] w hstart)
  rw [Run.rounds, observe_bind hfinish]
  simpa only [observe_finishRun, List.nil_append] using hrounds

def refused (calls : List Call) : List ClassName :=
  (calls.filter fun c => !c.answer.isOk).map fun c => c.file.className

def refusals (cs : List Companion) (answers : List (Except WriteFault Path)) : List Diagnostic :=
  (cs.zip answers).filterMap fun (c, answer) =>
    match answer with
    | .ok _ => none
    | .error fault => some (Session.writeError fault c.host)

/-- What a scan reports: the warnings about the members it passes, and the complaints about the one
at which it stops. -/
def scanReports : List Marked → List Diagnostic
  | [] => []
  | e :: es => if complaints options e = [] then warnings e ++ scanReports es else complaints options e

def reports (round : Round) (answers : List (Except WriteFault Path)) : List Diagnostic :=
  scanReports options (scanned round) ++ refusals (companions (scanned round)) answers

/-- Whether something speaks against one of the members of a round. -/
def givenUp (round : Round) : Bool := (scanned round).any fun e => !(complaints options e).isEmpty

theorem scanReports_passed {es : List Marked} (h : ∀ e ∈ es, complaints options e = []) :
    scanReports options es = es.flatMap warnings := by
  induction es with
  | nil => rfl
  | cons e es ih =>
      obtain ⟨he, hes⟩ := List.forall_mem_cons.mp h
      rw [scanReports, if_pos he, ih hes, List.flatMap_cons]

theorem scanReports_stopped {before : List Marked} {e : Marked} (after : List Marked)
    (h : ∀ b ∈ before, complaints options b = []) (he : complaints options e ≠ []) :
    scanReports options (before ++ e :: after) =
      before.flatMap warnings ++ complaints options e := by
  induction before with
  | nil => exact if_neg he
  | cons b before ih =>
      obtain ⟨hb, hbefore⟩ := List.forall_mem_cons.mp h
      rw [List.cons_append, scanReports, if_pos hb, ih hbefore, List.flatMap_cons, List.append_assoc]

theorem mem_scanReports {es : List Marked} {d : Diagnostic} (hd : d ∈ scanReports options es) :
    ∃ e ∈ es, d ∈ warnings e ∨ d ∈ complaints options e := by
  induction es with
  | nil => cases hd
  | cons e es ih =>
      rw [scanReports] at hd
      split at hd
      · rcases List.mem_append.mp hd with hd | hd
        · exact ⟨e, List.mem_cons_self, .inl hd⟩
        · obtain ⟨e', he', hd⟩ := ih hd
          exact ⟨e', List.mem_cons_of_mem e he', hd⟩
      · exact ⟨e, List.mem_cons_self, .inr hd⟩

theorem exists_mem_scanReports {p : Diagnostic → Prop} (hwarnings : ∀ e, ∀ d ∈ warnings e, ¬ p d)
    (hcomplaints : ∀ e, ∀ d ∈ complaints options e, p d) (es : List Marked) :
    (∃ d ∈ scanReports options es, p d) ↔ ∃ e ∈ es, complaints options e ≠ [] := by
  induction es with
  | nil => simp [scanReports]
  | cons e es ih =>
      rw [scanReports, List.exists_mem_cons_iff]
      split
      · next he =>
          simp only [List.mem_append, or_and_right, exists_or, ih, he, ne_eq, not_true_eq_false,
            false_or]
          exact or_iff_right fun ⟨d, hd, hp⟩ => hwarnings e d hd hp
      · next he =>
          obtain ⟨d, hd⟩ := List.exists_mem_of_ne_nil _ he
          exact ⟨fun _ => .inl he, fun _ => ⟨d, hd, hcomplaints e d hd⟩⟩

theorem settled_summary (cs : List Companion) (answers : List (Except WriteFault Path))
    (state : Summary × Session) :
    (settled options cs answers state).1 =
      ⟨state.1.written ++ created (List.zipWith Call.mk (cs.map (Companion.file options)) answers),
        state.1.failed ++ refused (List.zipWith Call.mk (cs.map (Companion.file options)) answers)⟩ := by
  induction cs generalizing answers state with
  | nil => simp [settled, created, refused]
  | cons c cs ih =>
      cases answers with
      | nil => simp [settled, created, refused]
      | cons answer answers =>
          have hrest := ih answers (Session.settle c (c.file options).className answer state)
          obtain ⟨summary, s⟩ := state
          change (settled options cs answers _).1 = _
          rw [hrest]
          cases answer <;> simp [Session.settle, created, refused, Except.isOk, Except.toBool]

theorem settled_queue (cs : List Companion) (answers : List (Except WriteFault Path))
    (state : Summary × Session) :
    (settled options cs answers state).2.queue = state.2.queue.addAll (refusals cs answers) := by
  induction cs generalizing answers state with
  | nil => rfl
  | cons c cs ih =>
      cases answers with
      | nil => rfl
      | cons answer answers =>
          have hrest := ih answers (Session.settle c (c.file options).className answer state)
          obtain ⟨summary, s⟩ := state
          change (settled options cs answers _).2.queue = _
          rw [hrest]
          cases answer with
          | ok path => cases hv : c.hostVisible <;> simp [Session.settle, refusals, hv]
          | error fault => rfl

theorem handed_eq (round : Round) :
    handed options round = if givenUp options round then [] else Handover.files options round := by
  rw [handed, givenUp, ← List.not_all_eq_any_not]
  cases (scanned round).all fun e => (complaints options e).isEmpty <;> rfl

theorem observe_process_eq (round : Round) (s : Session) (w : σ) :
    let calls := callsFor create (handed options round) w
    let x := observe (Session.process options (logged create) round s) w
    x.1.1.toOption = (if givenUp options round then none else some ⟨created calls, refused calls⟩) ∧
      x.1.2.queue =
        s.queue.addAll (reports options round (answersTo create (handed options round) w).1) ∧
      x.2 = (calls, (answersTo create (handed options round) w).2) := by
  rcases process_cases options (logged create) round s with
    ⟨hall, h⟩ | ⟨before, e, later, hes, hb, he, reported, h⟩
  · have hup : givenUp options round = false := by
      simpa [givenUp] using hall
    rw [h, observe_map_mapM, handed_eq, hup]
    refine ⟨congrArg some ?_, ?_, rfl⟩
    · rw [concluded, settled_summary, List.nil_append, List.nil_append]
      rfl
    · rw [concluded, settled_queue, reports, scanReports_passed options hall, addAll_append]
      rfl
  · have hup : givenUp options round = true := by
      rw [givenUp, hes, List.any_eq_true]
      exact ⟨e, by simp, by simpa using he⟩
    rw [h, observe_pure, handed_eq, hup]
    refine ⟨rfl, ?_, rfl⟩
    rw [reports, hes, scanReports_stopped options later hb he]
    simp [refusals, answersTo]

theorem observe_process_cases (round : Round) (s : Session) (w : σ) :
    let calls := callsFor create (handed options round) w
    let answers := answersTo create (handed options round) w
    ∃ result after,
      observe (Session.process options (logged create) round s) w =
          ((result, after), calls, answers.2) ∧
        (givenUp options round = true ∧ calls = [] ∧ (∃ reported, result = .error reported) ∨
          givenUp options round = false ∧ result = .ok ⟨created calls, refused calls⟩) ∧
        after.registry = s.registry ++ kept round calls ∧
        after.queue = s.queue.addAll (reports options round answers.1) := by
  obtain ⟨hresult, hqueue, -⟩ := observe_process_eq options create round s w
  obtain ⟨result, after, hrun, hregistry⟩ := observe_process options create round s w
  rw [hrun] at hresult hqueue
  refine ⟨result, after, hrun, ?_, hregistry, hqueue⟩
  cases hup : givenUp options round with
  | true =>
      rw [hup] at hresult
      cases result with
      | ok summary => cases hresult
      | error reported => exact .inl ⟨rfl, by rw [handed_eq, hup]; rfl, reported, rfl⟩
  | false =>
      rw [hup] at hresult
      cases result with
      | ok summary =>
          cases hresult
          exact .inr ⟨rfl, rfl⟩
      | error reported => cases hresult

end ViewBinding.Proofs.Course
