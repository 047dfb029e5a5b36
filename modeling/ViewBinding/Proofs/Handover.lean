import ViewBinding.Proofs.Scan

namespace ViewBinding.Proofs.Handover

open Java Grouping Scan

variable {m : Type → Type} [Monad m] (options : Options)

/-- A file handed to a filer, with the answer. -/
structure Call where
  file : SourceFile
  answer : Except WriteFault Path

/-- A filer that keeps a book of its calls. -/
def logged (create : Filer m) : Filer (StateT (List Call) m) := fun f calls => do
  let answer ← create f
  pure (answer, calls ++ [⟨f, answer⟩])

theorem mapM_logged [LawfulMonad m] (create : Filer m) (files : List SourceFile) (calls : List Call) :
    (files.mapM (logged create)).run calls =
      (fun answers => (answers, calls ++ List.zipWith Call.mk files answers)) <$>
        files.mapM create := by
  induction files generalizing calls with
  | nil => simp
  | cons f files ih =>
      have hf : (logged create f).run calls =
          (fun answer => (answer, calls ++ [⟨f, answer⟩])) <$> create f :=
        (map_eq_pure_bind ..).symm
      simp only [List.mapM_cons, StateT.run_bind, hf, ih, StateT.run_pure, map_bind, bind_map_left,
        map_pure, List.zipWith_cons_cons, List.append_assoc, List.cons_append, List.nil_append]

/-- What a program that uses a filer gives, the calls it makes, and the state in which it leaves the
filer. -/
def observe {σ α : Type} (program : StateT (List Call) (StateM σ) α) (w : σ) : α × List Call × σ :=
  let ((a, calls), w) := ((program.run []).run w).run
  (a, calls, w)

/-- The answers to files that are handed over one after the other. -/
def answersTo {σ : Type} (create : Filer (StateM σ)) (files : List SourceFile) (w : σ) :
    List (Except WriteFault Path) × σ :=
  ((files.mapM create).run w).run

theorem answersTo_cons {σ : Type} (create : Filer (StateM σ)) (f : SourceFile) (files : List SourceFile)
    (w : σ) :
    answersTo create (f :: files) w =
      (((create f).run w).1 :: (answersTo create files ((create f).run w).2).1,
        (answersTo create files ((create f).run w).2).2) := by
  rw [answersTo, List.mapM_cons]
  rfl

theorem length_answersTo {σ : Type} (create : Filer (StateM σ)) (files : List SourceFile) (w : σ) :
    (answersTo create files w).1.length = files.length := by
  induction files generalizing w with
  | nil => rfl
  | cons f files ih =>
      rw [answersTo_cons, List.length_cons, List.length_cons, ih]

theorem observe_pure {σ α : Type} (a : α) (w : σ) : observe (pure a) w = (a, [], w) := rfl

theorem observe_map_mapM {σ α : Type} (create : Filer (StateM σ)) (files : List SourceFile)
    (f : List (Except WriteFault Path) → α) (w : σ) :
    observe (f <$> files.mapM (logged create)) w =
      (f (answersTo create files w).1, List.zipWith Call.mk files (answersTo create files w).1,
        (answersTo create files w).2) := by
  simp only [observe, StateT.run_map, mapM_logged]
  rfl

/-- What follows from the answers to the files of companions. -/
def settled (cs : List Companion) (answers : List (Except WriteFault Path))
    (state : Summary × Session) : Summary × Session :=
  (cs.zip answers).foldl
    (fun state p => Session.settle p.1 (p.1.file options).className p.2 state) state

theorem writeAll_eq [LawfulMonad m] (create : Filer m) (cs : List Companion)
    (state : Summary × Session) :
    Session.writeAll options create cs state =
      (fun answers => settled options cs answers state) <$>
        (cs.map (Companion.file options)).mapM create := by
  induction cs generalizing state with
  | nil => simp [Session.writeAll, settled]
  | cons c cs ih =>
      simp only [Session.writeAll, List.map_cons, List.mapM_cons, ih, ← bind_pure_comp, bind_assoc,
        pure_bind]
      rfl

theorem settled_bare (cs : List Companion) (answers : List (Except WriteFault Path))
    (state : Summary × Session) :
    settled options (cs.map Aggregates.bare) answers state = settled options cs answers state := by
  induction cs generalizing answers state with
  | nil => rfl
  | cons c cs ih =>
      cases answers with
      | nil => rfl
      | cons answer answers => exact ih answers _

/-- The files of the groups of a round. -/
def files (round : Round) : List SourceFile :=
  (companions (scanned round)).map (Companion.file options)

def concluded (round : Round) (s : Session) (answers : List (Except WriteFault Path)) :
    Summary × Session :=
  settled options (companions (scanned round)) answers
    (⟨[], []⟩, { s with queue := s.queue.addAll ((scanned round).flatMap warnings) })

theorem process_cases [LawfulMonad m] (create : Filer m) (round : Round) (s : Session) :
    ((∀ e ∈ scanned round, complaints options e = []) ∧
      Session.process options create round s =
        (fun answers => (.ok (concluded options round s answers).1,
          (concluded options round s answers).2)) <$> (files options round).mapM create) ∨
    ∃ before e after, scanned round = before ++ e :: after ∧
      (∀ b ∈ before, complaints options b = []) ∧ complaints options e ≠ [] ∧
      ∃ reported, Session.process options create round s = pure (.error reported,
        { s with queue := s.queue.addAll (before.flatMap warnings ++ complaints options e) }) := by
  rcases bind_cases options round s.queue with
    ⟨hall, r, hbind, hr⟩ | ⟨before, e, after, hes, hb, he, reported, hbind⟩
  · refine .inl ⟨hall, ?_⟩
    have hfiles : r.companions.map (Companion.file options) = files options round := by
      rw [files, ← hr, List.map_map]
      rfl
    simp only [Session.process, hbind, writeAll_eq, hfiles, concluded, ← hr, settled_bare,
      ← bind_pure_comp, bind_assoc, pure_bind]
  · refine .inr ⟨before, e, after, hes, hb, he, reported, ?_⟩
    simp only [Session.process, hbind]

theorem map_file_zipWith (files : List SourceFile) (answers : List (Except WriteFault Path))
    (h : answers.length = files.length) :
    (List.zipWith Call.mk files answers).map Call.file = files := by
  induction files generalizing answers with
  | nil => rfl
  | cons f files ih =>
      cases answers with
      | nil => cases h
      | cons answer answers => exact congrArg (f :: ·) (ih answers (Nat.succ.inj h))

/-- A round that is not given up makes one call for each of its hosts, in the order in which they are
first met, with the file of the host's group. Nothing else happens between or after these calls, in
whatever way the filer has its effects; a round that is given up makes no call. -/
theorem process_hands_over_groups (round : Round) (s : Session) :
    (∀ {m : Type → Type} [Monad m] [LawfulMonad m] (create : Filer m),
      (∃ reported q, Session.process options create round s =
        pure (.error reported, { s with queue := q })) ∨
      ∃ conclude : List (Except WriteFault Path) → Summary × Session,
        Session.process options create round s =
          (fun answers => (.ok (conclude answers).1, (conclude answers).2)) <$>
            (files options round).mapM create) ∧
    ∀ {σ : Type} (create : Filer (StateM σ)) (w : σ),
      match observe (Session.process options (logged create) round s) w with
      | ((.ok _, _), calls, _) => calls.map Call.file = files options round
      | ((.error _, _), calls, _) => calls = [] := by
  constructor
  · intro m _ _ create
    rcases process_cases options create round s with ⟨-, h⟩ | ⟨_, _, _, -, -, -, reported, h⟩
    · exact .inr ⟨_, h⟩
    · exact .inl ⟨reported, _, h⟩
  · intro σ create w
    rcases process_cases options (logged create) round s with ⟨-, h⟩ | ⟨_, _, _, -, -, -, reported, h⟩
    · rw [h, observe_map_mapM]
      exact map_file_zipWith _ _ (length_answersTo create _ w)
    · rw [h, observe_pure]

end ViewBinding.Proofs.Handover
