import ViewBinding.Session

namespace ViewBinding

structure Outcome where
  written : List ClassName
  registry : Option Path
  abortedRounds : Nat
  errors : Nat
  warnings : Nat
  deriving DecidableEq, Repr

def Outcome.hasErrors (o : Outcome) : Bool := 0 < o.errors

/-- A run in progress; `batches` are the diagnostics taken so far, one list for each round and one
for the end. -/
structure Run where
  session : Session
  outcome : Outcome
  batches : List (List Diagnostic)
  deriving DecidableEq, Repr

namespace Run

variable {m : Type → Type} [Monad m] (options : Options) (create : Filer m)

def start (errorLimit : Nat) : Run := ⟨.start ⟨errorLimit, true⟩, ⟨[], none, 0, 0, 0⟩, []⟩

/-- Takes the diagnostics out of the queue when a round ends, so the error limit counts anew in the next. -/
def drain (r : Run) : Run :=
  let (batch, q) := r.session.queue.flush
  { session := { r.session with queue := q }
    outcome := { r.outcome with
      errors := r.outcome.errors + r.session.queue.errors
      warnings := r.outcome.warnings + r.session.queue.warnings }
    batches := r.batches ++ [batch] }

def addRound (r : Run) (result : Except ErrorsReported Summary) (s : Session) : Run :=
  let outcome := match result with
    | .ok summary => { r.outcome with written := r.outcome.written ++ summary.written }
    | .error _ => { r.outcome with abortedRounds := r.outcome.abortedRounds + 1 }
  { r with session := s, outcome }.drain

def addEnd (r : Run) (result : Except ErrorsReported (Option Path)) (s : Session) : Run :=
  let outcome := match result with
    | .ok path => { r.outcome with registry := path }
    | .error _ => r.outcome
  { r with session := s, outcome }.drain

def processAll : List Round → Run → m Run
  | [], r => pure r
  | round :: rounds, r => do
      let (result, s) ← r.session.process options create round
      processAll rounds (r.addRound result s)

def finish (r : Run) : m Run := do
  let (result, s) ← r.session.finish options create
  pure (r.addEnd result s)

def rounds (errorLimit : Nat) (rs : List Round) : m Run := do
  let r ← processAll options create rs (start errorLimit)
  r.finish options create

end Run

end ViewBinding
