import ViewBinding.Diagnostic.Basic

namespace ViewBinding

/-- A limit of zero is no limit. -/
structure QueueConfig where
  errorLimit : Nat
  deduplicate : Bool
  deriving DecidableEq, Repr

def QueueConfig.standard : QueueConfig := ⟨50, true⟩

def QueueConfig.unlimited : QueueConfig := ⟨0, false⟩

/-- Evidence that errors were reported, given out by queues alone. -/
structure ErrorsReported where
  private mk ::
  deriving DecidableEq, Repr

def ErrorsReported.text (_ : ErrorsReported) : String := "error(s) emitted"

structure Queue where
  config : QueueConfig
  items : List Diagnostic
  errors : Nat
  warnings : Nat
  deriving DecidableEq, Repr

namespace Queue

def empty (config : QueueConfig) : Queue := ⟨config, [], 0, 0⟩

def limitReached (q : Queue) : Bool := 0 < q.config.errorLimit && q.config.errorLimit ≤ q.errors

def refuses (q : Queue) (d : Diagnostic) : Bool :=
  (d.isError && q.limitReached) || (q.config.deduplicate && q.items.contains d)

def push (q : Queue) (d : Diagnostic) : Queue :=
  { q with
    items := q.items ++ [d]
    errors := if d.isError then q.errors + 1 else q.errors
    warnings := if d.isWarning then q.warnings + 1 else q.warnings }

def add (q : Queue) (d : Diagnostic) : Queue := if q.refuses d then q else q.push d

def offer (q : Queue) (d : Diagnostic) : Bool × Queue := (!q.refuses d, q.add d)

def addAll (q : Queue) (ds : List Diagnostic) : Queue := ds.foldl add q

/-- Adds an error. When the queue refuses it, it holds an equal one or as many errors as it may. -/
def report (q : Queue) (d : Diagnostic) : ErrorsReported × Queue := (⟨⟩, q.add d)

def reported? (q : Queue) : Option ErrorsReported := if 0 < q.errors then some ⟨⟩ else none

def isEmpty (q : Queue) : Bool := q.items.isEmpty

def flush (q : Queue) : List Diagnostic × Queue := (q.items, empty q.config)

end Queue

end ViewBinding
