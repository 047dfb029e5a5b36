import ViewBinding.Admission
import ViewBinding.Filer.Basic
import ViewBinding.Registry
import ViewBinding.RoundBindings

namespace ViewBinding

structure Session where
  registry : List RegistryEntry
  queue : Queue
  deriving DecidableEq, Repr

structure Summary where
  written : List ClassName
  failed : List ClassName
  deriving DecidableEq, Repr

def Summary.hasFailures (s : Summary) : Bool := !s.failed.isEmpty

namespace Session

variable {m : Type → Type} [Monad m] (options : Options)

def start (config : QueueConfig) : Session := ⟨[], .empty config⟩

def noIdsWarning (method : Site) : Diagnostic :=
  ((Diagnostic.warning .noViewIds s!"@OnClick lists no view ids. ({method})").about method
    "the listener is never registered").suggest
      "list at least one view id, or remove the annotation"

def bindFields : List MarkedField → RoundBindings → Queue →
    Except ErrorsReported RoundBindings × Queue
  | [], bindings, q => (.ok bindings, q)
  | f :: fs, bindings, q =>
      match Admission.check options .viewById f.host (f.field.member f.host) q with
      | (.error reported, q) => (.error reported, q)
      | (.ok (), q) => bindFields fs (bindings.addField f.host (.ofField f.host f.field f.id)).2 q

def bindMethods : List MarkedMethod → RoundBindings → Queue →
    Except ErrorsReported RoundBindings × Queue
  | [], bindings, q => (.ok bindings, q)
  | h :: hs, bindings, q =>
      match Admission.check options .onClick h.host (h.method.member h.host) q with
      | (.error reported, q) => (.error reported, q)
      | (.ok (), q) =>
          match MethodBinding.ofMethod options.viewType h.host h.method h.ids with
          | .error fault =>
              let (reported, q) := q.report fault.diagnostic
              (.error reported, q)
          | .ok b =>
              let q := if b.ids.isEmpty then q.add (noIdsWarning b.site) else q
              bindMethods hs (bindings.addMethod h.host b).2 q

def bind (round : Round) (q : Queue) : Except ErrorsReported RoundBindings × Queue :=
  match bindFields options round.markedFields .empty q with
  | (.error reported, q) => (.error reported, q)
  | (.ok bindings, q) => bindMethods options round.markedMethods bindings q

def writeError (fault : WriteFault) (c : ClassName) : Diagnostic :=
  ((Diagnostic.error fault.code fault.message).about (.type c) "generated for this class").note
    "other generated files are not affected"

/-- What follows from the attempt to write a companion. It enters the registry if it was written and
code of other packages can name its host. -/
def settle (c : Companion) (name : ClassName) (result : Except WriteFault Path) :
    Summary × Session → Summary × Session
  | (summary, s) =>
      match result with
      | .ok _ =>
          ({ summary with written := summary.written ++ [name] },
            if c.hostVisible then { s with registry := s.registry ++ [⟨c.host, name⟩] } else s)
      | .error fault =>
          ({ summary with failed := summary.failed ++ [name] },
            { s with queue := (s.queue.report (writeError fault c.host)).2 })

def writeAll (create : Filer m) : List Companion → Summary × Session → m (Summary × Session)
  | [], state => pure state
  | c :: cs, state => do
      let file := c.file options
      let result ← create file
      writeAll create cs (settle c file.className result state)

/-- Binds the round as a whole before anything is written; one member that cannot be bound gives the
round up. -/
def process (create : Filer m) (round : Round) (s : Session) :
    m (Except ErrorsReported Summary × Session) :=
  match bind options round s.queue with
  | (.error reported, q) => pure (.error reported, { s with queue := q })
  | (.ok bindings, q) => do
      let (summary, s) ← writeAll options create bindings.companions (⟨[], []⟩, { s with queue := q })
      pure (.ok summary, s)

/-- Writes the registry, if one is wanted and has entries; it is empty afterwards. -/
def finish (create : Filer m) (s : Session) : m (Except ErrorsReported (Option Path) × Session) :=
  match options.registry with
  | none => pure (.ok none, s)
  | some name =>
      if s.registry.isEmpty then pure (.ok none, s)
      else do
        match ← create (Registry.file options name s.registry) with
        | .ok path => pure (.ok (some path), { s with registry := [] })
        | .error fault =>
            let (reported, q) := s.queue.report (writeError fault name)
            pure (.error reported, { s with queue := q })

end Session

end ViewBinding
