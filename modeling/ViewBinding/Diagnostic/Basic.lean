import ViewBinding.Declaration
import ViewBinding.Diagnostic.Code

namespace ViewBinding

inductive Severity where
  | error | warning | note
  deriving DecidableEq, Repr

def Severity.text : Severity → String
  | .error => "error"
  | .warning => "warning"
  | .note => "note"

/-- A declaration with a message. The diagnostic is about its primary labels; the others give
context. -/
structure Label where
  site : Site
  message : String
  isPrimary : Bool
  deriving DecidableEq, Repr

structure Diagnostic where
  code : Code
  severity : Severity
  message : String
  labels : List Label
  notes : List String
  suggestions : List String
  deriving DecidableEq, Repr

namespace Diagnostic

def error (code : Code) (message : String) : Diagnostic := ⟨code, .error, message, [], [], []⟩

def warning (code : Code) (message : String) : Diagnostic := ⟨code, .warning, message, [], [], []⟩

def about (d : Diagnostic) (site : Site) (message : String) : Diagnostic :=
  { d with labels := d.labels ++ [⟨site, message, true⟩] }

def besides (d : Diagnostic) (site : Site) (message : String) : Diagnostic :=
  { d with labels := d.labels ++ [⟨site, message, false⟩] }

def note (d : Diagnostic) (text : String) : Diagnostic := { d with notes := d.notes ++ [text] }

def suggest (d : Diagnostic) (text : String) : Diagnostic :=
  { d with suggestions := d.suggestions ++ [text] }

theorem foldl_suggest (text : String → String) (words : List String) (d : Diagnostic) :
    words.foldl (fun d word => d.suggest (text word)) d =
      { d with suggestions := d.suggestions ++ words.map text } := by
  induction words generalizing d with
  | nil => simp
  | cons word words ih =>
      rw [List.foldl_cons, ih, List.map_cons, suggest, List.append_assoc, List.singleton_append]

def primary? (d : Diagnostic) : Option Site := (d.labels.find? (·.isPrimary)).map (·.site)

def isError (d : Diagnostic) : Bool := d.severity = .error

def isWarning (d : Diagnostic) : Bool := d.severity = .warning

def arrow (l : Label) : String := if l.isPrimary then "-->" else "   "

def text (d : Diagnostic) : String :=
  s!"{d.severity.text} [{d.code}]: {d.message}"
    ++ String.join (d.labels.map fun l => s!"\n  {arrow l} {l.site}: {l.message}")
    ++ String.join (d.notes.map fun n => s!"\n  = note: {n}")
    ++ String.join (d.suggestions.map fun s => s!"\n  = help: {s}")

end Diagnostic

end ViewBinding
