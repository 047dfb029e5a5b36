import ViewBinding.Diagnostic.Basic

namespace ViewBinding.Terminal

inductive ColorMode where
  | auto | always | never
  deriving DecidableEq, Repr

namespace ColorMode

def parse? : String → Option ColorMode
  | "auto" => some .auto
  | "always" => some .always
  | "never" => some .never
  | _ => none

def colors : ColorMode → Bool → Bool
  | .auto, isTerminal => isTerminal
  | .always, _ => true
  | .never, _ => false

end ColorMode

inductive Style where
  | error | warning | note | help | bold | secondary
  deriving DecidableEq, Repr

def Style.parameters : Style → String
  | .error => "1;31"
  | .warning => "1;33"
  | .note => "1;36"
  | .help => "1;32"
  | .bold => "1"
  | .secondary => "1;34"

def sequence (parameters : String) : String := "\x1b[" ++ parameters ++ "m"

structure Span where
  style : Option Style
  text : String
  deriving DecidableEq, Repr

def plain (text : String) : Span := ⟨none, text⟩

def styled (style : Style) (text : String) : Span := ⟨some style, text⟩

def Span.write (colors : Bool) (s : Span) : String :=
  match colors, s.style with
  | true, some style => sequence style.parameters ++ s.text ++ sequence "0"
  | _, _ => s.text

def write (colors : Bool) (spans : List Span) : String := String.join (spans.map (Span.write colors))

def severityStyle : Severity → Style
  | .error => .error
  | .warning => .warning
  | .note => .note

def labelSpans (l : Label) : List Span :=
  [plain s!"  {Diagnostic.arrow l} ", styled .bold l.site.text, plain ": ",
    styled (if l.isPrimary then .error else .secondary) l.message, plain "\n"]

def spans (d : Diagnostic) : List Span :=
  [styled (severityStyle d.severity) d.severity.text, styled .bold s!"[{d.code}]",
    plain s!": {d.message}\n"]
    ++ d.labels.flatMap labelSpans
    ++ d.notes.flatMap (fun n => [plain "  = ", styled .bold "note", plain s!": {n}\n"])
    ++ d.suggestions.flatMap (fun s => [plain "  = ", styled .help "help", plain s!": {s}\n"])
    ++ [plain "\n"]

def counted (n : Nat) (noun : String) : String := s!"{n} {noun}" ++ if n = 1 then "" else "s"

def summarySpans (errors warnings : Nat) : List Span :=
  let counted := counted warnings "warning"
  if 0 < errors then
    let cause := if errors = 1 then "previous error" else s!"{errors} previous errors"
    let rest := if 0 < warnings then s!"; {counted} emitted" else ""
    [styled .error "error", plain s!": aborting due to {cause}{rest}\n"]
  else if 0 < warnings then
    [styled .warning "warning", plain s!": {counted} emitted\n"]
  else []

def diagnostics (colors : Bool) (ds : List Diagnostic) : String := write colors (ds.flatMap spans)

def summary (colors : Bool) (errors warnings : Nat) : String :=
  write colors (summarySpans errors warnings)

end ViewBinding.Terminal
