import ViewBinding.Decimal.Text
import ViewBinding.Diagnostic.Queue
import ViewBinding.Diagnostic.Terminal
import ViewBinding.Options
import ViewBinding.Path

namespace ViewBinding

open Text

inductive OutputFormat where
  | human | json
  deriving DecidableEq, Repr

def OutputFormat.parse? : String → Option OutputFormat
  | "human" => some .human
  | "text" => some .human
  | "json" => some .json
  | _ => none

structure Settings where
  outDir : Path
  format : OutputFormat
  color : Terminal.ColorMode
  errorLimit : Nat
  options : Options
  deriving DecidableEq, Repr

namespace Settings

def standard : Settings :=
  ⟨⟨"generated"⟩, .human, .auto, QueueConfig.standard.errorLimit, .standard⟩

inductive Change where
  | outDir (dir : Path)
  | suffix (s : String)
  | registry (c : Option ClassName)
  | format (f : OutputFormat)
  | color (c : Terminal.ColorMode)
  | errorLimit (n : Nat)
  deriving DecidableEq, Repr

def apply (s : Settings) : Change → Settings
  | .outDir dir => { s with outDir := dir }
  | .suffix suffix => { s with options := { s.options with suffix } }
  | .registry registry => { s with options := { s.options with registry } }
  | .format format => { s with format }
  | .color color => { s with color }
  | .errorLimit errorLimit => { s with errorLimit }

inductive Warning where
  | missingDirectory
  | emptySuffix
  | badRegistry (name : String) (cause : NameError)
  | unknownFormat (value : String)
  | unknownColor (value : String)
  | badErrorLimit (value : String)
  | unknownOption (argument : String)
  deriving DecidableEq, Repr

def Warning.message : Warning → String
  | .missingDirectory => "'-o' expects an output directory"
  | .emptySuffix => "empty --suffix ignored; companions would shadow their hosts"
  | .badRegistry name cause => s!"invalid --registry class '{name}': {cause.message}"
  | .unknownFormat value => s!"unknown format '{value}', using human"
  | .unknownColor value => s!"unknown color mode '{value}', using auto"
  | .badErrorLimit value => s!"invalid --error-limit '{value}'"
  | .unknownOption argument => s!"unknown option '{argument}'"

/-- Options written with their value, by the text before the value. -/
def valued : List (String × (String → Except Warning Change)) :=
  [("--out-dir=", fun v => .ok (.outDir ⟨v⟩)),
    ("--suffix=", fun v => if v.isEmpty then .error .emptySuffix else .ok (.suffix v)),
    ("--registry=", fun v => match ClassName.guess v with
      | .ok c => .ok (.registry (some c))
      | .error cause => .error (.badRegistry v cause)),
    ("--format=", fun v => match OutputFormat.parse? v with
      | some f => .ok (.format f)
      | none => .error (.unknownFormat v)),
    ("--color=", fun v => match Terminal.ColorMode.parse? v with
      | some c => .ok (.color c)
      | none => .error (.unknownColor v)),
    ("--error-limit=", fun v => match Decimal.readNat? (Nat.pow 2 64 - 1) v.toList with
      | some n => .ok (.errorLimit n)
      | none => .error (.badErrorLimit v))]

def readArgument (argument : String) : Except Warning Change :=
  let known := valued.findSome? fun (start, read) =>
    (dropStart? start.toList argument.toList).map fun v => read (String.ofList v)
  match known with
  | some result => result
  | none =>
      if argument = "--no-registry" then .ok (.registry none)
      else .error (.unknownOption argument)

/-- Reads arguments on top of given settings; `-o` takes the next argument as its value. -/
def readFrom (s : Settings) : List String → Settings × List Warning
  | [] => (s, [])
  | argument :: rest =>
      if argument = "-o" then
        match rest with
        | [] => (s, [.missingDirectory])
        | dir :: rest => readFrom (s.apply (.outDir ⟨dir⟩)) rest
      else
        match readArgument argument with
        | .ok change => readFrom (s.apply change) rest
        | .error warning =>
            let (s, warnings) := readFrom s rest
            (s, warning :: warnings)

theorem readFrom_short (s : Settings) (dir : String) (rest : List String) :
    readFrom s ("-o" :: dir :: rest) = readFrom (s.apply (.outDir ⟨dir⟩)) rest := by
  rw [readFrom, if_pos rfl]

theorem readFrom_cons {argument : String} (h : argument ≠ "-o") (s : Settings) (rest : List String) :
    readFrom s (argument :: rest) =
      match readArgument argument with
      | .ok change => readFrom (s.apply change) rest
      | .error warning => ((readFrom s rest).1, warning :: (readFrom s rest).2) := by
  rw [readFrom.eq_def]
  exact if_neg h

def read (arguments : List String) : Settings × List Warning := readFrom standard arguments

end Settings

end ViewBinding
