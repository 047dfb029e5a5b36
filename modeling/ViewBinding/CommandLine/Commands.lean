import ViewBinding.CommandLine.Settings
import ViewBinding.Diagnostic.Listing
import ViewBinding.Diagnostic.Manual
import ViewBinding.Filer.Directory
import ViewBinding.Manifest.Basic
import ViewBinding.Run

namespace ViewBinding.CommandLine

/-- What a command leaves behind besides files. -/
structure Report where
  exit : UInt32
  out : String
  err : String
  deriving DecidableEq, Repr

def succeed (out : String) : Report := ⟨0, out, ""⟩

def fail (err : String) : Report := ⟨1, "", err⟩

def page (lines : List String) : String := String.join (lines.map (· ++ "\n"))

def optionLines : List String :=
  ["  -o <dir>, --out-dir=<dir>  Output directory (default: generated)",
    "  --suffix=<suffix>          Companion name suffix (default: $$Proxy)"]

def usage : String := page (
  ["ProxyTool view-binding generator",
    "",
    "Usage: proxyc <command> [options]",
    "",
    "Commands:",
    "  process <manifest.json>  Generate companions for every round in a manifest",
    "  annotations              List the supported annotation types",
    "  explain <code>           Explain a diagnostic code (e.g., E1001)",
    "  help                     Show this help message",
    "  version                  Show version information",
    "",
    "Process options:"]
  ++ optionLines ++
  ["  --registry=<class>         Lookup table class (default: proxytool.generated.ProxyRegistry)",
    "  --no-registry              Do not write a lookup table",
    "  --format=<fmt>             Diagnostics: human, json",
    "  --color=<mode>             Color: auto, always, never",
    "  --error-limit=<n>          Errors kept per round (0 = unlimited)",
    "",
    "Logging:",
    "  RUST_LOG=proxy_processor=debug proxyc process app.json",
    "",
    "Examples:",
    "  proxyc process rounds.json -o src/generated",
    "  proxyc explain E2001"])

def processUsage : String := page (
  ["Usage: proxyc process <manifest.json> [options]",
    "",
    "Options:"]
  ++ optionLines ++
  ["  --registry=<class>         Lookup table class name",
    "  --no-registry              Do not write a lookup table",
    "  --format=<fmt>             Diagnostics: human, json",
    "  --color=<mode>             Color: auto, always, never",
    "  --error-limit=<n>          Errors kept per round (0 = unlimited)"])

def explainUsage : String :=
  page ["Usage: proxyc explain <ERROR_CODE>", "Example: proxyc explain E2001"]

def version : String := page ["proxyc 0.1.0"]

def annotations : Report := succeed (page (Marker.all.map Marker.qualified))

def explain (text : String) : Report :=
  match Code.parse? text with
  | some code => succeed (Manual.text code ++ "\n")
  | none =>
      fail (page (
        [s!"Unknown error code: {text}",
          "",
          "Codes look like EXXXX (errors) or WXXXX (warnings).",
          "Known codes:"]
        ++ Code.all.map fun code => s!"  {code}  {code.summary}"))

variable {m : Type → Type} [Monad m]

def successLines (settings : Settings) (o : Outcome) : List String :=
  let companions := Terminal.counted o.written.length "companion"
  (if o.written.isEmpty then [] else [s!"Generated {companions} in {settings.outDir}"])
  ++ match o.registry with
    | some path => [s!"Wrote lookup table {path}"]
    | none => []

def humanDiagnostics (colors : Bool) (r : Run) : String :=
  Terminal.diagnostics colors r.batches.flatten
    ++ Terminal.summary colors r.outcome.errors r.outcome.warnings

def jsonDiagnostics (r : Run) : String := (r.batches.foldl Listing.addAll Listing.start).finish

def reportRun (settings : Settings) (isTerminal : Bool) (r : Run) : Report :=
  let exit := if r.outcome.hasErrors then 1 else 0
  match settings.format with
  | .human =>
      ⟨exit, page (successLines settings r.outcome),
        humanDiagnostics (settings.color.colors isTerminal) r⟩
  | .json => ⟨exit, jsonDiagnostics r, ""⟩

def processRounds (disk : Disk m) (settings : Settings) (rounds : List Round) : m Run := do
  let (run, _) ← (Run.rounds settings.options (disk.filer settings.outDir) settings.errorLimit
    rounds).run []
  pure run

def processManifest (disk : Disk m) (isTerminal : Bool) (manifest : String) (settings : Settings) :
    m Report := do
  match ← disk.readText ⟨manifest⟩ with
  | .error fault => pure (fail s!"error: cannot read manifest '{manifest}': {fault.message}\n")
  | .ok text =>
      match Manifest.parse text with
      | .error error => pure (fail s!"error: {error.message}\n")
      | .ok rounds => do
          let run ← processRounds disk settings rounds
          pure (reportRun settings isTerminal run)

def process (disk : Disk m) (isTerminal : Bool) (manifest : String) (arguments : List String) :
    m Report := do
  let (settings, warnings) := Settings.read arguments
  let report ← processManifest disk isTerminal manifest settings
  pure { report with err := page (warnings.map fun w => "warning: " ++ w.message) ++ report.err }

def run (disk : Disk m) (isTerminal : Bool) : List String → m Report
  | [] => pure (succeed usage)
  | command :: rest =>
      match command with
      | "process" =>
          match rest with
          | [] => pure (fail processUsage)
          | manifest :: arguments => process disk isTerminal manifest arguments
      | "annotations" => pure annotations
      | "--explain" | "explain" =>
          match rest with
          | [] => pure (fail explainUsage)
          | code :: _ => pure (explain code)
      | "help" | "--help" | "-h" => pure (succeed usage)
      | "version" | "--version" | "-V" => pure (succeed version)
      | _ => pure ⟨1, usage, s!"Unknown command: {command}\n\n"⟩

end ViewBinding.CommandLine
