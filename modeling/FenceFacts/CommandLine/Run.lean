import FenceFacts.CommandLine.Arguments
import FenceFacts.Extraction.Markdown
import FenceFacts.Files.Inputs
import FenceFacts.Settings.File

/-!
# FenceFacts — a run

A run extracts the documents in its input files, one after another.  Each one
that can be extracted has a line in the output, each other one a line among
the errors, and a last line gives the total.  A run in which a document failed
fails in the end.  If facts are wanted they are written to one file, which is
emptied before anything is read.  It can be an input as well: then what has
reached it by that time is read.

Some errors end a run at once: settings that cannot be loaded, facts that
cannot be written, paths that lead nowhere.
-/

namespace FenceFacts

-- ---------------------------------------------------------------------------
-- Documents
-- ---------------------------------------------------------------------------

/-- What ends a run at once. -/
inductive RunError
  | settings (e : SettingsError)
  | facts (path : Text)
  | input (e : InputError)
  | write (e : WriteError)
  | fault (f : Fault)
  deriving DecidableEq, Repr

def RunError.message : RunError → String
  | settings e => e.message
  | facts path => "failed to create " ++ String.ofList path
  | input e => e.message
  | write e => e.report
  | fault f => f.message

/-- What a run has come to. -/
structure Report where
  documents : Nat := 0
  failed : Nat := 0
  totals : LineTotals := {}
  output : String := ""
  errors : String := ""
  deriving DecidableEq, Repr

namespace Report

def addExtracted (r : Report) (source : Source) (counts : LineTotals) : Except Fault Report := do
  let totals ← r.totals.add counts
  return { r with
    documents := r.documents + 1, totals
    output := r.output ++ s!"{source}: {counts.describe}\n" }

def addFailed (r : Report) (message : String) : Report :=
  { r with
    documents := r.documents + 1, failed := r.failed + 1
    errors := r.errors ++ message ++ "\n" }

def close (r : Report) : Report :=
  { r with output := r.output ++ s!"total: {r.totals.describe} in {r.documents} document(s)\n" }

end Report

def scriptExtensions : List String := ["js", "mjs", "cjs"]

def isScriptPath (path : Text) : Bool :=
  (Path.extension? path).any fun e => scriptExtensions.contains (String.ofList e)

section Documents

variable {σ : Type} [FactStore σ]

structure RunState (σ : Type) where
  sink : Sink σ
  report : Report := {}

/-- Extracts the document in an input file.  `files` tells what files there
are when the store is what it is. -/
def extractInput (options : ExtractionOptions) (files : σ → FileTree) (input : InputFile) :
    EStateM RunError (RunState σ) Unit := fun s =>
  match (files s.sink.store).document input with
  | .error e =>
    .ok () { s with report := s.report.addFailed (String.ofList input.path ++ ": " ++ e.message) }
  | .ok d =>
    let extraction :=
      if isScriptPath input.path then extractScriptFile options d else extractMarkdown options d
    match extraction s.sink with
    | .ok counts sink =>
      match s.report.addExtracted d.source counts with
      | .ok report => .ok () ⟨sink, report⟩
      | .error f => .error (.fault f) { s with sink }
    | .error (.parse source e) sink =>
      .ok () ⟨sink, s.report.addFailed (ExtractionFailure.parse source e).message⟩
    | .error (.write e) sink => .error (.write e) { s with sink }
    | .error (.fault f) sink => .error (.fault f) { s with sink }

/-- Extracts everything that paths stand for. -/
def extractPaths (options : ExtractionOptions) (files : σ → FileTree) (paths : List Text) :
    EStateM RunError (RunState σ) Unit := do
  match (files (← get).sink.store).inputs paths with
  | .error e => throw (.input e)
  | .ok inputs =>
    inputs.forM (extractInput options files)
    modify fun s => { s with report := s.report.close }

end Documents

-- ---------------------------------------------------------------------------
-- Outcomes
-- ---------------------------------------------------------------------------

/-- What a run leaves behind, apart from files. -/
structure Outcome where
  exitCode : Nat
  output : String := ""
  errors : String := ""
  written : Option Text := none
  deriving DecidableEq, Repr

namespace Outcome

def ofReport (r : Report) : Outcome where
  exitCode := if r.failed = 0 then 0 else 1
  output := r.output
  errors := r.errors

def ofError (r : Report) (e : RunError) : Outcome where
  exitCode := 1
  output := r.output
  errors := r.errors ++ "Error: " ++ e.message ++ "\n"

/-- The outcome of the documents, and the store with their facts. -/
def ofResult {σ : Type} : EStateM.Result RunError (RunState σ) Unit → Outcome × σ
  | .ok _ s => (ofReport s.report, s.sink.store)
  | .error e s => (ofError s.report e, s.sink.store)

end Outcome

-- ---------------------------------------------------------------------------
-- The whole run
-- ---------------------------------------------------------------------------

def versionText : String := "mdscript 0.1.0\n"

def helpText : String := "Command-line front end for mdscript

Usage: mdscript [OPTIONS] <PATHS>...

Arguments:
  <PATHS>...  Markdown files or directories to scan. `.js`, `.mjs` and `.cjs` files are extracted as plain scripts

Options:
  -c, --config <FILE>  Config file (default: ~/.config/mdscript/config.toml)
  -o, --facts <FILE>   Write facts as JSON lines to FILE
      --no-lines       Do not emit a fact per source line
  -v, --verbose...     More logging; repeat for more detail
  -h, --help           Print help
  -V, --version        Print version
"

namespace Arguments

def options (a : Arguments) (s : Settings) : ExtractionOptions :=
  { s.options with extractLines := s.extractLines && !a.noLines }

def runWith (a : Arguments) (s : Settings) (t : FileTree) : Outcome × FileTree :=
  match a.facts.or s.factsPath with
  | none =>
    let start : RunState Discard := { sink := { store := {} } }
    ((Outcome.ofResult (extractPaths (a.options s) (fun _ => t) a.paths start)).1, t)
  | some path =>
    match t.filePlace? path with
    | none => (.ofError {} (.facts path), t)
    | some place =>
      let holding := fun (bytes : Array UInt8) => t.insertAt place (.file bytes.toList)
      let start : RunState FactFile := { sink := { store := {} } }
      let (outcome, file) :=
        Outcome.ofResult (extractPaths (a.options s) (holding ·.stored) a.paths start)
      ({ outcome with written := path }, holding file.bytes)

/-- Runs with the settings that are in force. -/
def run (a : Arguments) (env : Environment) (t : FileTree) : Outcome × FileTree :=
  match Settings.loadOrDefault env t a.settings with
  | .error e => (.ofError {} (.settings e), t)
  | .ok s => a.runWith s t

end Arguments

def runCommandLine (env : Environment) (arguments : List Text) (t : FileTree) :
    Outcome × FileTree :=
  match Arguments.read arguments with
  | .error e => ({ exitCode := 2, errors := "error: " ++ e.message ++ "\n" }, t)
  | .ok .help => ({ exitCode := 0, output := helpText }, t)
  | .ok .version => ({ exitCode := 0, output := versionText }, t)
  | .ok (.run a) => a.run env t

end FenceFacts
