import FenceFacts.Extraction.Snippet

/-!
# FenceFacts — extraction from scripts

The facts of an accepted script are, in this order: its top level, each of
its lines where lines are wanted, its comments and its declarations.  The top
level reaches to the last character before the line ends that close the
script.  A line of no characters is given its first column.

A script file is extracted as one snippet that is the whole document, after
the fact for the file, in one transaction.
-/

namespace FenceFacts

structure ExtractionOptions extends AnalysisOptions where
  extractLines : Bool := true
  deriving DecidableEq, Repr

/-- From the first to the last character of a span; at its start when it
holds none. -/
def locationOf (text : Text) (index : LineIndex) (span : Span) : Location :=
  let last :=
    match text.slice? span.start span.stop with
    | some piece => span.start + Text.byteLength piece.dropLast
    | none => span.start
  ⟨index.positionOf span.start, index.positionOf last⟩

def lineLocation (number : Nat) (line : Text) : Location :=
  ⟨⟨number, 1⟩, ⟨number, max line.length 1⟩⟩

def ScriptError.located (index : LineIndex) (e : ScriptError) : ParseError :=
  ⟨e.cause.message, index.positionOf e.offset⟩

section Script

variable {σ : Type} [FactStore σ]

open Workspace

/-- A location of the snippet, carried over to the document. -/
def Snippet.locate (s : Snippet) (l : Location) :
    EStateM SnippetFailure (Workspace σ) Location :=
  ofExcept .fault (s.translator.translateLocation l)

def emitLine (s : Snippet) (topLevel : Label) (number : Nat) (line : IndexedLine) :
    EStateM SnippetFailure (Workspace σ) Unit := do
  let label ← fresh
  let location ← s.locate (lineLocation number line.text)
  emit (.line label topLevel line.text line.terminator location)

def emitComment (s : Snippet) (index : LineIndex) (topLevel : Label) (comment : Token) :
    EStateM SnippetFailure (Workspace σ) Unit := do
  let label ← fresh
  let location ← s.locate (locationOf s.text index comment.span)
  emit (.comment label topLevel comment.text location)

def emitDeclaration (s : Snippet) (index : LineIndex) (topLevel : Label) (d : Declaration) :
    EStateM SnippetFailure (Workspace σ) Unit := do
  let binding ← declare d.name
  let label ← fresh
  let location ← s.locate (locationOf s.text index d.span)
  emit (.declaration label topLevel binding d.name d.kind location)

/-- Checks a snippet as a script and emits its facts. -/
def extractScript (options : ExtractionOptions) : SnippetExtractor σ := fun s => do
  let index := LineIndex.ofText s.text
  let analysis ← ofExcept (fun e => .parse (e.located index))
    (analyze options.toAnalysisOptions s.text)
  let topLevel ← fresh
  let body : Span := ⟨0, s.text.withoutTerminator.byteLength⟩
  let location ← s.locate (locationOf s.text index body)
  emit (.topLevel topLevel s.file s.kind analysis.isModule location)
  if options.extractLines then
    (index.countedLines.zipIdx 1).forM fun (line, number) => emitLine s topLevel number line
  analysis.comments.forM (emitComment s index topLevel)
  analysis.declarations.forM (emitDeclaration s index topLevel)
  return analysis.lines

def emitFile (d : Document) : EStateM ExtractionFailure (Sink σ) Label := do
  let label ← Sink.fresh
  (Sink.emit (.file label d.source.path)).adaptExcept .write
  return label

/-- A script file as its only snippet, straight into the store. -/
def extractScriptInto (options : ExtractionOptions) (d : Document) :
    EStateM ExtractionFailure (Sink σ) LineTotals := do
  let file ← emitFile d
  let snippet : Snippet := ⟨d.text, .script, {}, file⟩
  withFreshScope ((extractScript options snippet).adaptExcept (·.inDocument d.source {}))

/-- Extracts a script file, all of its facts or none. -/
def extractScriptFile (options : ExtractionOptions) (d : Document) :
    EStateM ExtractionFailure (Sink σ) LineTotals :=
  Sink.transaction .write (extractScriptInto options d)

end Script

end FenceFacts
