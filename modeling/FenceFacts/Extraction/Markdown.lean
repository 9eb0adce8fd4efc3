import FenceFacts.Extraction.Script

/-!
# FenceFacts — extraction from Markdown

A Markdown document is extracted block by block: the fact for the file first,
then every block that is not blank, in order, with one scope for all of them.
The first block that fails ends the document.  The line counts of the blocks
add up to those of the document.  All of it is one transaction.

Any extractor may do the work on the blocks.  The one for scripts finds out
for each block on its own whether it is a module.
-/

namespace FenceFacts

section Markdown

variable {σ : Type} [FactStore σ]

open Workspace

/-- Hands a block to the extractor, anchored in its document. -/
def extractBlock (extract : SnippetExtractor σ) (d : Document) (file : Label) (b : Block) :
    EStateM ExtractionFailure (Workspace σ) LineTotals := do
  let anchor ← ofExcept .fault (d.anchor b)
  note .trace s!"{d.source}: block at byte {b.start} anchored at {anchor}"
  let snippet : Snippet := ⟨b.content, .inlineScript, ⟨anchor⟩, file⟩
  (extract snippet).adaptExcept (·.inDocument d.source ⟨anchor⟩)

/-- What the blocks so far came to. -/
structure BlockTally where
  totals : LineTotals := {}
  blocks : Nat := 0
  deriving DecidableEq, Repr

def tallyBlock (extract : SnippetExtractor σ) (d : Document) (file : Label) (tally : BlockTally)
    (b : Block) : EStateM ExtractionFailure (Workspace σ) BlockTally := do
  let preview := String.ofList (b.content.preview 40)
  note .debug
    s!"matched {b.tag} block at bytes {b.contentSpan.start}..{b.contentSpan.stop}: {preview}"
  if b.isBlank then
    note .debug s!"{d.source}: skipping blank {b.tag} block at byte {b.start}"
    return tally
  else
    let counts ← extractBlock extract d file b
    let totals ← ofExcept .fault (tally.totals.add counts)
    return ⟨totals, tally.blocks + 1⟩

/-- A Markdown document, straight into the store. -/
def extractMarkdownInto (extract : SnippetExtractor σ) (d : Document) :
    EStateM ExtractionFailure (Sink σ) LineTotals := do
  let file ← emitFile d
  let scan := d.scan
  let tally ← withFreshScope (scan.blocks.foldlM (tallyBlock extract d file) {})
  if let some fence := scan.unclosed? then
    Sink.note .debug s!"unterminated fence at byte {fence.start} ignored"
  Sink.note .debug s!"{d.source}: {tally.blocks} block(s), {tally.totals.describe}"
  return tally.totals

/-- Extracts a Markdown document, all of its facts or none. -/
def extractMarkdownWith (extract : SnippetExtractor (Draft σ)) (d : Document) :
    EStateM ExtractionFailure (Sink σ) LineTotals :=
  Sink.transaction .write (extractMarkdownInto extract d)

/-- The options for the blocks of a document: whether a block is a module is
always found out from the block. -/
def ExtractionOptions.forBlocks (options : ExtractionOptions) : ExtractionOptions :=
  { options with sourceType := .auto }

def extractMarkdown (options : ExtractionOptions) (d : Document) :
    EStateM ExtractionFailure (Sink σ) LineTotals :=
  extractMarkdownWith (extractScript options.forBlocks) d

end Markdown

end FenceFacts
