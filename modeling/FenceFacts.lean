import FenceFacts.Fact.Render
import FenceFacts.Main
import FenceFacts.Proofs.Acceptance
import FenceFacts.Proofs.Atomicity
import FenceFacts.Proofs.CommandLine.Outcome
import FenceFacts.Proofs.Concatenation
import FenceFacts.Proofs.Driver
import FenceFacts.Proofs.Expressions
import FenceFacts.Proofs.Files.Reporting
import FenceFacts.Proofs.Files.Scanning
import FenceFacts.Proofs.FirstError
import FenceFacts.Proofs.Json.Sessions
import FenceFacts.Proofs.Lexicon.Delimiters
import FenceFacts.Proofs.Lexicon.Regex
import FenceFacts.Proofs.LineEndPlaces
import FenceFacts.Proofs.LineEnds.Extraction
import FenceFacts.Proofs.LineRemoval
import FenceFacts.Proofs.Locality
import FenceFacts.Proofs.Options
import FenceFacts.Proofs.Safety
import FenceFacts.Proofs.Settings.Reloading
import FenceFacts.Proofs.Slices
import FenceFacts.Proofs.StatementStarts
import FenceFacts.Proofs.Terminators
import FenceFacts.Proofs.Tiling
import FenceFacts.Proofs.Translation
import FenceFacts.Proofs.Truncation
import FenceFacts.Proofs.Wrapping
