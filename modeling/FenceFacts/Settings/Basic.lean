import FenceFacts.Extraction.Script

/-!
# FenceFacts — settings

What a user can set for every run: how scripts are read, which facts are
wanted and where they are written.  Each setting has a default.
-/

namespace FenceFacts

structure Settings where
  /-- Year of the language version. -/
  ecmaVersion : UInt16 := 2020
  /-- What script files are.  Scripts in Markdown are not affected. -/
  sourceType : SourceType := .auto
  extractLines : Bool := true
  /-- Where facts are written; nowhere when it is not set. -/
  factsPath : Option Text := none
  deriving DecidableEq, Repr

namespace Settings

def options (s : Settings) : ExtractionOptions where
  ecmaVersion := s.ecmaVersion.toNat
  sourceType := s.sourceType
  extractLines := s.extractLines

end Settings

end FenceFacts
