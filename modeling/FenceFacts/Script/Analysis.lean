import FenceFacts.Script.Lexer
import FenceFacts.Script.LineIndex
import FenceFacts.Script.Statement

/-!
# FenceFacts — checking a script

A script is checked as far as its tokens go.  Three things can be wrong with
it, and they are looked for in this order:

1. a token that no script may hold: a literal or comment without its closing
   delimiter, a character that starts no token, a template in a version of
   the language that has none;
2. brackets that do not pair up;
3. module statements in a script that may not be a module.

An accepted script has top-level declarations, is a module or not, and has
lines that hold code and lines that hold comments.
-/

namespace FenceFacts

-- ---------------------------------------------------------------------------
-- Errors
-- ---------------------------------------------------------------------------

inductive ScriptErrorCause
  | unterminatedString
  | unterminatedComment
  | unterminatedTemplate
  | unterminatedRegex
  | unexpectedCharacter (text : Text)
  | unexpectedToken
  | unexpectedEnd
  | moduleStatement
  deriving DecidableEq, Repr

namespace ScriptErrorCause

def message : ScriptErrorCause → String
  | unterminatedString => "Unterminated string constant"
  | unterminatedComment => "Unterminated comment"
  | unterminatedTemplate => "Unterminated template"
  | unterminatedRegex => "Unterminated regular expression"
  | unexpectedCharacter text => "Unexpected character '" ++ String.ofList text ++ "'"
  | unexpectedToken => "Unexpected token"
  | unexpectedEnd => "Unexpected end of input"
  | moduleStatement => "'import' and 'export' may appear only with 'sourceType: module'"

end ScriptErrorCause

/-- What is wrong with a script, and the byte offset where. -/
structure ScriptError where
  cause : ScriptErrorCause
  offset : Nat
  deriving DecidableEq, Repr

namespace ScriptError

protected def toString (e : ScriptError) : String := s!"{e.cause.message} (offset {e.offset})"

instance : ToString ScriptError := ⟨ScriptError.toString⟩

end ScriptError

-- ---------------------------------------------------------------------------
-- Options
-- ---------------------------------------------------------------------------

/-- What `import` and `export` statements mean for a script. -/
inductive SourceType
  /-- It may hold none. -/
  | script
  /-- It is a module with or without them. -/
  | module
  /-- It is a module if it holds one. -/
  | auto
  deriving DecidableEq, Repr

structure AnalysisOptions where
  /-- Year of the language version. -/
  ecmaVersion : Nat := 2020
  sourceType : SourceType := .auto
  deriving DecidableEq, Repr

/-- The first version that has templates. -/
def templateVersion : Nat := 2015

-- ---------------------------------------------------------------------------
-- Tokens and brackets
-- ---------------------------------------------------------------------------

/-- Why the token may not stand in a script. -/
def Token.offence? (ecmaVersion : Nat) (t : Token) : Option ScriptErrorCause :=
  match t.kind with
  | .unterminatedString => some .unterminatedString
  | .unterminatedBlockComment => some .unterminatedComment
  | .unterminatedTemplate => some .unterminatedTemplate
  | .unterminatedRegex => some .unterminatedRegex
  | .template => if ecmaVersion < templateVersion then some (.unexpectedCharacter ['\x60']) else none
  | .unknown => some (.unexpectedCharacter t.text)
  | _ => none

/-- The first token that may not stand in a script. -/
def tokenError? (ecmaVersion : Nat) (tokens : List Token) : Option ScriptError :=
  tokens.findSome? fun t => (t.offence? ecmaVersion).map fun cause => ⟨cause, t.span.start⟩

/-- The first closing bracket that does not match the innermost of the `open`
ones, or the end of the script at byte `stop` if some are left open. -/
def bracketErrorFrom? (stop : Nat) (unclosed : List Bracket) : List Token → Option ScriptError
  | [] => if unclosed.isEmpty then none else some ⟨.unexpectedEnd, stop⟩
  | t :: ts =>
    match t.kind, unclosed with
    | .opening b, _ => bracketErrorFrom? stop (b :: unclosed) ts
    | .closing _, [] => some ⟨.unexpectedToken, t.span.start⟩
    | .closing b, innermost :: outer =>
      if innermost = b then bracketErrorFrom? stop outer ts
      else some ⟨.unexpectedToken, t.span.start⟩
    | _, _ => bracketErrorFrom? stop unclosed ts

/-- What is wrong with the brackets of a script that ends at byte `stop`. -/
def bracketError? (stop : Nat) (tokens : List Token) : Option ScriptError :=
  bracketErrorFrom? stop [] tokens

-- ---------------------------------------------------------------------------
-- Line counts
-- ---------------------------------------------------------------------------

/-- Numbers of lines with code and with comments.  A line with both counts in
each. -/
structure LineTotals where
  code : Nat := 0
  comments : Nat := 0
  deriving DecidableEq, Repr

/-- The zero-based numbers of the first and the last line of a token. -/
def Token.lineRange (index : LineIndex) (t : Token) : Nat × Nat :=
  (index.lineOf t.span.start, index.lineOf (max (t.span.stop - 1) t.span.start))

/-- Number of lines that some of the tokens reach onto. -/
def touchedLines (index : LineIndex) (tokens : List Token) : Nat :=
  let ranges := tokens.map (·.lineRange index)
  (List.range index.lineCount).countP fun line =>
    ranges.any fun (first, last) => first ≤ line && line ≤ last

/-- Lines with code and lines with comments. -/
def countLines (index : LineIndex) (tokens : List Token) : LineTotals where
  code := touchedLines index (significant tokens)
  comments := touchedLines index (tokens.filter (·.kind.isComment))

-- ---------------------------------------------------------------------------
-- Analysis
-- ---------------------------------------------------------------------------

/-- What is known of an accepted script. -/
structure Analysis where
  tokens : List Token
  declarations : List Declaration
  isModule : Bool
  lines : LineTotals
  deriving DecidableEq, Repr

def Analysis.comments (a : Analysis) : List Token := a.tokens.filter (·.kind.isComment)

/-- The module statements of a script among its top-level statements, by
their first tokens. -/
def moduleStatements (tokens : List Token) : List Token :=
  let significant := significant tokens
  (statementStarts tokens).filterMap fun i =>
    if isModuleStatement (significant.drop i) then significant[i]? else none

/-- The names that a script declares at its top level. -/
def declarations (tokens : List Token) : List Declaration :=
  let significant := significant tokens
  (statementStarts tokens).filterMap fun i => declarationAt? (significant.drop i)

/-- Whether the script is a module, which may be forbidden. -/
def resolveModule (sourceType : SourceType) (statements : List Token) : Except ScriptError Bool :=
  match sourceType, statements with
  | .script, t :: _ => .error ⟨.moduleStatement, t.span.start⟩
  | .module, _ => .ok true
  | _, found => .ok !found.isEmpty

/-- Refuses when there is an error. -/
def reject : Option ScriptError → Except ScriptError Unit
  | some e => .error e
  | none => .ok ()

/-- The first error of a script, or what is known of it. -/
def analyze (options : AnalysisOptions) (script : Text) : Except ScriptError Analysis := do
  let tokens := tokenize script
  reject (tokenError? options.ecmaVersion tokens)
  reject (bracketError? script.byteLength (significant tokens))
  let isModule ← resolveModule options.sourceType (moduleStatements tokens)
  return {
    tokens
    declarations := declarations tokens
    isModule
    lines := countLines (.ofText script) tokens }

end FenceFacts
