import FenceFacts.Script.Token

/-!
# FenceFacts — top-level statements and declarations

Without a grammar a statement cannot be parsed, but the place where one
starts can be told from the tokens: it is a token with no bracket open before
it that comes first, or follows a `;` or a `}`, or begins a line.  What a
statement declares, and whether it makes the script a module, is read off the
significant tokens from its start on.

Statements are known by the index of their first token among the significant
tokens of the script.
-/

namespace FenceFacts

-- ---------------------------------------------------------------------------
-- Where statements start
-- ---------------------------------------------------------------------------

/-- Statement starts among `tokens`, with `depth` brackets open and `index`
significant tokens before them.  `pending` says that the next significant
token begins a statement if no bracket is open. -/
def statementStartsFrom (depth index : Nat) (pending : Bool) : List Token → List Nat
  | [] => []
  | t :: ts =>
    if t.kind = .newline then statementStartsFrom depth index (pending || depth == 0) ts
    else if !t.isSignificant then statementStartsFrom depth index pending ts
    else
      let later :=
        match t.kind with
        | .opening _ => statementStartsFrom (depth + 1) (index + 1) false ts
        | .closing b =>
          statementStartsFrom (depth - 1) (index + 1) (depth - 1 == 0 && b == .curly) ts
        | _ => statementStartsFrom depth (index + 1) (depth == 0 && t.reads ";") ts
      if depth == 0 && pending then index :: later else later

/-- The top-level statements of a script. -/
def statementStarts (tokens : List Token) : List Nat := statementStartsFrom 0 0 true tokens

-- ---------------------------------------------------------------------------
-- Module statements
-- ---------------------------------------------------------------------------

/-- A statement that only a module may hold starts here.  `import(…)` and
`import.meta` are expressions. -/
def isModuleStatement : List Token → Bool
  | [] => false
  | t :: next =>
    t.kind == .ident && (t.reads "import" || t.reads "export") &&
      !next.head?.any fun n => n.kind == .opening .round || n.reads "."

-- ---------------------------------------------------------------------------
-- Declarations
-- ---------------------------------------------------------------------------

inductive DeclarationKind
  | var
  | let
  | const
  | classDef
  | function
  deriving DecidableEq, Repr

namespace DeclarationKind

def all : List DeclarationKind := [.var, .let, .const, .function, .classDef]

def keyword : DeclarationKind → String
  | .var => "var"
  | .let => "let"
  | .const => "const"
  | .function => "function"
  | .classDef => "class"

/-- The kind whose keyword the token reads. -/
def ofToken? (t : Token) : Option DeclarationKind := all.find? fun kind => t.reads kind.keyword

end DeclarationKind

/-- A name bound at the top level of a script. -/
structure Declaration where
  kind : DeclarationKind
  name : Text
  span : Span
  deriving DecidableEq, Repr

/-- The tokens without their first one if it reads `word`. -/
def skipWord (word : String) : List Token → List Token
  | [] => []
  | t :: ts => if t.reads word then ts else t :: ts

/-- The tokens behind the words `export`, `export default` and `async`. -/
def skipModifiers (tokens : List Token) : List Token :=
  let exported := skipWord "export" tokens
  skipWord "async"
    (if exported.length < tokens.length then skipWord "default" exported else exported)

/-- The declaration that starts here: its first simple binding.  Patterns
bind nothing that is recorded. -/
def declarationAt? (tokens : List Token) : Option Declaration :=
  match skipModifiers tokens with
  | [] => none
  | t :: ts => do
    let kind ← DeclarationKind.ofToken? t
    let name ← (if kind = .function then skipWord "*" ts else ts).head?
    if name.kind = .ident then some ⟨kind, name.text, name.span⟩ else none

end FenceFacts
