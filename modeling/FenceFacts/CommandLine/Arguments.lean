import FenceFacts.Text

/-!
# FenceFacts — command line arguments

Arguments are read from left to right, and the first one that is wrong, or
that asks for help or the version, settles the matter.

Options have a short name behind one dash, a long one behind two, or both.
Short names that take no value can share a dash.  A value stands behind a long
name and an equals sign, right behind a short name with or without one, or in
the next argument, which then must not look like an option.  After two dashes
alone everything is a path.  One dash alone is a path as well.
-/

namespace FenceFacts

/-- What a run is asked to do. -/
structure Arguments where
  paths : List Text := []
  settings : Option Text := none
  facts : Option Text := none
  noLines : Bool := false
  verbosity : Nat := 0
  deriving DecidableEq, Repr

inductive Request
  | run (arguments : Arguments)
  | help
  | version
  deriving DecidableEq, Repr

inductive UsageError
  | unknown (argument : Text)
  | valueMissing (name : Text)
  | valueUnwanted (name : Text)
  | repeated (name : Text)
  | emptyPath
  | noPaths
  deriving DecidableEq, Repr

def UsageError.message : UsageError → String
  | unknown argument => "unexpected argument '" ++ String.ofList argument ++ "' found"
  | valueMissing name => "a value is required for '" ++ String.ofList name ++ "'"
  | valueUnwanted name => "unexpected value for '" ++ String.ofList name ++ "' found"
  | repeated name => "the argument '" ++ String.ofList name ++ "' cannot be used multiple times"
  | emptyPath => "a value is required for a path but none was supplied"
  | noPaths => "the following required arguments were not provided: <PATHS>..."

-- ---------------------------------------------------------------------------
-- Options
-- ---------------------------------------------------------------------------

inductive PathOption
  | settings
  | facts
  deriving DecidableEq, Repr

inductive ArgumentOption
  | path (o : PathOption)
  | noLines
  | verbose
  | help
  | version
  deriving DecidableEq, Repr

namespace ArgumentOption

def longNames : List (String × ArgumentOption) :=
  [("config", path .settings), ("facts", path .facts), ("no-lines", noLines),
    ("verbose", verbose), ("help", help), ("version", version)]

def shortNames : List (Char × ArgumentOption) :=
  [('c', path .settings), ('o', path .facts), ('v', verbose), ('h', help), ('V', version)]

def ofLong? (name : Text) : Option ArgumentOption := longNames.lookup (String.ofList name)

end ArgumentOption

/-- Whether an argument looks like an option. -/
def looksLikeOption (argument : Text) : Bool := argument.head? = some '-' && argument ≠ ['-']

-- ---------------------------------------------------------------------------
-- One argument
-- ---------------------------------------------------------------------------

/-- What follows from an argument. -/
inductive ArgumentStep
  | done (arguments : Arguments)
  /-- The next argument is the value of this option. -/
  | awaits (o : PathOption) (name : Text) (arguments : Arguments)
  /-- Nothing after this argument matters. -/
  | settled (request : Request)
  deriving DecidableEq, Repr

namespace Arguments

def addPath (a : Arguments) (path : Text) : Except UsageError Arguments :=
  if path.isEmpty then .error .emptyPath else .ok { a with paths := a.paths ++ [path] }

def setPath (a : Arguments) (o : PathOption) (name value : Text) : Except UsageError Arguments :=
  if value.isEmpty then .error (.valueMissing name)
  else
    match o with
    | .settings =>
      if a.settings.isSome then .error (.repeated name) else .ok { a with settings := value }
    | .facts => if a.facts.isSome then .error (.repeated name) else .ok { a with facts := value }

def setFlag (a : Arguments) (name : Text) : ArgumentOption → Except UsageError ArgumentStep
  | .path o => .ok (.awaits o name a)
  | .noLines => if a.noLines then .error (.repeated name) else .ok (.done { a with noLines := true })
  | .verbose => .ok (.done { a with verbosity := a.verbosity + 1 })
  | .help => .ok (.settled .help)
  | .version => .ok (.settled .version)

/-- An argument without the two dashes that it begins with. -/
def readLong (a : Arguments) (text : Text) : Except UsageError ArgumentStep := do
  let name := text.takeWhile (· ≠ '=')
  match ArgumentOption.ofLong? name, (text.dropWhile (· ≠ '=')).tail? with
  | none, _ => .error (.unknown text)
  | some o, none => a.setFlag name o
  | some (.path o), some value => return .done (← a.setPath o name value)
  | some _, some _ => .error (.valueUnwanted name)

/-- A value behind the name of its option. -/
def withoutEquals : Text → Text
  | '=' :: value => value
  | value => value

/-- An argument without the one dash that it begins with. -/
def readShort (a : Arguments) : Text → Except UsageError ArgumentStep
  | [] => .ok (.done a)
  | c :: rest =>
    match ArgumentOption.shortNames.lookup c with
    | none => .error (.unknown ['-', c])
    | some (.path o) =>
      if rest.isEmpty then .ok (.awaits o [c] a)
      else (a.setPath o [c] (withoutEquals rest)).map .done
    | some o =>
      match a.setFlag [c] o with
      | .ok (.done a) => readShort a rest
      | step => step

/-- An argument in front of which no value is missing. -/
def step (a : Arguments) (argument : Text) : Except UsageError ArgumentStep :=
  if !looksLikeOption argument then (a.addPath argument).map .done
  else
    match argument with
    | '-' :: '-' :: text => a.readLong text
    | _ => a.readShort argument.tail

-- ---------------------------------------------------------------------------
-- All arguments
-- ---------------------------------------------------------------------------

def request (a : Arguments) : Except UsageError Request :=
  if a.paths.isEmpty then .error .noPaths else .ok (.run a)

def readFrom (a : Arguments) : List Text → Except UsageError Request
  | [] => a.request
  | argument :: rest => do
    if argument = ['-', '-'] then (← rest.foldlM addPath a).request
    else
      match ← a.step argument with
      | .done a => readFrom a rest
      | .settled request => return request
      | .awaits o name a =>
        match rest with
        | [] => .error (.valueMissing name)
        | value :: rest =>
          if looksLikeOption value then .error (.valueMissing name)
          else readFrom (← a.setPath o name value) rest

def read (arguments : List Text) : Except UsageError Request := readFrom {} arguments

end Arguments

end FenceFacts
