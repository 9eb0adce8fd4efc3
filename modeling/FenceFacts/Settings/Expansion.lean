import FenceFacts.Text.Alphanumeric

/-!
# FenceFacts — variables in paths

A path in the settings can name environment variables, `$NAME` or `${NAME}`,
and begin with a tilde for the home directory.

* A name without braces is a run of letters, digits and underscores.  Between
  braces it is everything up to the closing one, and `:-` behind a name
  separates it from a default.  The default is taken as it is.
* `$$` stands for one dollar.  A dollar that nothing of this follows stands for
  itself, as do an opening brace that is never closed and the dollar before it.
* A tilde counts at the start of the path as it is written, when what comes
  behind it in the end is nothing or a slash.  Values of variables are not
  expanded again.

A variable that is not set and has no default leaves the path without an
expansion.
-/

namespace FenceFacts

/-- The values of the environment variables that are set. -/
abbrev Environment := Text → Option Text

def Environment.home? (env : Environment) : Option Text :=
  (env "HOME".toList).filter (!·.isEmpty)

-- ---------------------------------------------------------------------------
-- Pieces
-- ---------------------------------------------------------------------------

/-- A piece of a path with variables. -/
inductive PathPiece
  | char (c : Char)
  | reference (name : Text) (default? : Option Text)
  deriving DecidableEq, Repr

/-- Whether names without braces can have the character. -/
def isVariableChar (c : Char) : Bool := isAlphanumeric c || c = '_'

/-- What stands before and behind the first `:-`. -/
def splitDefault? : Text → Option (Text × Text)
  | [] => none
  | ':' :: '-' :: t => some ([], t)
  | c :: t => (splitDefault? t).map fun (name, default) => (c :: name, default)

namespace PathPiece

/-- The piece that stands between braces. -/
def ofBraces (body : Text) : PathPiece :=
  match splitDefault? body with
  | some (c :: name, default) => reference (c :: name) default
  | _ => reference body none

/-- The piece behind a dollar, if there is one, and what follows it. -/
def afterDollar? : Text → Option (PathPiece × Text)
  | [] => none
  | '$' :: t => some (char '$', t)
  | '\x7b' :: t =>
    match t.dropWhile (· ≠ '\x7d') with
    | [] => none
    | _ :: rest => some (ofBraces (t.takeWhile (· ≠ '\x7d')), rest)
  | c :: t =>
    if isVariableChar c then
      some (reference (c :: t.takeWhile isVariableChar) none, t.dropWhile isVariableChar)
    else none

theorem afterDollar?_length_lt {t rest : Text} {piece : PathPiece}
    (h : afterDollar? t = some (piece, rest)) : rest.length < t.length := by
  unfold afterDollar? at h
  split at h
  · simp at h
  · grind
  · split at h
    · simp at h
    · next t _ _ _ hd =>
      obtain ⟨-, rfl⟩ := Prod.mk.inj (Option.some.inj h)
      have := (List.dropWhile_suffix (l := t) (· ≠ '\x7d')).length_le
      rw [hd] at this
      simp only [List.length_cons] at this ⊢
      omega
  · next t _ _ =>
    split at h
    · obtain ⟨-, rfl⟩ := Prod.mk.inj (Option.some.inj h)
      have := (List.dropWhile_suffix (l := t) isVariableChar).length_le
      simp only [List.length_cons]
      omega
    · simp at h

/-- The pieces of a path. -/
def ofPath : Text → List PathPiece
  | [] => []
  | c :: t =>
    if c = '$' then
      match h : afterDollar? t with
      | some (piece, rest) =>
        have := afterDollar?_length_lt h
        piece :: ofPath rest
      | none => char c :: ofPath t
    else char c :: ofPath t
termination_by t => t.length

/-- What a piece stands for. -/
def value? (env : Environment) : PathPiece → Option Text
  | char c => some [c]
  | reference name default? => (env name).or default?

def variableName? : PathPiece → Option Text
  | char _ => none
  | reference name _ => some name

end PathPiece

-- ---------------------------------------------------------------------------
-- Expansion
-- ---------------------------------------------------------------------------

namespace Environment

/-- The path with the values of its variables. -/
def withValues? (env : Environment) (path : Text) : Option Text :=
  ((PathPiece.ofPath path).mapM (PathPiece.value? env)).map List.flatten

/-- The path with the home directory for the tilde it begins with. -/
def withHome (env : Environment) (path : Text) : Text :=
  match path with
  | '~' :: rest =>
    if rest.isEmpty || rest.head? = some '/' then
      match env.home? with
      | some home => home ++ rest
      | none => path
    else path
  | _ => path

/-- The path with its variables and its tilde expanded. -/
def expand? (env : Environment) (path : Text) : Option Text :=
  (env.withValues? path).map fun expanded =>
    if path.head? = some '~' then env.withHome expanded else expanded

end Environment

end FenceFacts
