import FenceFacts.CommandLine.Run

/-!
# FenceFacts — the program

A run works on a file tree and an environment, so what it can ask about is
read beforehand: the settings file, the variables that its path for the facts
names, the inputs, and the place where facts go.  After the run its output is
printed and the file with the facts is written.
-/

namespace FenceFacts

/-- The names in the directory at a path, if it is one. -/
def readNames (path : Text) : IO (Option (List Text)) := do
  let directory := (← IO.currentDir) / String.ofList path
  match ← directory.readDir.toBaseIO with
  | .ok found => return some (found.toList.map (·.fileName.toList))
  | .error _ => return none

/-- The file or directory at a path, if it is there.  In directories only the
Markdown files are read; the others are left empty. -/
partial def readNode (path : Text) (named : Bool) : IO (Option Node) := do
  match ← readNames path with
  | some names =>
    let mut entries : Entries := .nil
    for name in names do
      if let some node ← readNode (Path.join path name) false then
        entries := .cons name node entries
    return some (.directory entries)
  | none =>
    if named || isMarkdownPath path then
      match ← (IO.FS.readBinFile (String.ofList path)).toBaseIO with
      | .ok bytes => return some (.file bytes.toList)
      | .error _ => return none
    else return some (.file [])

/-- The place that a path names, and the tree with the directories that lead
to it. -/
def approach (t : FileTree) (path : Text) : IO (FileTree × List Text) := do
  let mut t := t
  let mut place := t.start path
  let mut passed : Text := if Path.isAbsolute path then ['/'] else []
  for piece in FileTree.pieces path do
    passed := Path.join passed piece
    if piece = ['.', '.'] then place := place.dropLast
    else if piece ≠ ['.'] then
      place := place ++ [piece]
      if (t.nodeAt? place).isNone then
        if (← readNames passed).isSome then
          t := t.insertAt place (.directory .nil)
  return (t, place)

/-- The tree with what is found at some paths.  A file that is named itself
takes the place of the one in a directory. -/
def readPaths (t : FileTree) (paths : List Text) : IO FileTree := do
  let mut t := t
  let mut files : List (List Text × Node) := []
  for path in paths do
    let (approached, place) ← approach t path
    t := approached
    match ← readNode path true with
    | some (.file bytes) => files := (place, .file bytes) :: files
    | some (.directory entries) => t := t.insertAt place (.directory entries)
    | none => pure ()
  return files.foldl (fun t (place, node) => t.insertAt place node) t

/-- The environment with the values that these variables have now. -/
def readVariables (names : List Text) : IO Environment := do
  let values ← names.mapM fun name => return (name, ← IO.getEnv (String.ofList name))
  return fun name => (values.lookup name).join.map String.toList

/-- What a run with these arguments can ask about. -/
def readWorld (a : Arguments) : IO (Environment × FileTree) := do
  let working ← IO.currentDir
  let start : FileTree := { working := Path.segments working.toString.toList }
  let home ← readVariables ["HOME".toList]
  let settingsPath := Settings.pathOr home a.settings
  let t ← readPaths (start.insertAt start.working (.directory .nil)) [settingsPath]
  let written :=
    match Settings.readFile t settingsPath with
    | .ok (some s) => s.factsPath
    | _ => none
  let names := ((written.elim [] PathPiece.ofPath).filterMap PathPiece.variableName?)
  let env ← readVariables ("HOME".toList :: names)
  let facts := a.facts.or (written.map fun path => (env.expand? path).getD path)
  return (env, ← readPaths t (a.paths ++ facts.toList))

end FenceFacts

open FenceFacts

/-- Does what the arguments ask for. -/
def main (arguments : List String) : IO UInt32 := do
  let arguments := arguments.map String.toList
  let (env, t) ←
    match Arguments.read arguments with
    | .ok (.run a) => readWorld a
    | _ => pure (fun _ => none, {})
  let (outcome, t) := runCommandLine env arguments t
  IO.print outcome.output
  IO.eprint outcome.errors
  if let some path := outcome.written then
    IO.FS.writeBinFile (String.ofList path) ⟨((t.bytes? path).getD []).toArray⟩
  return outcome.exitCode.toUInt32
