import FenceFacts.Document
import FenceFacts.Files.Tree
import FenceFacts.Text.Utf8

/-!
# FenceFacts — input files

What a list of paths stands for.  A directory stands for the Markdown files
below it, at any depth, which are listed in the order of their paths and
reported relative to the directory.  Any other path stands for the file it
leads to, whatever its extension.

The order in which directories list their entries does not matter, and a
directory is searched whatever its own name is.
-/

namespace FenceFacts

inductive InputError
  | notFound (path : Text)
  | rootNotFound (root : Text)
  /-- A file where a directory is needed, or the other way round. -/
  | wrongKind (path : Text)
  | notText (path : Text)
  deriving DecidableEq, Repr

def InputError.message : InputError → String
  | notFound path => "File not found: " ++ String.ofList path
  | rootNotFound root =>
    "Invalid input directory: input directory not found: " ++ String.ofList root
  | wrongKind path => "IO error: " ++ String.ofList path
  | notText path => String.ofList path ++ " is not valid UTF-8"

def markdownExtensions : List String := ["md", "markdown"]

def isMarkdownPath (path : Text) : Bool :=
  (Path.extension? path).any fun e => markdownExtensions.contains (String.ofList e)

/-- A file to extract, and the directory it was found below. -/
structure InputFile where
  path : Text
  root : Option Text := none
  deriving DecidableEq, Repr

namespace FileTree

/-- The Markdown files below a directory, in the order of their paths. -/
def markdownFiles (t : FileTree) (root : Text) : Except InputError (List Text) :=
  match t.node? root with
  | none => .error (.rootNotFound root)
  | some (.file _) => .error (.wrongKind root)
  | some (.directory entries) =>
    .ok (((entries.files root).filter isMarkdownPath).mergeSort Path.le)

/-- The files that one path stands for. -/
def inputsAt (t : FileTree) (path : Text) : Except InputError (List InputFile) := do
  if t.isDirectory path then
    let found ← t.markdownFiles path
    return found.map fun file => ⟨file, some path⟩
  else if t.has path then return [⟨path, none⟩]
  else .error (.notFound path)

/-- The files that paths stand for, in the order of the paths. -/
def inputs (t : FileTree) (paths : List Text) : Except InputError (List InputFile) :=
  return (← paths.mapM t.inputsAt).flatten

def document (t : FileTree) (input : InputFile) : Except InputError Document :=
  match t.node? input.path with
  | none => .error (.notFound input.path)
  | some (.directory _) => .error (.wrongKind input.path)
  | some (.file bytes) =>
    match Utf8.decode bytes with
    | .ok text => .ok ⟨.ofFile input.path input.root, text⟩
    | .error _ => .error (.notText input.path)

end FileTree

end FenceFacts
