import FenceFacts.Files.Change
import FenceFacts.Settings.Expansion
import FenceFacts.Settings.Format
import FenceFacts.Text.Utf8

/-!
# FenceFacts — settings files

Settings are kept in a file, in the home directory unless another one is
named.  A file that is not there is no error.  The path for the facts is
expanded when settings are read; a path that cannot be expanded stays as it is
written.
-/

namespace FenceFacts

inductive SettingsError
  | unreadable (path : Text)
  | invalid (path : Text)
  deriving DecidableEq, Repr

namespace SettingsError

def path : SettingsError → Text
  | unreadable path => path
  | invalid path => path

def message : SettingsError → String
  | unreadable path => "Failed to read config file at " ++ String.ofList path
  | invalid path => "Failed to parse config file at " ++ String.ofList path

end SettingsError

def Environment.settingsPath (env : Environment) : Text :=
  Path.join (env.withHome "~/.config/mdscript".toList) "config.toml".toList

namespace Settings

/-- The settings with the path for the facts expanded. -/
def expanded (env : Environment) (s : Settings) : Settings :=
  { s with factsPath := s.factsPath.map fun path => (env.expand? path).getD path }

/-- Reads the settings in a file as they are written there. -/
def readFile (t : FileTree) (path : Text) : Except SettingsError (Option Settings) :=
  match t.node? path with
  | none => .ok none
  | some (.directory _) => .error (.unreadable path)
  | some (.file bytes) =>
    match Utf8.decode bytes with
    | .error _ => .error (.unreadable path)
    | .ok text =>
      match read? text with
      | none => .error (.invalid path)
      | some s => .ok (some s)

/-- Loads the settings in a file, if it is there. -/
def load (env : Environment) (t : FileTree) (path : Text) :
    Except SettingsError (Option Settings) :=
  (readFile t path).map (·.map (expanded env))

/-- The path of the settings that are in force. -/
def pathOr (env : Environment) (path : Option Text) : Text := path.getD env.settingsPath

/-- Loads the settings that are in force. -/
def loadOrDefault (env : Environment) (t : FileTree) (path : Option Text) :
    Except SettingsError Settings :=
  (load env t (pathOr env path)).map (·.getD {})

/-- Saves the settings in a file, whose directories are made if need be. -/
def save (path : Text) (s : Settings) : FileChange Unit := do
  FileTree.createParents path
  FileTree.write path s.write.encode

end Settings

end FenceFacts
