import FenceFacts.Proofs.Files.Insertion
import FenceFacts.Proofs.Files.Paths
import Mathlib.Data.List.Nodup

/-!
# FenceFacts — files by their places

A directory lists its entries by names, each of them once.  So every file below
it has a place of its own, and the path it is listed under is the one that the
names of that place make.  What is listed besides are directories that are too
far down: they are taken for files.

The order of a listing is that of the entries, and so it is not the same for
directories that hold the same things.

## Results

* `Node.exists_of_mem_files` — what is listed has a place.
* `Node.files_eq`            — files are listed by their places,
* `Node.mem_filePlaces_iff`  — and all of them are,
* `Node.nodup_filePlaces`    — once each.
-/

namespace FenceFacts

-- ---------------------------------------------------------------------------
-- Names of entries
-- ---------------------------------------------------------------------------

mutual

/-- All entries have names, and those of one directory have different ones. -/
def Node.IsSound : Node → Prop
  | .file _ => True
  | .directory entries => entries.IsSound

def Entries.IsSound : Entries → Prop
  | .nil => True
  | .cons name node rest =>
    Path.IsName name ∧ rest.find? name = none ∧ node.IsSound ∧ rest.IsSound

end

theorem Entries.IsSound.of_find? {entries : Entries} (h : entries.IsSound) {name : Text}
    {node : Node} (hnode : entries.find? name = some node) : Path.IsName name ∧ node.IsSound := by
  cases entries with
  | nil => cases hnode
  | cons n first rest =>
    rw [IsSound] at h
    obtain ⟨hname, -, hfirst, hrest⟩ := h
    rw [find?] at hnode
    split at hnode
    · next heq =>
      obtain rfl := heq
      obtain rfl := Option.some.inj hnode
      exact ⟨hname, hfirst⟩
    · exact hrest.of_find? hnode

/-- Names lead from a sound node to a sound one. -/
theorem Node.IsSound.of_descend? {n m : Node} (h : n.IsSound) {place : List Text}
    (hplace : n.descend? place = some m) : (∀ name ∈ place, Path.IsName name) ∧ m.IsSound := by
  induction place generalizing n with
  | nil =>
    rw [descend?_nil] at hplace
    obtain rfl := Option.some.inj hplace
    exact ⟨List.forall_mem_nil _, h⟩
  | cons name place ih =>
    cases n with
    | file => cases hplace
    | directory entries =>
      rw [descend?_cons] at hplace
      obtain ⟨node, hnode, hplace⟩ := Option.bind_eq_some_iff.mp hplace
      rw [IsSound] at h
      obtain ⟨hname, hsound⟩ := h.of_find? hnode
      obtain ⟨hnames, hm⟩ := ih hsound hplace
      exact ⟨List.forall_mem_cons.mpr ⟨hname, hnames⟩, hm⟩

-- ---------------------------------------------------------------------------
-- Entries one by one
-- ---------------------------------------------------------------------------

section Entries

variable {name : Text} {node m : Node} {rest : Entries} {place : List Text}

theorem descend?_first : Node.descend? (.directory (.cons name node rest)) (name :: place) =
    node.descend? place := by
  rw [Node.descend?_cons, Entries.find?, if_pos rfl, Option.bind_some]

/-- Behind the first entry there is what there is without it. -/
theorem descend?_others (hname : rest.find? name = none) {n : Text}
    (h : Node.descend? (.directory rest) (n :: place) = some m) :
    Node.descend? (.directory (.cons name node rest)) (n :: place) = some m := by
  rw [Node.descend?_cons] at h
  have hne : name ≠ n := by
    rintro rfl
    rw [hname] at h
    cases h
  rw [Node.descend?_cons, Entries.find?, if_neg hne]
  exact h

end Entries

-- ---------------------------------------------------------------------------
-- What is listed
-- ---------------------------------------------------------------------------

mutual

/-- What is listed **has a place**. -/
theorem Node.exists_of_mem_files {path p : Text} :
    ∀ {n : Node}, n.IsSound → p ∈ n.files path →
      ∃ place m, n.descend? place = some m ∧ p = Path.below path place
  | .file bytes, _, hp => by
    rw [Node.files] at hp
    exact ⟨[], _, Node.descend?_nil _, List.mem_singleton.mp hp⟩
  | .directory entries, h, hp => by
    rw [Node.IsSound] at h
    rw [Node.files] at hp
    split at hp
    · obtain ⟨name, place, m, hm, rfl⟩ := Entries.exists_of_mem_files h hp
      exact ⟨name :: place, m, hm, rfl⟩
    · exact ⟨[], _, Node.descend?_nil _, List.mem_singleton.mp hp⟩

/-- Below a directory it has one that names lead to. -/
theorem Entries.exists_of_mem_files {path p : Text} :
    ∀ {entries : Entries}, entries.IsSound → p ∈ entries.files path →
      ∃ name place m, Node.descend? (.directory entries) (name :: place) = some m ∧
        p = Path.below path (name :: place)
  | .nil, _, hp => absurd hp List.not_mem_nil
  | .cons name node rest, h, hp => by
    rw [Entries.IsSound] at h
    obtain ⟨-, hname, hnode, hrest⟩ := h
    rw [Entries.files] at hp
    rcases List.mem_append.mp hp with hp | hp
    · obtain ⟨place, m, hm, rfl⟩ := Node.exists_of_mem_files hnode hp
      exact ⟨name, place, m, descend?_first.trans hm, rfl⟩
    · obtain ⟨n, place, m, hm, rfl⟩ := Entries.exists_of_mem_files hrest hp
      exact ⟨n, place, m, descend?_others hname hm, rfl⟩

end

-- ---------------------------------------------------------------------------
-- Files
-- ---------------------------------------------------------------------------

mutual

/-- The places of all files of a node, in the order in which directories list
their entries. -/
def Node.filePlaces : Node → List (List Text)
  | .file _ => [[]]
  | .directory entries => entries.filePlaces

def Entries.filePlaces : Entries → List (List Text)
  | .nil => []
  | .cons name node rest => node.filePlaces.map (name :: ·) ++ rest.filePlaces

end

mutual

/-- **All files** have their places listed. -/
theorem Node.mem_filePlaces_iff {place : List Text} :
    ∀ {n : Node}, n.IsSound →
      (place ∈ n.filePlaces ↔ ∃ bytes, n.descend? place = some (.file bytes))
  | .file bytes, _ => by
    rw [Node.filePlaces, List.mem_singleton]
    constructor
    · rintro rfl
      exact ⟨bytes, Node.descend?_nil _⟩
    · rintro ⟨bytes', hfile⟩
      cases place with
      | nil => rfl
      | cons => cases hfile
  | .directory entries, h => by
    rw [Node.IsSound] at h
    exact Entries.mem_filePlaces_iff h

theorem Entries.mem_filePlaces_iff {place : List Text} :
    ∀ {entries : Entries}, entries.IsSound →
      (place ∈ entries.filePlaces ↔
        ∃ bytes, Node.descend? (.directory entries) place = some (.file bytes))
  | .nil, _ => by
    rw [Entries.filePlaces]
    constructor
    · exact fun h => absurd h List.not_mem_nil
    · rintro ⟨bytes, hfile⟩
      cases place <;> cases hfile
  | .cons name node rest, h => by
    rw [Entries.IsSound] at h
    obtain ⟨-, hname, hnode, hrest⟩ := h
    rw [Entries.filePlaces, List.mem_append, Entries.mem_filePlaces_iff hrest]
    constructor
    · rintro (hfirst | ⟨bytes, hfile⟩)
      · obtain ⟨below, hbelow, rfl⟩ := List.mem_map.mp hfirst
        rw [descend?_first]
        exact (Node.mem_filePlaces_iff hnode).mp hbelow
      · cases place with
        | nil => cases hfile
        | cons n place => exact ⟨bytes, descend?_others hname hfile⟩
    · rintro ⟨bytes, hfile⟩
      cases place with
      | nil => cases hfile
      | cons n place =>
        by_cases heq : name = n
        · subst heq
          rw [descend?_first] at hfile
          exact Or.inl (List.mem_map_of_mem ((Node.mem_filePlaces_iff hnode).mpr ⟨bytes, hfile⟩))
        · rw [Node.descend?_cons, Entries.find?, if_neg heq] at hfile
          exact Or.inr ⟨bytes, (Node.descend?_cons rest n place).trans hfile⟩

end

mutual

/-- No file is listed twice. -/
theorem Node.nodup_filePlaces : ∀ {n : Node}, n.IsSound → n.filePlaces.Nodup
  | .file _, _ => by
    rw [Node.filePlaces]
    exact List.nodup_singleton []
  | .directory entries, h => by
    rw [Node.IsSound] at h
    exact Entries.nodup_filePlaces h

theorem Entries.nodup_filePlaces : ∀ {entries : Entries}, entries.IsSound → entries.filePlaces.Nodup
  | .nil, _ => by
    rw [Entries.filePlaces]
    exact List.nodup_nil
  | .cons name node rest, h => by
    rw [Entries.IsSound] at h
    obtain ⟨-, hname, hnode, hrest⟩ := h
    rw [Entries.filePlaces]
    refine List.Nodup.append ((Node.nodup_filePlaces hnode).map (List.cons_injective))
      (Entries.nodup_filePlaces hrest) fun place hfirst hothers => ?_
    -- no other entry has this name
    obtain ⟨below, -, rfl⟩ := List.mem_map.mp hfirst
    obtain ⟨bytes, hfile⟩ := (Entries.mem_filePlaces_iff hrest).mp hothers
    rw [Node.descend?_cons, hname] at hfile
    cases hfile

end

/-- All directories of the node can be followed when it is at `path`. -/
def Node.IsFollowableAt (path : Text) (n : Node) : Prop :=
  ∀ place entries, n.descend? place = some (.directory entries) →
    Path.isFollowable (Path.below path place) = true

mutual

/-- Where all directories can be followed, files are listed **by their places**. -/
theorem Node.files_eq : ∀ {n : Node} {path : Text}, n.IsSound → n.IsFollowableAt path →
    n.files path = n.filePlaces.map (Path.below path)
  | .file _, _, _, _ => by
    rw [Node.files, Node.filePlaces]
    rfl
  | .directory entries, path, h, hfollow => by
    rw [Node.IsSound] at h
    have hpath : Path.isFollowable path = true := hfollow [] entries (Node.descend?_nil _)
    rw [Node.files, if_pos hpath, Node.filePlaces]
    exact Entries.files_eq h hfollow

theorem Entries.files_eq : ∀ {entries : Entries} {path : Text}, entries.IsSound →
    Node.IsFollowableAt path (.directory entries) →
      entries.files path = entries.filePlaces.map (Path.below path)
  | .nil, _, _, _ => by
    rw [Entries.files, Entries.filePlaces]
    rfl
  | .cons name node rest, path, h, hfollow => by
    rw [Entries.IsSound] at h
    obtain ⟨-, hname, hnode, hrest⟩ := h
    have hfirst : node.IsFollowableAt (Path.join path name) := fun place inner hinner =>
      hfollow (name :: place) inner (descend?_first.trans hinner)
    have hothers : Node.IsFollowableAt path (.directory rest) := by
      intro place inner hinner
      cases place with
      | nil => exact hfollow [] _ (Node.descend?_nil _)
      | cons n place => exact hfollow (n :: place) inner (descend?_others hname hinner)
    rw [Entries.files, Entries.filePlaces, List.map_append, List.map_map,
      Node.files_eq hnode hfirst, Entries.files_eq hrest hothers]
    rfl

end

-- ---------------------------------------------------------------------------
-- Nodes that paths lead to
-- ---------------------------------------------------------------------------

namespace FileTree

variable {t : FileTree} {root : Text} {entries : Entries}

theorem ne_nil_of_node? {node : Node} (h : t.node? root = some node) : root ≠ [] := by
  rintro rfl
  cases h

theorem isSound_of_node? {node : Node} (h : t.root.IsSound) (hnode : t.node? root = some node) :
    node.IsSound := by
  obtain ⟨place, -, hplace⟩ := Option.bind_eq_some_iff.mp hnode
  exact (h.of_descend? hplace).2

theorem isSound_of_directory (h : t.root.IsSound)
    (hroot : t.node? root = some (.directory entries)) : entries.IsSound := by
  have hsound := isSound_of_node? h hroot
  rwa [Node.IsSound] at hsound

end FileTree

end FenceFacts
