import FenceFacts.Files.Change
import FenceFacts.Files.Inputs
import Mathlib.Data.List.Basic
import Mathlib.Tactic.Common

/-!
# FenceFacts — putting a file into a tree

When a file is put at a place, nothing else in the tree moves.  Above the
place there are the same directories, though one of them may list one entry
more, and beside it there are the same nodes.  So a path leads where it led
before, or to the place, and a directory lists what it listed before, and
perhaps the place.

What the file holds makes no difference to where paths lead.

## Results

* `descend?_insert_self`, `descend?_insert_on_way`, `descend?_insert_elsewhere` —
  at the place, above it and beside it.
* `place?_insertAt`    — where paths lead.
* `Node.files_insert`  — what directories list.
* `document_insertAt`, `inputs_insertAt` — documents and inputs that are not the file.
* `node?_of_write`     — the file that was written.
-/

namespace FenceFacts

-- ---------------------------------------------------------------------------
-- Nodes
-- ---------------------------------------------------------------------------

/-- A file can be put at this place: there is a directory for it, and it is
no directory itself. -/
inductive Node.CanHold : Node → List Text → Prop
  | here {entries : Entries} {name : Text} (h : (entries.find? name).bind Node.entries? = none) :
    CanHold (.directory entries) [name]
  | deeper {entries : Entries} {name : Text} {node : Node} {place : List Text}
    (hnode : entries.find? name = some node) (h : CanHold node place) :
    CanHold (.directory entries) (name :: place)

namespace Node

variable {n : Node} {place q : List Text} {bytes : List UInt8}

theorem CanHold.exists_entries (h : n.CanHold place) : ∃ entries, n = .directory entries := by
  cases h <;> exact ⟨_, rfl⟩

theorem descend?_nil (n : Node) : n.descend? [] = some n := by
  cases n <;> rfl

theorem descend?_cons (entries : Entries) (name : Text) (q : List Text) :
    descend? (.directory entries) (name :: q) = (entries.find? name).bind (descend? · q) := by
  rw [descend?]

theorem insert_cons {entries : Entries} {name : Text} {node : Node}
    (hnode : entries.find? name = some node) (place : List Text) (new : Node) :
    insert (.directory entries) (name :: place) new =
      .directory (entries.set name (node.insert place new)) := by
  rw [insert, hnode]
  rfl

/-- The place of a node that was put in the directory itself. -/
theorem insert_singleton (entries : Entries) (name : Text) (new : Node) :
    insert (.directory entries) [name] new = .directory (entries.set name new) := by
  rw [insert]
  cases entries.find? name <;> rw [insert]

theorem descend?_insert_self (h : n.CanHold place) (new : Node) :
    (n.insert place new).descend? place = some new := by
  induction h with
  | here =>
    rw [insert_singleton, descend?_cons, Entries.find?_set_self]
    rfl
  | deeper hnode _ ih =>
    rw [insert_cons hnode, descend?_cons, Entries.find?_set_self]
    exact ih

/-- Above the place, the nodes are the ones in which it is. -/
theorem descend?_insert_on_way {rest : List Text} (h : n.CanHold place) (hq : place = q ++ rest)
    (hrest : rest ≠ []) (new : Node) :
    ∃ m, n.descend? q = some m ∧ m.CanHold rest ∧
      (n.insert place new).descend? q = some (m.insert rest new) := by
  induction h generalizing q with
  | @here entries name h =>
    cases q with
    | nil =>
      obtain rfl := hq
      exact ⟨_, descend?_nil _, .here h, descend?_nil _⟩
    | cons _ q =>
      obtain ⟨-, hq⟩ := List.cons.inj hq
      exact absurd (List.append_eq_nil_iff.mp hq.symm).2 hrest
  | @deeper entries name node place hnode h ih =>
    cases q with
    | nil =>
      obtain rfl := hq
      exact ⟨_, descend?_nil _, .deeper hnode h, descend?_nil _⟩
    | cons _ q =>
      obtain ⟨rfl, hplace⟩ := List.cons.inj hq
      rw [insert_cons hnode, descend?_cons, descend?_cons, hnode, Entries.find?_set_self]
      exact ih hplace

/-- Beside the place and behind it, nothing is changed. -/
theorem descend?_insert_elsewhere (h : n.CanHold place) (hq : ¬ q <+: place) :
    (n.insert place (.file bytes)).descend? q = n.descend? q := by
  induction h generalizing q with
  | @here entries name h =>
    cases q with
    | nil => exact absurd List.nil_prefix hq
    | cons other q =>
      rw [insert_singleton, descend?_cons, descend?_cons]
      by_cases hother : other = name
      · -- behind a file there is nothing, and so it was before
        subst hother
        obtain ⟨piece, q, rfl⟩ := List.exists_cons_of_ne_nil fun hnil : q = [] =>
          hq (hnil ▸ List.prefix_rfl)
        rw [Entries.find?_set_self]
        cases hnode : entries.find? other with
        | none => rfl
        | some node =>
          cases node with
          | file => rfl
          | directory inner =>
            rw [hnode] at h
            cases h
      · rw [Entries.find?_set_of_ne hother]
  | @deeper entries name node place hnode h ih =>
    cases q with
    | nil => exact absurd List.nil_prefix hq
    | cons other q =>
      rw [insert_cons hnode, descend?_cons, descend?_cons]
      by_cases hother : other = name
      · subst hother
        rw [Entries.find?_set_self, hnode]
        exact ih fun hprefix => hq (List.cons_prefix_cons.mpr ⟨rfl, hprefix⟩)
      · rw [Entries.find?_set_of_ne hother]

/-- Away from the place there are files with the bytes that they had, and
directories where they were. -/
theorem bytes?_descend?_insert (h : n.CanHold place) (hq : q ≠ place) :
    ((n.insert place (.file bytes)).descend? q).map Node.bytes? =
      (n.descend? q).map Node.bytes? := by
  by_cases hprefix : q <+: place
  · obtain ⟨rest, rfl⟩ := hprefix
    have hrest : rest ≠ [] := fun hnil => hq (hnil ▸ (List.append_nil q).symm)
    obtain ⟨m, hm, hholds, hinsert⟩ := descend?_insert_on_way h rfl hrest (.file bytes)
    obtain ⟨entries, rfl⟩ := hholds.exists_entries
    rw [hm, hinsert]
    obtain ⟨name, rest, rfl⟩ := List.exists_cons_of_ne_nil hrest
    rw [insert]
    rfl
  · rw [descend?_insert_elsewhere h hprefix]

/-- Where a file can be put there is no directory. -/
theorem CanHold.bytes?_ne (h : n.CanHold place) : (n.descend? place).map Node.bytes? ≠ some none := by
  induction h with
  | @here entries name h =>
    rw [descend?_cons]
    cases hnode : entries.find? name with
    | none => exact nofun
    | some node =>
      cases node with
      | file => exact nofun
      | directory inner =>
        rw [hnode] at h
        cases h
  | deeper hnode _ ih =>
    rw [descend?_cons, hnode]
    exact ih

theorem descend?_append (n : Node) (p q : List Text) :
    n.descend? (p ++ q) = (n.descend? p).bind (descend? · q) := by
  induction p generalizing n with
  | nil => rw [descend?_nil, List.nil_append, Option.bind_some]
  | cons name p ih =>
    cases n with
    | file => rfl
    | directory entries =>
      rw [List.cons_append, descend?_cons, descend?_cons]
      cases entries.find? name with
      | none => rfl
      | some node => exact ih node

theorem canHold_concat {entries : Entries} {name : Text}
    (hdirectory : n.descend? q = some (.directory entries))
    (hname : (entries.find? name).bind Node.entries? = none) : n.CanHold (q ++ [name]) := by
  induction q generalizing n with
  | nil =>
    rw [descend?_nil] at hdirectory
    obtain rfl := Option.some.inj hdirectory
    exact .here hname
  | cons first q ih =>
    cases n with
    | file => cases hdirectory
    | directory outer =>
      rw [descend?_cons] at hdirectory
      obtain ⟨inner, hinner, hdirectory⟩ := Option.bind_eq_some_iff.mp hdirectory
      exact .deeper hinner (ih hdirectory)

end Node

-- ---------------------------------------------------------------------------
-- Paths
-- ---------------------------------------------------------------------------

namespace FileTree

variable {t t' : FileTree} {place q : List Text} {path piece : Text} {bytes : List UInt8}

/-- The bytes of the file at a place, and none of a directory.  Whether
there is a node, and of what kind, can be told from that. -/
def contentAt? (t : FileTree) (q : List Text) : Option (Option (List UInt8)) :=
  (t.nodeAt? q).map Node.bytes?

theorem contentAt?_insertAt_self (h : t.root.CanHold place) :
    (t.insertAt place (.file bytes)).contentAt? place = some (some bytes) := by
  rw [contentAt?, nodeAt?, insertAt, Node.descend?_insert_self h]
  rfl

theorem contentAt?_insertAt_of_ne (h : t.root.CanHold place) (hq : q ≠ place) :
    (t.insertAt place (.file bytes)).contentAt? q = t.contentAt? q :=
  Node.bytes?_descend?_insert h hq

/-- Where a piece leads depends on what there are directories and what else
there is. -/
theorem enter?_eq (t : FileTree) (q : List Text) (piece : Text) :
    t.enter? q piece =
      if t.contentAt? q = some none then
        if piece = ['.'] then some q
        else if piece = ['.', '.'] then some q.dropLast
        else (t.contentAt? (q ++ [piece])).map fun _ => q ++ [piece]
      else none := by
  rw [enter?, contentAt?, contentAt?, nodeAt?, nodeAt?, Node.descend?_append]
  cases t.root.descend? q with
  | none => rfl
  | some node =>
    cases node with
    | file => rfl
    | directory entries =>
      have hdirectory : (some (Node.directory entries)).map Node.bytes? = some none := rfl
      rw [if_pos hdirectory, Option.bind_some, Node.descend?_cons]
      show (if piece = ['.'] then some q else if piece = ['.', '.'] then some q.dropLast
        else (entries.find? piece).bind fun _ => some (q ++ [piece])) = _
      cases entries.find? piece with
      | none => rfl
      | some inner => rw [Option.bind_some, Option.bind_some, Node.descend?_nil]; rfl

theorem enter?_insertAt_self (h : t.root.CanHold place) (piece : Text) :
    (t.insertAt place (.file bytes)).enter? place piece = none := by
  rw [enter?_eq, contentAt?_insertAt_self h, if_neg nofun]

/-- A piece of a path leads where it led, or to the place if it led nowhere. -/
theorem enter?_insertAt (h : t.root.CanHold place) (bytes : List UInt8) (q : List Text)
    (piece : Text) :
    (t.insertAt place (.file bytes)).enter? q piece = t.enter? q piece ∨
      (t.insertAt place (.file bytes)).enter? q piece = some place ∧ t.enter? q piece = none := by
  by_cases hq : q = place
  · subst hq
    have hnone : t.enter? q piece = none := by
      rw [enter?_eq]
      exact if_neg h.bytes?_ne
    exact Or.inl ((enter?_insertAt_self h piece).trans hnone.symm)
  · rw [enter?_eq, enter?_eq t, contentAt?_insertAt_of_ne h hq]
    by_cases hpiece : q ++ [piece] = place
    · rw [hpiece, contentAt?_insertAt_self h]
      cases t.contentAt? place with
      | some content => exact Or.inl rfl
      | none =>
        split
        · split
          · exact Or.inl rfl
          · split
            · exact Or.inl rfl
            · exact Or.inr ⟨rfl, rfl⟩
        · exact Or.inl rfl
    · rw [contentAt?_insertAt_of_ne h hpiece]
      exact Or.inl rfl

theorem foldlM_enter?_insertAt (h : t.root.CanHold place) (pieces : List Text) (q : List Text) :
    pieces.foldlM (t.insertAt place (.file bytes)).enter? q = pieces.foldlM t.enter? q ∨
      pieces.foldlM (t.insertAt place (.file bytes)).enter? q = some place := by
  induction pieces generalizing q with
  | nil => exact Or.inl rfl
  | cons piece pieces ih =>
    rw [List.foldlM_cons, List.foldlM_cons]
    rcases enter?_insertAt h bytes q piece with hsame | ⟨hplace, hnone⟩
    · rw [hsame]
      cases t.enter? q piece with
      | none => exact Or.inl rfl
      | some q' => exact ih q'
    · rw [hplace, hnone]
      cases pieces with
      | nil => exact Or.inr rfl
      | cons next pieces =>
        refine Or.inl ?_
        show (next :: pieces).foldlM _ place = none
        rw [List.foldlM_cons, enter?_insertAt_self h]
        rfl

/-- A path leads **where it led before, or to the place**. -/
theorem place?_insertAt (h : t.root.CanHold place) (bytes : List UInt8) (path : Text) :
    (t.insertAt place (.file bytes)).place? path = t.place? path ∨
      (t.insertAt place (.file bytes)).place? path = some place := by
  rw [place?, place?]
  split
  · exact Or.inl rfl
  · exact foldlM_enter?_insertAt h _ _

/-- Where paths lead does not depend on what is in the file. -/
theorem place?_insertAt_bytes (h : t.root.CanHold place) (bytes bytes' : List UInt8) :
    (t.insertAt place (.file bytes)).place? = (t.insertAt place (.file bytes')).place? := by
  have henter : (t.insertAt place (.file bytes)).enter? =
      (t.insertAt place (.file bytes')).enter? := by
    funext q piece
    by_cases hq : q = place
    · rw [hq, enter?_insertAt_self h, enter?_insertAt_self h]
    · rw [enter?_eq, enter?_eq (t.insertAt place (.file bytes')), contentAt?_insertAt_of_ne h hq,
        contentAt?_insertAt_of_ne h hq]
      by_cases hpiece : q ++ [piece] = place
      · rw [hpiece, contentAt?_insertAt_self h, contentAt?_insertAt_self h]
        rfl
      · rw [contentAt?_insertAt_of_ne h hpiece, contentAt?_insertAt_of_ne h hpiece]
  funext path
  rw [place?, place?, henter]
  rfl

/-- What a path leads to, if it does not lead to the place, is the file or the
directory that it was. -/
theorem bytes?_node?_insertAt (h : t.root.CanHold place)
    (hpath : (t.insertAt place (.file bytes)).place? path ≠ some place) :
    ((t.insertAt place (.file bytes)).node? path).map Node.bytes? =
      (t.node? path).map Node.bytes? := by
  have hsame := (place?_insertAt h bytes path).resolve_right hpath
  rw [node?, node?, hsame]
  rw [hsame] at hpath
  cases hq : t.place? path with
  | none => rfl
  | some q => exact contentAt?_insertAt_of_ne h fun heq => hpath (hq.trans (congrArg some heq))

end FileTree

-- ---------------------------------------------------------------------------
-- Listings
-- ---------------------------------------------------------------------------

namespace Entries

/-- A new entry is listed last. -/
theorem files_set_of_none {entries : Entries} {name : Text} (hnone : entries.find? name = none)
    (new : Node) (path : Text) :
    (entries.set name new).files path = entries.files path ++ new.files (Path.join path name) := by
  cases entries with
  | nil => simp only [set, files, List.nil_append, List.append_nil]
  | cons n old rest =>
    rw [find?] at hnone
    split at hnone
    · cases hnone
    · next hne =>
      rw [set, if_neg hne, files, files, files_set_of_none hnone, List.append_assoc]

/-- An entry that is replaced is listed where it was. -/
theorem exists_files_set {entries : Entries} {name : Text} {node : Node}
    (hnode : entries.find? name = some node) (path : Text) :
    ∃ before after, entries.files path = before ++ node.files (Path.join path name) ++ after ∧
      ∀ new, (entries.set name new).files path =
        before ++ Node.files (Path.join path name) new ++ after := by
  cases entries with
  | nil => cases hnode
  | cons n old rest =>
    rw [find?] at hnode
    split at hnode
    · next heq =>
      obtain rfl := heq
      obtain rfl := Option.some.inj hnode
      refine ⟨[], rest.files path, by rw [files, List.nil_append], fun new => ?_⟩
      rw [set, if_pos rfl, files, List.nil_append]
    · next hne =>
      obtain ⟨before, after, hbefore, hafter⟩ := exists_files_set hnode path
      refine ⟨Node.files (Path.join path n) old ++ before, after, ?_, fun new => ?_⟩
      · rw [files, hbefore]
        simp only [List.append_assoc]
      · rw [set, if_neg hne, files, hafter]
        simp only [List.append_assoc]

end Entries

/-- A directory lists what it listed, and **perhaps the file that was put
there**. -/
theorem Node.files_insert {n : Node} {place : List Text} (h : n.CanHold place)
    (bytes : List UInt8) (path : Text) :
    (n.insert place (.file bytes)).files path = n.files path ∨
      ∃ before after, n.files path = before ++ after ∧
        (n.insert place (.file bytes)).files path =
          before ++ place.foldl Path.join path :: after := by
  induction h generalizing path with
  | @here entries name h =>
    rw [insert_singleton, files, files]
    split
    · cases hnode : entries.find? name with
      | none =>
        refine Or.inr ⟨entries.files path, [], (List.append_nil _).symm, ?_⟩
        rw [Entries.files_set_of_none hnode]
        rfl
      | some node =>
        obtain ⟨before, after, hbefore, hafter⟩ := Entries.exists_files_set hnode path
        rw [hbefore, hafter]
        cases node with
        | file => exact Or.inl rfl
        | directory inner =>
          rw [hnode] at h
          cases h
    · exact Or.inl rfl
  | @deeper entries name node place hnode h ih =>
    rw [insert_cons hnode, files, files]
    split
    · obtain ⟨before, after, hbefore, hafter⟩ := Entries.exists_files_set hnode path
      rw [hbefore, hafter]
      rcases ih (Path.join path name) with hsame | ⟨before', after', hbefore', hafter'⟩
      · exact Or.inl (by rw [hsame])
      · refine Or.inr ⟨before ++ before', after' ++ after, ?_, ?_⟩
        · rw [hbefore']
          simp only [List.append_assoc]
        · rw [hafter']
          simp only [List.append_assoc, List.cons_append, List.foldl_cons]
    · exact Or.inl rfl

-- ---------------------------------------------------------------------------
-- Inputs
-- ---------------------------------------------------------------------------

namespace FileTree

variable {t t' : FileTree} {place : List Text} {path : Text} {bytes : List UInt8}

/-- An input that is the file at a place: its path leads there, or it was
found there below a directory. -/
def IsAt (t : FileTree) (place : List Text) (input : InputFile) : Prop :=
  t.place? input.path = some place ∨
    ∃ root directory rest, input.root = some root ∧ t.place? root = some directory ∧
      place = directory ++ rest ∧ input.path = rest.foldl Path.join root

/-- None of the inputs that the paths stand for is the file at a place. -/
def Apart (t : FileTree) (place : List Text) (paths : List Text) : Prop :=
  ∀ path ∈ paths, ∀ found, t.inputsAt path = .ok found → ∀ input ∈ found, ¬ t.IsAt place input

theorem document_eq (t : FileTree) (input : InputFile) :
    t.document input =
      match (t.node? input.path).map Node.bytes? with
      | none => .error (.notFound input.path)
      | some none => .error (.wrongKind input.path)
      | some (some bytes) =>
        match Utf8.decode bytes with
        | .ok text => .ok ⟨.ofFile input.path input.root, text⟩
        | .error _ => .error (.notText input.path) := by
  rw [document]
  cases t.node? input.path with
  | none => rfl
  | some node => cases node <;> rfl

/-- An input that is not the file reads the same with it. -/
theorem document_insertAt (h : t.root.CanHold place) {input : InputFile} (bytes' : List UInt8)
    (hapart : ¬ (t.insertAt place (.file bytes)).IsAt place input) :
    (t.insertAt place (.file bytes')).document input = t.document input := by
  have hplace : (t.insertAt place (.file bytes')).place? input.path ≠ some place := by
    rw [place?_insertAt_bytes h bytes' bytes]
    exact fun hplace => hapart (Or.inl hplace)
  rw [document_eq, document_eq, bytes?_node?_insertAt h hplace]

theorem isDirectory_iff : t.isDirectory path = true ↔ (t.node? path).map Node.bytes? = some none := by
  rw [isDirectory, entries?]
  cases t.node? path with
  | none => simp
  | some node => cases node <;> simp [Node.entries?, Node.bytes?]

theorem has_iff : t.has path = ((t.node? path).map Node.bytes?).isSome := by
  rw [has, Option.isSome_map]

theorem isFollowable_of_place? {q : List Text} (h : t.place? path = some q) :
    Path.isFollowable path = true := by
  rw [place?] at h
  split at h
  · cases h
  · next hfollowable =>
    rw [Bool.or_eq_true, not_or, Bool.not_eq_true'] at hfollowable
    exact Bool.not_eq_false _ ▸ hfollowable.2

/-- A directory above the place lists what it listed, and perhaps the file. -/
theorem exists_entries_insertAt (h : t.root.CanHold place) {q rest : List Text}
    (hrest : place = q ++ rest) (hne : rest ≠ []) (bytes : List UInt8)
    (hfollowable : Path.isFollowable path = true) :
    ∃ entries entries', t.nodeAt? q = some (.directory entries) ∧
      (t.insertAt place (.file bytes)).nodeAt? q = some (.directory entries') ∧
      (entries'.files path = entries.files path ∨
        ∃ before after, entries.files path = before ++ after ∧
          entries'.files path = before ++ rest.foldl Path.join path :: after) := by
  obtain ⟨m, hm, hholds, hinsert⟩ := Node.descend?_insert_on_way h hrest hne (.file bytes)
  obtain ⟨entries, rfl⟩ := hholds.exists_entries
  obtain ⟨name, rest, rfl⟩ := List.exists_cons_of_ne_nil hne
  obtain ⟨entries', hentries'⟩ : ∃ entries',
      Node.insert (.directory entries) (name :: rest) (.file bytes) = .directory entries' := by
    rw [Node.insert]
    exact ⟨_, rfl⟩
  have hlist := Node.files_insert hholds bytes path
  rw [hentries', Node.files, Node.files, if_pos hfollowable, if_pos hfollowable] at hlist
  exact ⟨entries, entries', hm, hinsert.trans (congrArg some hentries'), hlist⟩

/-- A directory stands for **the same files** if the one that is put there is
none of them. -/
theorem markdownFiles_insertAt (h : t.root.CanHold place)
    (hplace : (t.insertAt place (.file bytes)).place? path ≠ some place)
    (hapart : ∀ files, (t.insertAt place (.file bytes)).markdownFiles path = .ok files →
      ∀ file ∈ files, ¬ (t.insertAt place (.file bytes)).IsAt place ⟨file, some path⟩) :
    (t.insertAt place (.file bytes)).markdownFiles path = t.markdownFiles path := by
  have hsame := (place?_insertAt h bytes path).resolve_right hplace
  rw [markdownFiles, node?, hsame] at hapart
  rw [markdownFiles, markdownFiles, node?, node?, hsame]
  cases hq : t.place? path with
  | none => rfl
  | some q =>
    rw [hq] at hapart hsame
    dsimp only [Option.bind_some] at hapart ⊢
    by_cases hprefix : q <+: place
    · obtain ⟨rest, hrest⟩ := hprefix
      have hne : rest ≠ [] := by
        rintro rfl
        rw [List.append_nil] at hrest
        exact hplace (hsame.trans (congrArg some hrest))
      obtain ⟨entries, entries', hold, hnew, hlist⟩ :=
        exists_entries_insertAt h hrest.symm hne bytes (isFollowable_of_place? hq)
      rw [hnew] at hapart
      rw [hnew, hold]
      dsimp only at hapart ⊢
      rcases hlist with hlist | ⟨before, after, hbefore, hafter⟩
      · rw [hlist]
      · -- the file is listed below this directory, so it is no Markdown file
        have hmarkdown : ¬ isMarkdownPath (rest.foldl Path.join path) = true := by
          intro hmarkdown
          refine hapart _ rfl (rest.foldl Path.join path) ?_
            (Or.inr ⟨path, q, rest, rfl, hsame, hrest.symm, rfl⟩)
          rw [List.mem_mergeSort, List.mem_filter, hafter]
          exact ⟨List.mem_append_right before List.mem_cons_self, hmarkdown⟩
        rw [hafter, hbefore, List.filter_append, List.filter_append,
          List.filter_cons_of_neg hmarkdown]
    · have hnode : (t.insertAt place (.file bytes)).nodeAt? q = t.nodeAt? q :=
        Node.descend?_insert_elsewhere h hprefix
      rw [hnode]

/-- A path stands for the same inputs if the file that is put there is none of
them. -/
theorem inputsAt_insertAt (h : t.root.CanHold place)
    (hapart : ∀ found, (t.insertAt place (.file bytes)).inputsAt path = .ok found →
      ∀ input ∈ found, ¬ (t.insertAt place (.file bytes)).IsAt place input) :
    (t.insertAt place (.file bytes)).inputsAt path = t.inputsAt path := by
  have hplace : (t.insertAt place (.file bytes)).place? path ≠ some place := by
    intro hplace
    have hnode : (t.insertAt place (.file bytes)).node? path = some (.file bytes) := by
      rw [node?, hplace]
      exact Node.descend?_insert_self h _
    have hinputs : (t.insertAt place (.file bytes)).inputsAt path = .ok [⟨path, none⟩] := by
      rw [inputsAt, isDirectory, entries?, has, hnode]
      rfl
    exact hapart _ hinputs ⟨path, none⟩ List.mem_cons_self (Or.inl hplace)
  have hkind := bytes?_node?_insertAt h hplace
  have hdirectory : (t.insertAt place (.file bytes)).isDirectory path = t.isDirectory path := by
    rw [Bool.eq_iff_iff, isDirectory_iff, isDirectory_iff, hkind]
  have hhas : (t.insertAt place (.file bytes)).has path = t.has path := by
    rw [has_iff, has_iff, hkind]
  rw [inputsAt, hdirectory] at hapart
  rw [inputsAt, inputsAt, hdirectory, hhas]
  cases hpath : t.isDirectory path with
  | false => rfl
  | true =>
    rw [hpath, if_pos rfl] at hapart
    have hfiles := markdownFiles_insertAt h hplace fun files hfiles file hfile => ?_
    · rw [hfiles]
    · rw [hfiles] at hapart
      exact hapart _ rfl ⟨file, some path⟩
        (List.mem_map_of_mem (f := fun file => (⟨file, some path⟩ : InputFile)) hfile)

theorem inputs_insertAt (h : t.root.CanHold place) {paths : List Text}
    (hapart : (t.insertAt place (.file bytes)).Apart place paths) :
    (t.insertAt place (.file bytes)).inputs paths = t.inputs paths := by
  have hpaths : paths.mapM (t.insertAt place (.file bytes)).inputsAt = paths.mapM t.inputsAt := by
    induction paths with
    | nil => rfl
    | cons path paths ih =>
      obtain ⟨hpath, hpaths⟩ := List.forall_mem_cons.mp hapart
      rw [List.mapM_cons, List.mapM_cons, inputsAt_insertAt h hpath, ih hpaths]
  rw [inputs, inputs, hpaths]

theorem exists_of_mapM_inputsAt {paths : List Text} {all : List (List InputFile)}
    (h : paths.mapM t.inputsAt = .ok all) {found : List InputFile} (hfound : found ∈ all) :
    ∃ path ∈ paths, t.inputsAt path = .ok found := by
  induction paths generalizing all with
  | nil =>
    cases h
    exact absurd hfound List.not_mem_nil
  | cons path paths ih =>
    rw [List.mapM_cons] at h
    cases hpath : t.inputsAt path with
    | error e =>
      rw [hpath] at h
      cases h
    | ok here =>
      cases hpaths : paths.mapM t.inputsAt with
      | error e =>
        rw [hpath, hpaths] at h
        cases h
      | ok rest =>
        rw [hpath, hpaths] at h
        obtain rfl := Except.ok.inj h
        rcases List.mem_cons.mp hfound with rfl | hfound
        · exact ⟨path, List.mem_cons_self, hpath⟩
        · obtain ⟨path', hmem, hpath'⟩ := ih hpaths hfound
          exact ⟨path', List.mem_cons_of_mem path hmem, hpath'⟩

theorem exists_of_mem_inputs {paths : List Text} {inputs : List InputFile}
    (h : t.inputs paths = .ok inputs) {input : InputFile} (hinput : input ∈ inputs) :
    ∃ path ∈ paths, ∃ found, t.inputsAt path = .ok found ∧ input ∈ found := by
  rw [FileTree.inputs] at h
  cases hall : paths.mapM t.inputsAt with
  | error e =>
    rw [hall] at h
    cases h
  | ok all =>
    rw [hall] at h
    obtain rfl := Except.ok.inj h
    obtain ⟨found, hfound, hinput⟩ := List.mem_flatten.mp hinput
    obtain ⟨path, hpath, hat⟩ := exists_of_mapM_inputsAt hall hfound
    exact ⟨path, hpath, found, hat, hinput⟩

/-- None of the inputs is a file from which the paths are apart. -/
theorem Apart.not_isAt {paths : List Text} {inputs : List InputFile} (h : t.Apart place paths)
    (hinputs : t.inputs paths = .ok inputs) {input : InputFile} (hinput : input ∈ inputs) :
    ¬ t.IsAt place input := by
  obtain ⟨path, hpath, found, hfound, hinput⟩ := exists_of_mem_inputs hinputs hinput
  exact h path hpath found hfound input hinput

/-- Paths that lead to files are apart from a file to which none of them leads. -/
theorem apart_of_files {paths : List Text}
    (h : ∀ path ∈ paths, t.isDirectory path = false ∧ t.place? path ≠ some place) :
    t.Apart place paths := by
  intro path hpath found hfound input hinput
  obtain ⟨hfile, hplace⟩ := h path hpath
  rw [inputsAt, hfile, if_neg Bool.false_ne_true] at hfound
  split at hfound
  · obtain rfl := Except.ok.inj hfound
    obtain rfl := List.mem_singleton.mp hinput
    rintro (hat | ⟨_, _, _, hroot, _⟩)
    · exact hplace hat
    · cases hroot
  · cases hfound

/-- The place for a file is in the directory to which the path leads before
its last piece, and there is no directory at the place. -/
theorem exists_of_filePlace? (h : t.filePlace? path = some place) :
    ∃ directory name entries, place = directory ++ [name] ∧
      Path.isFollowable path = true ∧ isEntryName name = true ∧
      pieces path = (pieces path).dropLast ++ [name] ∧
      (pieces path).dropLast.foldlM t.enter? (t.start path) = some directory ∧
      t.nodeAt? directory = some (.directory entries) ∧
      (entries.find? name).bind Node.entries? = none := by
  unfold filePlace? at h
  split at h
  · cases h
  · next hfollowable =>
    obtain ⟨name, hlast, h⟩ := Option.bind_eq_some_iff.mp h
    dsimp only at h
    split at h
    · cases h
    · next hname =>
      obtain ⟨directory, hdirectory, h⟩ := Option.bind_eq_some_iff.mp h
      obtain ⟨node, hnode, h⟩ := Option.bind_eq_some_iff.mp h
      obtain ⟨entries, hentries, h⟩ := Option.bind_eq_some_iff.mp h
      split at h
      · cases h
      · next hfile =>
        obtain rfl := Option.some.inj h
        cases node with
        | file => cases hentries
        | directory inner =>
          obtain rfl := Option.some.inj hentries
          exact ⟨directory, name, inner, rfl, by simpa using hfollowable, by simpa using hname,
            (List.dropLast_append_getLast? name hlast).symm, hdirectory, hnode,
            Option.not_isSome_iff_eq_none.mp hfile⟩

/-- The place for a file can hold it. -/
theorem canHold_of_filePlace? (h : t.filePlace? path = some place) : t.root.CanHold place := by
  obtain ⟨directory, name, entries, rfl, -, -, -, -, hnode, hfile⟩ := exists_of_filePlace? h
  exact Node.canHold_concat hnode hfile

/-- Pieces that led somewhere still lead there. -/
theorem foldlM_enter?_insertAt_of_some (h : t.root.CanHold place) (bytes : List UInt8)
    {pieces : List Text} {q q' : List Text} (hpieces : pieces.foldlM t.enter? q = some q') :
    pieces.foldlM (t.insertAt place (.file bytes)).enter? q = some q' := by
  induction pieces generalizing q with
  | nil => exact hpieces
  | cons piece pieces ih =>
    rw [List.foldlM_cons] at hpieces ⊢
    obtain ⟨next, hnext, hpieces⟩ := Option.bind_eq_some_iff.mp hpieces
    rcases enter?_insertAt h bytes q piece with hsame | ⟨-, hnone⟩
    · rw [hsame, hnext]
      exact ih hpieces
    · rw [hnone] at hnext
      cases hnext

/-- A path leads to **the file that was put at its place**. -/
theorem place?_insertAt_self (h : t.filePlace? path = some place) (bytes : List UInt8) :
    (t.insertAt place (.file bytes)).place? path = some place := by
  have hholds := canHold_of_filePlace? h
  obtain ⟨directory, name, entries, rfl, hfollowable, hname, hpieces, hdirectory, hnode, -⟩ :=
    exists_of_filePlace? h
  have hne : path.isEmpty = false := by
    cases path with
    | nil =>
      have hnone : pieces [] = [] := rfl
      rw [hnone] at hpieces
      cases hpieces
    | cons c cs => rfl
  have hdots : name ≠ ['.'] ∧ name ≠ ['.', '.'] := by
    simp only [isEntryName, Bool.and_eq_true, decide_eq_true_eq] at hname
    exact ⟨hname.1.2, hname.2⟩
  have hcontent : (t.insertAt (directory ++ [name]) (.file bytes)).contentAt? directory =
      some none := by
    rw [contentAt?_insertAt_of_ne hholds (by simp), contentAt?, hnode]
    rfl
  have henter : (t.insertAt (directory ++ [name]) (.file bytes)).enter? directory name =
      some (directory ++ [name]) := by
    rw [enter?_eq, if_pos hcontent, if_neg hdots.1, if_neg hdots.2,
      contentAt?_insertAt_self hholds]
    rfl
  have hlast := foldlM_enter?_insertAt_of_some hholds bytes hdirectory
  have hstart : (t.insertAt (directory ++ [name]) (.file bytes)).start path = t.start path := rfl
  rw [place?, hne, hfollowable, Bool.not_true, Bool.or_false, if_neg Bool.false_ne_true, hpieces,
    List.foldlM_append, hstart, hlast]
  simp [henter]

/-- Writing puts the bytes at the place for the file, if there is one. -/
theorem exists_of_write (h : (write path bytes).run t = .ok () t') :
    ∃ place, t.filePlace? path = some place ∧ t' = t.insertAt place (.file bytes) := by
  simp only [write, EStateM.run_bind, EStateM.run_get] at h
  cases hplace : t.filePlace? path with
  | none =>
    rw [hplace] at h
    cases h
  | some place =>
    rw [hplace] at h
    cases h
    exact ⟨place, rfl, rfl⟩

/-- What is written to a file is **what is found there**. -/
theorem node?_of_write (h : (write path bytes).run t = .ok () t') :
    t'.node? path = some (.file bytes) := by
  obtain ⟨place, hplace, rfl⟩ := exists_of_write h
  rw [node?, place?_insertAt_self hplace]
  exact Node.descend?_insert_self (canHold_of_filePlace? hplace) _

end FileTree

end FenceFacts
