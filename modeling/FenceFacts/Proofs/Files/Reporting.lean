import FenceFacts.Proofs.Files.Places

/-!
# FenceFacts — reports tell files apart

A file that is found below a directory is reported by its path from there: the
names that lead to it, with one slash between any two.  However the directory
is written, that is what is left of the path of the file without it, and
joined to the directory again it means the same path.  So the directory and
the report together tell which file it is.

## Results

* `exists_place_of_found` — what is found below a directory is at a place there.
* `reports_identify`      — what it is reported as, and that it is told apart.
-/

namespace FenceFacts

namespace FileTree

variable {t : FileTree} {root path : Text} {input : InputFile}

/-- What is found below a directory comes from the search of it. -/
theorem exists_files_of_inputsAt {found : List InputFile} (h : t.inputsAt path = .ok found)
    (hinput : input ∈ found) (hroot : input.root = some root) :
    ∃ files, t.markdownFiles root = .ok files ∧ input.path ∈ files := by
  rw [inputsAt] at h
  split at h
  · cases hfiles : t.markdownFiles path with
    | error e =>
      rw [hfiles] at h
      cases h
    | ok files =>
      rw [hfiles] at h
      obtain rfl := Except.ok.inj h
      obtain ⟨file, hfile, rfl⟩ := List.mem_map.mp hinput
      obtain rfl := Option.some.inj hroot
      exact ⟨files, hfiles, hfile⟩
  · split at h
    · -- a path that is given as a file is not found below a directory
      obtain rfl := Except.ok.inj h
      obtain rfl := List.mem_singleton.mp hinput
      cases hroot
    · cases h

/-- The names that lead to what is found below a directory. -/
structure IsFoundAt (t : FileTree) (root : Text) (names : List Text) (path : Text) : Prop where
  node : ∃ entries node, t.node? root = some (.directory entries) ∧
    Node.descend? (.directory entries) names = some node
  ne_nil : names ≠ []
  isName : ∀ name ∈ names, Path.IsName name
  path_eq : path = Path.below root names

theorem IsFoundAt.root_ne_nil {names : List Text} (h : t.IsFoundAt root names path) :
    root ≠ [] := by
  obtain ⟨entries, node, hroot, -⟩ := h.node
  exact ne_nil_of_node? hroot

theorem IsFoundAt.ofFile_eq {names : List Text} (h : t.IsFoundAt root names path) :
    Source.ofFile path (some root) = ⟨['/'].intercalate names⟩ := by
  rw [h.path_eq]
  exact Path.ofFile_below h.root_ne_nil h.isName

theorem exists_place_of_mem_markdownFiles (hsound : t.root.IsSound) {files : List Text}
    (hfiles : t.markdownFiles root = .ok files) (hpath : path ∈ files) :
    ∃ names, t.IsFoundAt root names path := by
  rw [markdownFiles] at hfiles
  split at hfiles
  · cases hfiles
  · cases hfiles
  · next entries hroot =>
    obtain rfl := Except.ok.inj hfiles
    have hlisted := List.mem_of_mem_filter (List.mem_mergeSort.mp hpath)
    obtain ⟨name, place, m, hm, rfl⟩ :=
      Entries.exists_of_mem_files (isSound_of_directory hsound hroot) hlisted
    exact ⟨name :: place, ⟨entries, m, hroot, hm⟩, List.cons_ne_nil name place,
      ((isSound_of_node? hsound hroot).of_descend? hm).1, rfl⟩

/-- What is found below a directory is **at a place** there. -/
theorem exists_place_of_found (hsound : t.root.IsSound) {paths : List Text}
    {inputs : List InputFile} (hinputs : t.inputs paths = .ok inputs) (hinput : input ∈ inputs)
    (hroot : input.root = some root) : ∃ names, t.IsFoundAt root names input.path := by
  obtain ⟨path, -, found, hfound, hinput⟩ := exists_of_mem_inputs hinputs hinput
  obtain ⟨files, hfiles, hpath⟩ := exists_files_of_inputsAt hfound hinput hroot
  exact exists_place_of_mem_markdownFiles hsound hfiles hpath

theorem source_of_document {d : Document} (h : t.document input = .ok d) :
    d.source = .ofFile input.path input.root := by
  rw [document] at h
  split at h
  · cases h
  · cases h
  · split at h
    · obtain rfl := Except.ok.inj h
      rfl
    · cases h

end FileTree

variable {t : FileTree} {root : Text}

/-- Reports **identify** what is found below a directory.  Whatever is found is
at a place there, and is reported by the names that lead to it.  These are
what its path has behind the components of the directory, and joined to the
directory again the report has the components of the path.  What is read is
reported so, and different paths are reported differently. -/
theorem reports_identify (hsound : t.root.IsSound) {paths : List Text} {inputs : List InputFile}
    (hinputs : t.inputs paths = .ok inputs) (root : Text) :
    (∀ input ∈ inputs, input.root = some root → ∃ names,
      t.IsFoundAt root names input.path ∧
      Path.components input.path = Path.components root ++ names.map .name ∧
      Source.ofFile input.path input.root = ⟨['/'].intercalate names⟩ ∧
      Path.components (Path.join root (Source.ofFile input.path input.root).path) =
        Path.components input.path ∧
      ∀ d, t.document input = .ok d → d.source = ⟨['/'].intercalate names⟩) ∧
    ∀ input ∈ inputs, ∀ input' ∈ inputs, input.root = some root → input'.root = some root →
      Source.ofFile input.path input.root = Source.ofFile input'.path input'.root →
      input = input' := by
  constructor
  · intro input hinput hroot
    obtain ⟨names, hfound⟩ := FileTree.exists_place_of_found hsound hinputs hinput hroot
    have hreport := hfound.ofFile_eq
    rw [← hroot] at hreport
    refine ⟨names, hfound, ?_, hreport, ?_, fun d hd => ?_⟩
    · rw [hfound.path_eq, Path.components_below hfound.root_ne_nil hfound.isName]
    · rw [hreport, hfound.path_eq,
        Path.components_join_intercalate hfound.root_ne_nil hfound.ne_nil hfound.isName]
    · rw [FileTree.source_of_document hd, hreport]
  · intro input hinput input' hinput' hroot hroot' hsame
    obtain ⟨names, hfound⟩ := FileTree.exists_place_of_found hsound hinputs hinput hroot
    obtain ⟨names', hfound'⟩ := FileTree.exists_place_of_found hsound hinputs hinput' hroot'
    rw [hroot, hroot', hfound.ofFile_eq, hfound'.ofFile_eq] at hsame
    -- the names are the pieces of the report
    have hnames : names = names' := by
      rw [← Path.segments_intercalate hfound.ne_nil hfound.isName,
        ← Path.segments_intercalate hfound'.ne_nil hfound'.isName, Source.mk.inj hsame]
    obtain ⟨path, _⟩ := input
    obtain ⟨path', _⟩ := input'
    have hpath : path = Path.below root names := hfound.path_eq
    have hpath' : path' = Path.below root names' := hfound'.path_eq
    subst hpath hpath' hnames hroot hroot'
    rfl

/-- Two files of one name, in a directory and in one below it. -/
def twoNotes : Entries :=
  .cons ['n', '.', 'm', 'd'] (.file [])
    (.cons ['s'] (.directory (.cons ['n', '.', 'm', 'd'] (.file []) .nil)) .nil)

def twoNotesTree : FileTree where
  root := .directory (.cons ['d'] (.directory twoNotes) .nil)

/-- The path of that directory, up and down again and with two slashes at the
end. -/
def upAndDown : Text := ['d', '/', '.', '.', '/', '.', '/', 'd', '/', '/']

theorem inputs_twoNotesTree : twoNotesTree.inputs [upAndDown] =
    .ok [⟨upAndDown ++ ['n', '.', 'm', 'd'], some upAndDown⟩,
      ⟨upAndDown ++ ['s', '/', 'n', '.', 'm', 'd'], some upAndDown⟩] := by
  have hfiles : (twoNotes.files upAndDown).filter isMarkdownPath =
      [upAndDown ++ ['n', '.', 'm', 'd'], upAndDown ++ ['s', '/', 'n', '.', 'm', 'd']] := by
    decide +kernel
  have hordered : (twoNotes.files upAndDown).filter isMarkdownPath
      |>.Pairwise fun p q => Path.le p q = true := by
    rw [hfiles]
    decide +kernel
  have hnode : twoNotesTree.node? upAndDown = some (.directory twoNotes) := rfl
  have hdirectory : twoNotesTree.isDirectory upAndDown = true := by
    rw [FileTree.isDirectory, FileTree.entries?, hnode]
    rfl
  have hsearch : twoNotesTree.markdownFiles upAndDown =
      .ok [upAndDown ++ ['n', '.', 'm', 'd'], upAndDown ++ ['s', '/', 'n', '.', 'm', 'd']] := by
    rw [FileTree.markdownFiles, hnode]
    exact congrArg Except.ok ((List.mergeSort_of_pairwise hordered).trans hfiles)
  rw [FileTree.inputs, List.mapM_cons, FileTree.inputsAt, if_pos hdirectory, hsearch]
  rfl

/-- One of them is reported by two names, and so not as the other one. -/
theorem reports_identify_twoNotes :
    ∃ first second : InputFile, twoNotesTree.inputs [upAndDown] = .ok [first, second] ∧
      (∃ names, twoNotesTree.IsFoundAt upAndDown names second.path ∧
        Path.components (Path.join upAndDown (['/'].intercalate names)) =
          Path.components second.path) ∧
      Source.ofFile first.path first.root ≠ Source.ofFile second.path second.root := by
  have hsound : twoNotesTree.root.IsSound := by
    simp only [twoNotesTree, twoNotes, Node.IsSound, Entries.IsSound]
    decide
  obtain ⟨hreports, hapart⟩ := reports_identify hsound inputs_twoNotesTree upAndDown
  obtain ⟨names, hfound, -, hreport, hcomponents, -⟩ :=
    hreports _ (List.mem_cons_of_mem _ List.mem_cons_self) rfl
  rw [hreport] at hcomponents
  refine ⟨_, _, inputs_twoNotesTree, ⟨names, hfound, hcomponents⟩, fun hsame => ?_⟩
  cases hapart _ List.mem_cons_self _ (List.mem_cons_of_mem _ List.mem_cons_self) rfl rfl hsame

end FenceFacts
