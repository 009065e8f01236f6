import OpsComposer.Foundations.FileTree
import OpsComposer.Projects.Normalization

/-!
# Writing a project to disk

`PlaybookValidator.validate_project` and the worker's `execute_run` write the
files of an accepted project one after the other into an empty directory.  What
`normalize_project` checks is each path by itself, and that no two are the same;
whether the files can be written depends on a relation between two paths, that
of a file to the directory of another, and is not checked.

`materialise` writes the files into a directory whose names are compared after
`fold`: `id` where the file system tells capital letters from small ones, and
`Text.casefold` where it does not.
-/

set_option autoImplicit false

namespace OpsComposer.Services.PlaybookProject

open Foundations

/-- Where a file is written. -/
def location (fold : Text → Text) (file : PlaybookRevisionFile) : List Text :=
  (parts file.path).map fold

/-- The files of a project are written in their order, on a file system that folds names in
this way. -/
def materialise (fold : Text → Text) (project : NormalizedProject) :
    Option (FileTree Text Text) :=
  FileTree.writeAll (project.files.map fun file => (location fold file, file.content))

/-- The project can be written: no path lies below another, and all the files
are there in the end, with their contents. -/
structure Materialises (project : NormalizedProject) : Prop where
  prefixFree : PrefixFree (project.files.map (location Text.casefold))
  written : ∀ fold ∈ [Text.casefold, id], ∃ tree, materialise fold project = some tree ∧
    tree.files.Perm (project.files.map fun file => (location fold file, file.content))

/-- No path of the input is that of a directory of another one. -/
def NoFileIsDirectory (files : FileMap) : Prop :=
  PrefixFree (files.rows.map fun item => (parts item.1).map Text.casefold)

section Accepted

variable {sha256 : Bytes → Bytes} {files : FileMap} {entrypoint : Text}
  {project : NormalizedProject}

theorem Accepts.somePart (ok : Accepts sha256 files entrypoint project)
    {file : PlaybookRevisionFile} (member : file ∈ project.files) : parts file.path ≠ [] := by
  obtain ⟨item, -, normal⟩ := Text.exists_of_forall₂ ok.normal member
  rw [normal.path_eq, parts_asPosix normal.path.somePart]
  exact normal.path.somePart

/-- The locations of the files are the folded components of the raw paths. -/
theorem Accepts.mem_locations (ok : Accepts sha256 files entrypoint project)
    {path : List Text} : path ∈ project.files.map (location Text.casefold) ↔
      path ∈ files.rows.map fun item => (parts item.1).map Text.casefold := by
  have paths : project.files.map (location Text.casefold) =
      (project.files.map PlaybookRevisionFile.path).map fun path =>
        (parts path).map Text.casefold := by
    rw [List.map_map]
    rfl
  rw [paths, map_path_of_forall₂ ok.normal, List.map_map, List.mem_map, List.mem_map]
  constructor
  · rintro ⟨item, member, rfl⟩
    obtain ⟨file, -, normal⟩ := Text.exists_of_forall₂ ok.normal.flip member
    exact ⟨item, mem_sortedBy.mp member,
      by rw [Function.comp_apply, parts_asPosix normal.path.somePart]⟩
  · rintro ⟨item, member, rfl⟩
    have ordered : item ∈ orderedItems files := mem_sortedBy.mpr member
    obtain ⟨file, -, normal⟩ := Text.exists_of_forall₂ ok.normal.flip ordered
    exact ⟨item, ordered, by rw [Function.comp_apply, parts_asPosix normal.path.somePart]⟩

theorem Accepts.prefixFree_iff (ok : Accepts sha256 files entrypoint project) :
    PrefixFree (project.files.map (location Text.casefold)) ↔ NoFileIsDirectory files := by
  unfold NoFileIsDirectory PrefixFree
  simp only [ok.mem_locations]

/-- No two files have one location, in either kind of file system. -/
theorem Accepts.nodup_locations (ok : Accepts sha256 files entrypoint project) {fold : Text → Text}
    (kind : fold ∈ [Text.casefold, id]) : (project.files.map (location fold)).Nodup := by
  have folded : (project.files.map (location Text.casefold)).Nodup := by
    refine List.Nodup.of_map (Text.join slash) ?_
    have joined : (project.files.map (location Text.casefold)).map (Text.join slash) =
        foldedPaths project.files := by
      rw [List.map_map]
      refine List.map_congr_left fun file member => ?_
      have normal := ok.path_normal member
      rw [asPosix, if_neg (ok.somePart member)] at normal
      rw [Function.comp_apply, location, ← Text.casefold_join (by decide), normal]
    rw [joined]
    exact ok.distinct
  rcases List.mem_cons.mp kind with rfl | other
  · exact folded
  · obtain rfl := List.mem_singleton.mp other
    refine List.Nodup.of_map (List.map Text.casefold) ?_
    rw [List.map_map]
    have same : List.map Text.casefold ∘ location id = location Text.casefold := by
      funext file
      rw [Function.comp_apply, location, List.map_id, location]
    rwa [same]

/-- Paths that are apart when they are folded are apart. -/
theorem Accepts.prefixFree_fold (ok : Accepts sha256 files entrypoint project)
    {fold : Text → Text} (kind : fold ∈ [Text.casefold, id])
    (free : PrefixFree (project.files.map (location Text.casefold))) :
    PrefixFree (project.files.map (location fold)) := by
  rcases List.mem_cons.mp kind with rfl | other
  · exact free
  · obtain rfl := List.mem_singleton.mp other
    intro path member path' member' below
    obtain ⟨file, there, rfl⟩ := List.mem_map.mp member
    obtain ⟨file', there', rfl⟩ := List.mem_map.mp member'
    rw [location, location, List.map_id, List.map_id] at below
    have same := free _ (List.mem_map_of_mem there) _ (List.mem_map_of_mem there')
      (below.map Text.casefold)
    have distinct : (project.files.map (location Text.casefold)).Nodup :=
      ok.nodup_locations List.mem_cons_self
    rw [List.inj_on_of_nodup_map distinct there there' same]

/-- **When an accepted project can be written to disk.** -/
theorem materialises_iff (accepted : normalizeProject sha256 files entrypoint = .ok project) :
    Materialises project ↔ NoFileIsDirectory files := by
  have ok := (normalizeProject_eq_ok sha256).mp accepted
  rw [← ok.prefixFree_iff]
  constructor
  · exact Materialises.prefixFree
  · intro free
    refine ⟨free, fun fold kind => ?_⟩
    have locations : (project.files.map fun file => (location fold file, file.content)).map
        Prod.fst = project.files.map (location fold) := by
      rw [List.map_map]
      rfl
    refine (FileTree.writeAll_iff ?_ ?_).mpr ?_
    · intro item member
      obtain ⟨file, there, rfl⟩ := List.mem_map.mp member
      simpa [location] using ok.somePart there
    · rw [locations]
      exact ok.nodup_locations kind
    · rw [locations]
      exact ok.prefixFree_fold kind free

end Accepted

theorem materialises_plain : ∃ project,
    normalizeProject id plainFiles (text "Site.yml") = .ok project ∧ Materialises project := by
  have accepts : (normalizeProject id plainFiles (text "Site.yml")).toOption.isSome := by decide
  cases accepted : normalizeProject id plainFiles (text "Site.yml") with
  | error error =>
      rw [accepted] at accepts
      cases accepts
  | ok project =>
      refine ⟨project, rfl, (materialises_iff accepted).mpr ?_⟩
      unfold NoFileIsDirectory PrefixFree
      decide

/-- A file, and one in a directory of its name. -/
def nestedFiles : FileMap := ⟨[(text "a", text "x"), (text "a/b.yml", text "y")], by decide⟩

/-- **An accepted project that cannot be written to disk**: the directory of the
second file has the place of the first. -/
theorem materialises_fails :
    ∃ project, normalizeProject id nestedFiles (text "a/b.yml") = .ok project ∧
      materialise id project = none ∧ ¬ Materialises project := by
  refine ⟨⟨[⟨text "a", text "x", [120], 1⟩, ⟨text "a/b.yml", text "y", [121], 1⟩],
    text "a/b.yml", [97, 0, 120, 0, 97, 47, 98, 46, 121, 109, 108, 0, 121, 0], 2⟩,
    by decide, by decide, fun fine => ?_⟩
  have below := fine.prefixFree [text "a"] (by decide) [text "a", text "b.yml"] (by decide)
    (by decide)
  exact absurd below (by decide)

end OpsComposer.Services.PlaybookProject
