import OpsComposer.Foundations.FileTree
import OpsComposer.Projects.Normalization

/-!
# Where the files of a project lie

`normalize_project_path` looks at the raw text, at the components that
`PurePosixPath` finds in it and at their case-folded forms, and returns another
text than the one it has looked at.  The normal form has the same components, so
that everything that was checked holds of what is returned.

* `joinPath`, `locate` — `root / path`, and the directory to which a path leads;
* `Contained` — what is known of an accepted path, `ContainedProject` of an
  accepted project;
* `paths_contained` — both hold of whatever the two functions return.
-/

set_option autoImplicit false

namespace OpsComposer.Services.PlaybookProject

open Foundations

/-! ## Joining -/

/-- `PurePosixPath(root) / path`. -/
def joinPath (root path : Text) : Text :=
  if isAbsolute path then path
  else if root = [] ∨ root.getLast? = some slash then root ++ path
  else root ++ slash :: path

/-- What a component does to the directory it is looked up in. -/
def moveOf (component : Text) : FileTree.Move Text :=
  if component = [] ∨ component = text "." then .stay
  else if component = text ".." then .up
  else .down component

/-- Where a path leads from a working directory. -/
def locate (directory : List Text) (path : Text) : List Text :=
  FileTree.walk (if isAbsolute path then [] else directory) ((path.split slash).map moveOf)

/-- **A relative path is followed from the root that it is joined to.** -/
theorem locate_joinPath {path : Text} (relative : isAbsolute path = false)
    (directory : List Text) (root : Text) :
    locate directory (joinPath root path) =
      FileTree.walk (locate directory root) ((path.split slash).map moveOf) := by
  rw [joinPath, relative, if_neg Bool.false_ne_true]
  by_cases bare : root = []
  · subst bare
    rw [if_pos (.inl rfl), List.nil_append, locate, relative]
    rfl
  have same : ∀ rest : Text, isAbsolute (root ++ rest) = isAbsolute root := by
    intro rest
    cases root with
    | nil => exact absurd rfl bare
    | cons c root => rfl
  by_cases ends : root.getLast? = some slash
  · rw [if_pos (.inr ends), locate, same]
    obtain ⟨stem, rfl⟩ := List.getLast?_eq_some_iff.mp ends
    rw [locate, List.append_assoc, List.singleton_append, Text.split_append, Text.split_append,
      List.map_append, List.map_append, FileTree.walk_append, FileTree.walk_append]
    rfl
  · have separated : ¬ (root = [] ∨ root.getLast? = some slash) := not_or.mpr ⟨bare, ends⟩
    rw [if_neg separated, locate, same, Text.split_append, List.map_append, FileTree.walk_append]
    rfl

/-! ## Accepted paths -/

/-- The text neither begins nor ends with white space. -/
abbrev Trimmed (part : Text) : Prop :=
  (∀ c ∈ part.head?, Text.isSpace c = false) ∧ ∀ c ∈ part.getLast?, Text.isSpace c = false

/-- A component that is a name, and that nothing else reads a meaning into. -/
structure PlainPart (part : Text) : Prop where
  nonempty : part ≠ []
  notHere : part ≠ text "."
  notUp : part ≠ text ".."
  noBackslash : 92 ∉ part
  noControl : ¬ HasControl part
  trimmed : Trimmed part
  allowed : ¬ ForbiddenPart part.casefold

theorem PlainPart.moveOf_eq {part : Text} (plain : PlainPart part) : moveOf part = .down part := by
  rw [moveOf, if_neg (not_or.mpr ⟨plain.nonempty, plain.notHere⟩), if_neg plain.notUp]

/-- A relative path that cannot leave the directory it is joined to. -/
structure Contained (path : Text) : Prop where
  relative : isAbsolute path = false
  some : 1 ≤ (path.split slash).length
  shallow : (path.split slash).length ≤ maxProjectDepth
  plain : ∀ part ∈ path.split slash, PlainPart part
  below : ∀ (directory : List Text) (root : Text), ∃ rest, rest ≠ [] ∧
    locate directory (joinPath root path) = locate directory root ++ rest

/-- Every component of an accepted path is plain. -/
theorem PathOk.plainPart {raw part : Text} (ok : PathOk raw) (member : part ∈ parts raw) :
    PlainPart part := by
  obtain ⟨piece, nonempty, notHere⟩ := mem_parts.mp member
  -- a character of a component is one of the raw path
  have inside : ∀ c ∈ part, c ∈ raw := by
    intro c isChar
    rw [← Text.join_split slash raw]
    exact Text.mem_join_of_mem piece isChar
  refine ⟨nonempty, notHere, (ok.plain part member).1, fun bad => ok.noBackslash (inside _ bad), ?_,
    Text.ends_of_strip (ok.plain part member).2, ?_⟩
  · rintro ⟨c, isChar, control⟩
    exact ok.noControl ⟨c, inside c isChar, control⟩
  · intro forbidden
    exact ok.allowed (.inr (.inl ⟨part.casefold, List.mem_map_of_mem member, forbidden⟩))

/-- The normal form of a path is split into its components. -/
theorem split_asPosix {raw : Text} (some : parts raw ≠ []) :
    (asPosix raw).split slash = parts raw := by
  rw [asPosix, if_neg some]
  exact Text.split_join (fun _ => slash_not_mem_part) some

/-- **An accepted path is contained.** -/
theorem PathOk.contained {raw : Text} (ok : PathOk raw) : Contained (asPosix raw) := by
  have pieces := split_asPosix ok.somePart
  have relative := (not_isAbsolute_asPosix ok.somePart).1
  refine ⟨relative, ?_, ?_, ?_, ?_⟩
  · rw [pieces]
    exact List.length_pos_iff.mpr ok.somePart
  · rw [pieces]
    exact ok.shallow
  · intro part member
    rw [pieces] at member
    exact ok.plainPart member
  · intro directory root
    refine ⟨parts raw, ok.somePart, ?_⟩
    have downwards : (parts raw).map moveOf = (parts raw).map FileTree.Move.down :=
      List.map_congr_left fun part member => (ok.plainPart member).moveOf_eq
    rw [locate_joinPath relative, pieces, downwards, FileTree.walk_down]

/-- A path that is not accepted is refused. -/
theorem normalizeProjectPath_refuses {raw : Text} {error : ProjectError}
    (refused : normalizeProjectPath raw = .error error) : ∃ message, error = .invalid message := by
  unfold normalizeProjectPath at refused
  split at refused
  · exact ⟨_, (Except.error.inj refused).symm⟩
  split at refused
  · exact ⟨_, (Except.error.inj refused).symm⟩
  split at refused
  · exact ⟨_, (Except.error.inj refused).symm⟩
  split at refused
  · exact ⟨_, (Except.error.inj refused).symm⟩
  · cases refused

/-! ## Accepted projects -/

/-- A project whose files lie below whatever root it is written to, and are not too large. -/
structure ContainedProject (project : NormalizedProject) : Prop where
  contained : ∀ file ∈ project.files, Contained file.path
  distinct : (foldedPaths project.files).Nodup
  entrypoint : ∃ file ∈ project.files, file.path = project.entrypoint
  some : 1 ≤ project.files.length
  few : project.files.length ≤ maxProjectFiles
  small : ∀ file ∈ project.files, ∃ encoded, file.content.encode = Option.some encoded ∧
    encoded.length = file.sizeBytes ∧ file.sizeBytes ≤ maxProjectFileBytes
  size : project.sizeBytes = totalBytes project.files
  total : project.sizeBytes ≤ maxProjectBytes

theorem Accepts.contained {sha256 : Bytes → Bytes} {files : FileMap} {entrypoint : Text}
    {project : NormalizedProject} (ok : Accepts sha256 files entrypoint project) :
    ContainedProject project := by
  have count : project.files.length = files.rows.length := by
    rw [← ok.normal.length_eq, orderedItems, sortedBy_perm.length_eq]
  refine ⟨?_, ok.distinct, ?_, ?_, ?_, ?_, ok.size, ?_⟩
  · intro file member
    obtain ⟨item, -, normal⟩ := Text.exists_of_forall₂ ok.normal member
    rw [normal.path_eq]
    exact normal.path.contained
  · obtain ⟨file, member, named⟩ := List.mem_map.mp ok.member
    exact ⟨file, member, named⟩
  · rw [count]
    exact List.length_pos_iff.mpr ok.some
  · rw [count]
    exact ok.few
  · intro file member
    obtain ⟨item, -, normal⟩ := Text.exists_of_forall₂ ok.normal member
    obtain ⟨encoded, encodes, -, -, small, -, size⟩ := normal.encodes
    exact ⟨encoded, encodes, size.symm, size ▸ small⟩
  · rw [ok.size]
    exact ok.small

/-- **Project paths cannot escape.**  Every text is refused or brought into a form
that stays strictly below every root, and an accepted project has such paths only. -/
theorem paths_contained (sha256 : Bytes → Bytes) :
    (∀ raw, (∃ message, normalizeProjectPath raw = .error (.invalid message)) ∨
      ∃ path, normalizeProjectPath raw = .ok path ∧ Contained path) ∧
    ∀ (files : FileMap) (entrypoint : Text) (project : NormalizedProject),
      normalizeProject sha256 files entrypoint = .ok project → ContainedProject project := by
  constructor
  · intro raw
    cases result : normalizeProjectPath raw with
    | error error =>
        obtain ⟨message, rfl⟩ := normalizeProjectPath_refuses result
        exact .inl ⟨message, rfl⟩
    | ok path =>
        obtain ⟨ok, rfl⟩ := normalizeProjectPath_eq_ok.mp result
        exact .inr ⟨_, rfl, ok.contained⟩
  · intro files entrypoint project accepted
    exact ((normalizeProject_eq_ok sha256).mp accepted).contained

/-- A playbook and the tasks of a role, the path of which is written with two slashes. -/
theorem paths_contained_plain :
    ∃ project, normalizeProject id plainFiles (text "Site.yml") = .ok project ∧
      ContainedProject project := by
  have accepts : (normalizeProject id plainFiles (text "Site.yml")).toOption.isSome := by decide
  cases accepted : normalizeProject id plainFiles (text "Site.yml") with
  | error error =>
      rw [accepted] at accepts
      cases accepts
  | ok project => exact ⟨project, rfl, (paths_contained id).2 plainFiles _ project accepted⟩

end OpsComposer.Services.PlaybookProject
