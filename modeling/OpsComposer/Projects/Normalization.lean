import OpsComposer.Projects.Paths

/-!
# Normalising a normalised project

The worker normalises the stored files of a revision once more and refuses the
run when the digest is another one.  The second pass sees the paths that the
first has written; it returns the same project if these are in the order in
which the first pass has hashed them, which was the order of the raw paths, and
if none of them is the name of the manifest (`normalizeProject_again_iff`).

* `Normalizes` — what one file becomes;
* `foldlM_normalizeFile` — what the loop gathers;
* `normalizeProject_eq_ok` — the accepted projects.
-/

set_option autoImplicit false

namespace OpsComposer.Services.PlaybookProject

open Foundations

/-! ## Contents -/

/-- No carriage return is left. -/
theorem not_mem_normalizeContent (content : Text) : 13 ∉ normalizeContent content :=
  Text.not_mem_replaceChar (by decide)

theorem normalizeContent_normalizeContent (content : Text) :
    normalizeContent (normalizeContent content) = normalizeContent content := by
  have clean := not_mem_normalizeContent content
  conv_lhs => rw [normalizeContent, Text.replacePair_of_not_mem clean]
  exact Text.replaceChar_of_not_mem clean

section Normalize

variable (sha256 : Bytes → Bytes)

/-! ## One file -/

/-- The file that an item of the map becomes. -/
structure Normalizes (item : Text × Text) (file : PlaybookRevisionFile) : Prop where
  path : PathOk item.1
  path_eq : file.path = asPosix item.1
  pathEncodes : (file.path.encode).isSome
  content_eq : file.content = normalizeContent item.2
  encodes : ∃ encoded, file.content.encode = some encoded ∧ encoded ≠ [] ∧ 0 ∉ encoded ∧
    encoded.length ≤ maxProjectFileBytes ∧ file.sha256 = sha256 encoded ∧
      file.sizeBytes = encoded.length

/-- What a file feeds to the digest. -/
def digestInput (file : PlaybookRevisionFile) : Bytes :=
  (file.path.encode).getD [] ++ [0] ++ file.sha256 ++ [0]

/-- The size of a list of files. -/
def totalBytes (files : List PlaybookRevisionFile) : Nat :=
  (files.map PlaybookRevisionFile.sizeBytes).sum

/-- The paths of a list of files, as they are compared. -/
def foldedPaths (files : List PlaybookRevisionFile) : List Text :=
  files.map fun file => file.path.casefold

/-- What the loop has gathered with one more file. -/
def Gathered.add (gathered : Gathered) (file : PlaybookRevisionFile) : Gathered where
  normalized := gathered.normalized ++ [file]
  seen := file.path.casefold :: gathered.seen
  total := gathered.total + file.sizeBytes
  digest := gathered.digest ++ digestInput file

theorem normalizeFile_eq_ok {gathered gathered' : Gathered} {item : Text × Text} :
    normalizeFile sha256 gathered item = .ok gathered' ↔
      ∃ file, Normalizes sha256 item file ∧ file.path.casefold ∉ gathered.seen ∧
        gathered.total + file.sizeBytes ≤ maxProjectBytes ∧ gathered' = gathered.add file := by
  unfold normalizeFile
  constructor
  · intro accepted
    split at accepted
    · cases accepted
    rename_i path normal
    obtain ⟨ok, rfl⟩ := normalizeProjectPath_eq_ok.mp normal
    split at accepted
    · cases accepted
    rename_i unseen
    split at accepted
    · cases accepted
    rename_i encoded encodes
    split at accepted
    · cases accepted
    rename_i wellFormed
    split at accepted
    · cases accepted
    rename_i fits
    split at accepted
    · cases accepted
    rename_i encodedPath pathEncodes
    simp only [not_or, Nat.not_lt] at wellFormed
    obtain ⟨nonempty, textual, small⟩ := wellFormed
    refine ⟨⟨asPosix item.1, normalizeContent item.2, sha256 encoded, encoded.length⟩,
      ⟨ok, rfl, by rw [pathEncodes]; rfl, rfl,
        encoded, encodes, nonempty, textual, small, rfl, rfl⟩,
      unseen, Nat.le_of_not_lt fits, ?_⟩
    rw [← Except.ok.inj accepted, Gathered.add, digestInput, pathEncodes]
    simp
  · rintro ⟨file, ⟨ok, path, pathEncodes, content, encoded, encodes, nonempty, textual, small,
      hash, size⟩, unseen, fits, rfl⟩
    obtain ⟨encodedPath, bytes⟩ := Option.isSome_iff_exists.mp pathEncodes
    rw [normalizeProjectPath_eq_ok.mpr ⟨ok, rfl⟩]
    rw [content] at encodes
    rw [path] at unseen bytes
    rw [size] at fits
    simp only [encodes, bytes, if_neg unseen]
    rw [if_neg, if_neg (Nat.not_lt.mpr fits)]
    · cases file
      simp only at path content hash size
      subst path content hash size
      simp [Gathered.add, digestInput, bytes]
    · simp only [not_or, Nat.not_lt]
      exact ⟨nonempty, textual, small⟩

/-! ## The loop -/

/-- **The loop** takes every item to its file, as long as no path is seen twice
and the files do not become too large. -/
theorem foldlM_normalizeFile {items : List (Text × Text)} {gathered gathered' : Gathered} :
    items.foldlM (normalizeFile sha256) gathered = .ok gathered' ↔
      ∃ files, List.Forall₂ (Normalizes sha256) items files ∧ (foldedPaths files).Nodup ∧
        (∀ folded ∈ foldedPaths files, folded ∉ gathered.seen) ∧
          (files = [] ∨ gathered.total + totalBytes files ≤ maxProjectBytes) ∧
            gathered' = files.foldl Gathered.add gathered := by
  induction items generalizing gathered with
  | nil =>
      constructor
      · intro accepted
        exact ⟨[], .nil, List.nodup_nil, fun _ member => absurd member List.not_mem_nil, .inl rfl,
          (Except.ok.inj accepted).symm⟩
      · rintro ⟨files, all, -, -, -, rfl⟩
        cases all
        rfl
  | cons item items ih =>
      constructor
      · intro accepted
        rw [List.foldlM_cons] at accepted
        cases first : normalizeFile sha256 gathered item with
        | error error =>
            rw [first] at accepted
            cases accepted
        | ok next =>
            rw [first] at accepted
            obtain ⟨file, normal, unseen, fits, rfl⟩ := (normalizeFile_eq_ok sha256).mp first
            obtain ⟨files, all, distinct, fresh, small, rfl⟩ := ih.mp accepted
            refine ⟨file :: files, .cons normal all, ?_, ?_, .inr ?_, rfl⟩
            · refine List.nodup_cons.mpr ⟨fun member => ?_, distinct⟩
              exact fresh _ member (List.mem_cons_self ..)
            · intro folded member
              rcases List.mem_cons.mp member with rfl | later
              · exact unseen
              · exact fun old => fresh folded later (List.mem_cons_of_mem _ old)
            · rcases small with rfl | small
              · simpa [totalBytes] using fits
              · simp only [Gathered.add] at small
                simp only [totalBytes, List.map_cons, List.sum_cons] at small ⊢
                omega
      · rintro ⟨files, all, distinct, fresh, small, rfl⟩
        cases all with
        | @cons _ file _ files normal all =>
            simp only [foldedPaths, List.map_cons, List.nodup_cons, List.mem_cons] at distinct fresh
            have fits : gathered.total + (file.sizeBytes + totalBytes files) ≤
                maxProjectBytes := by
              rcases small with none | small
              · cases none
              · simpa [totalBytes] using small
            have step : normalizeFile sha256 gathered item = .ok (gathered.add file) :=
              (normalizeFile_eq_ok sha256).mpr
                ⟨file, normal, fresh _ (.inl rfl), by omega, rfl⟩
            rw [List.foldlM_cons, step]
            refine ih.mpr ⟨files, all, distinct.2, ?_, .inr ?_, rfl⟩
            · intro folded member old
              rcases List.mem_cons.mp old with rfl | older
              · exact distinct.1 member
              · exact fresh folded (.inr member) older
            · simp only [Gathered.add]
              omega

theorem foldl_add (files : List PlaybookRevisionFile) (gathered : Gathered) :
    files.foldl Gathered.add gathered =
      { normalized := gathered.normalized ++ files
        seen := (foldedPaths files).reverse ++ gathered.seen
        total := gathered.total + totalBytes files
        digest := gathered.digest ++ files.flatMap digestInput } := by
  induction files generalizing gathered with
  | nil => simp [foldedPaths, totalBytes]
  | cons file files ih =>
      rw [List.foldl_cons, ih]
      simp [Gathered.add, foldedPaths, totalBytes, Nat.add_assoc]

/-! ## Accepted projects -/

/-- The one path that folds to a text, if the paths fold apart. -/
theorem filter_casefold_eq {paths : List Text} (distinct : (paths.map Text.casefold).Nodup)
    {target path : Text} :
    (paths.filter fun path => path.casefold = target) = [path] ↔
      path ∈ paths ∧ path.casefold = target := by
  induction paths with
  | nil => simp
  | cons first paths ih =>
      obtain ⟨fresh, distinct⟩ := List.nodup_cons.mp distinct
      by_cases here : first.casefold = target
      · have rest : (paths.filter fun path => path.casefold = target) = [] := by
          refine List.filter_eq_nil_iff.mpr fun other member => ?_
          simp only [decide_eq_true_eq]
          intro same
          exact fresh (List.mem_map.mpr ⟨other, member, same.trans here.symm⟩)
        rw [List.filter_cons_of_pos (by simpa using here), rest]
        constructor
        · intro same
          obtain rfl := (List.cons.inj same).1
          exact ⟨List.mem_cons_self .., here⟩
        · rintro ⟨member, folded⟩
          rcases List.mem_cons.mp member with rfl | later
          · rfl
          · exact absurd (List.mem_map.mpr ⟨path, later, folded.trans here.symm⟩) fresh
      · rw [List.filter_cons_of_neg (by simpa using here), ih distinct, List.mem_cons]
        constructor
        · rintro ⟨member, folded⟩
          exact ⟨.inr member, folded⟩
        · rintro ⟨rfl | member, folded⟩
          · exact absurd folded here
          · exact ⟨member, folded⟩

/-- The items of a map in the order in which they are gone through. -/
def orderedItems (files : FileMap) : List (Text × Text) :=
  sortedBy (fun item => item.1.casefold) files.rows

/-- The projects that `normalize_project` makes of a map and an entrypoint. -/
structure Accepts (files : FileMap) (entrypoint : Text) (project : NormalizedProject) :
    Prop where
  some : files.rows ≠ []
  few : files.rows.length ≤ maxProjectFiles
  normal : List.Forall₂ (Normalizes sha256) (orderedItems files) project.files
  distinct : (foldedPaths project.files).Nodup
  small : totalBytes project.files ≤ maxProjectBytes
  entrypointOk : PathOk entrypoint
  yaml : (suffix (asPosix entrypoint)).casefold ∈ yamlSuffixes
  member : project.entrypoint ∈ project.files.map PlaybookRevisionFile.path
  folded : project.entrypoint.casefold = (asPosix entrypoint).casefold
  hash : project.sha256 = sha256 (project.files.flatMap digestInput)
  size : project.sizeBytes = totalBytes project.files

theorem withEntrypoint_eq_ok {gathered : Gathered} {entrypoint : Text}
    {project : NormalizedProject} (distinct : (foldedPaths gathered.normalized).Nodup) :
    withEntrypoint sha256 gathered entrypoint = .ok project ↔
      PathOk entrypoint ∧ (suffix (asPosix entrypoint)).casefold ∈ yamlSuffixes ∧
        project.entrypoint ∈ gathered.normalized.map PlaybookRevisionFile.path ∧
          project.entrypoint.casefold = (asPosix entrypoint).casefold ∧
            project = ⟨gathered.normalized, project.entrypoint, sha256 gathered.digest,
              gathered.total⟩ := by
  have apart : ((gathered.normalized.map PlaybookRevisionFile.path).map Text.casefold).Nodup := by
    rw [List.map_map]
    exact distinct
  unfold withEntrypoint
  constructor
  · intro accepted
    split at accepted
    · cases accepted
    rename_i normalized normal
    obtain ⟨ok, rfl⟩ := normalizeProjectPath_eq_ok.mp normal
    split at accepted
    · cases accepted
    rename_i yaml
    split at accepted
    · rename_i path one
      obtain rfl := Except.ok.inj accepted
      obtain ⟨member, folded⟩ := (filter_casefold_eq apart).mp one
      exact ⟨ok, not_not.mp yaml, member, folded, rfl⟩
    · cases accepted
  · rintro ⟨ok, yaml, member, folded, same⟩
    rw [normalizeProjectPath_eq_ok.mpr ⟨ok, rfl⟩]
    have one := (filter_casefold_eq apart).mpr ⟨member, folded⟩
    simp only [one, if_neg (not_not.mpr yaml)]
    exact congrArg _ same.symm

/-- **`normalize_project`**: what it accepts, and what it returns. -/
theorem normalizeProject_eq_ok {files : FileMap} {entrypoint : Text} {project : NormalizedProject} :
    normalizeProject sha256 files entrypoint = .ok project ↔
      Accepts sha256 files entrypoint project := by
  unfold normalizeProject
  constructor
  · intro accepted
    split at accepted
    · cases accepted
    rename_i sized
    split at accepted
    · cases accepted
    rename_i gathered loop
    obtain ⟨normalized, all, distinct, -, small, rfl⟩ := (foldlM_normalizeFile sha256).mp loop
    rw [foldl_add] at accepted
    obtain ⟨ok, yaml, member, folded, same⟩ :=
      (withEntrypoint_eq_ok sha256 (by simpa using distinct)).mp accepted
    simp only [not_or, Nat.not_lt] at sized
    rw [same]
    refine ⟨sized.1, sized.2, by simpa [orderedItems] using all, by simpa using distinct, ?_, ok, yaml,
      by simpa using member, folded, by simp, by simp⟩
    rcases small with rfl | small
    · exact Nat.zero_le _
    · simpa using small
  · intro ok
    rw [if_neg (by simpa only [not_or, Nat.not_lt] using ⟨ok.some, ok.few⟩)]
    have loop : normalizeFiles sha256 files = .ok (project.files.foldl Gathered.add {}) :=
      (foldlM_normalizeFile sha256).mpr
        ⟨project.files, ok.normal, ok.distinct, fun _ _ => List.not_mem_nil,
          .inr (by simpa using ok.small), rfl⟩
    rw [loop]
    refine (withEntrypoint_eq_ok sha256 ?_).mpr ?_
    · rw [foldl_add]
      simpa using ok.distinct
    · rw [foldl_add]
      refine ⟨ok.entrypointOk, ok.yaml, by simpa using ok.member, ok.folded, ?_⟩
      simp only [List.nil_append, Nat.zero_add, ← ok.hash, ← ok.size]

/-! ## The second pass -/

/-- The files of a project as a map has them. -/
def contents (project : NormalizedProject) : List (Text × Text) :=
  project.files.map fun file => (file.path, file.content)

/-- The normal forms of the paths are in the order of the paths. -/
def CanonicalOrder (files : FileMap) : Prop :=
  (orderedItems files).Pairwise fun item other =>
    (asPosix item.1).casefold ≤ (asPosix other.1).casefold

/-- No path has the name of the manifest for its normal form. -/
def AvoidsManifest (files : FileMap) : Prop :=
  ∀ item ∈ files.rows, ¬ IsManifest (asPosix item.1)

variable {sha256}

theorem Normalizes.path_normal {item : Text × Text} {file : PlaybookRevisionFile}
    (normal : Normalizes sha256 item file) : asPosix file.path = file.path := by
  rw [normal.path_eq, asPosix_asPosix normal.path.somePart]

/-- **A file is its own normal form**, as long as its path is accepted. -/
theorem Normalizes.again {item : Text × Text} {file : PlaybookRevisionFile}
    (normal : Normalizes sha256 item file) :
    Normalizes sha256 (file.path, file.content) file ↔ ¬ IsManifest file.path := by
  have accepted : PathOk file.path ↔ ¬ IsManifest file.path := by
    rw [normal.path_eq]
    exact pathOk_asPosix normal.path
  constructor
  · intro same
    exact accepted.mp same.path
  · intro allowed
    refine ⟨accepted.mpr allowed, normal.path_normal.symm, normal.pathEncodes, ?_, normal.encodes⟩
    rw [normal.content_eq, normalizeContent_normalizeContent]

variable {items : List (Text × Text)} {files : List PlaybookRevisionFile}

/-- The paths of the files are the normal forms of those of the items. -/
theorem map_path_of_forall₂ (all : List.Forall₂ (Normalizes sha256) items files) :
    files.map PlaybookRevisionFile.path = items.map fun item => asPosix item.1 := by
  induction all with
  | nil => rfl
  | cons normal _ ih => rw [List.map_cons, List.map_cons, ih, normal.path_eq]

theorem foldedPaths_of_forall₂ (all : List.Forall₂ (Normalizes sha256) items files) :
    foldedPaths files = items.map fun item => (asPosix item.1).casefold := by
  have same := congrArg (List.map Text.casefold) (map_path_of_forall₂ all)
  rwa [List.map_map, List.map_map] at same

theorem forall₂_again (all : List.Forall₂ (Normalizes sha256) items files) :
    List.Forall₂ (Normalizes sha256) (files.map fun file => (file.path, file.content)) files ↔
      ∀ file ∈ files, ¬ IsManifest file.path := by
  induction all with
  | nil => simp
  | cons normal _ ih =>
      rw [List.map_cons, List.forall₂_cons, ih, normal.again, List.forall_mem_cons]

/-- The folded paths of a project, as the keys by which its contents are ordered. -/
theorem map_contents (project : NormalizedProject) :
    ((contents project).map fun item => item.1.casefold) = foldedPaths project.files := by
  rw [contents, List.map_map]
  rfl

/-- The files of the project are in the order of their paths, and none has the
name of the manifest. -/
structure SelfNormal (project : NormalizedProject) : Prop where
  sorted : (foldedPaths project.files).Pairwise (· ≤ ·)
  allowed : ∀ file ∈ project.files, ¬ IsManifest file.path

variable {files again : FileMap} {entrypoint : Text} {project : NormalizedProject}

theorem Accepts.path_normal (ok : Accepts sha256 files entrypoint project)
    {file : PlaybookRevisionFile} (member : file ∈ project.files) :
    asPosix file.path = file.path := by
  obtain ⟨item, -, normalizes⟩ := Text.exists_of_forall₂ ok.normal member
  exact normalizes.path_normal

/-- In terms of the input. -/
theorem Accepts.selfNormal_iff (ok : Accepts sha256 files entrypoint project) :
    SelfNormal project ↔ CanonicalOrder files ∧ AvoidsManifest files := by
  have order : (foldedPaths project.files).Pairwise (· ≤ ·) ↔ CanonicalOrder files := by
    rw [foldedPaths_of_forall₂ ok.normal, List.pairwise_map]
    rfl
  have allowed : (∀ file ∈ project.files, ¬ IsManifest file.path) ↔ AvoidsManifest files := by
    have paths := List.forall_mem_map (l := project.files) (f := PlaybookRevisionFile.path)
      (P := fun path => ¬ IsManifest path)
    rw [← paths, map_path_of_forall₂ ok.normal, List.forall_mem_map]
    exact forall_congr' fun item => imp_congr mem_sortedBy Iff.rfl
  constructor
  · intro normal
    exact ⟨order.mp normal.sorted, allowed.mp normal.allowed⟩
  · rintro ⟨canonical, avoids⟩
    exact ⟨order.mpr canonical, allowed.mpr avoids⟩

/-- The second pass goes through the stored files in the order of their paths,
which is the order of the first pass. -/
theorem orderedItems_again (ok : Accepts sha256 files entrypoint project)
    (sorted : (foldedPaths project.files).Pairwise (· ≤ ·))
    (perm : again.rows.Perm (contents project)) : orderedItems again = contents project := by
  refine sortedBy_of_perm perm ?_ ?_
  · rw [← map_contents, List.pairwise_map] at sorted
    exact sorted
  · rw [map_contents]
    exact ok.distinct

/-- A second pass that returns the project has gone through its files in order. -/
theorem foldedPaths_sorted (ok : Accepts sha256 files entrypoint project)
    (second : Accepts sha256 again project.entrypoint project)
    (perm : again.rows.Perm (contents project)) : (foldedPaths project.files).Pairwise (· ≤ ·) := by
  have same : ((orderedItems again).map fun item => (asPosix item.1).casefold) =
      (orderedItems again).map fun item => item.1.casefold := by
    refine List.map_congr_left fun item member => ?_
    obtain ⟨file, there, rfl⟩ := List.mem_map.mp (perm.mem_iff.mp (mem_sortedBy.mp member))
    rw [ok.path_normal there]
  rw [foldedPaths_of_forall₂ second.normal, same, List.pairwise_map]
  exact sortedBy_pairwise

/-- **The second pass** over an accepted project, given its files in any order. -/
theorem Accepts.again_iff (ok : Accepts sha256 files entrypoint project)
    (perm : again.rows.Perm (contents project)) :
    Accepts sha256 again project.entrypoint project ↔ SelfNormal project := by
  constructor
  · intro second
    have sorted := foldedPaths_sorted ok second perm
    refine ⟨sorted, (forall₂_again ok.normal).mp ?_⟩
    rw [← contents, ← orderedItems_again ok sorted perm]
    exact second.normal
  · intro normal
    have sameLength : again.rows.length = files.rows.length := by
      rw [perm.length_eq, contents, List.length_map, ← ok.normal.length_eq, orderedItems,
        sortedBy_perm.length_eq]
    have second : List.Forall₂ (Normalizes sha256) (orderedItems again) project.files := by
      rw [orderedItems_again ok normal.sorted perm]
      exact (forall₂_again ok.normal).mpr normal.allowed
    obtain ⟨file, there, named⟩ := List.mem_map.mp ok.member
    obtain ⟨item, -, normalizes⟩ := Text.exists_of_forall₂ ok.normal there
    have entrypointNormal : asPosix project.entrypoint = project.entrypoint := by
      rw [← named]
      exact normalizes.path_normal
    have entrypointOk : PathOk project.entrypoint := by
      rw [← named]
      exact (normalizes.again.mpr (normal.allowed file there)).path
    have someRaw : parts (asPosix entrypoint) ≠ [] := by
      rw [parts_asPosix ok.entrypointOk.somePart]
      exact ok.entrypointOk.somePart
    exact
      { some := by
          rw [← List.length_pos_iff, sameLength, List.length_pos_iff]
          exact ok.some
        few := sameLength ▸ ok.few
        normal := second
        distinct := ok.distinct
        small := ok.small
        entrypointOk := entrypointOk
        yaml := by
          rw [entrypointNormal, casefold_suffix entrypointOk.somePart someRaw entrypointNormal
            (asPosix_asPosix ok.entrypointOk.somePart) ok.folded]
          exact ok.yaml
        member := ok.member
        folded := by rw [entrypointNormal]
        hash := ok.hash
        size := ok.size }

/-- The stored files as a map. -/
def Accepts.stored (ok : Accepts sha256 files entrypoint project) : FileMap where
  rows := contents project
  unique := by
    refine List.Nodup.of_map Text.casefold ?_
    rw [List.map_map]
    exact (map_contents project).symm ▸ ok.distinct

end Normalize

/-- **When normalisation is idempotent.**  For every hash and every accepted
input: the files and the entrypoint of the result, in any order, are accepted
again and give the same project, exactly if the normal forms of the paths are in
the order of the paths and none of them is the name of the manifest. -/
theorem normalizeProject_again_iff (sha256 : Bytes → Bytes) {files : FileMap} {entrypoint : Text}
    {project : NormalizedProject}
    (accepted : normalizeProject sha256 files entrypoint = .ok project) :
    (∀ again : FileMap, again.rows.Perm (contents project) →
        normalizeProject sha256 again project.entrypoint = .ok project) ↔
      CanonicalOrder files ∧ AvoidsManifest files := by
  have ok := (normalizeProject_eq_ok sha256).mp accepted
  rw [← ok.selfNormal_iff]
  constructor
  · intro law
    have second := law ok.stored (List.Perm.refl _)
    exact (ok.again_iff (List.Perm.refl _)).mp ((normalizeProject_eq_ok sha256).mp second)
  · intro normal again perm
    exact (normalizeProject_eq_ok sha256).mpr ((ok.again_iff perm).mpr normal)

/-- A playbook and the tasks of a role. -/
def plainFiles : FileMap :=
  ⟨[(text "site.yml", text "- hosts: all\r\n"), (text "roles//web.yml", text "---\n")], by decide⟩

/-- The law for an input without anything unusual in its paths. -/
theorem normalizeProject_again_plain :
    ∃ project, normalizeProject id plainFiles (text "Site.yml") = .ok project ∧
      ∀ again : FileMap, again.rows.Perm (contents project) →
        normalizeProject id again project.entrypoint = .ok project := by
  have accepts : (normalizeProject id plainFiles (text "Site.yml")).toOption.isSome := by decide
  cases accepted : normalizeProject id plainFiles (text "Site.yml") with
  | error error =>
      rw [accepted] at accepts
      cases accepts
  | ok project =>
      refine ⟨project, rfl, (normalizeProject_again_iff id accepted).mpr ⟨?_, ?_⟩⟩
      · unfold CanonicalOrder
        decide
      · unfold AvoidsManifest
        decide

/-- A path that is written with a dot, and is hashed before the ones that
precede its normal form. -/
def misorderedFiles : FileMap :=
  ⟨[(text "a.yml", text "a"), (text "./b.yml", text "b")], by decide⟩

/-- A path whose normal form is the name of the manifest. -/
def reservedFiles : FileMap :=
  ⟨[(text "a.yml", text "a"), (text "./.ops-composer-project.json", text "b")], by decide⟩

/-- **Two projects that are accepted once only.**  The digest of the first is
another one when it is normalised again, and the second is not accepted again. -/
theorem normalizeProject_again_fails :
    (∃ project, normalizeProject id misorderedFiles (text "a.yml") = .ok project ∧
      ∃ again : FileMap, again.rows.Perm (contents project) ∧
        ∃ other, normalizeProject id again project.entrypoint = .ok other ∧
          other.sha256 ≠ project.sha256) ∧
    (∃ project, normalizeProject id reservedFiles (text "a.yml") = .ok project ∧
      ∃ again : FileMap, again.rows.Perm (contents project) ∧
        ∃ error, normalizeProject id again project.entrypoint = .error error) := by
  constructor
  · refine ⟨⟨[⟨text "b.yml", [98], [98], 1⟩, ⟨text "a.yml", [97], [97], 1⟩], text "a.yml",
      [98, 46, 121, 109, 108, 0, 98, 0, 97, 46, 121, 109, 108, 0, 97, 0], 2⟩, by decide,
      ⟨[(text "a.yml", text "a"), (text "b.yml", text "b")], by decide⟩, by decide,
      ⟨[⟨text "a.yml", [97], [97], 1⟩, ⟨text "b.yml", [98], [98], 1⟩], text "a.yml",
      [97, 46, 121, 109, 108, 0, 97, 0, 98, 46, 121, 109, 108, 0, 98, 0], 2⟩, by decide, by decide⟩
  · refine ⟨⟨[⟨text ".ops-composer-project.json", [98], [98], 1⟩, ⟨text "a.yml", [97], [97], 1⟩],
      text "a.yml", (text ".ops-composer-project.json").map UInt8.ofNat ++
        [0, 98, 0, 97, 46, 121, 109, 108, 0, 97, 0], 2⟩, by decide,
      ⟨[(text ".ops-composer-project.json", text "b"), (text "a.yml", text "a")], by decide⟩,
      by decide, .invalid "project contains a forbidden path", by decide⟩

end OpsComposer.Services.PlaybookProject
