import OpsComposer.Foundations.Framing
import OpsComposer.Projects.Normalization

/-!
# What the digest of a project determines

Every file feeds its path and the hash of its content to the digest, a zero byte
after each.  A zero byte occurs neither in an accepted path nor in a hexadecimal
text, so that the two can be read back, and with a hash without collisions the
contents too (`contents_eq_of_sha256`).

The loop goes through the files in the order of their case-folded paths.  Two
paths that fold alike have normal forms that fold alike and are refused, so that
the order in which a map was filled does not matter (`accepts_perm`).

* `DigestHash` — what is used of SHA-256;
* `digestFields` — what the files write between the zero bytes;
* `digest_identifies` — the two together.
-/

set_option autoImplicit false

namespace OpsComposer.Services.PlaybookProject

open Foundations

/-- A hash without collisions, in hexadecimal digits. -/
structure DigestHash (sha256 : Bytes → Bytes) : Prop where
  injective : Function.Injective sha256
  hexadecimal : ∀ b, 0 ∉ sha256 b

section Digest

variable {sha256 : Bytes → Bytes}

/-! ## Reading the digest back -/

/-- What the files of a project write between the zero bytes. -/
def digestFields (files : List PlaybookRevisionFile) : List Bytes :=
  files.flatMap fun file => [(file.path.encode).getD [], file.sha256]

theorem digestFields_cons (file : PlaybookRevisionFile) (files : List PlaybookRevisionFile) :
    digestFields (file :: files) =
      (file.path.encode).getD [] :: file.sha256 :: digestFields files := rfl

theorem flatMap_digestInput (files : List PlaybookRevisionFile) :
    files.flatMap digestInput = Framing.frame 0 (digestFields files) := by
  induction files with
  | nil => rfl
  | cons file files ih =>
      rw [List.flatMap_cons, ih, digestFields_cons, Framing.frame_cons, Framing.frame_cons,
        digestInput]
      simp only [List.append_assoc, List.cons_append, List.nil_append]

/-- An accepted path has no zero character. -/
theorem PathOk.zero_not_mem {raw : Text} (ok : PathOk raw) : 0 ∉ asPosix raw := by
  intro member
  rcases mem_of_mem_asPosix ok.somePart member with same | inside
  · exact absurd same (by decide)
  · exact ok.noControl ⟨0, inside, .inl (Nat.zero_le _)⟩

theorem Normalizes.encodes_path {item : Text × Text} {file : PlaybookRevisionFile}
    (normal : Normalizes sha256 item file) :
    ∃ encoded, file.path.encode = some encoded ∧ 0 ∉ encoded := by
  obtain ⟨encoded, encodes⟩ := Option.isSome_iff_exists.mp normal.pathEncodes
  refine ⟨encoded, encodes, Text.zero_not_mem_encode ?_ encodes⟩
  rw [normal.path_eq]
  exact normal.path.zero_not_mem

theorem digestFields_clean (hash : DigestHash sha256) {items : List (Text × Text)}
    {files : List PlaybookRevisionFile} (all : List.Forall₂ (Normalizes sha256) items files) :
    ∀ field ∈ digestFields files, 0 ∉ field := by
  intro field member
  obtain ⟨file, there, written⟩ := List.mem_flatMap.mp member
  obtain ⟨item, -, normal⟩ := Text.exists_of_forall₂ all there
  rcases List.mem_cons.mp written with rfl | written
  · obtain ⟨encoded, encodes, clean⟩ := normal.encodes_path
    rw [encodes]
    exact clean
  · obtain rfl := List.mem_singleton.mp written
    obtain ⟨encoded, -, -, -, -, hashed, -⟩ := normal.encodes
    rw [hashed]
    exact hash.hexadecimal encoded

/-- A file is known from the two fields that it writes. -/
theorem Normalizes.eq_of_fields (hash : DigestHash sha256) {item item' : Text × Text}
    {file file' : PlaybookRevisionFile} (normal : Normalizes sha256 item file)
    (normal' : Normalizes sha256 item' file')
    (paths : (file.path.encode).getD [] = (file'.path.encode).getD [])
    (hashes : file.sha256 = file'.sha256) :
    (file.path, file.content) = (file'.path, file'.content) := by
  obtain ⟨path, encodesPath, -⟩ := normal.encodes_path
  obtain ⟨path', encodesPath', -⟩ := normal'.encodes_path
  obtain ⟨content, encodes, -, -, -, hashed, -⟩ := normal.encodes
  obtain ⟨content', encodes', -, -, -, hashed', -⟩ := normal'.encodes
  rw [encodesPath, encodesPath', Option.getD_some, Option.getD_some] at paths
  rw [hashed, hashed'] at hashes
  obtain rfl := hash.injective hashes
  subst paths
  have samePath : file.path = file'.path := Text.encode_injective encodesPath encodesPath'
  have sameContent : file.content = file'.content := Text.encode_injective encodes encodes'
  rw [samePath, sameContent]

theorem contents_eq_of_fields (hash : DigestHash sha256) {items items' : List (Text × Text)}
    {files files' : List PlaybookRevisionFile} (all : List.Forall₂ (Normalizes sha256) items files)
    (all' : List.Forall₂ (Normalizes sha256) items' files')
    (same : digestFields files = digestFields files') :
    files.map (fun file => (file.path, file.content)) =
      files'.map fun file => (file.path, file.content) := by
  induction all generalizing items' files' with
  | nil =>
      cases all' with
      | nil => rfl
      | cons normal' all' => cases same
  | @cons item file items files normal all ih =>
      cases all' with
      | nil => cases same
      | @cons item' file' items' files' normal' all' =>
          rw [digestFields_cons, digestFields_cons] at same
          obtain ⟨paths, rest⟩ := List.cons.inj same
          obtain ⟨hashes, later⟩ := List.cons.inj rest
          rw [List.map_cons, List.map_cons, normal.eq_of_fields hash normal' paths hashes,
            ih all' later]

variable {files files' : FileMap} {entrypoint entrypoint' : Text}
  {project project' : NormalizedProject}

/-- **Equal digests are digests of equal files.** -/
theorem contents_eq_of_sha256 (hash : DigestHash sha256)
    (ok : Accepts sha256 files entrypoint project)
    (ok' : Accepts sha256 files' entrypoint' project') (same : project.sha256 = project'.sha256) :
    contents project = contents project' := by
  have fed : project.files.flatMap digestInput = project'.files.flatMap digestInput := by
    apply hash.injective
    rw [← ok.hash, ← ok'.hash, same]
  rw [flatMap_digestInput, flatMap_digestInput] at fed
  have fields : digestFields project.files = digestFields project'.files :=
    Framing.frame_injective (digestFields_clean hash ok.normal)
      (digestFields_clean hash ok'.normal) fed
  exact contents_eq_of_fields hash ok.normal ok'.normal fields

/-! ## The order of the map -/

/-- A text that folds to a dot is one. -/
theorem casefold_eq_dot {part : Text} : part.casefold = text "." ↔ part = text "." := by
  constructor
  · intro folded
    cases part with
    | nil => cases folded
    | cons c rest =>
        rw [Text.casefold_cons] at folded
        have short := congrArg List.length folded
        rw [List.length_append] at short
        have some : 0 < (Text.foldChar c).length := List.length_pos_iff.mpr (Text.foldChar_ne_nil c)
        have bound : (Text.foldChar c).length + (Text.casefold rest).length = 1 := short
        have none : rest = [] := by
          rw [← Text.casefold_eq_nil, ← List.length_eq_zero_iff]
          omega
        subst none
        rw [Text.casefold_nil, List.append_nil] at folded
        have here : dot ∈ Text.foldChar c := folded ▸ List.mem_singleton.mpr rfl
        rw [(Text.mem_foldChar (by decide)).mp here]
        rfl
  · rintro rfl
    rfl

/-- The components of a path fold to those of the folded path. -/
theorem map_casefold_parts (raw : Text) :
    (parts raw).map Text.casefold =
      ((raw.split slash).map Text.casefold).filter fun part => part ≠ [] ∧ part ≠ text "." := by
  rw [parts, List.filter_map]
  apply congrArg (List.map Text.casefold)
  apply List.filter_congr
  intro part _
  simp only [Function.comp_apply, ne_eq, Text.casefold_eq_nil, casefold_eq_dot]

theorem split_ne_nil (raw : Text) : raw.split slash ≠ [] :=
  List.splitOn_ne_nil _ _

/-- **Paths that fold alike have normal forms that fold alike.** -/
theorem casefold_asPosix {raw raw' : Text} (same : raw.casefold = raw'.casefold) :
    (asPosix raw).casefold = (asPosix raw').casefold := by
  have folded : (parts raw).map Text.casefold = (parts raw').map Text.casefold := by
    rw [map_casefold_parts, map_casefold_parts]
    rw [← Text.join_split slash raw, ← Text.join_split slash raw'] at same
    rw [Text.map_casefold_of_join (by decide) (fun _ => Text.not_mem_split)
      (fun _ => Text.not_mem_split) (split_ne_nil raw) (split_ne_nil raw') same]
  by_cases none : parts raw = []
  · have none' : parts raw' = [] := by
      rw [none] at folded
      exact List.map_eq_nil_iff.mp folded.symm
    rw [asPosix, asPosix, if_pos none, if_pos none']
  · have some' : parts raw' ≠ [] := by
      intro none'
      rw [none', List.map_nil, List.map_eq_nil_iff] at folded
      exact none folded
    rw [asPosix, asPosix, if_neg none, if_neg some', Text.casefold_join (by decide),
      Text.casefold_join (by decide), folded]

/-- The raw paths of an accepted map fold apart. -/
theorem Accepts.keys_distinct (ok : Accepts sha256 files entrypoint project) :
    ((orderedItems files).map fun item => item.1.casefold).Nodup := by
  have distinct := ok.distinct
  rw [foldedPaths_of_forall₂ ok.normal] at distinct
  refine List.Nodup.map_on ?_ (List.Nodup.of_map _ distinct)
  intro item member other member' same
  exact List.inj_on_of_nodup_map distinct member member' (casefold_asPosix same)

/-- **The order in which a map was filled does not matter.** -/
theorem accepts_perm (perm : files.rows.Perm files'.rows)
    (ok : Accepts sha256 files entrypoint project) : Accepts sha256 files' entrypoint project := by
  have ordered : orderedItems files' = orderedItems files :=
    sortedBy_of_perm (perm.symm.trans sortedBy_perm.symm) sortedBy_pairwise ok.keys_distinct
  exact
    { some := by
        intro none
        rw [none] at perm
        exact ok.some perm.eq_nil
      few := perm.length_eq ▸ ok.few
      normal := ordered ▸ ok.normal
      distinct := ok.distinct
      small := ok.small
      entrypointOk := ok.entrypointOk
      yaml := ok.yaml
      member := ok.member
      folded := ok.folded
      hash := ok.hash
      size := ok.size }

end Digest

/-- **The digest identifies the project.**  With a hash without collisions, equal
digests of accepted maps are digests of the same paths with the same contents in
the same order, and a map is normalised alike in whatever order it was filled. -/
theorem digest_identifies (sha256 : Bytes → Bytes) (injective : Function.Injective sha256)
    (hexadecimal : ∀ b, 0 ∉ sha256 b) :
    (∀ (files files' : FileMap) (entrypoint entrypoint' : Text)
      (project project' : NormalizedProject),
      normalizeProject sha256 files entrypoint = .ok project →
      normalizeProject sha256 files' entrypoint' = .ok project' →
      project.sha256 = project'.sha256 → contents project = contents project') ∧
    ∀ (files files' : FileMap) (entrypoint : Text), files.rows.Perm files'.rows →
      ∀ project, normalizeProject sha256 files entrypoint = .ok project ↔
        normalizeProject sha256 files' entrypoint = .ok project := by
  constructor
  · intro files files' entrypoint entrypoint' project project' accepted accepted' same
    exact contents_eq_of_sha256 ⟨injective, hexadecimal⟩ ((normalizeProject_eq_ok sha256).mp accepted)
      ((normalizeProject_eq_ok sha256).mp accepted') same
  · intro files files' entrypoint perm project
    rw [normalizeProject_eq_ok, normalizeProject_eq_ok]
    constructor
    · intro ok
      exact accepts_perm perm ok
    · intro ok
      exact accepts_perm perm.symm ok

/-- A text of its own for every input. -/
def escaped (b : Bytes) : Bytes :=
  122 :: b.flatMap fun byte => if byte = 0 then [1, 1] else [2, byte]

theorem escaped_injective : Function.Injective escaped := by
  intro b b' same
  have rest := (List.cons.inj same).2
  clear same
  induction b generalizing b' with
  | nil =>
      cases b' with
      | nil => rfl
      | cons byte b' =>
          rw [List.flatMap_cons] at rest
          split at rest <;> cases rest
  | cons byte b ih =>
      cases b' with
      | nil =>
          rw [List.flatMap_cons] at rest
          split at rest <;> cases rest
      | cons byte' b' =>
          rw [List.flatMap_cons, List.flatMap_cons] at rest
          split at rest <;> split at rest
          · rename_i zero zero'
            rw [zero, zero', ih (List.append_cancel_left rest)]
          · cases (List.cons.inj rest).1
          · cases (List.cons.inj rest).1
          · obtain ⟨rfl, tails⟩ := List.cons.inj (List.cons.inj rest).2
            rw [ih tails]

/-- The content of the one file of the projects below, and what SHA-256 makes of it. -/
def siteContent : Bytes := (text "- hosts: all\n").map UInt8.ofNat

/-- The digest of the text of `site.yml`, as hexadecimal digits. -/
def siteHash : Bytes :=
  (text "b5760e64952befe7cf7ff8966dd9ecdc5d901bab0b2a60dae17d495ef5786c63").map UInt8.ofNat

/-- What is fed to the digest of the projects, and what SHA-256 makes of it. -/
def siteInput : Bytes := (text "site.yml").map UInt8.ofNat ++ [0] ++ siteHash ++ [0]

/-- The digest of the project, as hexadecimal digits. -/
def siteDigest : Bytes :=
  (text "61b386d28436827b9f58868e2de30683ff9da11e4e0ef40011bf02d8e3c3e27e").map UInt8.ofNat

/-- SHA-256 on the two inputs, and some hash without collisions elsewhere. -/
def sampleHash (b : Bytes) : Bytes :=
  if b = siteContent then siteHash else if b = siteInput then siteDigest else escaped b

theorem sampleHash_cases (b : Bytes) :
    b = siteContent ∧ sampleHash b = siteHash ∨ b = siteInput ∧ sampleHash b = siteDigest ∨
      sampleHash b = escaped b := by
  unfold sampleHash
  split
  · exact .inl ⟨‹_›, rfl⟩
  split
  · exact .inr (.inl ⟨‹_›, rfl⟩)
  · exact .inr (.inr rfl)

theorem sampleHash_injective : Function.Injective sampleHash := by
  have apart : siteHash ≠ siteDigest := by decide
  have apartHash : ∀ b, siteHash ≠ escaped b := by
    intro b same
    exact absurd (List.cons.inj same).1 (by decide)
  have apartDigest : ∀ b, siteDigest ≠ escaped b := by
    intro b same
    exact absurd (List.cons.inj same).1 (by decide)
  intro b b' same
  rcases sampleHash_cases b with ⟨here, hashed⟩ | ⟨here, hashed⟩ | hashed <;>
    rcases sampleHash_cases b' with ⟨here', hashed'⟩ | ⟨here', hashed'⟩ | hashed' <;>
      rw [hashed, hashed'] at same
  · exact here.trans here'.symm
  · exact absurd same apart
  · exact absurd same (apartHash b')
  · exact absurd same.symm apart
  · exact here.trans here'.symm
  · exact absurd same (apartDigest b')
  · exact absurd same.symm (apartHash b)
  · exact absurd same.symm (apartDigest b)
  · exact escaped_injective same

theorem zero_not_mem_sampleHash (b : Bytes) : 0 ∉ sampleHash b := by
  unfold sampleHash
  split
  · decide
  split
  · decide
  · intro member
    rcases List.mem_cons.mp member with zero | later
    · exact absurd zero (by decide)
    · obtain ⟨byte, -, inside⟩ := List.mem_flatMap.mp later
      split at inside
      · exact absurd inside (by decide)
      · rename_i some
        rcases List.mem_cons.mp inside with zero | last
        · exact absurd zero (by decide)
        · exact some (List.mem_singleton.mp last).symm

/-- One file, and the same file written differently. -/
def singleFiles : FileMap := ⟨[(text "site.yml", text "- hosts: all\r\n")], by decide⟩

/-- The same project with another spelling of its path. -/
def dottedFiles : FileMap := ⟨[(text "./site.yml", text "- hosts: all\n")], by decide⟩

/-- The project that both of them become. -/
def singleProject : NormalizedProject :=
  ⟨[⟨text "site.yml", text "- hosts: all\n", siteHash, 13⟩], text "site.yml", siteDigest, 13⟩

/-- The files of another project, filled in the other order. -/
def turnedFiles : FileMap := ⟨plainFiles.rows.reverse, by decide⟩

/-- Both spellings have one digest, and either order gives one project. -/
theorem digest_identifies_site :
    (∃ project project', normalizeProject sampleHash singleFiles (text "site.yml") = .ok project ∧
      normalizeProject sampleHash dottedFiles (text "Site.yml") = .ok project' ∧
        project.sha256 = project'.sha256 ∧ contents project = contents project') ∧
    ∀ project, normalizeProject sampleHash plainFiles (text "site.yml") = .ok project ↔
      normalizeProject sampleHash turnedFiles (text "site.yml") = .ok project := by
  have law := digest_identifies sampleHash sampleHash_injective zero_not_mem_sampleHash
  constructor
  · have site : normalizeProject sampleHash singleFiles (text "site.yml") = .ok singleProject := by
      decide
    have dotted : normalizeProject sampleHash dottedFiles (text "Site.yml") = .ok singleProject := by
      decide
    exact ⟨singleProject, singleProject, site, dotted, rfl, law.1 _ _ _ _ _ _ site dotted rfl⟩
  · exact law.2 plainFiles turnedFiles _ (List.reverse_perm _).symm

end OpsComposer.Services.PlaybookProject
