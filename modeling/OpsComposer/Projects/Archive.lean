import OpsComposer.Foundations.JsonRoundTrip
import OpsComposer.Projects.Normalization

/-!
# Importing an exported project

The exporter writes the manifest and then the files; the importer checks every
member, reads the entrypoint from the manifest and normalises the files.

* `importMember_manifest`, `foldlM_importMember` — what the importer makes of the
  members that the exporter has written;
* `importProjectZip_export_iff` — when the import returns the project.
-/

set_option autoImplicit false

namespace OpsComposer.Services.PlaybookProject

open Foundations

/-! ## The manifest -/

/-- The members of the manifest, in the order in which they are written. -/
def manifestMembers (entrypoint : Text) : List (Text × Json) :=
  [(text "entrypoint", .str entrypoint), (text "formatVersion", .int 1)]

theorem manifestMembers_sorted (entrypoint : Text) :
    ((manifestMembers entrypoint).map Prod.fst).Pairwise (· < ·) := by
  have sorted : [text "entrypoint", text "formatVersion"].Pairwise (· < ·) := by decide
  exact sorted

theorem manifest_eq (project : NormalizedProject) :
    manifest project = Json.dumps (.obj (manifestMembers project.entrypoint)) := by
  have inOrder : (Json.dumpsMembers (manifestMembers project.entrypoint)).Pairwise
      fun a b => a.1 ≤ b.1 := by
    rw [← List.pairwise_map (f := Prod.fst) (R := (· ≤ ·)), Json.map_fst_dumpsMembers]
    exact (manifestMembers_sorted _).imp fun less => le_of_lt less
  have distinct : ((Json.dumpsMembers (manifestMembers project.entrypoint)).map Prod.fst).Nodup := by
    rw [Json.map_fst_dumpsMembers]
    exact (manifestMembers_sorted _).imp fun less => ne_of_lt less
  have swapped : (Json.dumpsMembers [(text "formatVersion", .int 1),
      (text "entrypoint", .str project.entrypoint)]).Perm
        (Json.dumpsMembers (manifestMembers project.entrypoint)) := List.Perm.swap ..
  rw [manifest, Json.dumps, Json.dumps, sortedBy_of_perm swapped inOrder distinct,
    sortedBy_of_pairwise inOrder]

theorem manifestMembers_writable {entrypoint : Text} (valid : Json.Valid entrypoint) :
    Json.Writable (.obj (manifestMembers entrypoint)) := by
  have keys : Json.Valid (text "entrypoint") ∧ Json.Valid (text "formatVersion") := by decide
  have one : (Json.natText (1 : Int).natAbs).length ≤ Json.maxIntDigits := by decide
  exact ⟨manifestMembers_sorted _, keys.1, valid, keys.2, one, trivial⟩

variable {project : NormalizedProject}

/-- The entrypoint is read from the manifest. -/
theorem manifestEntrypoint_manifest (valid : Json.Valid project.entrypoint) :
    manifestEntrypoint (manifest project) = .ok project.entrypoint := by
  rw [manifestEntrypoint, manifestEntrypointWithin, if_neg Bool.false_ne_true, manifest_eq,
    Json.loads_dumps (manifestMembers_writable valid)]
  rfl

/-- The manifest, taken apart around the entrypoint. -/
theorem manifest_text (project : NormalizedProject) :
    manifest project = text "\x7b\"entrypoint\":" ++
      (Json.quoted project.entrypoint ++ text ",\"formatVersion\":1\x7d") := by
  rw [manifest_eq, Json.dumps_obj (manifestMembers_sorted _)]
  have one : Json.dumps (.int 1) = [49] := by decide
  have joined : ∀ first second : Text,
      Text.join Json.comma [first, second] = first ++ Json.comma :: second := by
    intro first second
    rw [Text.join_cons _ _ (List.cons_ne_nil _ _), Text.join_singleton]
  simp only [manifestMembers, Json.dumpsMembers, List.map_cons, List.map_nil, joined,
    Json.memberText, one]
  have keys : Json.quoted (text "entrypoint") = text "\"entrypoint\"" ∧
      Json.quoted (text "formatVersion") = text "\"formatVersion\"" := by decide
  simp only [Json.dumps, keys, List.append_assoc, List.cons_append]
  rfl

theorem manifest_ascii (valid : Json.Valid project.entrypoint) :
    (∀ c ∈ manifest project, c < 128) ∧
      (manifest project).length ≤ 12 * project.entrypoint.length + 35 := by
  have ascii : (∀ c ∈ text "\x7b\"entrypoint\":", c < 128) ∧
      (∀ c ∈ text ",\"formatVersion\":1\x7d", c < 128) := by decide
  have sizes : (text "\x7b\"entrypoint\":").length = 14 ∧
      (text ",\"formatVersion\":1\x7d").length = 19 := by decide
  obtain ⟨quotedAscii, short⟩ := Json.quoted_ascii valid
  rw [manifest_text, List.forall_mem_append, List.forall_mem_append, List.length_append,
    List.length_append, sizes.1, sizes.2]
  exact ⟨⟨ascii.1, quotedAscii, ascii.2⟩, by omega⟩

/-- The manifest as it is stored. -/
def manifestBytes (project : NormalizedProject) : Bytes := (manifest project).encode.getD []

theorem encode_manifest (valid : Json.Valid project.entrypoint) :
    (manifest project).encode = some (manifestBytes project) := by
  have encodes : ((manifest project).encode).isSome := by
    refine Text.encode_isSome_iff.mpr fun c member => .inl ?_
    have ascii := (manifest_ascii valid).1 c member
    omega
  obtain ⟨bytes, encoded⟩ := Option.isSome_iff_exists.mp encodes
  rw [manifestBytes, encoded]
  rfl

theorem length_manifestBytes_le (valid : Json.Valid project.entrypoint)
    (short : project.entrypoint.length ≤ maxProjectPathLength) :
    (manifestBytes project).length ≤ 24716 := by
  have encoded := Text.length_encode_le (encode_manifest valid)
  have written := (manifest_ascii valid).2
  rw [maxProjectPathLength] at short
  omega

/-! ## Reading a member -/

/-- Reading a member, within the limits or not. -/
theorem readMember_eq {failure : Option ZipFailure} {reads : List Bytes} (progress : [] ∉ reads)
    {total size : Nat} {content : Bytes} (sizeSmall : size ≤ maxProjectFileBytes)
    (totalSmall : total ≤ maxProjectBytes) :
    readMember failure reads total size content =
      if size + reads.flatten.length ≤ maxProjectFileBytes ∧
          total + reads.flatten.length ≤ maxProjectBytes then
        match failure with
        | none => .ok (total + reads.flatten.length, content ++ reads.flatten)
        | some failure => .error (.zipFailure failure)
      else .error (.invalid "ZIP archive exceeds extraction limits") := by
  induction reads generalizing total size content with
  | nil =>
      rw [List.flatten_nil, List.length_nil, Nat.add_zero, Nat.add_zero, List.append_nil,
        if_pos ⟨sizeSmall, totalSmall⟩]
      rfl
  | cons chunk reads ih =>
      obtain ⟨notEmpty, progress⟩ := not_or.mp (List.mem_cons.not.mp progress)
      rw [readMember, if_neg (Ne.symm notEmpty), List.flatten_cons, List.length_append,
        ← Nat.add_assoc, ← Nat.add_assoc, ← List.append_assoc]
      by_cases exceeds : maxProjectFileBytes < size + chunk.length ∨
          maxProjectBytes < total + chunk.length
      · rw [if_pos exceeds, if_neg]
        omega
      · rw [if_neg exceeds]
        exact ih progress (by omega) (by omega)

/-- Reading a member to its end, which succeeds within the limits. -/
theorem readMember_eq_ok {reads : List Bytes} (progress : [] ∉ reads) {total size : Nat}
    {content : Bytes} {result : Nat × Bytes} (sizeSmall : size ≤ maxProjectFileBytes)
    (totalSmall : total ≤ maxProjectBytes) :
    readMember none reads total size content = .ok result ↔
      size + reads.flatten.length ≤ maxProjectFileBytes ∧
        total + reads.flatten.length ≤ maxProjectBytes ∧
          result = (total + reads.flatten.length, content ++ reads.flatten) := by
  rw [readMember_eq progress sizeSmall totalSmall, ← and_assoc]
  split
  · rename_i fits
    rw [Except.ok.injEq, eq_comm]
    exact (and_iff_right fits).symm
  · rename_i exceeds
    constructor
    · intro accepted
      cases accepted
    · rintro ⟨fits, -⟩
      exact absurd fits exceeds

/-- A member as the exporter writes it. -/
structure Exported (member : ZipMember) (path content : Text) (data : Bytes) : Prop where
  encodes : content.encode = some data
  stores : member.Stores ⟨path, exportedAttr, data⟩

variable {member : ZipMember} {path content : Text} {data : Bytes} {extracted extracted' : Extracted}

/-- Nothing is wrong with an exported member, as long as it is small. -/
theorem Exported.memberFault (exported : Exported member path content data)
    (small : data.length ≤ maxProjectFileBytes) : memberFault member = none := by
  have attributes : (exportedAttr >>> 16) &&& 0o170000 = regularFile ∧
      (exportedAttr >>> 16) &&& 0o777 &&& 0o111 = 0 ∧ regularFile ≠ symbolicLink := by decide
  simp only [PlaybookProject.memberFault, exported.stores.plain, exported.stores.externalAttr,
    exported.stores.fileSize, attributes.1, attributes.2.1, ne_eq, not_true_eq_false, if_false,
    attributes.2.2, and_false, Nat.not_lt.mpr small]

/-- Reading an exported member. -/
theorem Exported.readMember (exported : Exported member path content data)
    (small : data.length ≤ maxProjectFileBytes) {total : Nat} (totalSmall : total ≤ maxProjectBytes)
    {result : Nat × Bytes} :
    readMember member.failure member.reads total 0 [] = .ok result ↔
      total + data.length ≤ maxProjectBytes ∧ result = (total + data.length, data) := by
  rw [exported.stores.failure, readMember_eq_ok exported.stores.progress (Nat.zero_le _) totalSmall,
    exported.stores.reads, List.nil_append, Nat.zero_add]
  exact and_iff_right small

/-- What has been extracted with the manifest of a project. -/
def Extracted.manifest (project : NormalizedProject) : Extracted where
  manifestEntrypoint := some project.entrypoint
  actualTotal := (manifestBytes project).length
  seen := [projectManifest.casefold]

/-- The manifest is read first. -/
theorem importMember_manifest {project : NormalizedProject} (valid : Json.Valid project.entrypoint)
    (short : project.entrypoint.length ≤ maxProjectPathLength)
    (exported : Exported member projectManifest (manifest project) data) :
    importMember {} member = .ok (.manifest project) := by
  have same : data = manifestBytes project :=
    Option.some.inj (exported.encodes.symm.trans (encode_manifest valid))
  subst same
  have bound := length_manifestBytes_le valid short
  have small : (manifestBytes project).length ≤ maxProjectFileBytes := bound.trans (by decide)
  have fits : 0 + (manifestBytes project).length ≤ maxProjectBytes := by
    rw [Nat.zero_add]
    exact bound.trans (by decide)
  have path : memberPath member = .ok projectManifest := by
    rw [memberPath, exported.stores.filename, if_pos rfl]
  have read := (exported.readMember small (Nat.zero_le maxProjectBytes)).mpr ⟨fits, rfl⟩
  have entrypoint : manifestEntrypointWithin (fun _ => false) (manifest project) =
      .ok project.entrypoint := manifestEntrypoint_manifest valid
  simp only [importMember, importMemberWithin, exported.memberFault small, path,
    List.not_mem_nil, if_false, read, Text.decode_encode exported.encodes, if_true, entrypoint,
    Nat.zero_add, Extracted.manifest]

/-- What has been extracted with one more file. -/
def Extracted.add (extracted : Extracted) (file : PlaybookRevisionFile) : Extracted :=
  { extracted with
    files := extracted.files.put (file.path, file.content)
    actualTotal := extracted.actualTotal + file.sizeBytes
    seen := file.path.casefold :: extracted.seen }

section Files

variable {sha256 : Bytes → Bytes} {item : Text × Text} {file : PlaybookRevisionFile}

/-- **A file is read back**, unless its path has been seen, as that of the
manifest has. -/
theorem importMember_file (normal : Normalizes sha256 item file)
    (exported : Exported member file.path file.content data)
    (reserved : projectManifest.casefold ∈ extracted.seen)
    (totalSmall : extracted.actualTotal ≤ maxProjectBytes) :
    importMember extracted member = .ok extracted' ↔
      file.path.casefold ∉ extracted.seen ∧
        extracted.actualTotal + file.sizeBytes ≤ maxProjectBytes ∧
          extracted' = extracted.add file := by
  obtain ⟨encoded, encodes, -, -, small, -, size⟩ := normal.encodes
  obtain rfl := Option.some.inj (exported.encodes.symm.trans encodes)
  have noFault := exported.memberFault small
  by_cases isManifest : IsManifest file.path
  · have seen : file.path.casefold ∈ extracted.seen := by
      rw [isManifest]
      exact reserved
    simp only [importMember, importMemberWithin, noFault, memberPath, exported.stores.filename]
    constructor
    · intro accepted
      split at accepted
      · cases accepted
      rename_i path found
      split at found
      · rename_i same
        obtain rfl := Except.ok.inj found
        rw [if_pos seen] at accepted
        cases accepted
      · have ok := (normalizeProjectPath_eq_ok.mp found).1
        exact absurd (.inl isManifest) ok.allowed
    · rintro ⟨unseen, -⟩
      exact absurd seen unseen
  · have other : file.path ≠ projectManifest := by
      intro same
      exact isManifest (congrArg Text.casefold same)
    have path : memberPath member = .ok file.path := by
      rw [memberPath, exported.stores.filename, if_neg other]
      exact normalizeProjectPath_eq_ok.mpr
        ⟨(normal.again.mpr isManifest).path, normal.path_normal.symm⟩
    simp only [importMember, importMemberWithin, noFault, path, size]
    by_cases seen : file.path.casefold ∈ extracted.seen
    · simp [seen]
    · rw [if_neg seen]
      cases read : readMember member.failure member.reads extracted.actualTotal 0 [] with
      | error error =>
          constructor
          · intro accepted
            cases accepted
          · rintro ⟨-, fits, -⟩
            rw [(exported.readMember small totalSmall).mpr ⟨fits, rfl⟩] at read
            cases read
      | ok result =>
          obtain ⟨fits, rfl⟩ := (exported.readMember small totalSmall).mp read
          simp only [Text.decode_encode exported.encodes, if_neg other]
          rw [Except.ok.injEq, eq_comm, Extracted.add, size]
          tauto

/-- **The loop** over the members that hold the files. -/
theorem foldlM_importMember {members : List ZipMember} {files : List PlaybookRevisionFile}
    (normal : ∀ file ∈ files, ∃ item, Normalizes sha256 item file)
    (all : List.Forall₂ (fun member file => ∃ data, Exported member file.path file.content data)
      members files)
    (reserved : projectManifest.casefold ∈ extracted.seen)
    (totalSmall : extracted.actualTotal ≤ maxProjectBytes) :
    members.foldlM importMember extracted = .ok extracted' ↔
      (foldedPaths files).Nodup ∧ (∀ folded ∈ foldedPaths files, folded ∉ extracted.seen) ∧
        extracted.actualTotal + totalBytes files ≤ maxProjectBytes ∧
          extracted' = files.foldl Extracted.add extracted := by
  induction all generalizing extracted with
  | nil =>
      rw [List.foldlM_nil, List.foldl_nil]
      constructor
      · intro accepted
        exact ⟨List.nodup_nil, fun _ member => absurd member List.not_mem_nil, totalSmall,
          (Except.ok.inj accepted).symm⟩
      · rintro ⟨-, -, -, rfl⟩
        rfl
  | @cons member file members files exported _ ih =>
      obtain ⟨data, exported⟩ := exported
      rw [List.forall_mem_cons] at normal
      obtain ⟨⟨item, normal⟩, others⟩ := normal
      have first : ∀ next, importMember extracted member = .ok next ↔
          file.path.casefold ∉ extracted.seen ∧
            extracted.actualTotal + file.sizeBytes ≤ maxProjectBytes ∧
              next = extracted.add file :=
        fun _ => importMember_file normal exported reserved totalSmall
      have sum : totalBytes (file :: files) = file.sizeBytes + totalBytes files := by
        simp [totalBytes]
      have more : projectManifest.casefold ∈ (extracted.add file).seen :=
        List.mem_cons_of_mem _ reserved
      rw [List.foldlM_cons, List.foldl_cons, sum]
      simp only [foldedPaths, List.map_cons, List.nodup_cons, List.forall_mem_cons]
      constructor
      · intro accepted
        cases result : importMember extracted member with
        | error error =>
            rw [result] at accepted
            cases accepted
        | ok next =>
            obtain ⟨unseen, fits, rfl⟩ := (first next).mp result
            rw [result] at accepted
            obtain ⟨distinct, fresh, small, rfl⟩ := (ih others more fits).mp accepted
            have small' : extracted.actualTotal + file.sizeBytes + totalBytes files ≤
                maxProjectBytes := small
            refine ⟨⟨fun member => ?_, distinct⟩, ⟨unseen, ?_⟩, by omega, rfl⟩
            · exact fresh _ member (List.mem_cons_self ..)
            · intro folded later old
              exact fresh folded later (List.mem_cons_of_mem _ old)
      · rintro ⟨⟨apart, distinct⟩, ⟨unseen, fresh⟩, small, rfl⟩
        have fits : extracted.actualTotal + file.sizeBytes ≤ maxProjectBytes := by omega
        rw [(first _).mpr ⟨unseen, fits, rfl⟩]
        refine (ih others more fits).mpr ⟨distinct, ?_, ?_, rfl⟩
        · intro folded later old
          rcases List.mem_cons.mp old with rfl | older
          · exact apart later
          · exact fresh folded later older
        · have small' : extracted.actualTotal + file.sizeBytes + totalBytes files ≤
              maxProjectBytes := by omega
          exact small'

/-- The files that have been extracted, and the entrypoint that has been read before them. -/
theorem foldl_extracted (files : List PlaybookRevisionFile) (extracted : Extracted)
    (distinct : (files.map PlaybookRevisionFile.path).Nodup)
    (fresh : ∀ file ∈ files, ∀ row ∈ extracted.files.rows, row.1 ≠ file.path) :
    (files.foldl Extracted.add extracted).manifestEntrypoint = extracted.manifestEntrypoint ∧
      (files.foldl Extracted.add extracted).files.rows.Perm
        (files.map (fun file => (file.path, file.content)) ++ extracted.files.rows) := by
  induction files generalizing extracted with
  | nil => exact ⟨rfl, List.Perm.refl _⟩
  | cons file files ih =>
      rw [List.map_cons, List.nodup_cons] at distinct
      rw [List.forall_mem_cons] at fresh
      have rows : (extracted.add file).files.rows =
          (file.path, file.content) :: extracted.files.rows := by
        refine congrArg _ (List.filter_eq_self.mpr fun row member => ?_)
        simpa using fresh.1 row member
      obtain ⟨entrypoint, perm⟩ := ih (extracted.add file) distinct.2 (by
        intro other member row there
        rw [rows] at there
        rcases List.mem_cons.mp there with rfl | old
        · intro same
          exact distinct.1 (List.mem_map.mpr ⟨other, member, same.symm⟩)
        · exact fresh.2 other member row old)
      refine ⟨entrypoint, ?_⟩
      rw [rows] at perm
      exact perm.trans List.perm_middle

end Files

/-! ## The archive -/

theorem exportEntry_eq_some {pair : Text × Text} {entry : ZipEntry} :
    exportEntry pair = some entry ↔
      ∃ data, pair.2.encode = some data ∧ entry = ⟨pair.1, exportedAttr, data⟩ := by
  rw [exportEntry, Option.map_eq_some_iff]
  exact exists_congr fun data => and_congr_right fun _ => eq_comm

/-- The members of the archive are those that have been written. -/
theorem exported_of_stores {members : List ZipMember} {entries : List ZipEntry}
    {pairs : List (Text × Text)}
    (written : List.Forall₂ (fun pair entry => exportEntry pair = some entry) pairs entries)
    (stored : List.Forall₂ ZipMember.Stores members entries) :
    List.Forall₂ (fun member pair => ∃ data, Exported member pair.1 pair.2 data) members pairs := by
  induction written generalizing members with
  | nil =>
      cases stored
      exact .nil
  | cons written _ ih =>
      cases stored with
      | cons stored others =>
          obtain ⟨data, encodes, rfl⟩ := exportEntry_eq_some.mp written
          exact .cons ⟨data, encodes, stored⟩ (ih others)

/-- A path is not the name of a directory. -/
theorem getLast?_join {components : List Text}
    (clean : ∀ part ∈ components, slash ∉ part ∧ part ≠ []) :
    (Text.join slash components).getLast? ≠ some slash ∧
      (components ≠ [] → Text.join slash components ≠ []) := by
  induction components with
  | nil => simp
  | cons part components ih =>
      rw [List.forall_mem_cons] at clean
      obtain ⟨⟨noSlash, nonempty⟩, clean⟩ := clean
      by_cases last : components = []
      · subst last
        rw [Text.join_singleton]
        exact ⟨fun same => noSlash (List.mem_of_getLast? same), fun _ => nonempty⟩
      · have more : Text.join slash components ≠ [] := (ih clean).2 last
        rw [Text.join_cons _ _ last, List.getLast?_append_of_ne_nil _ (List.cons_ne_nil _ _),
          List.getLast?_cons_of_ne_nil more]
        exact ⟨(ih clean).1, fun _ => by simp⟩

theorem getLast?_asPosix {raw : Text} (some : parts raw ≠ []) :
    (asPosix raw).getLast? ≠ Option.some slash := by
  rw [asPosix, if_neg some]
  refine (getLast?_join fun part member => ?_).1
  exact ⟨slash_not_mem_part member, (mem_parts.mp member).2.1⟩

/-- The size of an archive, from the sizes of what is stored. -/
theorem sum_sizeBound_le {entries : List ZipEntry}
    (short : ∀ entry ∈ entries, (entry.filename.encode.getD []).length ≤ 2048) :
    1024 * (entries.map ZipEntry.sizeBound).sum ≤
      1024 * 4179 * entries.length + 1025 * (entries.map fun entry => entry.data.length).sum := by
  induction entries with
  | nil => simp
  | cons entry entries ih =>
      rw [List.forall_mem_cons] at short
      have rest := ih short.2
      have name := short.1
      simp only [List.map_cons, List.sum_cons, List.length_cons, ZipEntry.sizeBound, deflateBound]
      omega

section Project

variable {sha256 : Bytes → Bytes} {zip : ZipFile} {files : FileMap} {entrypoint : Text}
  {project : NormalizedProject}

/-- A path of an accepted project is short and can be encoded. -/
theorem Accepts.path_valid (ok : Accepts sha256 files entrypoint project)
    {file : PlaybookRevisionFile} (member : file ∈ project.files) :
    Json.Valid file.path ∧ file.path.length ≤ maxProjectPathLength ∧
      file.path.getLast? ≠ Option.some slash := by
  obtain ⟨item, -, normal⟩ := Text.exists_of_forall₂ ok.normal member
  refine ⟨Text.encode_isSome_iff.mp normal.pathEncodes, ?_, ?_⟩
  · rw [normal.path_eq]
    exact (length_asPosix_le normal.path.somePart).trans normal.path.short
  · rw [normal.path_eq]
    exact getLast?_asPosix normal.path.somePart

theorem Accepts.entrypoint_valid (ok : Accepts sha256 files entrypoint project) :
    Json.Valid project.entrypoint ∧ project.entrypoint.length ≤ maxProjectPathLength := by
  obtain ⟨file, member, named⟩ := List.mem_map.mp ok.member
  obtain ⟨valid, short, -⟩ := ok.path_valid member
  rw [← named]
  exact ⟨valid, short⟩

/-- The entries of the files, with the sizes of the files. -/
theorem exists_entries {items : List (Text × Text)} {files : List PlaybookRevisionFile}
    (all : List.Forall₂ (Normalizes sha256) items files) :
    ∃ entries, List.Forall₂ (fun pair entry => exportEntry pair = some entry)
        (files.map fun file => (file.path, file.content)) entries ∧
      (entries.map fun entry => entry.data.length) = files.map PlaybookRevisionFile.sizeBytes := by
  induction all with
  | nil => exact ⟨[], .nil, rfl⟩
  | @cons item file items files normal _ ih =>
      obtain ⟨entries, written, sizes⟩ := ih
      obtain ⟨data, encodes, -, -, -, -, size⟩ := normal.encodes
      refine ⟨⟨file.path, exportedAttr, data⟩ :: entries, .cons ?_ written, ?_⟩
      · exact exportEntry_eq_some.mpr ⟨data, encodes, rfl⟩
      · rw [List.map_cons, List.map_cons, sizes, size]

/-- What is known of the entries of an accepted project. -/
structure EntriesOf (project : NormalizedProject) (entries : List ZipEntry) : Prop where
  exports : exportEntries project = some entries
  written : List.Forall₂ (fun pair entry => exportEntry pair = some entry)
    ((projectManifest, manifest project) :: contents project) entries
  total : (entries.map fun entry => entry.data.length).sum =
    (manifestBytes project).length + totalBytes project.files

theorem Accepts.exists_entriesOf (ok : Accepts sha256 files entrypoint project) :
    ∃ entries, EntriesOf project entries := by
  obtain ⟨entries, written, sizes⟩ := exists_entries ok.normal
  have first : exportEntry (projectManifest, manifest project) =
      Option.some ⟨projectManifest, exportedAttr, manifestBytes project⟩ :=
    exportEntry_eq_some.mpr ⟨_, encode_manifest ok.entrypoint_valid.1, rfl⟩
  have all : List.Forall₂ (fun pair entry => exportEntry pair = Option.some entry)
      ((projectManifest, manifest project) :: contents project)
      (⟨projectManifest, exportedAttr, manifestBytes project⟩ :: entries) := .cons first written
  refine ⟨_, Text.mapM_eq_some.mpr all, all, ?_⟩
  rw [List.map_cons, List.sum_cons, sizes, totalBytes]

variable {entries : List ZipEntry}

/-- The archive of an accepted project passes the check of its size. -/
theorem Accepts.archive_small (ok : Accepts sha256 files entrypoint project)
    (entriesOf : EntriesOf project entries) (faithful : zip.Faithful entries) :
    (zip.write entries).length ≤ maxZipBytes := by
  have short : ∀ entry ∈ entries, (entry.filename.encode.getD []).length ≤ 2048 := by
    intro entry member
    obtain ⟨pair, there, written⟩ := Text.exists_of_forall₂ entriesOf.written member
    obtain ⟨data, -, rfl⟩ := exportEntry_eq_some.mp written
    have short : pair.1.length ≤ maxProjectPathLength := by
      have manifestShort : projectManifest.length ≤ maxProjectPathLength := by decide
      rcases List.mem_cons.mp there with rfl | later
      · exact manifestShort
      · obtain ⟨file, stored, rfl⟩ := List.mem_map.mp later
        exact (ok.path_valid stored).2.1
    rw [maxProjectPathLength] at short
    dsimp only
    cases encoded : Text.encode pair.1 with
    | none => exact Nat.zero_le _
    | some bytes =>
        have bound := Text.length_encode_le encoded
        rw [Option.getD_some]
        omega
  have count : entries.length ≤ maxProjectFiles + 1 := by
    rw [← entriesOf.written.length_eq, List.length_cons, contents, List.length_map,
      ← ok.normal.length_eq, orderedItems, sortedBy_perm.length_eq]
    exact Nat.add_le_add_right ok.few 1
  have sizes := sum_sizeBound_le short
  have bound := faithful.bounded
  have manifest := length_manifestBytes_le ok.entrypoint_valid.1 ok.entrypoint_valid.2
  have small := ok.small
  rw [entriesOf.total] at sizes
  simp only [maxProjectFiles, maxProjectBytes, maxZipBytes] at *
  omega

/-- The members of the archive: the manifest, and the files. -/
theorem Accepts.members (ok : Accepts sha256 files entrypoint project)
    (entriesOf : EntriesOf project entries) {members : List ZipMember}
    (stored : List.Forall₂ ZipMember.Stores members entries) :
    (members.filter fun member => !member.isDir) = members ∧
      members.length ≤ maxProjectFiles + 1 ∧
        ∃ first others, members = first :: others ∧
          (∃ data, Exported first projectManifest (manifest project) data) ∧
            List.Forall₂ (fun member file =>
              ∃ data, Exported member file.path file.content data) others project.files := by
  have exported := exported_of_stores entriesOf.written stored
  have noDir : ∀ member ∈ members, (!member.isDir) = true := by
    intro member there
    have flipped := List.Forall₂.flip exported
    obtain ⟨pair, pairThere, data, export'⟩ := Text.exists_of_forall₂ flipped there
    have last : pair.1.getLast? ≠ Option.some slash := by
      have manifestLast : projectManifest.getLast? ≠ Option.some slash := by decide
      rcases List.mem_cons.mp pairThere with rfl | later
      · exact manifestLast
      · obtain ⟨file, fileThere, rfl⟩ := List.mem_map.mp later
        exact (ok.path_valid fileThere).2.2
    have named : member.filename = pair.1 := export'.stores.filename
    rw [slash] at last
    rw [ZipMember.isDir, named]
    simpa using last
  have count : members.length ≤ maxProjectFiles + 1 := by
    rw [exported.length_eq, List.length_cons, contents, List.length_map,
      ← ok.normal.length_eq, orderedItems, sortedBy_perm.length_eq]
    exact Nat.add_le_add_right ok.few 1
  refine ⟨List.filter_eq_self.mpr noDir, count, ?_⟩
  cases exported with
  | @cons first _ others _ manifestExported filesExported =>
      refine ⟨first, others, rfl, manifestExported, ?_⟩
      rw [contents, List.forall₂_map_right_iff] at filesExported
      exact filesExported

/-- The files that are extracted from the archive of a project. -/
def extractedFiles (project : NormalizedProject) : FileMap :=
  (project.files.foldl Extracted.add (.manifest project)).files

theorem Accepts.extractedFiles_perm (ok : Accepts sha256 files entrypoint project) :
    (project.files.foldl Extracted.add (.manifest project)).manifestEntrypoint =
        Option.some project.entrypoint ∧
      (extractedFiles project).rows.Perm (contents project) := by
  have distinct : (project.files.map PlaybookRevisionFile.path).Nodup := by
    refine List.Nodup.of_map Text.casefold ?_
    rw [List.map_map]
    exact ok.distinct
  obtain ⟨same, perm⟩ := foldl_extracted project.files (.manifest project) distinct
    (fun _ _ _ absurdly => absurd absurdly List.not_mem_nil)
  have none : (Extracted.manifest project).files.rows = [] := rfl
  rw [none, List.append_nil] at perm
  exact ⟨same, perm⟩

/-- **The import** of an exported project normalises what the loop has extracted. -/
theorem Accepts.import_eq_ok (ok : Accepts sha256 files entrypoint project)
    (entriesOf : EntriesOf project entries) (faithful : zip.Faithful entries)
    {imported : NormalizedProject} :
    importProjectZip sha256 zip (zip.write entries) none = .ok imported ↔
      (∀ file ∈ project.files, ¬ IsManifest file.path) ∧
        project.sizeBytes + (manifestBytes project).length ≤ maxProjectBytes ∧
          normalizeProject sha256 (extractedFiles project) project.entrypoint = .ok imported := by
  obtain ⟨valid, short⟩ := ok.entrypoint_valid
  obtain ⟨infolist, read, stored⟩ := faithful.readsBack
  obtain ⟨noDirs, few, first, others, rfl, ⟨data, manifestMember⟩, fileMembers⟩ :=
    ok.members entriesOf stored
  have normal : ∀ file ∈ project.files, ∃ item, Normalizes sha256 item file := by
    intro file member
    obtain ⟨item, -, normal⟩ := Text.exists_of_forall₂ ok.normal member
    exact ⟨item, normal⟩
  have manifestSmall : (Extracted.manifest project).actualTotal ≤ maxProjectBytes :=
    (length_manifestBytes_le valid short).trans (by decide)
  have loop : ∀ result,
      (first :: others).foldlM (importMemberWithin fun _ => false) {} = .ok result ↔
      (foldedPaths project.files).Nodup ∧
        (∀ folded ∈ foldedPaths project.files, folded ∉ (Extracted.manifest project).seen) ∧
          (Extracted.manifest project).actualTotal + totalBytes project.files ≤ maxProjectBytes ∧
            result = project.files.foldl Extracted.add (.manifest project) := by
    intro result
    show (first :: others).foldlM importMember {} = .ok result ↔ _
    rw [List.foldlM_cons, importMember_manifest valid short manifestMember]
    exact foldlM_importMember normal fileMembers (List.mem_cons_self ..) manifestSmall
  have unseen : (∀ folded ∈ foldedPaths project.files, folded ∉ (Extracted.manifest project).seen) ↔
      ∀ file ∈ project.files, ¬ IsManifest file.path := by
    rw [foldedPaths, List.forall_mem_map]
    simp [Extracted.manifest]
  have total : (Extracted.manifest project).actualTotal + totalBytes project.files =
      project.sizeBytes + (manifestBytes project).length := by
    rw [ok.size, Nat.add_comm]
    rfl
  rw [importProjectZip, importProjectZipWithin, if_neg]
  · simp only [read, noDirs, if_neg (Nat.not_lt.mpr few)]
    constructor
    · intro accepted
      split at accepted
      · cases accepted
      rename_i result found
      obtain ⟨-, fresh, small, rfl⟩ := (loop result).mp found
      rw [ok.extractedFiles_perm.1] at accepted
      exact ⟨unseen.mp fresh, total ▸ small, accepted⟩
    · rintro ⟨allowed, small, accepted⟩
      rw [(loop _).mpr ⟨ok.distinct, unseen.mpr allowed, total.symm ▸ small, rfl⟩]
      simp only [ok.extractedFiles_perm.1, chosenEntrypoint]
      exact accepted
  · rw [not_or, Nat.not_lt]
    exact ⟨faithful.notEmpty, ok.archive_small entriesOf faithful⟩

end Project

/-- **When an import returns what has been exported.**  For every hash, every
accepted project and a library that reads back what it writes: the archive of
the project is imported as the same files, entrypoint and digest exactly if the
files are in the order of their paths, none has the name of the manifest, and
the files and the manifest together are within the limit of a project. -/
theorem importProjectZip_export_iff (sha256 : Bytes → Bytes) (zip : ZipFile) {files : FileMap}
    {entrypoint : Text} {project : NormalizedProject}
    (accepted : normalizeProject sha256 files entrypoint = .ok project)
    (faithful : ∀ entries, exportEntries project = some entries → zip.Faithful entries) :
    (∃ payload imported, exportProjectZip zip project = .ok payload ∧
        importProjectZip sha256 zip payload none = .ok imported ∧
          imported.files = project.files ∧ imported.entrypoint = project.entrypoint ∧
            imported.sha256 = project.sha256) ↔
      SelfNormal project ∧
        project.sizeBytes + (manifestBytes project).length ≤ maxProjectBytes := by
  have ok := (normalizeProject_eq_ok sha256).mp accepted
  obtain ⟨entries, entriesOf⟩ := ok.exists_entriesOf
  have exported : exportProjectZip zip project = .ok (zip.write entries) := by
    rw [exportProjectZip, entriesOf.exports]
  have reads := faithful entries entriesOf.exports
  have again := ok.again_iff ok.extractedFiles_perm.2
  constructor
  · rintro ⟨payload, imported, written, accepted, sameFiles, sameEntrypoint, sameHash⟩
    obtain rfl := Except.ok.inj (exported.symm.trans written)
    obtain ⟨allowed, small, normalized⟩ := (ok.import_eq_ok entriesOf reads).mp accepted
    have second := (normalizeProject_eq_ok sha256).mp normalized
    have same : imported = project := by
      have size : imported.sizeBytes = project.sizeBytes := by
        rw [second.size, ok.size, sameFiles]
      cases imported
      cases project
      simp only at sameFiles sameEntrypoint sameHash size
      rw [sameFiles, sameEntrypoint, sameHash, size]
    rw [same] at second
    exact ⟨again.mp second, small⟩
  · rintro ⟨normal, small⟩
    have second := (normalizeProject_eq_ok sha256).mpr (again.mpr normal)
    have imported := (ok.import_eq_ok entriesOf reads).mpr ⟨normal.allowed, small, second⟩
    exact ⟨_, project, exported, imported, rfl, rfl, rfl⟩

/-! ## Two archives -/

/-- A library that knows one archive. -/
def recorded (archive : Bytes) (members : List ZipMember) : ZipFile where
  write _ := archive
  read payload := if payload = archive then .ok members else .error .badZipFile

theorem recorded_faithful {archive : Bytes} {members : List ZipMember} {entries : List ZipEntry}
    (stored : List.Forall₂ ZipMember.Stores members entries) (notEmpty : archive ≠ [])
    (bounded : archive.length ≤ 22 + (entries.map ZipEntry.sizeBound).sum) :
    (recorded archive members).Faithful entries :=
  ⟨⟨members, if_pos rfl, stored⟩, notEmpty, bounded⟩

/-- The member with given contents, in one read. -/
def recordedMember (filename : Text) (data : Bytes) : ZipMember where
  filename := filename
  flagBits := 0
  externalAttr := exportedAttr
  fileSize := data.length
  reads := [data]
  failure := none

/-- The files of a project, in no particular order. -/
def siteFiles : FileMap :=
  ⟨[(text "vars/all.yml", text "a: 1\n"), (text "site.yml", text "---\n"),
    (text "roles/web/tasks/main.yml", text "[]\n")], by decide⟩

/-- The project, in the order of its paths. -/
def siteProject : NormalizedProject where
  files := [⟨text "roles/web/tasks/main.yml", text "[]\n", [91, 93, 10], 3⟩,
    ⟨text "site.yml", text "---\n", [45, 45, 45, 10], 4⟩,
    ⟨text "vars/all.yml", text "a: 1\n", [97, 58, 32, 49, 10], 5⟩]
  entrypoint := text "site.yml"
  sha256 := [114, 111, 108, 101, 115, 47, 119, 101, 98, 47, 116, 97, 115, 107, 115, 47, 109, 97,
    105, 110, 46, 121, 109, 108, 0, 91, 93, 10, 0, 115, 105, 116, 101, 46, 121, 109, 108, 0, 45,
    45, 45, 10, 0, 118, 97, 114, 115, 47, 97, 108, 108, 46, 121, 109, 108, 0, 97, 58, 32, 49, 10,
    0]
  sizeBytes := 12

/-- What `zipfile` writes for it. -/
def siteArchive : Bytes :=
  [80, 75, 3, 4, 20, 0, 0, 0, 8, 0, 0, 0, 33, 0, 105, 94, 169, 102, 45, 0, 0, 0, 43, 0, 0,
    0, 26, 0, 0, 0, 46, 111, 112, 115, 45, 99, 111, 109, 112, 111, 115, 101, 114, 45, 112,
    114, 111, 106, 101, 99, 116, 46, 106, 115, 111, 110, 171, 86, 74, 205, 43, 41, 170, 44,
    200, 207, 204, 43, 81, 178, 82, 42, 206, 44, 73, 213, 171, 204, 205, 81, 210, 81, 74,
    203, 47, 202, 77, 44, 9, 75, 45, 42, 206, 204, 207, 83, 178, 50, 172, 5, 0, 80, 75, 3,
    4, 20, 0, 0, 0, 8, 0, 0, 0, 33, 0, 68, 210, 104, 112, 5, 0, 0, 0, 3, 0, 0, 0, 24, 0, 0,
    0, 114, 111, 108, 101, 115, 47, 119, 101, 98, 47, 116, 97, 115, 107, 115, 47, 109, 97,
    105, 110, 46, 121, 109, 108, 139, 142, 229, 2, 0, 80, 75, 3, 4, 20, 0, 0, 0, 8, 0, 0, 0,
    33, 0, 189, 206, 118, 131, 6, 0, 0, 0, 4, 0, 0, 0, 8, 0, 0, 0, 115, 105, 116, 101, 46,
    121, 109, 108, 211, 213, 213, 229, 2, 0, 80, 75, 3, 4, 20, 0, 0, 0, 8, 0, 0, 0, 33, 0,
    105, 25, 35, 227, 7, 0, 0, 0, 5, 0, 0, 0, 12, 0, 0, 0, 118, 97, 114, 115, 47, 97, 108,
    108, 46, 121, 109, 108, 75, 180, 82, 48, 228, 2, 0, 80, 75, 1, 2, 20, 3, 20, 0, 0, 0, 8,
    0, 0, 0, 33, 0, 105, 94, 169, 102, 45, 0, 0, 0, 43, 0, 0, 0, 26, 0, 0, 0, 0, 0, 0, 0, 0,
    0, 0, 0, 128, 129, 0, 0, 0, 0, 46, 111, 112, 115, 45, 99, 111, 109, 112, 111, 115, 101,
    114, 45, 112, 114, 111, 106, 101, 99, 116, 46, 106, 115, 111, 110, 80, 75, 1, 2, 20, 3,
    20, 0, 0, 0, 8, 0, 0, 0, 33, 0, 68, 210, 104, 112, 5, 0, 0, 0, 3, 0, 0, 0, 24, 0, 0, 0,
    0, 0, 0, 0, 0, 0, 0, 0, 128, 129, 101, 0, 0, 0, 114, 111, 108, 101, 115, 47, 119, 101,
    98, 47, 116, 97, 115, 107, 115, 47, 109, 97, 105, 110, 46, 121, 109, 108, 80, 75, 1, 2,
    20, 3, 20, 0, 0, 0, 8, 0, 0, 0, 33, 0, 189, 206, 118, 131, 6, 0, 0, 0, 4, 0, 0, 0, 8, 0,
    0, 0, 0, 0, 0, 0, 0, 0, 0, 0, 128, 129, 160, 0, 0, 0, 115, 105, 116, 101, 46, 121, 109,
    108, 80, 75, 1, 2, 20, 3, 20, 0, 0, 0, 8, 0, 0, 0, 33, 0, 105, 25, 35, 227, 7, 0, 0, 0,
    5, 0, 0, 0, 12, 0, 0, 0, 0, 0, 0, 0, 0, 0, 0, 0, 128, 129, 204, 0, 0, 0, 118, 97, 114,
    115, 47, 97, 108, 108, 46, 121, 109, 108, 80, 75, 5, 6, 0, 0, 0, 0, 4, 0, 4, 0, 254, 0,
    0, 0, 253, 0, 0, 0, 0, 0]

/-- The library on the archive of a project with three files. -/
def siteZip : ZipFile := recorded siteArchive
  [recordedMember projectManifest (manifestBytes siteProject),
    recordedMember (text "roles/web/tasks/main.yml") [91, 93, 10],
    recordedMember (text "site.yml") [45, 45, 45, 10],
    recordedMember (text "vars/all.yml") [97, 58, 32, 49, 10]]

/-- The project is imported as it was exported. -/
theorem importProjectZip_export_site :
    ∃ payload imported, exportProjectZip siteZip siteProject = .ok payload ∧
      importProjectZip id siteZip payload none = .ok imported ∧
        imported.files = siteProject.files ∧ imported.entrypoint = siteProject.entrypoint ∧
          imported.sha256 = siteProject.sha256 := by
  have accepted : normalizeProject id siteFiles (text "site.yml") = .ok siteProject := by
    decide +kernel
  have entries : exportEntries siteProject =
      some [⟨projectManifest, exportedAttr, manifestBytes siteProject⟩,
        ⟨text "roles/web/tasks/main.yml", exportedAttr, [91, 93, 10]⟩,
        ⟨text "site.yml", exportedAttr, [45, 45, 45, 10]⟩,
        ⟨text "vars/all.yml", exportedAttr, [97, 58, 32, 49, 10]⟩] := by decide
  refine (importProjectZip_export_iff id siteZip accepted ?_).mpr ⟨⟨by decide, by decide⟩, by decide⟩
  intro entries' exported
  obtain rfl := Option.some.inj (entries.symm.trans exported)
  refine recorded_faithful (.cons ?_ (.cons ?_ (.cons ?_ (.cons ?_ .nil))))
    (List.cons_ne_nil _ _) (by decide +kernel)
  · exact ⟨rfl, rfl, rfl, rfl, by simp [recordedMember], by decide, rfl⟩
  · exact ⟨rfl, rfl, rfl, rfl, rfl, by decide, rfl⟩
  · exact ⟨rfl, rfl, rfl, rfl, rfl, by decide, rfl⟩
  · exact ⟨rfl, rfl, rfl, rfl, rfl, by decide, rfl⟩

/-- The project of `misorderedFiles`, and what `zipfile` writes for it. -/
def misorderedProject : NormalizedProject where
  files := [⟨text "b.yml", [98], [98], 1⟩, ⟨text "a.yml", [97], [97], 1⟩]
  entrypoint := text "a.yml"
  sha256 := [98, 46, 121, 109, 108, 0, 98, 0, 97, 46, 121, 109, 108, 0, 97, 0]
  sizeBytes := 2

/-- An archive whose members are not in the order of their paths. -/
def misorderedArchive : Bytes :=
  [80, 75, 3, 4, 20, 0, 0, 0, 8, 0, 0, 0, 33, 0, 225, 137, 173, 90, 42, 0, 0, 0, 40, 0, 0,
    0, 26, 0, 0, 0, 46, 111, 112, 115, 45, 99, 111, 109, 112, 111, 115, 101, 114, 45, 112,
    114, 111, 106, 101, 99, 116, 46, 106, 115, 111, 110, 171, 86, 74, 205, 43, 41, 170, 44,
    200, 207, 204, 43, 81, 178, 82, 74, 212, 171, 204, 205, 81, 210, 81, 74, 203, 47, 202, 77,
    44, 9, 75, 45, 42, 206, 204, 207, 83, 178, 50, 172, 5, 0, 80, 75, 3, 4, 20, 0, 0, 0, 8, 0,
    0, 0, 33, 0, 249, 239, 190, 113, 3, 0, 0, 0, 1, 0, 0, 0, 5, 0, 0, 0, 98, 46, 121, 109,
    108, 75, 2, 0, 80, 75, 3, 4, 20, 0, 0, 0, 8, 0, 0, 0, 33, 0, 67, 190, 183, 232, 3, 0, 0,
    0, 1, 0, 0, 0, 5, 0, 0, 0, 97, 46, 121, 109, 108, 75, 4, 0, 80, 75, 1, 2, 20, 3, 20, 0, 0,
    0, 8, 0, 0, 0, 33, 0, 225, 137, 173, 90, 42, 0, 0, 0, 40, 0, 0, 0, 26, 0, 0, 0, 0, 0, 0,
    0, 0, 0, 0, 0, 128, 129, 0, 0, 0, 0, 46, 111, 112, 115, 45, 99, 111, 109, 112, 111, 115,
    101, 114, 45, 112, 114, 111, 106, 101, 99, 116, 46, 106, 115, 111, 110, 80, 75, 1, 2, 20,
    3, 20, 0, 0, 0, 8, 0, 0, 0, 33, 0, 249, 239, 190, 113, 3, 0, 0, 0, 1, 0, 0, 0, 5, 0, 0, 0,
    0, 0, 0, 0, 0, 0, 0, 0, 128, 129, 98, 0, 0, 0, 98, 46, 121, 109, 108, 80, 75, 1, 2, 20, 3,
    20, 0, 0, 0, 8, 0, 0, 0, 33, 0, 67, 190, 183, 232, 3, 0, 0, 0, 1, 0, 0, 0, 5, 0, 0, 0, 0,
    0, 0, 0, 0, 0, 0, 0, 128, 129, 136, 0, 0, 0, 97, 46, 121, 109, 108, 80, 75, 5, 6, 0, 0, 0,
    0, 3, 0, 3, 0, 174, 0, 0, 0, 174, 0, 0, 0, 0, 0]

/-- The library on this archive. -/
def misorderedZip : ZipFile := recorded misorderedArchive
  [recordedMember projectManifest (manifestBytes misorderedProject),
    recordedMember (text "b.yml") [98], recordedMember (text "a.yml") [97]]

/-- **A project that is imported as another one** than was exported: its files
come back in another order, and so does its digest. -/
theorem importProjectZip_export_fails :
    normalizeProject id misorderedFiles (text "a.yml") = .ok misorderedProject ∧
      (∀ entries, exportEntries misorderedProject = some entries →
        misorderedZip.Faithful entries) ∧
      exportProjectZip misorderedZip misorderedProject = .ok misorderedArchive ∧
        ∃ imported, importProjectZip id misorderedZip misorderedArchive none = .ok imported ∧
          imported.files ≠ misorderedProject.files ∧
            imported.sha256 ≠ misorderedProject.sha256 := by
  have entries : exportEntries misorderedProject =
      some [⟨projectManifest, exportedAttr, manifestBytes misorderedProject⟩,
        ⟨text "b.yml", exportedAttr, [98]⟩, ⟨text "a.yml", exportedAttr, [97]⟩] := by decide
  refine ⟨by decide, ?_, ?_, ?_⟩
  · intro entries' exported
    obtain rfl := Option.some.inj (entries.symm.trans exported)
    refine recorded_faithful (.cons ?_ (.cons ?_ (.cons ?_ .nil))) (List.cons_ne_nil _ _)
      (by decide +kernel)
    · exact ⟨rfl, rfl, rfl, rfl, by simp [recordedMember], by decide, rfl⟩
    · exact ⟨rfl, rfl, rfl, rfl, rfl, by decide, rfl⟩
    · exact ⟨rfl, rfl, rfl, rfl, rfl, by decide, rfl⟩
  · rw [exportProjectZip, entries]
    rfl
  · refine ⟨⟨[⟨text "a.yml", [97], [97], 1⟩, ⟨text "b.yml", [98], [98], 1⟩], text "a.yml",
      [97, 46, 121, 109, 108, 0, 97, 0, 98, 46, 121, 109, 108, 0, 98, 0], 2⟩, ?_, by decide,
      by decide⟩
    decide +kernel

end OpsComposer.Services.PlaybookProject
