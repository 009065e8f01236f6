import OpsComposer.Projects.Archive

/-!
# Importing any archive

The importer reads a member in chunks and stops at the limits, so that it never reads much more
than a project may have (`bytesRead_le`), whatever the archive says about its members.

Everything that is wrong with an archive before a member is read is an error of the client,
unless the constructor of the library raises what is not expected of it, and so is everything that
is wrong afterwards with the texts.  What reading a member raises is not caught, and neither are
two of the exceptions of the reader of JSON.  The archives that get there are the defective ones
(`import_zip_safe_iff`); one of them has a wrong checksum, and another the number of a version
that is not supported (`import_zip_safe_fails`).
-/

set_option autoImplicit false

namespace OpsComposer.Services.PlaybookProject

open Foundations

/-! ## Bytes -/

/-- The bytes that the `while` loop has read from a member when it stops. -/
def bytesOfReads : List Bytes → Nat → Nat → Nat
  | [], _, _ => 0
  | chunk :: reads, actualTotal, memberSize =>
      if chunk = [] then 0
      else if maxProjectFileBytes < memberSize + chunk.length ∨
          maxProjectBytes < actualTotal + chunk.length then
        chunk.length
      else
        chunk.length +
          bytesOfReads reads (actualTotal + chunk.length) (memberSize + chunk.length)

/-- The bytes that one iteration has read when it stops. -/
def bytesOfMember (extracted : Extracted) (member : ZipMember) : Nat :=
  match memberFault member, memberPath member with
  | none, .ok path =>
      if path.casefold ∈ extracted.seen then 0
      else bytesOfReads member.reads extracted.actualTotal 0
  | _, _ => 0

section Loop

variable (tooDeep : Text → Bool)

/-- The bytes that the loop over the members has read when it stops. -/
def bytesOfMembers : Extracted → List ZipMember → Nat
  | _, [] => 0
  | extracted, member :: members =>
      bytesOfMember extracted member +
        match importMemberWithin tooDeep extracted member with
        | .ok next => bytesOfMembers next members
        | .error _ => 0

/-- The bytes that `import_project_zip` has read when it stops. -/
def bytesRead (zip : ZipFile) (payload : Bytes) : Nat :=
  if payload = [] ∨ maxZipBytes < payload.length then 0
  else
    match zip.read payload with
    | .error _ => 0
    | .ok infolist =>
        let members := infolist.filter fun member => !member.isDir
        if maxProjectFiles + 1 < members.length then 0 else bytesOfMembers tooDeep {} members

end Loop

/-! ## The library -/

/-- What one call of `read` asks for. -/
def readBytes : Nat := 64 * 1024

/-- What `zipfile` says about its members: a name is text, and `read` returns at most as many
bytes as it is asked for, and none only at the end. -/
structure Readable (member : ZipMember) : Prop where
  named : ∀ c ∈ member.filename, c.isValidChar
  progress : [] ∉ member.reads
  chunks : ∀ chunk ∈ member.reads, chunk.length ≤ readBytes

/-- Every member that the library returns is such a member. -/
def ReadsArchives (zip : ZipFile) : Prop :=
  ∀ payload members, zip.read payload = .ok members → ∀ member ∈ members, Readable member

/-! ## Reading a member -/

section Reading

variable {reads : List Bytes} {total size : Nat}

/-- What has been read before the chunk that exceeds a limit is within the limits. -/
theorem bytesOfReads_le (chunks : ∀ chunk ∈ reads, chunk.length ≤ readBytes)
    (totalSmall : total ≤ maxProjectBytes) :
    total + bytesOfReads reads total size ≤ maxProjectBytes + readBytes := by
  induction reads generalizing total size with
  | nil =>
      rw [bytesOfReads]
      omega
  | cons chunk reads ih =>
      obtain ⟨short, others⟩ := List.forall_mem_cons.mp chunks
      rw [bytesOfReads]
      split
      · omega
      · split
        · omega
        · rename_i fits
          have small : total + chunk.length ≤ maxProjectBytes := by omega
          have rest : total + chunk.length +
              bytesOfReads reads (total + chunk.length) (size + chunk.length) ≤
                maxProjectBytes + readBytes := ih others small
          omega

/-- What is within the limits is read to its end. -/
theorem bytesOfReads_eq (progress : [] ∉ reads)
    (small : size + reads.flatten.length ≤ maxProjectFileBytes)
    (fits : total + reads.flatten.length ≤ maxProjectBytes) :
    bytesOfReads reads total size = reads.flatten.length := by
  induction reads generalizing total size with
  | nil => rfl
  | cons chunk reads ih =>
      obtain ⟨notEmpty, progress⟩ := not_or.mp (List.mem_cons.not.mp progress)
      rw [List.flatten_cons, List.length_append] at small fits ⊢
      rw [bytesOfReads, if_neg (Ne.symm notEmpty), if_neg (by omega),
        ih progress (by omega) (by omega)]

end Reading

/-! ## What can go wrong -/

/-- `PlaybookProjectInvalidError`. -/
def ProjectError.IsInvalid : ProjectError → Prop
  | .invalid _ _ => True
  | _ => False

/-- What can be read from a member. -/
def memberBytes (member : ZipMember) : Bytes := member.reads.flatten

/-- The importer gets to a member and is not stopped by a limit when it reads it: `seen` are the
folded paths of the members before, and `total` are their bytes. -/
structure Arrives (seen : List Text) (total : Nat) (member : ZipMember) (path : Text) :
    Prop where
  sound : memberFault member = none
  named : memberPath member = .ok path
  fresh : path.casefold ∉ seen
  small : (memberBytes member).length ≤ maxProjectFileBytes
  fits : total + (memberBytes member).length ≤ maxProjectBytes

/-- A text that is a manifest. -/
def HasEntrypoint (tooDeep : Text → Bool) (content : Text) : Prop :=
  tooDeep content = false ∧ ∃ members entrypoint, Json.loads content = .ok (.obj members) ∧
    members.lookup (text "entrypoint") = some (.str entrypoint)

/-- The member is in order. -/
structure InOrder (tooDeep : Text → Bool) (path : Text) (member : ZipMember) : Prop where
  complete : member.failure = none
  isText : ∃ content, Text.decode (memberBytes member) = some content ∧
    (path = projectManifest → HasEntrypoint tooDeep content)

/-- What is wrong with the member that the importer does not expect: reading it breaks off, or it
is a manifest with an integer of too many digits, or one that is nested too deeply. -/
inductive Unexpected (tooDeep : Text → Bool) (path : Text) (member : ZipMember) : Prop where
  | breaksOff (failure : ZipFailure) (raised : member.failure = some failure)
  | digits (content : Text) (complete : member.failure = none)
      (isText : Text.decode (memberBytes member) = some content) (named : path = projectManifest)
      (shallow : tooDeep content = false) (long : Json.loads content = .error .tooManyDigits)
  | depth (content : Text) (complete : member.failure = none)
      (isText : Text.decode (memberBytes member) = some content) (named : path = projectManifest)
      (deep : tooDeep content = true)

/-- Among the members there is one of this kind, and all before it are in order. -/
inductive Defective (tooDeep : Text → Bool) : List Text → Nat → List ZipMember → Prop where
  | here {seen : List Text} {total : Nat} {member : ZipMember} {members : List ZipMember}
      {path : Text} (arrives : Arrives seen total member path)
      (unexpected : Unexpected tooDeep path member) :
      Defective tooDeep seen total (member :: members)
  | later {seen : List Text} {total : Nat} {member : ZipMember} {members : List ZipMember}
      {path : Text} (arrives : Arrives seen total member path)
      (passes : InOrder tooDeep path member)
      (rest : Defective tooDeep (path.casefold :: seen) (total + (memberBytes member).length)
        members) : Defective tooDeep seen total (member :: members)

/-! ## One member -/

section Members

variable {tooDeep : Text → Bool} {extracted next : Extracted} {member : ZipMember} {path : Text}

theorem manifestEntrypointWithin_eq_ok {content entrypoint : Text} :
    manifestEntrypointWithin tooDeep content = .ok entrypoint ↔
      tooDeep content = false ∧ ∃ members, Json.loads content = .ok (.obj members) ∧
        members.lookup (text "entrypoint") = some (.str entrypoint) := by
  unfold manifestEntrypointWithin
  constructor
  · intro accepted
    split at accepted
    · cases accepted
    · rename_i shallow
      split at accepted
      · cases accepted
      · cases accepted
      · rename_i members loaded
        split at accepted
        · rename_i entrypoint' found
          obtain rfl := Except.ok.inj accepted
          exact ⟨by simpa using shallow, members, loaded, found⟩
        · cases accepted
      · cases accepted
  · rintro ⟨shallow, members, loaded, found⟩
    simp only [shallow, Bool.false_eq_true, if_false, loaded, found]

variable {error : ProjectError}

/-- What the reader of a manifest raises. -/
theorem manifestEntrypointWithin_eq_error {content : Text}
    (refused : manifestEntrypointWithin tooDeep content = .error error) :
    error.IsInvalid ∨ (error = .tooDeep ∧ tooDeep content = true) ∨
      (error = .tooManyDigits ∧ tooDeep content = false ∧
        Json.loads content = .error .tooManyDigits) := by
  unfold manifestEntrypointWithin at refused
  split at refused
  · rename_i deep
    exact .inr (.inl ⟨(Except.error.inj refused).symm, deep⟩)
  · rename_i shallow
    split at refused
    · exact .inl (Except.error.inj refused ▸ trivial)
    · rename_i long
      exact .inr (.inr ⟨(Except.error.inj refused).symm, by simpa using shallow, long⟩)
    · split at refused
      · cases refused
      · exact .inl (Except.error.inj refused ▸ trivial)
    · exact .inl (Except.error.inj refused ▸ trivial)

/-- A check that fails makes the project invalid. -/
theorem isInvalid_of_check {α : Type} {condition : Prop} [Decidable condition] {message : String}
    {details : List (String × Nat)} {rest : Except ProjectError α}
    (refused : (if condition then .error (.invalid message details) else rest) = .error error)
    (later : rest = .error error → error.IsInvalid) : error.IsInvalid := by
  split at refused
  · exact Except.error.inj refused ▸ trivial
  · exact later refused

theorem normalizeProjectPath_eq_error {raw : Text}
    (refused : normalizeProjectPath raw = .error error) : error.IsInvalid := by
  unfold normalizeProjectPath at refused
  refine isInvalid_of_check refused fun refused => ?_
  refine isInvalid_of_check refused fun refused => ?_
  refine isInvalid_of_check refused fun refused => ?_
  refine isInvalid_of_check refused fun refused => ?_
  cases refused

/-- A path is made of the characters that it is given with. -/
theorem valid_asPosix {raw : Text} (ok : PathOk raw) (named : ∀ c ∈ raw, c.isValidChar) :
    ∀ c ∈ asPosix raw, c.isValidChar := by
  intro c inside
  rcases mem_of_mem_asPosix ok.somePart inside with rfl | there
  · exact .inl (by decide)
  · exact named c there

theorem memberPath_eq_error (refused : memberPath member = .error error) : error.IsInvalid := by
  unfold memberPath at refused
  split at refused
  · cases refused
  · exact normalizeProjectPath_eq_error refused

/-- The path of a member is a text. -/
theorem valid_of_memberPath (named : ∀ c ∈ member.filename, c.isValidChar)
    (found : memberPath member = .ok path) : ∀ c ∈ path, c.isValidChar := by
  unfold memberPath at found
  split at found
  · exact Except.ok.inj found ▸ named
  · obtain ⟨ok, rfl⟩ := normalizeProjectPath_eq_ok.mp found
    exact valid_asPosix ok named

/-- What an iteration extracts. -/
structure Extracts (extracted : Extracted) (member : ZipMember) (path : Text)
    (next : Extracted) : Prop where
  seen : next.seen = path.casefold :: extracted.seen
  total : next.actualTotal = extracted.actualTotal + (memberBytes member).length
  files : ∀ file ∈ next.files.rows, file ∈ extracted.files.rows ∨ file.1 = path

section Outcomes

variable (readable : Readable member) (totalSmall : extracted.actualTotal ≤ maxProjectBytes)

include readable totalSmall

/-- Reading a member that the importer gets to. -/
theorem readMember_of_arrives (arrives : Arrives extracted.seen extracted.actualTotal member path) :
    readMember member.failure member.reads extracted.actualTotal 0 [] =
      match member.failure with
      | none => .ok (extracted.actualTotal + (memberBytes member).length, memberBytes member)
      | some failure => .error (.zipFailure failure) := by
  have small : 0 + member.reads.flatten.length ≤ maxProjectFileBytes := by
    rw [Nat.zero_add]
    exact arrives.small
  rw [readMember_eq readable.progress (Nat.zero_le _) totalSmall, if_pos ⟨small, arrives.fits⟩]
  rfl

/-- A member that is in order is extracted. -/
theorem importMember_passes (arrives : Arrives extracted.seen extracted.actualTotal member path)
    (passes : InOrder tooDeep path member) :
    ∃ next, importMemberWithin tooDeep extracted member = .ok next ∧
      Extracts extracted member path next := by
  obtain ⟨content, isText, isManifest⟩ := passes.isText
  have read := readMember_of_arrives readable totalSmall arrives
  rw [passes.complete] at read
  unfold importMemberWithin
  simp only [arrives.sound, arrives.named, if_neg arrives.fresh, passes.complete, read, isText]
  by_cases named : path = projectManifest
  · obtain ⟨shallow, members, entrypoint, found⟩ := isManifest named
    have entrypoint := manifestEntrypointWithin_eq_ok.mpr ⟨shallow, members, found⟩
    simp only [if_pos named, entrypoint]
    exact ⟨_, rfl, rfl, rfl, fun file there => .inl there⟩
  · simp only [if_neg named]
    refine ⟨_, rfl, rfl, rfl, ?_⟩
    intro file there
    rcases List.mem_cons.mp there with rfl | old
    · exact .inr rfl
    · exact .inl (List.mem_filter.mp old).1

/-- What is unexpected is not caught. -/
theorem importMember_unexpected (arrives : Arrives extracted.seen extracted.actualTotal member path)
    (unexpected : Unexpected tooDeep path member) :
    ∃ error, importMemberWithin tooDeep extracted member = .error error ∧ ¬ error.IsInvalid := by
  have read := readMember_of_arrives readable totalSmall arrives
  unfold importMemberWithin
  simp only [arrives.sound, arrives.named, if_neg arrives.fresh]
  cases unexpected with
  | breaksOff failure raised =>
      rw [raised] at read
      rw [raised, read]
      exact ⟨_, rfl, id⟩
  | digits content complete isText named shallow long =>
      rw [complete] at read
      simp only [complete, read, isText, if_pos named, manifestEntrypointWithin, shallow,
        Bool.false_eq_true, if_false, long]
      exact ⟨_, rfl, id⟩
  | depth content complete isText named deep =>
      rw [complete] at read
      simp only [complete, read, isText, if_pos named, manifestEntrypointWithin, deep, if_true]
      exact ⟨_, rfl, id⟩

/-- **One iteration**: the member is in order, or it is unexpected, or the client is told. -/
theorem importMember_cases (tooDeep : Text → Bool) :
    (∃ path, Arrives extracted.seen extracted.actualTotal member path ∧
        (InOrder tooDeep path member ∨ Unexpected tooDeep path member)) ∨
      ∃ error, importMemberWithin tooDeep extracted member = .error error ∧ error.IsInvalid := by
  unfold importMemberWithin
  cases sound : memberFault member with
  | some fault => exact .inr ⟨_, rfl, trivial⟩
  | none =>
    cases named : memberPath member with
    | error error => exact .inr ⟨error, rfl, memberPath_eq_error named⟩
    | ok path =>
      by_cases seen : path.casefold ∈ extracted.seen
      · exact .inr ⟨_, if_pos seen, trivial⟩
      · simp only [if_neg seen]
        rw [readMember_eq readable.progress (Nat.zero_le _) totalSmall]
        by_cases fits : 0 + member.reads.flatten.length ≤ maxProjectFileBytes ∧
            extracted.actualTotal + member.reads.flatten.length ≤ maxProjectBytes
        · have arrives : Arrives extracted.seen extracted.actualTotal member path :=
            ⟨sound, named, seen, (Nat.zero_add _).ge.trans fits.1, fits.2⟩
          rw [if_pos fits]
          cases complete : member.failure with
          | some failure => exact .inl ⟨path, arrives, .inr (.breaksOff failure complete)⟩
          | none =>
            cases isText : Text.decode (memberBytes member) with
            | none =>
                rw [memberBytes] at isText
                simp only [List.nil_append, isText]
                exact .inr ⟨_, rfl, trivial⟩
            | some content =>
                by_cases isManifest : path = projectManifest
                · cases found : manifestEntrypointWithin tooDeep content with
                  | ok entrypoint =>
                      obtain ⟨shallow, members, loaded⟩ := manifestEntrypointWithin_eq_ok.mp found
                      exact .inl ⟨path, arrives, .inl ⟨complete, content, isText,
                        fun _ => ⟨shallow, members, entrypoint, loaded⟩⟩⟩
                  | error error =>
                      rcases manifestEntrypointWithin_eq_error found with
                        invalid | ⟨-, deep⟩ | ⟨-, shallow, long⟩
                      · have isText' := isText
                        rw [memberBytes] at isText'
                        simp only [List.nil_append, isText', if_pos isManifest, found]
                        exact .inr ⟨error, rfl, invalid⟩
                      · exact .inl ⟨path, arrives, .inr
                          (.depth content complete isText isManifest deep)⟩
                      · exact .inl ⟨path, arrives, .inr
                          (.digits content complete isText isManifest shallow long)⟩
                · exact .inl ⟨path, arrives, .inl ⟨complete, content, isText,
                    fun same => absurd same isManifest⟩⟩
        · rw [if_neg fits]
          exact .inr ⟨_, rfl, trivial⟩

end Outcomes

/-- A member is in order, or it is not. -/
theorem InOrder.not_unexpected (passes : InOrder tooDeep path member) :
    ¬ Unexpected tooDeep path member := by
  obtain ⟨complete, content, isText, isManifest⟩ := passes
  intro unexpected
  cases unexpected with
  | breaksOff failure raised =>
      rw [complete] at raised
      cases raised
  | digits content' _ isText' named shallow long =>
      obtain rfl := Option.some.inj (isText.symm.trans isText')
      obtain ⟨-, members, entrypoint, loaded, -⟩ := isManifest named
      rw [long] at loaded
      cases loaded
  | depth content' _ isText' named deep =>
      obtain rfl := Option.some.inj (isText.symm.trans isText')
      rw [(isManifest named).1] at deep
      cases deep

theorem Arrives.path_unique {seen : List Text} {total : Nat} {path' : Text}
    (arrives : Arrives seen total member path) (arrives' : Arrives seen total member path') :
    path = path' :=
  Except.ok.inj (arrives.named.symm.trans arrives'.named)

variable {members : List ZipMember}

theorem defective_cons {seen : List Text} {total : Nat}
    (arrives : Arrives seen total member path) (passes : InOrder tooDeep path member) :
    Defective tooDeep seen total (member :: members) ↔
      Defective tooDeep (path.casefold :: seen) (total + (memberBytes member).length) members := by
  constructor
  · intro defective
    cases defective with
    | here arrives' unexpected =>
        obtain rfl := arrives.path_unique arrives'
        exact absurd unexpected passes.not_unexpected
    | later arrives' _ rest =>
        obtain rfl := arrives.path_unique arrives'
        exact rest
  · exact fun rest => .later arrives passes rest

/-- Where the client is told, nothing unexpected comes first. -/
theorem not_defective_of_invalid {error : ProjectError}
    (readable : Readable member) (totalSmall : extracted.actualTotal ≤ maxProjectBytes)
    (refused : importMemberWithin tooDeep extracted member = .error error)
    (invalid : error.IsInvalid) :
    ¬ Defective tooDeep extracted.seen extracted.actualTotal (member :: members) := by
  intro defective
  cases defective with
  | here arrives unexpected =>
      obtain ⟨error', refused', notInvalid⟩ :=
        importMember_unexpected readable totalSmall arrives unexpected
      obtain rfl := Except.error.inj (refused.symm.trans refused')
      exact notInvalid invalid
  | later arrives passes rest =>
      obtain ⟨next, imported, -⟩ := importMember_passes readable totalSmall arrives passes
      rw [refused] at imported
      cases imported

/-! ## All members -/

/-- The paths of the files are texts. -/
def Extracted.Named (extracted : Extracted) : Prop :=
  ∀ file ∈ extracted.files.rows, ∀ c ∈ file.1, c.isValidChar

/-- **The loop**: something unexpected comes first, or the client is told, or all is extracted. -/
theorem foldlM_importMember_cases (readable : ∀ member ∈ members, Readable member)
    (totalSmall : extracted.actualTotal ≤ maxProjectBytes) (named : extracted.Named) :
    (Defective tooDeep extracted.seen extracted.actualTotal members ∧
        ∃ error, members.foldlM (importMemberWithin tooDeep) extracted = .error error ∧
          ¬ error.IsInvalid) ∨
      ¬ Defective tooDeep extracted.seen extracted.actualTotal members ∧
        ((∃ error, members.foldlM (importMemberWithin tooDeep) extracted = .error error ∧
            error.IsInvalid) ∨
          ∃ next, members.foldlM (importMemberWithin tooDeep) extracted = .ok next ∧
            next.Named) := by
  induction members generalizing extracted with
  | nil => exact .inr ⟨fun defective => (nomatch defective), .inr ⟨extracted, rfl, named⟩⟩
  | cons member members ih =>
      obtain ⟨first, others⟩ := List.forall_mem_cons.mp readable
      rw [List.foldlM_cons]
      rcases importMember_cases first totalSmall tooDeep with
        ⟨path, arrives, passes | unexpected⟩ | ⟨error, refused, invalid⟩
      · obtain ⟨next, imported, extracts⟩ := importMember_passes first totalSmall arrives passes
        have small : next.actualTotal ≤ maxProjectBytes := by
          rw [extracts.total]
          exact arrives.fits
        have named' : next.Named := by
          intro file there
          rcases extracts.files file there with old | isPath
          · exact named file old
          · rw [isPath]
            exact valid_of_memberPath first.named arrives.named
        rw [imported, defective_cons arrives passes, ← extracts.seen, ← extracts.total]
        exact ih others small named'
      · obtain ⟨error, refused, notInvalid⟩ :=
          importMember_unexpected first totalSmall arrives unexpected
        rw [refused]
        exact .inl ⟨.here arrives unexpected, error, rfl, notInvalid⟩
      · rw [refused]
        exact .inr ⟨not_defective_of_invalid first totalSmall refused invalid,
          .inl ⟨error, rfl, invalid⟩⟩

/-- The bytes that one iteration reads are those that it counts. -/
theorem total_of_importMember (readable : Readable member)
    (totalSmall : extracted.actualTotal ≤ maxProjectBytes)
    (imported : importMemberWithin tooDeep extracted member = .ok next) :
    next.actualTotal = extracted.actualTotal + bytesOfMember extracted member ∧
      next.actualTotal ≤ maxProjectBytes := by
  rcases importMember_cases readable totalSmall tooDeep with
    ⟨path, arrives, passes | unexpected⟩ | ⟨error, refused, -⟩
  · obtain ⟨next', imported', extracts⟩ := importMember_passes readable totalSmall arrives passes
    obtain rfl := Except.ok.inj (imported'.symm.trans imported)
    have bytes : bytesOfMember extracted member = (memberBytes member).length := by
      unfold bytesOfMember
      simp only [arrives.sound, arrives.named, if_neg arrives.fresh]
      exact bytesOfReads_eq readable.progress ((Nat.zero_add _).le.trans arrives.small)
        arrives.fits
    rw [bytes, extracts.total]
    exact ⟨rfl, arrives.fits⟩
  · obtain ⟨error, refused, -⟩ :=
      importMember_unexpected readable totalSmall arrives unexpected
    rw [imported] at refused
    cases refused
  · rw [imported] at refused
    cases refused

theorem bytesOfMember_le (readable : Readable member)
    (totalSmall : extracted.actualTotal ≤ maxProjectBytes) :
    extracted.actualTotal + bytesOfMember extracted member ≤ maxProjectBytes + readBytes := by
  unfold bytesOfMember
  split
  · split
    · omega
    · exact bytesOfReads_le readable.chunks totalSmall
  · omega

theorem bytesOfMembers_le (readable : ∀ member ∈ members, Readable member)
    (totalSmall : extracted.actualTotal ≤ maxProjectBytes) :
    extracted.actualTotal + bytesOfMembers tooDeep extracted members ≤
      maxProjectBytes + readBytes := by
  induction members generalizing extracted with
  | nil =>
      rw [bytesOfMembers]
      omega
  | cons member members ih =>
      obtain ⟨first, others⟩ := List.forall_mem_cons.mp readable
      have one := bytesOfMember_le first totalSmall
      rw [bytesOfMembers]
      cases imported : importMemberWithin tooDeep extracted member with
      | error error => exact one
      | ok next =>
          obtain ⟨total, small⟩ := total_of_importMember first totalSmall imported
          have rest := ih others small
          show extracted.actualTotal + (bytesOfMember extracted member +
            bytesOfMembers tooDeep next members) ≤ _
          omega

end Members

/-! ## Normalising -/

section Project

variable {sha256 : Bytes → Bytes} {tooDeep : Text → Bool} {zip : ZipFile} {payload : Bytes}

theorem error_of_foldlM {α β ε : Type} {step : β → α → Except ε β} {kind : ε → Prop}
    {items : List α} {start : β} {error : ε}
    (each : ∀ item ∈ items, ∀ state error, step state item = .error error → kind error)
    (failed : items.foldlM step start = .error error) : kind error := by
  induction items generalizing start with
  | nil => cases failed
  | cons item items ih =>
      obtain ⟨first, others⟩ := List.forall_mem_cons.mp each
      rw [List.foldlM_cons] at failed
      cases one : step start item with
      | error error' =>
          rw [one] at failed
          exact Except.error.inj failed ▸ first start error' one
      | ok next =>
          rw [one] at failed
          exact ih others failed

/-- A file with a path that is a text is normalised, or the client is told. -/
theorem normalizeFile_eq_error {gathered : Gathered} {item : Text × Text} {error : ProjectError}
    (named : ∀ c ∈ item.1, c.isValidChar)
    (refused : normalizeFile sha256 gathered item = .error error) : error.IsInvalid := by
  unfold normalizeFile at refused
  split at refused
  · rename_i error' bad
    exact Except.error.inj refused ▸ normalizeProjectPath_eq_error bad
  · rename_i path found
    obtain ⟨ok, rfl⟩ := normalizeProjectPath_eq_ok.mp found
    have encodes : (asPosix item.1).encode.isSome := by
      apply Text.encode_isSome_iff.mpr
      exact valid_asPosix ok named
    refine isInvalid_of_check refused fun refused => ?_
    split at refused
    · exact Except.error.inj refused ▸ trivial
    · refine isInvalid_of_check refused fun refused => ?_
      refine isInvalid_of_check refused fun refused => ?_
      split at refused
      · rename_i none
        rw [none] at encodes
        cases encodes
      · cases refused

theorem normalizeProject_eq_error {files : FileMap} {entrypoint : Text} {error : ProjectError}
    (named : ∀ file ∈ files.rows, ∀ c ∈ file.1, c.isValidChar)
    (refused : normalizeProject sha256 files entrypoint = .error error) : error.IsInvalid := by
  unfold normalizeProject at refused
  refine isInvalid_of_check refused fun refused => ?_
  split at refused
  · rename_i error' failed
    rw [← Except.error.inj refused]
    apply error_of_foldlM _ failed
    intro item member gathered error'' bad
    exact normalizeFile_eq_error (named item ((sortedBy_perm.mem_iff).mp member)) bad
  · unfold withEntrypoint at refused
    split at refused
    · rename_i bad
      exact Except.error.inj refused ▸ normalizeProjectPath_eq_error bad
    · refine isInvalid_of_check refused fun refused => ?_
      split at refused
      · cases refused
      · exact Except.error.inj refused ▸ trivial

/-! ## Any archive -/

/-- The members that are files. -/
def fileMembers (infolist : List ZipMember) : List ZipMember :=
  infolist.filter fun member => !member.isDir

/-- The importer does not expect what the constructor raises, or it gets to the members, and to
one that it does not expect. -/
def DefectiveContents (tooDeep : Text → Bool) : Except ZipFailure (List ZipMember) → Prop
  | .error failure => failure ∉ caughtAtOpening
  | .ok infolist =>
      (fileMembers infolist).length ≤ maxProjectFiles + 1 ∧
        Defective tooDeep [] 0 (fileMembers infolist)

/-- The importer gets to something that it does not expect. -/
def DefectiveArchive (tooDeep : Text → Bool) (zip : ZipFile) (payload : Bytes) : Prop :=
  payload ≠ [] ∧ payload.length ≤ maxZipBytes ∧ DefectiveContents tooDeep (zip.read payload)

/-- An archive within the upload limit is defective by what the library finds in it. -/
theorem defectiveArchive_iff (fine : ¬ (payload = [] ∨ maxZipBytes < payload.length)) :
    DefectiveArchive tooDeep zip payload ↔ DefectiveContents tooDeep (zip.read payload) := by
  rw [not_or, Nat.not_lt] at fine
  rw [DefectiveArchive, and_iff_right fine.1, and_iff_right fine.2]

/-- **No archive is a bomb**: the bytes that are read are those of a project, and one chunk. -/
theorem bytesRead_le (reads : ReadsArchives zip) :
    bytesRead tooDeep zip payload ≤ maxProjectBytes + readBytes := by
  unfold bytesRead
  split
  · omega
  · split
    · omega
    · rename_i infolist found
      extract_lets members
      split
      · omega
      · have readable : ∀ member ∈ fileMembers infolist, Readable member := by
          intro member there
          exact reads payload infolist found member (List.mem_filter.mp there).1
        have start : ({} : Extracted).actualTotal ≤ maxProjectBytes := Nat.zero_le _
        exact (Nat.zero_add _).ge.trans (bytesOfMembers_le readable start)

/-- The end of an import, when the members have been read. -/
def importExtracted (sha256 : Bytes → Bytes) (explicitEntrypoint : Option Text)
    (extracted : Extracted) : Except ProjectError NormalizedProject :=
  match chosenEntrypoint explicitEntrypoint extracted.manifestEntrypoint with
  | none => .error (.invalid "entrypoint must be selected for ZIP archives without a manifest")
  | some entrypoint => normalizeProject sha256 extracted.files entrypoint

theorem import_eq (sha256 : Bytes → Bytes) (tooDeep : Text → Bool) {infolist : List ZipMember}
    (fine : ¬ (payload = [] ∨ maxZipBytes < payload.length))
    (found : zip.read payload = .ok infolist)
    (few : ¬ maxProjectFiles + 1 < (fileMembers infolist).length)
    (explicitEntrypoint : Option Text) :
    importProjectZipWithin sha256 zip tooDeep payload explicitEntrypoint =
      match (fileMembers infolist).foldlM (importMemberWithin tooDeep) {} with
      | .error error => .error error
      | .ok extracted => importExtracted sha256 explicitEntrypoint extracted := by
  unfold fileMembers at few
  unfold importProjectZipWithin
  simp only [if_neg fine, found, if_neg few]
  rfl

/-- What is wanted of the outcome: a project that has been accepted, or an error of the
client. -/
def SafeOutcome (sha256 : Bytes → Bytes) (outcome : Except ProjectError NormalizedProject) :
    Prop :=
  (∃ project files entrypoint, outcome = .ok project ∧
      normalizeProject sha256 files entrypoint = .ok project) ∨
    ∃ error, outcome = .error error ∧ error.IsInvalid

theorem safe_importExtracted {extracted : Extracted} (named : extracted.Named)
    (explicitEntrypoint : Option Text) :
    SafeOutcome sha256 (importExtracted sha256 explicitEntrypoint extracted) := by
  unfold importExtracted
  cases chosenEntrypoint explicitEntrypoint extracted.manifestEntrypoint with
  | none => exact .inr ⟨_, rfl, trivial⟩
  | some entrypoint =>
      cases normalized : normalizeProject sha256 extracted.files entrypoint with
      | ok project => exact .inl ⟨project, extracted.files, entrypoint, normalized, normalized⟩
      | error error => exact .inr ⟨error, normalized, normalizeProject_eq_error named normalized⟩

/-- An import gets to a member that it does not expect, and raises what it does not catch; or its
outcome is as it should be. -/
theorem import_cases (sha256 : Bytes → Bytes) (tooDeep : Text → Bool) (payload : Bytes)
    (reads : ReadsArchives zip) (explicitEntrypoint : Option Text) :
    (DefectiveArchive tooDeep zip payload ∧
        ∃ error, importProjectZipWithin sha256 zip tooDeep payload explicitEntrypoint =
          .error error ∧ ¬ error.IsInvalid) ∨
      ¬ DefectiveArchive tooDeep zip payload ∧
        SafeOutcome sha256
          (importProjectZipWithin sha256 zip tooDeep payload explicitEntrypoint) := by
  by_cases fine : payload = [] ∨ maxZipBytes < payload.length
  · refine .inr ⟨?_, .inr ⟨_, if_pos fine, trivial⟩⟩
    rintro ⟨notEmpty, short, -⟩
    rcases fine with empty | long
    · exact notEmpty empty
    · omega
  rw [defectiveArchive_iff fine]
  cases found : zip.read payload with
  | error failure =>
      have answer : importProjectZipWithin sha256 zip tooDeep payload explicitEntrypoint =
          if failure ∈ caughtAtOpening then .error (.invalid "ZIP archive is invalid")
          else .error (.zipFailure failure) := by
        rw [importProjectZipWithin, if_neg fine, found]
      by_cases caught : failure ∈ caughtAtOpening
      · rw [if_pos caught] at answer
        exact .inr ⟨not_not_intro caught, .inr ⟨_, answer, trivial⟩⟩
      · rw [if_neg caught] at answer
        exact .inl ⟨caught, _, answer, id⟩
  | ok infolist =>
    by_cases many : maxProjectFiles + 1 < (fileMembers infolist).length
    · refine .inr ⟨?_, .inr ⟨.invalid "ZIP archive contains too many files", ?_, trivial⟩⟩
      · rintro ⟨few, -⟩
        omega
      · rw [importProjectZipWithin, if_neg fine, found]
        exact if_pos many
    · have archive : DefectiveContents tooDeep (.ok infolist) ↔
          Defective tooDeep [] 0 (fileMembers infolist) := and_iff_right (Nat.not_lt.mp many)
      have readable : ∀ member ∈ fileMembers infolist, Readable member := by
        intro member there
        exact reads payload infolist found member (List.mem_filter.mp there).1
      have start : Extracted.Named {} := fun _ absurdly => absurd absurdly List.not_mem_nil
      have run := import_eq sha256 tooDeep fine found many explicitEntrypoint
      rw [archive]
      rcases foldlM_importMember_cases readable (Nat.zero_le _) start with
        ⟨defective, error, failed, notInvalid⟩ |
          ⟨sound, ⟨error, failed, invalid⟩ | ⟨extracted, done, named⟩⟩
      · rw [failed] at run
        exact .inl ⟨defective, error, run, notInvalid⟩
      · rw [failed] at run
        exact .inr ⟨sound, .inr ⟨error, run, invalid⟩⟩
      · rw [done] at run
        rw [run]
        exact .inr ⟨sound, safe_importExtracted named explicitEntrypoint⟩

/-- What is wanted of an import: the outcome, and that never many more bytes are read than a
project may have. -/
def ImportsSafely (sha256 : Bytes → Bytes) (zip : ZipFile) (tooDeep : Text → Bool)
    (payload : Bytes) (explicitEntrypoint : Option Text) : Prop :=
  SafeOutcome sha256 (importProjectZipWithin sha256 zip tooDeep payload explicitEntrypoint) ∧
    bytesRead tooDeep zip payload ≤ maxProjectBytes + readBytes

/-- **When the import of an archive is safe**: for every payload, every entrypoint and every
library that reads archives as it says, just when the importer does not get to a member that it
does not expect. -/
theorem import_zip_safe_iff (reads : ReadsArchives zip) (explicitEntrypoint : Option Text) :
    ImportsSafely sha256 zip tooDeep payload explicitEntrypoint ↔
      ¬ DefectiveArchive tooDeep zip payload := by
  rcases import_cases sha256 tooDeep payload reads explicitEntrypoint with
    ⟨defective, error, failed, notInvalid⟩ | ⟨sound, safe⟩
  · refine iff_of_false ?_ (not_not_intro defective)
    rintro ⟨⟨project, files, entrypoint, imported, -⟩ | ⟨error', failed', invalid⟩, -⟩
    · rw [failed] at imported
      cases imported
    · obtain rfl := Except.error.inj (failed.symm.trans failed')
      exact notInvalid invalid
  · exact iff_of_true ⟨safe, bytesRead_le reads⟩ sound

end Project

/-! ## Two archives -/

theorem readsArchives_recorded {archive : Bytes} {members : List ZipMember}
    (readable : ∀ member ∈ members, Readable member) :
    ReadsArchives (recorded archive members) := by
  intro payload members' found
  have cases : (if payload = archive then Except.ok members else .error ZipFailure.badZipFile) =
      .ok members' := found
  split at cases
  · obtain rfl := Except.ok.inj cases
    exact readable
  · cases cases

/-- The archive of a project is safe. -/
theorem import_zip_safe_iff_site : ImportsSafely id siteZip (fun _ => false) siteArchive none ∧
    ¬ DefectiveArchive (fun _ => false) siteZip siteArchive := by
  have readable : ∀ member ∈ [recordedMember projectManifest (manifestBytes siteProject),
      recordedMember (text "roles/web/tasks/main.yml") [91, 93, 10],
      recordedMember (text "site.yml") [45, 45, 45, 10],
      recordedMember (text "vars/all.yml") [97, 58, 32, 49, 10]], Readable member := by
    simp only [List.forall_mem_cons]
    refine ⟨?_, ?_, ?_, ?_, fun _ absurdly => absurd absurdly List.not_mem_nil⟩ <;>
      exact ⟨by decide, by decide, by decide⟩
  have imported : importProjectZipWithin id siteZip (fun _ => false) siteArchive none =
      .ok siteProject := by decide +kernel
  have accepted : normalizeProject id siteFiles (text "site.yml") = .ok siteProject := by
    decide +kernel
  have bytes : bytesRead (fun _ => false) siteZip siteArchive ≤ maxProjectBytes + readBytes := by
    decide +kernel
  have safe : ImportsSafely id siteZip (fun _ => false) siteArchive none :=
    ⟨.inl ⟨siteProject, siteFiles, text "site.yml", imported, accepted⟩, bytes⟩
  exact ⟨safe, (import_zip_safe_iff (readsArchives_recorded readable) none).mp safe⟩

/-- An archive of one file, with a checksum that is not that of its data. -/
def corruptArchive : Bytes :=
  [80, 75, 3, 4, 20, 0, 0, 0, 8, 0, 0, 0, 33, 0, 188, 206, 118, 131, 6, 0, 0, 0, 4, 0, 0, 0, 8,
    0, 0, 0, 115, 105, 116, 101, 46, 121, 109, 108, 211, 213, 213, 229, 2, 0, 80, 75, 1, 2, 20,
    3, 20, 0, 0, 0, 8, 0, 0, 0, 33, 0, 188, 206, 118, 131, 6, 0, 0, 0, 4, 0, 0, 0, 8, 0, 0, 0,
    0, 0, 0, 0, 0, 0, 0, 0, 128, 129, 0, 0, 0, 0, 115, 105, 116, 101, 46, 121, 109, 108, 80, 75,
    5, 6, 0, 0, 0, 0, 1, 0, 1, 0, 54, 0, 0, 0, 44, 0, 0, 0, 0, 0]

/-- Its member: the first call of `read` finds the end of the data, and the wrong checksum. -/
def corruptMember : ZipMember where
  filename := text "site.yml"
  flagBits := 0
  externalAttr := exportedAttr
  fileSize := 4
  reads := []
  failure := some .badZipFile

/-- The library on an archive with a member that cannot be read. -/
def corruptZip : ZipFile := recorded corruptArchive [corruptMember]

/-- The same archive with the right checksum, of which the directory says that version 6.4 is
needed to extract it. -/
def newerArchive : Bytes :=
  [80, 75, 3, 4, 20, 0, 0, 0, 8, 0, 0, 0, 33, 0, 189, 206, 118, 131, 6, 0, 0, 0, 4, 0, 0, 0, 8,
    0, 0, 0, 115, 105, 116, 101, 46, 121, 109, 108, 211, 213, 213, 229, 2, 0, 80, 75, 1, 2, 20,
    3, 64, 0, 0, 0, 8, 0, 0, 0, 33, 0, 189, 206, 118, 131, 6, 0, 0, 0, 4, 0, 0, 0, 8, 0, 0, 0,
    0, 0, 0, 0, 0, 0, 0, 0, 128, 129, 0, 0, 0, 0, 115, 105, 116, 101, 46, 121, 109, 108, 80, 75,
    5, 6, 0, 0, 0, 0, 1, 0, 1, 0, 54, 0, 0, 0, 44, 0, 0, 0, 0, 0]

/-- The constructor does not support that version. -/
def newerZip : ZipFile where
  write _ := newerArchive
  read payload := .error (if payload = newerArchive then .notImplemented else .badZipFile)

/-- An exception that goes through is not what is wanted. -/
theorem not_importsSafely_of_zipFailure {sha256 : Bytes → Bytes} {tooDeep : Text → Bool}
    {zip : ZipFile} {payload : Bytes} {explicitEntrypoint : Option Text} {failure : ZipFailure}
    (raised : importProjectZipWithin sha256 zip tooDeep payload explicitEntrypoint =
      .error (.zipFailure failure)) :
    ¬ ImportsSafely sha256 zip tooDeep payload explicitEntrypoint := by
  rintro ⟨⟨project, files, entrypoint, imported, -⟩ | ⟨error, raised', invalid⟩, -⟩
  · rw [raised] at imported
    cases imported
  · obtain rfl := Except.error.inj (raised.symm.trans raised')
    exact invalid

/-- **Two malformed archives that are no error of the client**: what `zipfile` raises for the
checksum goes through, and so does what its constructor raises for the version. -/
theorem import_zip_safe_fails :
    (ReadsArchives corruptZip ∧
      importProjectZipWithin id corruptZip (fun _ => false) corruptArchive
          (some (text "site.yml")) = .error (.zipFailure .badZipFile) ∧
        ¬ ImportsSafely id corruptZip (fun _ => false) corruptArchive
          (some (text "site.yml"))) ∧
      ReadsArchives newerZip ∧
        importProjectZipWithin id newerZip (fun _ => false) newerArchive
            (some (text "site.yml")) = .error (.zipFailure .notImplemented) ∧
          ¬ ImportsSafely id newerZip (fun _ => false) newerArchive (some (text "site.yml")) := by
  have checksum : importProjectZipWithin id corruptZip (fun _ => false) corruptArchive
      (some (text "site.yml")) = .error (.zipFailure .badZipFile) := by decide +kernel
  have version : importProjectZipWithin id newerZip (fun _ => false) newerArchive
      (some (text "site.yml")) = .error (.zipFailure .notImplemented) := by decide +kernel
  refine ⟨⟨?_, checksum, not_importsSafely_of_zipFailure checksum⟩,
    ?_, version, not_importsSafely_of_zipFailure version⟩
  · apply readsArchives_recorded
    intro member there
    obtain rfl := List.mem_singleton.mp there
    exact ⟨by decide, List.not_mem_nil, by decide⟩
  · intro payload members found
    cases found

end OpsComposer.Services.PlaybookProject
