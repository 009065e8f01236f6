import OpsComposer.Foundations.Casefold
import OpsComposer.Foundations.Json
import OpsComposer.Foundations.Table
import OpsComposer.Foundations.ZipFile

/-!
# Playbook projects

`services/playbook_project.py`: the files of a project, given as a map from
paths to contents, are checked, brought into one form and hashed in the order of
their paths; a project is exported as a ZIP archive with a manifest and imported
from one.

`sha256` is the hash of `hashlib`; its argument is what has been fed to the
object and its value the ASCII text of `hexdigest()`.
-/

set_option autoImplicit false

namespace OpsComposer.Services

open Foundations

namespace PlaybookProject

/-! ## Limits and names -/

/-- `MAX_PROJECT_FILES`. -/
def maxProjectFiles : Nat := 256

/-- `MAX_PROJECT_BYTES`. -/
def maxProjectBytes : Nat := 10 * 1024 * 1024

/-- `MAX_PROJECT_FILE_BYTES`. -/
def maxProjectFileBytes : Nat := 1024 * 1024

/-- `MAX_PROJECT_PATH_LENGTH`. -/
def maxProjectPathLength : Nat := 512

/-- `MAX_PROJECT_DEPTH`. -/
def maxProjectDepth : Nat := 16

/-- `PROJECT_MANIFEST`. -/
def projectManifest : Text := text ".ops-composer-project.json"

/-- `YAML_SUFFIXES`. -/
def yamlSuffixes : List Text := [text ".yml", text ".yaml"]

/-- `FORBIDDEN_COMPONENTS`. -/
def forbiddenComponents : List Text :=
  [".git", ".ssh", "collections", "library", "module_utils", "action_plugins", "become_plugins",
    "cache_plugins", "callback_plugins", "cliconf_plugins", "connection_plugins",
    "filter_plugins", "httpapi_plugins", "inventory_plugins", "lookup_plugins",
    "netconf_plugins", "shell_plugins", "strategy_plugins", "terminal_plugins", "test_plugins",
    "vars_plugins"].map text

/-- `PlaybookProjectInvalidError`, and what nothing catches: the
`UnicodeEncodeError`, the `ValueError` of a JSON integer, the `RecursionError` of a JSON text and
what `zipfile` raises. -/
inductive ProjectError where
  | invalid (message : String) (details : List (String × Nat) := [])
  | unicodeEncode
  | tooManyDigits
  | tooDeep
  | zipFailure (failure : ZipFailure)
  deriving DecidableEq, Repr

/-! ## Paths -/

/-- The separator of paths. -/
def slash : Nat := 47

/-- The character before a suffix. -/
def dot : Nat := 46

/-- `PurePosixPath(raw).parts` of a relative path. -/
def parts (raw : Text) : List Text :=
  (raw.split slash).filter fun part => part ≠ [] ∧ part ≠ text "."

/-- `PurePosixPath(raw).as_posix()` of a relative path. -/
def asPosix (raw : Text) : Text := if parts raw = [] then text "." else Text.join slash (parts raw)

/-- `PurePosixPath(raw).is_absolute()`. -/
def isAbsolute (raw : Text) : Bool := raw.head? == some slash

/-- The suffix of a file name: what follows its last dot, unless that is the
first or the last character. -/
def suffixOf (name : Text) : Text :=
  let tail := (name.reverse.takeWhile (· ≠ dot)).reverse
  if dot ∈ name ∧ tail ≠ [] ∧ tail.length + 1 < name.length then dot :: tail else []

/-- `PurePosixPath(path).suffix`. -/
def suffix (path : Text) : Text := suffixOf ((parts path).getLast?.getD [])

/-- `CONTROL_CHARACTERS.search(path)`. -/
abbrev HasControl (path : Text) : Prop := ∃ c ∈ path, c ≤ 0x1f ∨ c = 0x7f

/-- A component that must not occur. -/
abbrev ForbiddenPart (part : Text) : Prop :=
  part = text "ansible.cfg" ∨ part ∈ forbiddenComponents ∨ text "_plugins" <:+ part

/-- The paths that are reserved or that would change how the playbook runs. -/
abbrev ForbiddenPath (raw : Text) : Prop :=
  Text.casefold raw = Text.casefold projectManifest ∨
    (∃ part ∈ (parts raw).map Text.casefold, ForbiddenPart part) ∨
      ((parts raw).map Text.casefold).getLast? = some (text "inventory") ∨
        ((parts raw).map Text.casefold).getLast? = some (text "hosts")

/-- `normalize_project_path`. -/
def normalizeProjectPath (raw : Text) : Except ProjectError Text :=
  if raw = [] ∨ maxProjectPathLength < raw.length ∨ 92 ∈ raw ∨ HasControl raw then
    .error (.invalid "project contains an invalid path")
  else if isAbsolute raw ∨ parts raw = [] ∨ maxProjectDepth < (parts raw).length then
    .error (.invalid "project contains an invalid path")
  else if ∃ part ∈ parts raw,
      part = [] ∨ part = text "." ∨ part = text ".." ∨ part.strip ≠ part then
    .error (.invalid "project path traversal is not allowed")
  else if ForbiddenPath raw then .error (.invalid "project contains a forbidden path")
  else .ok (asPosix raw)

/-! ## Files -/

/-- A file of a project, with the digest of its text. -/
structure PlaybookRevisionFile where
  path : Text
  content : Text
  sha256 : Bytes
  sizeBytes : Nat
  deriving DecidableEq, Repr

/-- A project whose paths are normal, with the digest of its files. -/
structure NormalizedProject where
  files : List PlaybookRevisionFile
  entrypoint : Text
  sha256 : Bytes
  sizeBytes : Nat
  deriving DecidableEq, Repr

/-- A `dict[str, str]` from paths to contents, in insertion order. -/
abbrev FileMap := Table (Prod.fst : Text × Text → Text)

/-- `content.replace("\r\n", "\n").replace("\r", "\n")`. -/
def normalizeContent (content : Text) : Text :=
  Text.replaceChar 13 10 (Text.replacePair 13 10 [10] content)

example : normalizeContent [97, 13, 10, 98, 13, 99] = [97, 10, 98, 10, 99] := by decide

/-- What the loop of `normalize_project` has gathered. -/
structure Gathered where
  normalized : List PlaybookRevisionFile := []
  seen : List Text := []
  total : Nat := 0
  /-- What has been fed to the digest. -/
  digest : Bytes := []
  deriving DecidableEq, Repr

section Normalize

variable (sha256 : Bytes → Bytes)

/-- One iteration of the loop. -/
def normalizeFile (gathered : Gathered) (item : Text × Text) : Except ProjectError Gathered :=
  match normalizeProjectPath item.1 with
  | .error error => .error error
  | .ok path =>
      if path.casefold ∈ gathered.seen then
        .error (.invalid "project contains duplicate case-folded paths")
      else
        match (normalizeContent item.2).encode with
        | none => .error (.invalid "project files must contain UTF-8 text")
        | some encoded =>
            if encoded = [] ∨ 0 ∈ encoded ∨ maxProjectFileBytes < encoded.length then
              .error (.invalid "project contains an empty, binary, or oversized file")
            else if maxProjectBytes < gathered.total + encoded.length then
              .error (.invalid "project exceeds the 10 MiB limit" [("maxBytes", maxProjectBytes)])
            else
              match path.encode with
              | none => .error .unicodeEncode
              | some encodedPath => .ok
                  { normalized := gathered.normalized ++
                      [{ path := path
                         content := normalizeContent item.2
                         sha256 := sha256 encoded
                         sizeBytes := encoded.length }]
                    seen := path.casefold :: gathered.seen
                    total := gathered.total + encoded.length
                    digest := gathered.digest ++ encodedPath ++ [0] ++ sha256 encoded ++ [0] }

/-- The loop, over the items in the order of their raw paths. -/
def normalizeFiles (files : FileMap) : Except ProjectError Gathered :=
  (sortedBy (fun item => item.1.casefold) files.rows).foldlM (normalizeFile sha256) {}

/-- What the paths that an entrypoint identifies make of the gathered files. -/
def withEntrypoint (gathered : Gathered) (entrypoint : Text) :
    Except ProjectError NormalizedProject :=
  match normalizeProjectPath entrypoint with
  | .error error => .error error
  | .ok normalizedEntrypoint =>
      if (suffix normalizedEntrypoint).casefold ∉ yamlSuffixes then
        .error (.invalid "entrypoint must be a YAML file")
      else
        match (gathered.normalized.map PlaybookRevisionFile.path).filter fun path =>
          path.casefold = normalizedEntrypoint.casefold with
        | [path] => .ok
            { files := gathered.normalized
              entrypoint := path
              sha256 := sha256 gathered.digest
              sizeBytes := gathered.total }
        | _ => .error (.invalid "entrypoint does not identify exactly one project file")

/-- `normalize_project`. -/
def normalizeProject (files : FileMap) (entrypoint : Text) :
    Except ProjectError NormalizedProject :=
  if files.rows = [] ∨ maxProjectFiles < files.rows.length then
    .error (.invalid "project must contain between 1 and 256 files" [("maxFiles", maxProjectFiles)])
  else
    match normalizeFiles sha256 files with
    | .error error => .error error
    | .ok gathered => withEntrypoint sha256 gathered entrypoint

end Normalize

/-! ## Archives -/

/-- `MAX_ZIP_BYTES`. -/
def maxZipBytes : Nat := 12 * 1024 * 1024

/-- `stat.S_IFREG` and `stat.S_IFLNK`. -/
def regularFile : Nat := 0o100000

/-- The mode of a symbolic link, `S_IFLNK`. -/
def symbolicLink : Nat := 0o120000

/-- What the loop of `import_project_zip` has extracted. -/
structure Extracted where
  files : FileMap := .empty
  manifestEntrypoint : Option Text := none
  actualTotal : Nat := 0
  seen : List Text := []

/-- What is wrong with a member before it is read. -/
def memberFault (member : ZipMember) : Option String :=
  let fileType := (member.externalAttr >>> 16) &&& 0o170000
  let permissions := (member.externalAttr >>> 16) &&& 0o777
  if member.flagBits &&& 1 ≠ 0 then some "encrypted ZIP entries are not supported"
  else if fileType = symbolicLink then some "ZIP symbolic links are not supported"
  else if permissions &&& 0o111 ≠ 0 then some "ZIP executable files are not supported"
  else if fileType ≠ 0 ∧ fileType ≠ regularFile then some "ZIP special files are not supported"
  else if maxProjectFileBytes < member.fileSize then
    some "ZIP archive contains an oversized file"
  else none

/-- The path of a member. -/
def memberPath (member : ZipMember) : Except ProjectError Text :=
  if member.filename = projectManifest then .ok member.filename
  else normalizeProjectPath member.filename

/-- The `while` loop that reads one member: the total and the bytes at its end. -/
def readMember (failure : Option ZipFailure) : List Bytes → Nat → Nat → Bytes →
    Except ProjectError (Nat × Bytes)
  | [], actualTotal, _, content =>
      match failure with
      | none => .ok (actualTotal, content)
      | some failure => .error (.zipFailure failure)
  | chunk :: reads, actualTotal, memberSize, content =>
      if chunk = [] then .ok (actualTotal, content)
      else if maxProjectFileBytes < memberSize + chunk.length ∨
          maxProjectBytes < actualTotal + chunk.length then
        .error (.invalid "ZIP archive exceeds extraction limits")
      else
        readMember failure reads (actualTotal + chunk.length) (memberSize + chunk.length)
          (content ++ chunk)

/-- The entrypoint of a manifest. -/
def manifestEntrypointWithin (tooDeep : Text → Bool) (content : Text) :
    Except ProjectError Text :=
  if tooDeep content then .error .tooDeep
  else
    match Json.loads content with
    | .error .decodeError => .error (.invalid "project manifest is invalid")
    | .error .tooManyDigits => .error .tooManyDigits
    | .ok (.obj members) =>
        match members.lookup (text "entrypoint") with
        | some (.str entrypoint) => .ok entrypoint
        | _ => .error (.invalid "project manifest is invalid")
    | .ok _ => .error (.invalid "project manifest is invalid")

/-- One iteration of the loop over the members. -/
def importMemberWithin (tooDeep : Text → Bool) (extracted : Extracted) (member : ZipMember) :
    Except ProjectError Extracted :=
  match memberFault member with
  | some fault => .error (.invalid fault)
  | none =>
      match memberPath member with
      | .error error => .error error
      | .ok path =>
          if path.casefold ∈ extracted.seen then
            .error (.invalid "ZIP archive contains duplicate paths")
          else
            match readMember member.failure member.reads extracted.actualTotal 0 [] with
            | .error error => .error error
            | .ok (actualTotal, bytes) =>
                match Text.decode bytes with
                | none => .error (.invalid "ZIP project files must contain UTF-8 text")
                | some content =>
                    if path = projectManifest then
                      match manifestEntrypointWithin tooDeep content with
                      | .error error => .error error
                      | .ok entrypoint => .ok
                          { extracted with
                            manifestEntrypoint := some entrypoint
                            actualTotal := actualTotal
                            seen := path.casefold :: extracted.seen }
                    else .ok
                      { extracted with
                        files := extracted.files.put (path, content)
                        actualTotal := actualTotal
                        seen := path.casefold :: extracted.seen }

/-- The same on texts that are not too deep. -/
def manifestEntrypoint (content : Text) : Except ProjectError Text :=
  manifestEntrypointWithin (fun _ => false) content

/-- The same on a manifest that is not too deep. -/
def importMember (extracted : Extracted) (member : ZipMember) : Except ProjectError Extracted :=
  importMemberWithin (fun _ => false) extracted member

/-- `explicit_entrypoint or manifest_entrypoint`. -/
def chosenEntrypoint (explicit manifest : Option Text) : Option Text :=
  match explicit with
  | some [] => manifest
  | some entrypoint => some entrypoint
  | none => manifest

/-- The manifest of a project, as `json.dumps` writes it. -/
def manifest (project : NormalizedProject) : Text :=
  Json.dumps (.obj [(text "formatVersion", .int 1), (text "entrypoint", .str project.entrypoint)])

/-- `(stat.S_IFREG | 0o600) << 16`. -/
def exportedAttr : Nat := (regularFile ||| 0o600) <<< 16

/-- What `writestr` is given for one path. -/
def exportEntry (entry : Text × Text) : Option ZipEntry :=
  entry.2.encode.map fun data => { filename := entry.1, externalAttr := exportedAttr, data := data }

/-- The entries of the archive of a project. -/
def exportEntries (project : NormalizedProject) : Option (List ZipEntry) :=
  ((projectManifest, manifest project) ::
    project.files.map fun file => (file.path, file.content)).mapM exportEntry

/-- `except (OSError, zipfile.BadZipFile)` around the constructor. -/
def caughtAtOpening : List ZipFailure := [.osError, .badZipFile]

section Archive

variable (sha256 : Bytes → Bytes) (zip : ZipFile)

/-- `import_project_zip`, where `tooDeep` says for which texts `json.loads` runs into the
recursion limit of the interpreter. -/
def importProjectZipWithin (tooDeep : Text → Bool) (payload : Bytes)
    (explicitEntrypoint : Option Text) : Except ProjectError NormalizedProject :=
  if payload = [] ∨ maxZipBytes < payload.length then
    .error (.invalid "ZIP archive is empty or exceeds the upload limit")
  else
    match zip.read payload with
    | .error failure =>
        if failure ∈ caughtAtOpening then .error (.invalid "ZIP archive is invalid")
        else .error (.zipFailure failure)
    | .ok infolist =>
        let members := infolist.filter fun member => !member.isDir
        if maxProjectFiles + 1 < members.length then
          .error (.invalid "ZIP archive contains too many files")
        else
          match members.foldlM (importMemberWithin tooDeep) {} with
          | .error error => .error error
          | .ok extracted =>
              match chosenEntrypoint explicitEntrypoint extracted.manifestEntrypoint with
              | none => .error
                  (.invalid "entrypoint must be selected for ZIP archives without a manifest")
              | some entrypoint => normalizeProject sha256 extracted.files entrypoint

/-- `import_project_zip` on a manifest that is not too deep. -/
def importProjectZip (payload : Bytes) (explicitEntrypoint : Option Text) :
    Except ProjectError NormalizedProject :=
  importProjectZipWithin sha256 zip (fun _ => false) payload explicitEntrypoint

/-- `export_project_zip`. -/
def exportProjectZip (project : NormalizedProject) : Except ProjectError Bytes :=
  match exportEntries project with
  | none => .error .unicodeEncode
  | some entries => .ok (zip.write entries)

end Archive

end PlaybookProject

end OpsComposer.Services
