import OpsComposer.Foundations.Text

/-!
# ZIP archives

What a program sees of `zipfile`: the entries it writes, the members it finds in
the bytes of an archive, and what it reads from a member.  `ZipFile` stands for
the library; `ZipFile.Faithful` is what its documentation says about an archive
that it has written itself.
-/

set_option autoImplicit false

namespace OpsComposer.Foundations

/-- A `ZipInfo` and the data that `writestr` stores with it. -/
structure ZipEntry where
  filename : Text
  externalAttr : Nat
  data : Bytes
  deriving DecidableEq, Repr

/-- What opening an archive, and opening or reading a member of it, may raise. -/
inductive ZipFailure where
  | badZipFile
  | osError
  | zlibError
  | eof
  | notImplemented
  | unicodeDecode
  | runtimeError
  /-- Any other exception. -/
  | other
  deriving DecidableEq, Repr

/-- A `ZipInfo` of an archive, with what reading it does. -/
structure ZipMember where
  filename : Text
  flagBits : Nat
  externalAttr : Nat
  fileSize : Nat
  /-- What one call of `read` after the other returns. -/
  reads : List Bytes
  /-- What the call after these raises, if it does not report the end. -/
  failure : Option ZipFailure
  deriving DecidableEq, Repr

/-- `member.is_dir()`. -/
def ZipMember.isDir (member : ZipMember) : Bool := member.filename.getLast? == some 47

/-- The library: the bytes of an archive with given entries, and `infolist()` of
the archive with given bytes, or what the constructor raises for them. -/
structure ZipFile where
  write : List ZipEntry → Bytes
  read : Bytes → Except ZipFailure (List ZipMember)

/-- A member that has been written as a given entry. -/
structure ZipMember.Stores (member : ZipMember) (entry : ZipEntry) : Prop where
  filename : member.filename = entry.filename
  plain : member.flagBits &&& 1 = 0
  externalAttr : member.externalAttr = entry.externalAttr
  fileSize : member.fileSize = entry.data.length
  reads : member.reads.flatten = entry.data
  progress : [] ∉ member.reads
  failure : member.failure = none

/-- What `deflate` makes of that many bytes, at most. -/
def deflateBound (size : Nat) : Nat := size + size / 4096 + size / 16384 + size / 33554432 + 7

/-- The size of an entry in an archive, at most: its two headers, each with the
name, and its compressed data. -/
def ZipEntry.sizeBound (entry : ZipEntry) : Nat :=
  76 + 2 * (entry.filename.encode.getD []).length + deflateBound entry.data.length

/-- An archive holds what was written into it, and it is not much larger than that. -/
structure ZipFile.Faithful (zip : ZipFile) (entries : List ZipEntry) : Prop where
  readsBack : ∃ members, zip.read (zip.write entries) = .ok members ∧
    List.Forall₂ ZipMember.Stores members entries
  notEmpty : zip.write entries ≠ []
  bounded : (zip.write entries).length ≤ 22 + (entries.map ZipEntry.sizeBound).sum

end OpsComposer.Foundations
