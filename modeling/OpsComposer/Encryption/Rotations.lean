import OpsComposer.Encryption.Contexts
import OpsComposer.Encryption.Jobs

/-!
# What a rotation leaves of the records

A batch opens each record that it has locked and seals it again, under the primary key.  What a
record holds is, in every committed state of every run, what the last statement that has written
the record has left there (`rotation_preserves`): the rotation of the keys, however many workers
take part in it and whatever the other services write meanwhile, changes no value, adds and
removes no record, and never brings back an old one.
-/

set_option autoImplicit false

namespace OpsComposer.Encryption

open Domain (Uuid)
open Foundations Services RowStore

/-! ## What a record holds -/

/-- The value in an envelope. -/
inductive Holding where
  | secret (secret : SecretDict)
  | bytes (bytes : Bytes)

section Opened

variable {Key : Type} (aead : Aead Key) (keyring : MasterKeyring Key)

/-- What is in the envelope of a record, opened with the context of the record. -/
def opened (record : EncryptedRecord) : Option Holding :=
  match record.recordId with
  | .credential credentialId revision =>
      (CredentialCipher.decrypt aead keyring credentialId revision record.encryptedPayload
        record.encryptionKeyVersion).map .secret
  | _ => (decryptRecord aead keyring record).map .bytes

/-- What the record holds, where there is one. -/
def EncryptionStore.holding? (store : EncryptionStore) (recordId : RecordId) :
    Option (Option Holding) :=
  (store.record? recordId).map (opened aead keyring)

/-- What is opened is shorter by the tag. -/
def Tagged (aead : Aead Key) : Prop :=
  ∀ (key : Key) (nonce ciphertext plaintext : Bytes) (aad : Aad),
    aead.decrypt key nonce ciphertext aad = some plaintext →
      ciphertext.length = plaintext.length + 16

variable {aead keyring}

/-- The columns beside the envelope do not matter. -/
theorem opened_congr {record other : EncryptedRecord} (recordId : other.recordId = record.recordId)
    (payload : other.encryptedPayload = record.encryptedPayload)
    (version : other.encryptionKeyVersion = record.encryptionKeyVersion) :
    opened aead keyring other = opened aead keyring record := by
  unfold opened decryptRecord
  rw [recordId, payload, version]

/-- Nothing empty is opened. -/
theorem nonempty_of_decryptWithAad (tagged : Tagged aead) {envelope plaintext : Bytes} {aad : Aad}
    {version : Nat} (opens : keyring.decryptWithAad aead envelope aad version = some plaintext) :
    plaintext ≠ [] := by
  rintro rfl
  unfold MasterKeyring.decryptWithAad at opens
  split at opens
  · cases opens
  · rename_i long
    obtain ⟨key, -, opens⟩ := Option.bind_eq_some_iff.mp opens
    have size := tagged key _ _ _ aad opens
    rw [List.length_drop, List.length_nil] at size
    omega

theorem opened_bytes {record : EncryptedRecord}
    (other : ∀ credentialId revision, record.recordId ≠ .credential credentialId revision) :
    opened aead keyring record = (decryptRecord aead keyring record).map .bytes := by
  unfold opened
  split
  · rename_i isCredential
    exact absurd isCredential (other _ _)
  · rfl

theorem version_of_reencrypt {nonce : Nonce} {target : Nat} {record rotated : EncryptedRecord}
    (made : reencrypt aead keyring nonce target record = some rotated) :
    rotated.encryptionKeyVersion = target := by
  unfold reencrypt at made
  split at made
  · obtain ⟨secret, -, made⟩ := Option.bind_eq_some_iff.mp made
    obtain ⟨envelope, -, same⟩ := Option.bind_eq_some_iff.mp made
    exact Option.some.inj same ▸ rfl
  · obtain ⟨plaintext, -, made⟩ := Option.bind_eq_some_iff.mp made
    obtain ⟨isSealed, -, same⟩ := Option.bind_eq_some_iff.mp made
    exact Option.some.inj same ▸ rfl

/-- **A record that is encrypted again** holds what it has held. -/
theorem opened_reencrypt (lawful : aead.Lawful) (tagged : Tagged aead) {nonce : Nonce}
    {target : Nat} {record rotated : EncryptedRecord} (primary : target = keyring.primaryVersion)
    (made : reencrypt aead keyring nonce target record = some rotated) :
    opened aead keyring rotated = opened aead keyring record := by
  unfold reencrypt at made
  split at made
  · rename_i credentialId revision isCredential
    obtain ⟨secret, opens, made⟩ := Option.bind_eq_some_iff.mp made
    obtain ⟨envelope, isSealed, same⟩ := Option.bind_eq_some_iff.mp made
    obtain rfl := Option.some.inj same
    have again := CredentialCipher.decrypt_encrypt lawful isSealed
    simp only [opened, isCredential, primary, opens, again]
  · rename_i recordId other
    obtain ⟨plaintext, opens, made⟩ := Option.bind_eq_some_iff.mp made
    obtain ⟨⟨envelope, version⟩, isSealed, same⟩ := Option.bind_eq_some_iff.mp made
    obtain rfl := Option.some.inj same
    have nonempty := nonempty_of_decryptWithAad tagged opens
    obtain rfl : version = target := MasterKeyring.version_of_encryptWithAad isSealed
    have again := MasterKeyring.decryptWithAad_encryptWithAad lawful nonempty isSealed
    refine Eq.trans (opened_bytes ?_) (Eq.trans ?_ (opened_bytes other).symm)
    · exact other
    · exact congrArg (Option.map Holding.bytes) (again.trans opens.symm)

end Opened

/-! ## Who writes a record -/

/-- The transaction has a statement that puts an envelope in the place of the record or removes
it. -/
inductive WritesRecord (recordId : RecordId) : EncryptionCall → List EncryptionEvent → Prop where
  | ordinary {statements : List OrdinaryStatement} {log : List EncryptionEvent}
      {statement : OrdinaryStatement} {envelope? : Option (Bytes × Nat)}
      (member : statement ∈ statements)
      (isWritten : statement.written? = some (recordId, envelope?)) :
      WritesRecord recordId (.ordinary statements) log
  | pepper {process : Nat} {nonces : Nat → Nonce} {nonce : Nonce} {pepper : Pepper}
      {log : List EncryptionEvent} {secret : Bytes} {version now seen : Nat}
      {shown : List EncryptionRow} (same : recordId = .system idempotencySecretName)
      (stores : .ran (.putSystemSecret idempotencySecretName secret version now) shown seen ∈ log) :
      WritesRecord recordId (.ensureKeyring process nonces nonce pepper) log

section Commit

variable {Key : Type} {settings : EncryptionSettings Key} {start : EncryptionStore}
  {db : EncryptionDb} {i : Nat} {log : List EncryptionEvent} {call : EncryptionCall}
  {answer : EncryptionAnswer} {writes : List (Write EncryptionKey EncryptionRow)}
  {recordId : RecordId}

variable {record : EncryptedRecord} {store : EncryptionStore}

theorem record?_eq_some :
    store.record? recordId = some record ↔
      lookup store (EncryptionKey.record recordId) = some (.record record) :=
  RowKind.at?_eq_some

theorem recordId_of_record?
    (found : store.record? recordId = some record) : record.recordId = recordId :=
  EncryptionKey.record.inj (key_of_lookup (record?_eq_some.mp found))

theorem lookup_of_record?_none (absent : store.record? recordId = none) :
    lookup store (EncryptionKey.record recordId) = none := by
  by_contra isThere
  obtain ⟨row, found⟩ := Option.ne_none_iff_exists'.mp isThere
  obtain ⟨record, rfl, -⟩ := record_of_key (key_of_lookup found)
  rw [record?_eq_some.mpr found] at absent
  cases absent

/-- What the other services leave of the envelope of a record that they do not write. -/
structure SameEnvelope (old new : EncryptedRecord) : Prop where
  recordId : new.recordId = old.recordId
  payload : new.encryptedPayload = old.encryptedPayload
  version : new.encryptionKeyVersion = old.encryptionKeyVersion

/-- The row is the record with its envelope. -/
def IsEnvelope (record : EncryptedRecord) (row? : Option EncryptionRow) : Prop :=
  ∃ new, row? = some (.record new) ∧ SameEnvelope record new

theorem isEnvelope_of_ordinary {statements : List OrdinaryStatement}
    (unwritten : ∀ statement ∈ statements, ∀ envelope?,
      statement.written? ≠ some (record.recordId, envelope?)) {after : Option EncryptionRow}
    (changes : Relation.ReflTransGen (OrdinaryChange statements) (some (.record record)) after) :
    IsEnvelope record after := by
  induction changes with
  | refl => exact ⟨record, rfl, rfl, rfl, rfl⟩
  | tail _ change ih =>
      obtain ⟨old, rfl, same⟩ := ih
      obtain ⟨statement, member, effect⟩ := change
      generalize isWritten : statement.written? = written at effect
      cases effect with
      | columns key payload version =>
          exact ⟨_, rfl, key.trans same.recordId, payload.trans same.payload,
            version.trans same.version⟩
      | replaced new key was =>
          obtain ⟨other, isOther, named⟩ := was _ rfl
          obtain rfl := EncryptionRow.record.inj isOther
          exact absurd isWritten (same.recordId.symm.trans named ▸ unwritten statement member _)
      | removed key =>
          exact absurd isWritten (same.recordId.symm.trans key ▸ unwritten statement member _)
      | business was _ =>
          obtain ⟨old, wrong⟩ := was _ rfl
          cases wrong

/-- A record that is not written does not come. -/
theorem absent_of_ordinary {statements : List OrdinaryStatement}
    (unwritten : ∀ statement ∈ statements, ∀ envelope?,
      statement.written? ≠ some (recordId, envelope?)) {after : Option EncryptionRow}
    (changes : Relation.ReflTransGen (OrdinaryChange statements) none after) :
    ∀ record, after = some (.record record) → record.recordId ≠ recordId := by
  induction changes with
  | refl => exact fun record isSome => nomatch isSome
  | tail _ change ih =>
      obtain ⟨statement, member, effect⟩ := change
      generalize isWritten : statement.written? = written at effect
      rintro record isSome rfl
      cases effect with
      | columns key _ _ =>
          obtain rfl := EncryptionRow.record.inj (Option.some.inj isSome)
          exact ih _ rfl key.symm
      | replaced new key was =>
          obtain rfl := EncryptionRow.record.inj (Option.some.inj isSome)
          exact unwritten statement member _ (key ▸ isWritten)
      | removed _ => cases isSome
      | business _ became =>
          obtain ⟨business, wrong⟩ := became _ isSome
          cases wrong

/-! ## What a batch leaves -/

section Batch

variable {store : EncryptionStore} {process : Nat} {workerId : String} {nonces : RecordId → Nonce}
  {job claim last : KeyRotationJob} {now remaining : Nat} {batch locks news : List EncryptedRecord}

/-- A batch writes the records that it has loaded. -/
theorem recordIds_of_rewrites {target : Nat}
    (rewrites : List.Forall₂ (Reencrypted settings process nonces target now) batch news) :
    news.map EncryptedRecord.recordId = batch.map EncryptedRecord.recordId := by
  induction rewrites with
  | nil => rfl
  | cons related _ ih =>
      obtain ⟨rotated, -, rfl⟩ := related
      rw [List.map_cons, List.map_cons, ih]
      rfl

theorem exists_rewritten {target : Nat}
    (rewrites : List.Forall₂ (Reencrypted settings process nonces target now) batch news)
    {record : EncryptedRecord} (member : record ∈ batch) :
    ∃ new ∈ news, Reencrypted settings process nonces target now record new := by
  induction rewrites with
  | nil => cases member
  | cons related _ ih =>
      rcases List.mem_cons.mp member with rfl | later
      · exact ⟨_, List.mem_cons_self, related⟩
      · obtain ⟨new, isNew, related⟩ := ih later
        exact ⟨new, List.mem_cons_of_mem _ isNew, related⟩

/-- **What a batch leaves of a record** that it has loaded. -/
theorem Processed.rewrites_record
    (processed : Processed settings store process workerId nonces job now remaining batch locks
      news)
    {record : EncryptedRecord} (member : record ∈ batch) :
    ∃ new, Reencrypted settings process nonces job.targetKeyVersion now record new ∧
      (applyAll store (batchWrites claim last locks news)).record? record.recordId = some new := by
  obtain ⟨new, isNew, related⟩ := exists_rewritten processed.rewrites member
  have distinct : (news.map EncryptedRecord.recordId).Nodup :=
    recordIds_of_rewrites processed.rewrites ▸ processed.locked.distinct
  have named : new.recordId = record.recordId := by
    obtain ⟨rotated, -, rfl⟩ := related
    rfl
  refine ⟨new, related, ?_⟩
  rw [batchWrites, applyAll_append, record?_frame, applyAll_append, ← named]
  · exact record?_recordWrites distinct isNew
  · intro wrong
    cases List.mem_singleton.mp wrong

/-- It leaves the other records. -/
theorem Processed.leaves_record
    (processed : Processed settings store process workerId nonces job now remaining batch locks
      news)
    (apart : ∀ record ∈ batch, record.recordId ≠ recordId) :
    (applyAll store (batchWrites claim last locks news)).record? recordId =
      store.record? recordId := by
  refine record?_frame fun isTouched => ?_
  have ids := recordIds_of_rewrites processed.rewrites
  rcases mem_touched_batchWrites.mp isTouched with
    wrong | ⟨row, member, same⟩ | ⟨row, member, same⟩ | wrong
  · cases wrong
  · exact apart row (processed.locked.perm.mem_iff.mp member) (EncryptionKey.record.inj same).symm
  · have isId := List.mem_map_of_mem (f := EncryptedRecord.recordId) member
    rw [ids] at isId
    obtain ⟨old, isOld, named⟩ := List.mem_map.mp isId
    exact apart old isOld (named.trans (EncryptionKey.record.inj same).symm)
  · cases wrong

/-- **What a batch leaves of what the records hold**: all of it. -/
theorem Processed.holding (lawful : settings.aead.Lawful) (tagged : Tagged settings.aead)
    (processed : Processed settings store process workerId nonces job now remaining batch locks
      news) :
    (applyAll store (batchWrites claim last locks news)).holding? settings.aead
        (settings.keyring process) recordId =
      store.holding? settings.aead (settings.keyring process) recordId := by
  by_cases member : ∃ record ∈ batch, record.recordId = recordId
  · obtain ⟨record, member, rfl⟩ := member
    obtain ⟨new, ⟨rotated, made, rfl⟩, isNew⟩ := processed.rewrites_record member
    have same : opened settings.aead (settings.keyring process)
        (rewritten rotated.encryptedPayload job.targetKeyVersion now record) =
          opened settings.aead (settings.keyring process) rotated :=
      opened_congr (recordId_of_reencrypt made).symm rfl (version_of_reencrypt made).symm
    have again := opened_reencrypt lawful tagged processed.target made
    rw [EncryptionStore.holding?, isNew, EncryptionStore.holding?,
      processed.locked.isThere record member]
    exact congrArg some (same.trans again)
  · refine congrArg (Option.map _) (processed.leaves_record fun record isLoaded same => ?_)
    exact member ⟨record, isLoaded, same⟩

end Batch

/-- **What one commit leaves of a record** that it does not write. -/
theorem holding_of_commits {keyring : MasterKeyring Key} (lawful : settings.aead.Lawful)
    (tagged : Tagged settings.aead) (shared : ∀ process, settings.keyring process = keyring)
    (commits : Commits settings start db i log call answer writes)
    (unwritten : ¬ WritesRecord recordId call log) :
    (applyAll (db.stateAt start i) writes).holding? settings.aead keyring recordId =
      (db.stateAt start i).holding? settings.aead keyring recordId := by
  have frame : ∀ {writes : List (Write EncryptionKey EncryptionRow)},
      EncryptionKey.record recordId ∉ touched EncryptionStore writes →
        (applyAll (db.stateAt start i) writes).holding? settings.aead keyring recordId =
          (db.stateAt start i).holding? settings.aead keyring recordId := by
    intro writes free
    exact congrArg (Option.map _) (record?_frame free)
  cases commits with
  | started distinct free known peppers =>
      refine frame fun isTouched => ?_
      rcases touched_of_started peppers isTouched with ⟨_, wrong⟩ | ⟨row, same, made⟩
      · cases wrong
      · obtain ⟨secret, version, now, shown, seen, ran⟩ := made.stores
        exact unwritten (.pepper ((EncryptionKey.record.inj same).trans made.key) ran)
  | pepper | idle | unrecorded => exact frame List.not_mem_nil
  | requested key waits target first free | recorded isThere =>
      refine frame fun isTouched => ?_
      cases List.mem_singleton.mp isTouched
  | @processed process _ _ _ _ _ _ _ _ _ _ _ processed _ _ =>
      exact shared process ▸ processed.holding lawful tagged
  | @written statements writes changes =>
      have notWritten : ∀ statement ∈ statements, ∀ envelope?,
          statement.written? ≠ some (recordId, envelope?) :=
        fun statement member envelope? isWritten => unwritten (.ordinary member isWritten)
      have chain := changes (.record recordId)
      cases isBefore : (db.stateAt start i : EncryptionStore).record? recordId with
      | some record =>
          obtain rfl := recordId_of_record? isBefore
          rw [record?_eq_some.mp isBefore] at chain
          obtain ⟨new, isNew, same⟩ := isEnvelope_of_ordinary notWritten chain
          rw [EncryptionStore.holding?, record?_eq_some.mpr isNew, EncryptionStore.holding?,
            isBefore]
          exact congrArg some (opened_congr same.recordId same.payload same.version)
      | none =>
          have isGone := lookup_of_record?_none isBefore
          rw [isGone] at chain
          have isAfter : (applyAll (db.stateAt start i) writes).record? recordId = none := by
            by_contra isThere
            obtain ⟨record, found⟩ := Option.ne_none_iff_exists'.mp isThere
            exact absent_of_ordinary notWritten chain record (record?_eq_some.mp found)
              (recordId_of_record? found)
          rw [EncryptionStore.holding?, isAfter, EncryptionStore.holding?, isBefore]

/-- **The other tables**: only the other services write them. -/
theorem business_of_commits (commits : Commits settings start db i log call answer writes)
    (other : ∀ statements, call ≠ .ordinary statements) {table : String} {businessId : Uuid} :
    (applyAll (db.stateAt start i) writes).business? table businessId =
      (db.stateAt start i : EncryptionStore).business? table businessId := by
  have frame : ∀ {writes : List (Write EncryptionKey EncryptionRow)},
      EncryptionKey.business table businessId ∉ touched EncryptionStore writes →
        (applyAll (db.stateAt start i) writes).business? table businessId =
          (db.stateAt start i : EncryptionStore).business? table businessId :=
    fun free => RowKind.at?_frame free
  cases commits with
  | started distinct free known peppers =>
      refine frame fun isTouched => ?_
      rcases touched_of_started peppers isTouched with ⟨_, wrong⟩ | ⟨_, wrong, -⟩ <;> cases wrong
  | pepper | idle | unrecorded => exact frame List.not_mem_nil
  | requested key waits target first free | recorded isThere =>
      refine frame fun isTouched => ?_
      cases List.mem_singleton.mp isTouched
  | processed processed key =>
      refine frame fun isTouched => ?_
      rcases mem_touched_batchWrites.mp isTouched with
        wrong | ⟨row, -, wrong⟩ | ⟨row, -, wrong⟩ | wrong <;> cases wrong
  | written changes => exact absurd rfl (other _)

end Commit

/-! ## Whole runs -/

variable {Key : Type} {settings : EncryptionSettings Key} {initial : EncryptionStore → Prop}
  {world later : EncryptionWorld}

/-- The transactions that commit on the way from one state of a run to a later one. -/
def CommitsBetween (world later : EncryptionWorld) (txn : EncryptionTxn) : Prop :=
  ∃ i id, world.db.history.length ≤ i ∧ later.db.history[i]? = some id ∧
    later.db.txns[id]? = some txn

theorem tells_anything : (encryptionService settings).Tells fun _ _ => True :=
  fun _ _ _ _ _ _ => trivial

/-- **Two states of one run** have one account, in which the first has its place. -/
theorem accounts_of_leads (reached : (encryptionSystem settings initial).Reachable world)
    (run : (encryptionSystem settings initial).Leads world later) :
    ∃ start, initial start ∧ EncryptionAccount settings (fun _ _ _ => True) start later.db ∧
      world.db.history.length ≤ later.db.history.length ∧
        world.db.state = later.db.stateAt start world.db.history.length := by
  have commits : ∀ (world : EncryptionWorld) (id : Nat) (txn : EncryptionTxn),
      True → world.db.txns[id]? = some txn → True := fun _ _ _ _ _ => trivial
  have accounted : ∃ start, initial start ∧
      EncryptionAccount settings (fun _ _ _ => True) start world.db :=
    Service.Account.of_reachable tellable tells_anything ends_program commits reached.allowed
  obtain ⟨start, isInitial, account⟩ := accounted
  have past := account.past run.allowed
  exact ⟨start, isInitial,
    account.leads tellable tells_anything ends_program commits run.allowed, past.1, past.2⟩

/-- **The rotation of the keys changes no value.** When all processes share one keyring, a record
holds at every later state of a run what it has held, and is there or not as it was, unless a
transaction that has committed in between has put an envelope in its place or removed it; and the
tables without envelopes are as they were unless another service has committed. -/
theorem rotation_preserves {keyring : MasterKeyring Key} (lawful : settings.aead.Lawful)
    (tagged : Tagged settings.aead) (shared : ∀ process, settings.keyring process = keyring)
    (reached : (encryptionSystem settings initial).Reachable world)
    (run : (encryptionSystem settings initial).Leads world later) :
    (∀ recordId, (∀ txn, CommitsBetween world later txn →
        ¬ WritesRecord recordId txn.call txn.log) →
      later.db.state.holding? settings.aead keyring recordId =
        world.db.state.holding? settings.aead keyring recordId) ∧
    ((∀ txn, CommitsBetween world later txn → ∀ statements, txn.call ≠ .ordinary statements) →
      ∀ table recordId, later.db.state.business? table recordId =
        world.db.state.business? table recordId) := by
  obtain ⟨start, -, account, bound, past⟩ := accounts_of_leads reached run
  rw [past, account.chronicle.present]
  constructor
  · intro recordId unwritten
    refine account.induct (P := fun store : EncryptionStore =>
      store.holding? settings.aead keyring recordId =
        (later.db.stateAt start world.db.history.length).holding? settings.aead keyring recordId)
      bound le_rfl rfl fun i id txn answer above _ committed same => ?_
    refine (holding_of_commits lawful tagged shared (commits_of_committed committed) ?_).trans same
    exact unwritten txn ⟨i, id, above, committed.next, committed.found⟩
  · intro other table recordId
    refine account.induct (P := fun store : EncryptionStore => store.business? table recordId =
        (later.db.stateAt start world.db.history.length : EncryptionStore).business? table recordId)
      bound le_rfl rfl fun i id txn answer above _ committed same => ?_
    refine (business_of_commits (commits_of_committed committed) ?_).trans same
    exact other txn ⟨i, id, above, committed.next, committed.found⟩

/-! ## One record -/

/-- An authenticated encryption whose tag is fifteen zeros and the key. -/
def zeroTagged : Aead UInt8 where
  encrypt key _ plaintext _ := plaintext ++ (List.replicate 15 0 ++ [key])
  decrypt key _ ciphertext _ :=
    if ciphertext.drop (ciphertext.length - 16) = List.replicate 15 0 ++ [key] then
      some (ciphertext.take (ciphertext.length - 16))
    else none

theorem zeroTagged_lawful : zeroTagged.Lawful where
  decrypt_encrypt key nonce plaintext aad := by
    simp [zeroTagged]
  length_encrypt key nonce plaintext aad := by
    simp [zeroTagged]

theorem zeroTagged_tagged : Tagged zeroTagged := by
  intro key nonce ciphertext plaintext aad opens
  obtain ⟨tag, same⟩ := Option.ite_none_right_eq_some.mp opens
  have size := congrArg List.length tag
  rw [← Option.some.inj same, List.length_take]
  simp only [List.length_drop, List.length_append, List.length_replicate, List.length_singleton]
    at size
  omega

/-- All processes have both keys. -/
def bothKeys : EncryptionSettings UInt8 where
  aead := zeroTagged
  b64decode _ := none
  keyring _ := twoKeys
  batchSize := 100

/-- The factor of a user, under the old key. -/
def oldFactor : EncryptedRecord where
  recordId := .mfa 3
  encryptedPayload := zeroNonce.bytes ++ zeroTagged.encrypt 7 zeroNonce.bytes [5] (.record "totp" 3)
  encryptionKeyVersion := 1
  columns := .mfa none none 0 0

/-- The service on a database with this record. -/
abbrev oneRecord : System EncryptionWorld (DbAct EncryptionCall) :=
  encryptionSystem bothKeys fun store => store = Table.empty.put (.record oldFactor)

/-- One record, and no process has started. -/
def oneRecordWorld : EncryptionWorld :=
  { clock := 0, db := { state := Table.empty.put (.record oldFactor) } }

/-- A worker processes a batch. -/
def rotated : List (DbAct EncryptionCall) :=
  [.onDb (.begin (.processRotationBatch 1 "worker" true [] [] fun _ => zeroNonce)),
    .onDb (.clock 1 0), .onDb (.perform 1), .onDb (.perform 1), .onDb (.perform 1),
    .onDb (.perform 1), .onDb (.perform 1), .onDb (.perform 1), .onDb (.commit 1)]

/-- The transaction that has committed last is a batch. -/
def isBatch (txn : EncryptionTxn) : Bool :=
  match txn.call with
  | .processRotationBatch _ _ _ _ _ _ => true
  | _ => false

theorem not_writesRecord_of_isBatch {txn : EncryptionTxn} (batch : isBatch txn = true)
    (recordId : RecordId) : ¬ WritesRecord recordId txn.call txn.log := by
  intro writes
  unfold isBatch at batch
  split at batch
  · rename_i call
    rw [call] at writes
    cases writes
  · cases batch

/-- The record comes under the new key, and holds what it has held. -/
theorem rotation_preserves_factor : ∃ world later,
    oneRecord.exec oneRecordWorld rotationRequested = some world ∧
      oneRecord.exec world rotated = some later ∧
        (world.db.state.record? (.mfa 3)).map EncryptedRecord.encryptionKeyVersion = some 1 ∧
          (later.db.state.record? (.mfa 3)).map EncryptedRecord.encryptionKeyVersion = some 2 ∧
            later.db.state.holding? zeroTagged twoKeys (.mfa 3) =
              world.db.state.holding? zeroTagged twoKeys (.mfa 3) := by
  have ran : (oneRecord.exec oneRecordWorld rotationRequested).any (fun world =>
      (oneRecord.exec world rotated).any fun later => decide
        ((world.db.state.record? (.mfa 3)).map EncryptedRecord.encryptionKeyVersion = some 1 ∧
          (later.db.state.record? (.mfa 3)).map EncryptedRecord.encryptionKeyVersion = some 2 ∧
          world.db.history = [0] ∧ later.db.history = [0, 1] ∧
            later.db.txns[1]?.all isBatch = true)) = true := by
    decide +kernel
  obtain ⟨world, done, rest⟩ := (Option.any_eq_true _ _).mp ran
  obtain ⟨later, done', states⟩ := (Option.any_eq_true _ _).mp rest
  obtain ⟨old, new, before, after, batch⟩ := of_decide_eq_true states
  have preserves := rotation_preserves zeroTagged_lawful zeroTagged_tagged (fun _ => rfl)
    (⟨oneRecordWorld, ⟨0, _, rfl, rfl⟩, System.leads_of_exec done⟩ : oneRecord.Reachable world)
    (System.leads_of_exec done')
  refine ⟨world, later, done, done', old, new, preserves.1 (.mfa 3) ?_⟩
  rintro txn ⟨i, id, above, next, found⟩
  rw [before] at above
  rw [after] at next
  have bound := (List.getElem?_eq_some_iff.mp next).1
  obtain rfl : i = 1 := le_antisymm (Nat.le_of_lt_succ bound) above
  obtain rfl : 1 = id := Option.some.inj next
  rw [found] at batch
  exact not_writesRecord_of_isBatch batch _

end OpsComposer.Encryption
