import OpsComposer.Encryption.Batches
import OpsComposer.Foundations.CommitHistory

/-!
# What the operations on keys commit

One shape for each operation (`Commits`), told by the committed state just before: a start
registers the key versions that it has not found and stores the pepper if it has found none,
a request adds a job, a batch rewrites the records that it has locked, a failure ends its job,
and the other services replace and remove records.
-/

set_option autoImplicit false

namespace OpsComposer.Encryption

open Domain (Uuid)
open Foundations Services RowStore

/-! ## The other services -/

/-- The record whose envelope a statement replaces, with the new envelope, or removes. -/
def OrdinaryStatement.written? : OrdinaryStatement → Option (RecordId × Option (Bytes × Nat))
  | .addCredentialEnvelope credentialId revision encryptedSecret encryptionKeyVersion _ =>
      some (.credential credentialId revision, some (encryptedSecret, encryptionKeyVersion))
  | .putMfaFactor userId encryptedTotpSecret encryptionKeyVersion _ _ =>
      some (.mfa userId, some (encryptedTotpSecret, encryptionKeyVersion))
  | .deleteMfaFactor userId => some (.mfa userId, none)
  | .addSecretInputs runId encryptedPayload encryptionKeyVersion _ _ =>
      some (.runSecret runId, some (encryptedPayload, encryptionKeyVersion))
  | .deleteSecretInputs runId => some (.runSecret runId, none)
  | .confirmMfaFactor _ _ => none
  | .acceptTotpStep _ _ _ => none
  | .setBusiness _ => none
  | .deleteBusiness _ _ => none

/-- What a statement of another service does to one row. -/
inductive OrdinaryEffect : Option (RecordId × Option (Bytes × Nat)) → Option EncryptionRow →
    Option EncryptionRow → Prop where
  | columns {old new : EncryptedRecord} (key : new.recordId = old.recordId)
      (payload : new.encryptedPayload = old.encryptedPayload)
      (version : new.encryptionKeyVersion = old.encryptionKeyVersion) :
      OrdinaryEffect none (some (.record old)) (some (.record new))
  | replaced (new : EncryptedRecord) {recordId : RecordId} {before : Option EncryptionRow}
      (key : new.recordId = recordId)
      (same : ∀ row, before = some row → ∃ old, row = .record old ∧ old.recordId = recordId) :
      OrdinaryEffect (some (recordId, some (new.encryptedPayload, new.encryptionKeyVersion))) before
        (some (.record new))
  | removed {recordId : RecordId} {old : EncryptedRecord} (key : old.recordId = recordId) :
      OrdinaryEffect (some (recordId, none)) (some (.record old)) none
  | business {before after : Option EncryptionRow}
      (was : ∀ row, before = some row → ∃ old, row = .business old)
      (became : ∀ row, after = some row → ∃ new, row = .business new) :
      OrdinaryEffect none before after

/-- A row under the key of a record is a record. -/
theorem record_of_key {row : EncryptionRow} {recordId : RecordId}
    (key : row.key = .record recordId) : ∃ old, row = .record old ∧ old.recordId = recordId := by
  cases row with
  | record old => exact ⟨old, rfl, EncryptionKey.record.inj key⟩
  | registry _ | job _ | masterKeyCheck _ | business _ | usage _ => cases key

section Records

variable {recordId : RecordId} {before after : Option EncryptionRow}

theorem setRecord_changes {condition : EncryptedRecord → Bool}
    {f : EncryptedRecord → EncryptedRecord} (keeps : ∀ row, (f row).recordId = row.recordId)
    (change : Command.Changes (setRecord recordId condition f keeps) before after) :
    ∃ old, before = some (.record old) ∧ after = some (.record (f old)) := by
  cases change with
  | update holds =>
      obtain ⟨old, rfl, -⟩ := EncryptionRow.records.meets_iff.mp holds
      exact ⟨old, rfl, congrArg some (EncryptionRow.records.map_wrap f old)⟩

theorem upsertRecord_changes {row : EncryptedRecord} {f : EncryptedRecord → EncryptedRecord}
    (keeps : ∀ row, (f row).recordId = row.recordId)
    (change : Command.Changes (upsertRecord row f keeps) before after) :
    (before = none ∧ after = some (.record row)) ∨
      ∃ old, before = some (.record old) ∧ old.recordId = row.recordId ∧
        after = some (.record (f old)) := by
  cases change with
  | added => exact .inl ⟨rfl, rfl⟩
  | replaced same =>
      obtain ⟨old, rfl, key⟩ := record_of_key same
      exact .inr ⟨old, rfl, key, congrArg some (EncryptionRow.records.map_wrap f old)⟩

theorem deleteRecord_changes (change : Command.Changes (deleteRecord recordId) before after) :
    ∃ old, before = some (.record old) ∧ old.recordId = recordId ∧ after = none := by
  cases change with
  | delete holds =>
      obtain ⟨old, rfl, key⟩ := EncryptionRow.records.meets_iff.mp holds
      exact ⟨old, rfl, of_decide_eq_true key, rfl⟩

/-- **Every statement** of the other services. -/
theorem OrdinaryStatement.effect {statement : OrdinaryStatement}
    (change : Command.Changes statement.meaning before after) :
    OrdinaryEffect statement.written? before after := by
  cases statement with
  | addCredentialEnvelope credentialId revision secret version now =>
      cases change with
      | insert =>
          let new : EncryptedRecord :=
            ⟨.credential credentialId revision, secret, version, .credential now⟩
          exact .replaced new rfl fun _ taken => nomatch taken
  | putMfaFactor userId secret version created now =>
      rcases upsertRecord_changes (f := replacedFactor secret version now) (fun _ => rfl) change with
        ⟨rfl, rfl⟩ | ⟨old, rfl, key, rfl⟩
      · let new : EncryptedRecord := ⟨.mfa userId, secret, version, .mfa none none created now⟩
        exact .replaced new rfl fun _ taken => nomatch taken
      · refine .replaced (replacedFactor secret version now old) key fun row isRow => ?_
        exact ⟨old, (Option.some.inj isRow).symm, key⟩
  | confirmMfaFactor userId now | acceptTotpStep userId step now =>
      obtain ⟨old, rfl, rfl⟩ := setRecord_changes (f := withFactor _ _) (fun _ => rfl) change
      exact .columns rfl rfl rfl
  | deleteMfaFactor userId | deleteSecretInputs runId =>
      obtain ⟨old, rfl, key, rfl⟩ := deleteRecord_changes change
      exact .removed key
  | addSecretInputs runId payload version names now =>
      cases change with
      | insert =>
          let new : EncryptedRecord := ⟨.runSecret runId, payload, version, .runSecret names now⟩
          exact .replaced new rfl fun _ taken => nomatch taken
  | setBusiness row =>
      cases change with
      | added => exact .business (fun _ => nofun) fun _ shown => ⟨row, (Option.some.inj shown).symm⟩
      | @replaced _ _ _ other same =>
          cases other with
          | business old =>
              exact .business (fun _ shown => ⟨_, (Option.some.inj shown).symm⟩)
                fun _ shown => ⟨_, (Option.some.inj shown).symm⟩
          | record _ | registry _ | job _ | masterKeyCheck _ | usage _ => cases same
  | deleteBusiness table businessId =>
      cases change with
      | delete holds =>
          obtain ⟨old, rfl, -⟩ := EncryptionRow.businessRows.meets_iff.mp holds
          exact .business (fun _ shown => ⟨_, (Option.some.inj shown).symm⟩) fun _ => nofun

end Records

/-- One of the statements has changed a row. -/
def OrdinaryChange (statements : List OrdinaryStatement) (before after : Option EncryptionRow) :
    Prop :=
  ∃ statement ∈ statements, OrdinaryEffect statement.written? before after

/-- The other services leave the rows of the registry and the jobs as they are. -/
theorem kept_of_ordinaryChanges {statements : List OrdinaryStatement} {row : EncryptionRow}
    {after : Option EncryptionRow} (noRecord : ∀ record, row ≠ .record record)
    (noBusiness : ∀ business, row ≠ .business business)
    (changes : Relation.ReflTransGen (OrdinaryChange statements) (some row) after) :
    after = some row := by
  induction changes with
  | refl => rfl
  | tail _ change ih =>
      obtain ⟨statement, -, effect⟩ := change
      subst ih
      generalize statement.written? = written at effect
      cases effect with
      | columns _ _ _ | removed _ => exact absurd rfl (noRecord _)
      | replaced _ _ same =>
          obtain ⟨old, rfl, -⟩ := same _ rfl
          exact absurd rfl (noRecord old)
      | business was _ =>
          obtain ⟨old, rfl⟩ := was _ rfl
          exact absurd rfl (noBusiness old)

/-- They add none. -/
theorem was_of_ordinaryChanges {statements : List OrdinaryStatement} {row : EncryptionRow}
    {before : Option EncryptionRow} (noRecord : ∀ record, row ≠ .record record)
    (noBusiness : ∀ business, row ≠ .business business)
    (changes : Relation.ReflTransGen (OrdinaryChange statements) before (some row)) :
    before = some row := by
  rcases Relation.ReflTransGen.cases_tail changes with same | ⟨middle, -, statement, -, effect⟩
  · exact same.symm
  · generalize statement.written? = written at effect
    cases effect with
    | columns _ _ _ | replaced _ _ _ => exact absurd rfl (noRecord _)
    | business _ became =>
        obtain ⟨business, rfl⟩ := became _ rfl
        exact absurd rfl (noBusiness business)

section Writes

variable {Key : Type} {settings : EncryptionSettings Key} {db : EncryptionDb}
  {start : EncryptionStore} {i : Nat} {before : List (Write EncryptionKey EncryptionRow)}

variable {log : List EncryptionEvent} {now process : Nat}

/-- A unit of work of another service takes each row along its statements. -/
theorem ordinary_writes {statements : List OrdinaryStatement} (run : OrdinaryRun statements log)
    (plays : EncryptionPlays settings start db i before log) (k : EncryptionKey) :
    Relation.ReflTransGen (OrdinaryChange statements)
      (lookup (applyAll (db.stateAt start i) before) k)
      (lookup (applyAll (db.stateAt start i) (before ++ logged EncryptionStatement.effects log))
        k) := by
  induction run generalizing before with
  | nil =>
      rw [logged_nil, List.append_nil]
  | @cons statement statements rows seen events rest ih =>
      obtain ⟨⟨n, -, ran, kept⟩, plays⟩ := plays
      have later := Relation.ReflTransGen.mono
        (fun _ _ => Exists.imp fun _ => And.imp_left (List.mem_cons_of_mem statement)) _ _ (ih plays)
      rw [logged_ran, ← List.append_assoc]
      rcases ran.changes kept k with same | change
      · rw [same] at later
        exact later
      · exact .head ⟨statement, List.mem_cons_self .., OrdinaryStatement.effect change⟩ later

/-! ## Starts -/

/-- The writes of the registry. -/
def keyWrites (added : List EncryptionKeyRecord) : List (Write EncryptionKey EncryptionRow) :=
  added.map fun record => .put (.registry record)

/-- What a start that commits knows of a version of its keyring: the registered row is valid,
it has added the row itself, or its insert has found a row that it has not seen before. -/
inductive KeyKnown (settings : EncryptionSettings Key) (start : EncryptionStore)
    (db : EncryptionDb) (i process : Nat) (log : List EncryptionEvent)
    (added : List EncryptionKeyRecord) (version : Nat) : Prop where
  | registered {n : Nat} {record : EncryptionKeyRecord} (le : n ≤ i)
      (isThere : (db.stateAt start n : EncryptionStore).registered? version = some record)
      (valid : (settings.keyring process).validateCheck settings.aead version
        record.verificationEnvelope = true)
  | added {record : EncryptionKeyRecord} {nonce : Nonce} (member : record ∈ added)
      (key : record.keyVersion = version)
      (made : (settings.keyring process).encryptCheck settings.aead nonce version =
        some record.verificationEnvelope)
  | raced {n seen : Nat} {record row : EncryptionKeyRecord} (le : n ≤ i)
      (ran : .ran (.addKey record) [] seen ∈ log) (key : record.keyVersion = version)
      (isThere : (db.stateAt start n : EncryptionStore).registered? version = some row)

/-- A row under the key of a version is a row of the registry. -/
theorem registered_of_key {row : EncryptionRow} {version : Nat}
    (key : row.key = .registry version) :
    ∃ record, row = .registry record ∧ record.keyVersion = version := by
  cases row with
  | registry record => exact ⟨record, rfl, EncryptionKey.registry.inj key⟩
  | record _ | job _ | masterKeyCheck _ | business _ | usage _ => cases key

theorem mem_touched_keyWrites {added : List EncryptionKeyRecord} {k : EncryptionKey} :
    k ∈ touched EncryptionStore (keyWrites added) ↔
      ∃ record ∈ added, k = .registry record.keyVersion := by
  rw [mem_touched, keyWrites]
  constructor
  · rintro ⟨write, isWritten, rfl⟩
    obtain ⟨record, member, rfl⟩ := List.mem_map.mp isWritten
    exact ⟨record, member, rfl⟩
  · rintro ⟨record, member, rfl⟩
    exact ⟨_, List.mem_map_of_mem member, rfl⟩

theorem KeyKnown.mono {version : Nat} {log' : List EncryptionEvent}
    {added added' : List EncryptionKeyRecord}
    (known : KeyKnown settings start db i process log added version)
    (events : ∀ event ∈ log, event ∈ log') (rows : ∀ record ∈ added, record ∈ added') :
    KeyKnown settings start db i process log' added' version := by
  cases known with
  | registered le isThere valid => exact .registered le isThere valid
  | added member key made => exact .added (rows _ member) key made
  | raced le ran key isThere => exact .raced le (events _ ran) key isThere

/-- **The loop over the versions** adds rows where there have been none, and knows every
version. -/
theorem registered_writes {registered : List EncryptionKeyRecord}
    {nonces : Nat → Nonce} {versions : List Nat} {events : List EncryptionEvent}
    (registers : KeysRegistered settings (settings.keyring process) registered nonces now versions
      events)
    (reads : ∀ record ∈ registered, ∃ n ≤ i,
      (db.stateAt start n : EncryptionStore).registered? record.keyVersion = some record)
    (distinct : versions.Nodup)
    (fresh : ∀ version ∈ versions, EncryptionKey.registry version ∉ touched EncryptionStore before)
    (plays : EncryptionPlays settings start db i before events) :
    ∃ added, (added.map EncryptionKeyRecord.keyVersion).Sublist versions ∧
      (∀ record ∈ added, (db.stateAt start i : EncryptionStore).registered? record.keyVersion =
        none) ∧
      logged EncryptionStatement.effects events = keyWrites added ∧
      ∀ version ∈ versions, KeyKnown settings start db i process events added version := by
  induction registers generalizing before with
  | nil => exact ⟨[], .slnil, nofun, rfl, nofun⟩
  | @added version versions envelope rows seen events absent made rest ih =>
      obtain ⟨⟨n, le, ran, kept⟩, plays⟩ := plays
      obtain ⟨apart, distinct⟩ := List.nodup_cons.mp distinct
      have here : lookup (applyAll (db.stateAt start n) before) (EncryptionKey.registry version) =
          lookup (db.stateAt start n) (EncryptionKey.registry version) :=
        lookup_applyAll_of_not_mem _ (fresh version (List.mem_cons_self ..))
      rcases Command.perform_insertAbsent ran.performed with
        ⟨⟨row, taken⟩, rfl, -⟩ | ⟨free, rfl, -⟩
      · obtain ⟨record, rfl, -⟩ := registered_of_key (RowStore.key_of_lookup taken)
        have isThere : (db.stateAt start n : EncryptionStore).registered? version = some record :=
          RowKind.at?_eq_some.mpr (here.symm.trans taken)
        have nothing : EncryptionStatement.effects (.addKey ⟨version, envelope, now, none⟩) [] = [] :=
          rfl
        rw [nothing, List.append_nil] at plays
        obtain ⟨added, sublist, free, writes, known⟩ := ih distinct
          (fun other member => fresh other (List.mem_cons_of_mem _ member)) plays
        refine ⟨added, sublist.cons _, free, writes, fun other member => ?_⟩
        rcases List.mem_cons.mp member with rfl | later
        · exact .raced le (List.mem_cons_self ..) rfl isThere
        · exact (known other later).mono (fun _ => List.mem_cons_of_mem _) fun _ => id
      · have fresh' : ∀ other ∈ versions, EncryptionKey.registry other ∉ touched EncryptionStore
            (before ++ [.put (.registry ⟨version, envelope, now, none⟩)]) := by
          intro other member
          rw [touched_append, List.mem_append]
          rintro (old | new)
          · exact fresh other (List.mem_cons_of_mem _ member) old
          · obtain rfl := EncryptionKey.registry.inj (List.mem_singleton.mp new)
            exact apart member
        obtain ⟨added, sublist, unregistered, writes, known⟩ := ih distinct fresh' plays
        refine ⟨⟨version, envelope, now, none⟩ :: added, sublist.cons_cons _, ?_, ?_, ?_⟩
        · intro record member
          rcases List.mem_cons.mp member with rfl | later
          · have touches : EncryptionKey.registry version ∈ touched EncryptionStore (before ++
                EncryptionStatement.effects (.addKey ⟨version, envelope, now, none⟩)
                  [.registry ⟨version, envelope, now, none⟩]) := by
              rw [touched_append]
              exact List.mem_append_right _ (List.mem_cons_self ..)
            have absent : lookup (db.stateAt start i) (EncryptionKey.registry version) = none :=
              (kept _ touches).symm.trans (here.symm.trans free)
            exact Option.bind_eq_none_iff.mpr fun row isThere => nomatch absent.symm.trans isThere
          · exact unregistered record later
        · rw [logged_ran, writes]
          rfl
        · intro other member
          rcases List.mem_cons.mp member with rfl | later
          · exact .added (List.mem_cons_self ..) rfl made
          · exact (known other later).mono (fun _ => List.mem_cons_of_mem _)
              fun _ => List.mem_cons_of_mem _
  | @found version versions record events isThere valid rest ih =>
      obtain ⟨apart, distinct⟩ := List.nodup_cons.mp distinct
      obtain ⟨added, sublist, free, writes, known⟩ := ih distinct
        (fun other member => fresh other (List.mem_cons_of_mem _ member)) plays
      refine ⟨added, sublist.cons _, free, writes, fun other member => ?_⟩
      rcases List.mem_cons.mp member with rfl | later
      · have same : record.keyVersion = other := by simpa using List.find?_some isThere
        obtain ⟨n, le, read⟩ := reads record (List.mem_of_find?_eq_some isThere)
        exact .registered le (same ▸ read) valid
      · exact known other later

/-- The pepper that a start has stored. -/
structure PepperMade (settings : EncryptionSettings Key) (process : Nat)
    (log : List EncryptionEvent) (row : EncryptedRecord) : Prop where
  key : row.recordId = .system idempotencySecretName
  made : ∃ (nonce : Nonce) (pepper : Pepper), (settings.keyring process).encryptWithAad settings.aead
    nonce pepper.bytes (RecordId.aad (.system idempotencySecretName)) none =
      some (row.encryptedPayload, row.encryptionKeyVersion)
  stores : ∃ secret version now shown seen,
    .ran (.putSystemSecret idempotencySecretName secret version now) shown seen ∈ log

/-- The writes of `ensurePepper`. -/
inductive PepperWritten (settings : EncryptionSettings Key) (process : Nat)
    (log : List EncryptionEvent) : List (Write EncryptionKey EncryptionRow) → Prop where
  | nothing : PepperWritten settings process log []
  | stored {row : EncryptedRecord} (made : PepperMade settings process log row) :
      PepperWritten settings process log [.put (.record row)]

theorem PepperWritten.mono {log' : List EncryptionEvent}
    {writes : List (Write EncryptionKey EncryptionRow)}
    (isWritten : PepperWritten settings process log writes)
    (events : ∀ event ∈ log, event ∈ log') : PepperWritten settings process log' writes := by
  cases isWritten with
  | nothing => exact .nothing
  | stored made =>
      obtain ⟨secret, version, now, shown, seen, ran⟩ := made.stores
      exact .stored ⟨made.key, made.made, secret, version, now, shown, seen, events _ ran⟩

/-- **What a start touches**: the registry, and the pepper if it stores one. -/
theorem touched_of_started {added : List EncryptionKeyRecord}
    {stored : List (Write EncryptionKey EncryptionRow)} {k : EncryptionKey}
    (peppers : PepperWritten settings process log stored)
    (isTouched : k ∈ touched EncryptionStore (keyWrites added ++ stored)) :
    (∃ version, k = .registry version) ∨
      ∃ row, k = .record row.recordId ∧ PepperMade settings process log row := by
  rw [touched_append, List.mem_append, mem_touched_keyWrites] at isTouched
  rcases isTouched with ⟨record, -, same⟩ | isTouched
  · exact .inl ⟨_, same⟩
  · cases peppers with
    | nothing => cases isTouched
    | stored made => exact .inr ⟨_, List.mem_singleton.mp isTouched, made⟩

theorem pepper_writes {nonce : Nonce} {pepper : Pepper} {events : List EncryptionEvent}
    (ensures : PepperEnsured settings (settings.keyring process) nonce pepper now events)
    (plays : EncryptionPlays settings start db i before events) :
    PepperWritten settings process events (logged EncryptionStatement.effects events) := by
  cases ensures with
  | found isThere => exact .nothing
  | @stored rows rows' seen seen' made absent isMade =>
      obtain ⟨-, ⟨n, -, ran, -⟩, -⟩ := plays
      have stores : ∃ secret version time shown last,
          Event.ran (EncryptionStatement.putSystemSecret idempotencySecretName secret version time)
              shown last ∈ [Event.ran (.getSystemSecret idempotencySecretName) rows seen,
            .ran (.putSystemSecret idempotencySecretName made.1 made.2 now) rows' seen'] :=
        ⟨_, _, _, _, _, .tail _ (.head _)⟩
      rcases perform_upsertRecord (f := replacedSecret made.1 made.2 now) (fun _ => rfl)
          ran.performed with ⟨-, rfl, -⟩ | ⟨old, isThere, rfl, -⟩
      · exact .stored ⟨rfl, ⟨nonce, pepper, isMade⟩, stores⟩
      · have key := RowStore.key_of_lookup (RowKind.at?_eq_some.mp isThere)
        have isNew : PepperMade settings process
            [.ran (.getSystemSecret idempotencySecretName) rows seen,
              .ran (.putSystemSecret idempotencySecretName made.1 made.2 now)
                [.record (replacedSecret made.1 made.2 now old)] seen']
            (replacedSecret made.1 made.2 now old) :=
          ⟨EncryptionKey.record.inj key, ⟨nonce, pepper, isMade⟩, stores⟩
        exact .stored isNew

/-- **What a start writes**: the versions that it has not found in the registry, and the pepper if
it has found none. -/
theorem started_writes {nonces : Nat → Nonce} {nonce : Nonce} {pepper : Pepper}
    {s s' : Nat} {rows usage : List EncryptionRow} {legacy keys last : List EncryptionEvent}
    (checked : LegacyChecked legacy)
    (registers : KeysRegistered settings (settings.keyring process)
      (rows.filterMap EncryptionRow.registered.unwrap) nonces now
      (settings.keyring process).versions keys)
    (ensures : PepperEnsured settings (settings.keyring process) nonce pepper now last)
    (plays : EncryptionPlays settings start db i []
      ([.clock now, .ran .listKeys rows s] ++ legacy ++ keys ++ [.ran .usage usage s'] ++ last)) :
    ∃ added stored, (added.map EncryptionKeyRecord.keyVersion).Sublist
        (settings.keyring process).versions ∧
      (∀ record ∈ added, (db.stateAt start i : EncryptionStore).registered? record.keyVersion =
        none) ∧
      (∀ version ∈ (settings.keyring process).versions, KeyKnown settings start db i process
        ([.clock now, .ran .listKeys rows s] ++ legacy ++ keys ++ [.ran .usage usage s'] ++ last)
        added version) ∧
      PepperWritten settings process
        ([.clock now, .ran .listKeys rows s] ++ legacy ++ keys ++ [.ran .usage usage s'] ++ last)
        stored ∧
      logged EncryptionStatement.effects ([.clock now, .ran .listKeys rows s] ++ legacy ++ keys ++
        [.ran .usage usage s'] ++ last) = keyWrites added ++ stored := by
  simp only [Db.plays_append] at plays
  obtain ⟨⟨⟨⟨⟨⟨n, le, ran, -⟩, -⟩, -⟩, keysPlay⟩, -⟩, lastPlay⟩ := plays
  have listed : logged EncryptionStatement.effects [.clock now, .ran .listKeys rows s] = [] := rfl
  have counted : logged EncryptionStatement.effects [.ran .usage usage s'] = [] := rfl
  have legacyWrites : logged EncryptionStatement.effects legacy = [] := by
    cases checked <;> rfl
  have reads : ∀ record ∈ rows.filterMap EncryptionRow.registered.unwrap, ∃ n ≤ i,
      (db.stateAt start n : EncryptionStore).registered? record.keyVersion = some record := by
    intro record member
    exact ⟨s, ran.le.trans le, (perform_listKeys ran.performed).mp member⟩
  simp only [logged_append, listed, legacyWrites, List.append_nil] at keysPlay
  obtain ⟨added, sublist, free, writes, known⟩ := registered_writes registers reads
    MasterKeyring.nodup_versions (fun version _ => List.not_mem_nil) keysPlay
  refine ⟨added, _, sublist, free, fun version member => ?_,
    (pepper_writes ensures lastPlay).mono fun event isEvent => List.mem_append_right _ isEvent, ?_⟩
  · refine (known version member).mono (fun event isEvent => ?_) fun _ => id
    simp [isEvent]
  · simp only [logged_append, listed, legacyWrites, counted, writes, List.nil_append,
      List.append_nil]

/-! ## Commits -/

/-- **What a transaction commits**, on the state after `i` commits. -/
inductive Commits (settings : EncryptionSettings Key) (start : EncryptionStore)
    (db : EncryptionDb) (i : Nat) (log : List EncryptionEvent) :
    EncryptionCall → EncryptionAnswer → List (Write EncryptionKey EncryptionRow) → Prop where
  | started {process : Nat} {nonces : Nat → Nonce} {nonce : Nonce} {pepper : Pepper}
      {added : List EncryptionKeyRecord} {stored : List (Write EncryptionKey EncryptionRow)}
      (distinct : (added.map EncryptionKeyRecord.keyVersion).Nodup)
      (free : ∀ record ∈ added,
        (db.stateAt start i : EncryptionStore).registered? record.keyVersion = none)
      (known : ∀ version ∈ (settings.keyring process).versions,
        KeyKnown settings start db i process log added version)
      (peppers : PepperWritten settings process log stored) :
      Commits settings start db i log (.ensureKeyring process nonces nonce pepper) .started
        (keyWrites added ++ stored)
  | pepper {process : Nat} {bytes : Bytes} :
      Commits settings start db i log (.idempotencyPepper process) (.pepper bytes) []
  | requested {process : Nat} {actorUserId jobId : Uuid} {created job : KeyRotationJob}
      (key : created.keyRotationJobId = jobId) (waits : created.state = .pending)
      (target : created.targetKeyVersion = (settings.keyring process).primaryVersion)
      (first : created.processedCount = 0)
      (free : (db.stateAt start i : EncryptionStore).job? jobId = none) :
      Commits settings start db i log (.requestRotation process actorUserId jobId)
        (.requested job) [.put (.job created)]
  | idle {process : Nat} {workerId : String} {acquired : Bool} {skippedJobs : List Uuid}
      {skipped : List RecordId} {nonces : RecordId → Nonce} :
      Commits settings start db i log
        (.processRotationBatch process workerId acquired skippedJobs skipped nonces) .idle []
  | processed {process : Nat} {workerId : String} {acquired : Bool} {skippedJobs : List Uuid}
      {skipped : List RecordId} {nonces : RecordId → Nonce} {job : KeyRotationJob}
      {now remaining : Nat} {batch locks news : List EncryptedRecord}
      (processed : Processed settings (db.stateAt start i) process workerId nonces job now remaining
        batch locks news) {jobId : Uuid} (key : job.keyRotationJobId = jobId) :
      Commits settings start db i log
        (.processRotationBatch process workerId acquired skippedJobs skipped nonces)
        (.processed jobId)
        (batchWrites (claimed workerId now (now + rotationLease) job)
          (finishedJob workerId now news.length remaining job) locks news)
  | recorded {jobId : Uuid} {targetKeyVersion now remaining : Nat} {job : KeyRotationJob}
      (isThere : (db.stateAt start i : EncryptionStore).job? jobId = some job) :
      Commits settings start db i log (.recordFailure jobId targetKeyVersion) .recorded
        [.put (.job (updatedJob .failed 0 remaining now none (some "key_rotation_failed") job))]
  | unrecorded {jobId : Uuid} {targetKeyVersion : Nat} :
      Commits settings start db i log (.recordFailure jobId targetKeyVersion) .recorded []
  | written {statements : List OrdinaryStatement}
      {writes : List (Write EncryptionKey EncryptionRow)}
      (changes : ∀ k, Relation.ReflTransGen (OrdinaryChange statements)
        (lookup (db.stateAt start i) k) (lookup (applyAll (db.stateAt start i) writes) k)) :
      Commits settings start db i log (.ordinary statements) .written writes

/-- **Every commit** is one of these. -/
theorem commits_of_plays {call : EncryptionCall} {answer : EncryptionAnswer}
    (plays : EncryptionPlays settings start db i [] log)
    (outcome : Outcome settings call answer log) :
    Commits settings start db i log call answer (logged EncryptionStatement.effects log) := by
  cases outcome with
  | @started process nonces nonce pepper now s s' rows usage legacy keys last checked registers
      ensures =>
      obtain ⟨added, stored, sublist, free, known, peppers, writes⟩ :=
        started_writes checked registers ensures plays
      rw [writes]
      exact .started (MasterKeyring.nodup_versions.sublist sublist) free known peppers
  | pepper isThere opened => exact .pepper
  | @requested process actorUserId jobId now s s' usage rows created job key waits target first =>
      obtain ⟨-, ⟨n, -, ran, kept⟩, -⟩ := plays
      obtain ⟨free, rfl, -⟩ := perform_insert ran.performed
      refine .requested key waits target first ?_
      have still := (kept _ (List.mem_cons_self ..)).symm.trans free
      subst key
      exact Option.bind_eq_none_iff.mpr fun row isThere => nomatch still.symm.trans isThere
  | idle none =>
      obtain ⟨⟨n, -, ran, -⟩, -⟩ := plays
      rcases perform_claim ran.performed with ⟨job, -, -, rfl, -⟩ | ⟨rfl, -⟩
      · cases none
      · exact .idle
  | processed isClaimed target loaded rotates updated =>
      obtain ⟨job, locks, news, rfl, processed, writes⟩ :=
        processed_writes isClaimed target loaded rotates updated plays
      rw [writes]
      exact .processed processed rfl
  | @recorded jobId targetKeyVersion now s s' usage rows =>
      obtain ⟨-, ⟨n, -, ran, kept⟩, -⟩ := plays
      have only : ∀ row : KeyRotationJob, decide (row.keyRotationJobId = jobId) = true →
          row.keyRotationJobId = jobId := fun _ => of_decide_eq_true
      rcases perform_setJob (f := updatedJob _ _ _ _ _ _) (fun _ => rfl) only ran.performed with
        ⟨job, isThere, same, rfl, -⟩ | ⟨rfl, -⟩
      · have still := kept _ (List.mem_cons_self ..)
        obtain rfl := of_decide_eq_true same
        exact .recorded ((RowKind.at?_congr still).symm.trans isThere)
      · exact .unrecorded
  | written run => exact .written (ordinary_writes run plays)

/-- An account of a run of the service. -/
abbrev EncryptionAccount (settings : EncryptionSettings Key)
    (admitted : EncryptionCall → List EncryptionEvent → EncryptionStore → Prop)
    (start : EncryptionStore) (db : EncryptionDb) : Prop :=
  (encryptionService settings).Account EncryptionStatement.effects (fun _ _ => True)
    (Outcome settings) admitted start db

/-- What one commit of the account does. -/
theorem commits_of_committed
    {admitted : EncryptionCall → List EncryptionEvent → EncryptionStore → Prop} {id : Nat}
    {txn : EncryptionTxn} {answer : EncryptionAnswer}
    (committed : (encryptionService settings).Committed EncryptionStatement.effects
      (Outcome settings) admitted start db i id txn answer) :
    Commits settings start db i txn.log txn.call answer
      (logged EncryptionStatement.effects txn.log) :=
  commits_of_plays committed.plays committed.outcome

end Writes

end OpsComposer.Encryption
