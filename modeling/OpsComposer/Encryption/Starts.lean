import OpsComposer.Encryption.Rotations
import OpsComposer.Foundations.CallOrder

/-!
# Starts that come one after the other

A start decides by what it has read whether it registers a key version and whether it stores the
pepper, and two starts at a time can both find nothing.  When a process is started after the last
start has ended (`StartsInTurn`), nothing comes between what a start has read and its commit.
Then the pepper is stored once and never changes, and every process reads the same
(`pepper_stable`); and the keys of all processes that have started are those that are registered,
so that no two of them have different keys under one version (`started_keys_agree`).
-/

set_option autoImplicit false

namespace OpsComposer.Encryption

open Domain (Uuid)
open Foundations Services RowStore

/-! ## One commit -/

/-- A start. -/
def IsStart : EncryptionCall → Prop
  | .ensureKeyring _ _ _ _ => True
  | _ => False

theorem IsStart.exists_call : ∀ {call : EncryptionCall}, IsStart call →
    ∃ process nonces nonce pepper, call = .ensureKeyring process nonces nonce pepper
  | .ensureKeyring process nonces nonce pepper, _ => ⟨process, nonces, nonce, pepper, rfl⟩

/-- No statement of another service is about the pepper. -/
theorem not_writesRecord_pepper {call : EncryptionCall} {log : List EncryptionEvent}
    (notStart : ¬ IsStart call) : ¬ WritesRecord (.system idempotencySecretName) call log := by
  intro writes
  cases writes with
  | @ordinary _ _ statement _ _ isWritten => cases statement <;> cases isWritten
  | pepper _ _ => exact notStart trivial

section Commit

variable {Key : Type} {settings : EncryptionSettings Key} {start : EncryptionStore}
  {db : EncryptionDb} {i : Nat} {log : List EncryptionEvent} {call : EncryptionCall}
  {answer : EncryptionAnswer} {writes : List (Write EncryptionKey EncryptionRow)} {version : Nat}

variable {record : EncryptionKeyRecord} {store : EncryptionStore}

theorem registered?_frame (free : EncryptionKey.registry version ∉ touched EncryptionStore writes) :
    (applyAll store writes).registered? version = store.registered? version :=
  RowKind.at?_frame free

/-- Only starts write the registry. -/
theorem registered_of_commits (commits : Commits settings start db i log call answer writes)
    (other : ¬ IsStart call) : (applyAll (db.stateAt start i) writes).registered? version =
      (db.stateAt start i : EncryptionStore).registered? version := by
  cases commits with
  | started distinct free known peppers => exact absurd trivial other
  | pepper | idle | unrecorded => rfl
  | requested key waits target first free | recorded isThere =>
      refine registered?_frame fun isTouched => ?_
      cases List.mem_singleton.mp isTouched
  | processed processed key =>
      refine registered?_frame fun isTouched => ?_
      rcases mem_touched_batchWrites.mp isTouched with
        wrong | ⟨row, -, wrong⟩ | ⟨row, -, wrong⟩ | wrong <;> cases wrong
  | written changes =>
      have chain := changes (.registry version)
      refine Option.ext fun record => ⟨fun after => ?_, fun before => ?_⟩
      · rw [RowKind.at?_eq_some.mp after] at chain
        exact RowKind.at?_eq_some.mpr
          (was_of_ordinaryChanges (fun _ => nofun) (fun _ => nofun) chain)
      · rw [RowKind.at?_eq_some.mp before] at chain
        exact RowKind.at?_eq_some.mpr
          (kept_of_ordinaryChanges (fun _ => nofun) (fun _ => nofun) chain)

/-- The rows that a start adds to the registry. -/
theorem lookup_keyWrites {added : List EncryptionKeyRecord}
    (distinct : (added.map EncryptionKeyRecord.keyVersion).Nodup) (member : record ∈ added) :
    (applyAll store (keyWrites added)).registered? record.keyVersion = some record := by
  refine RowKind.at?_eq_some.mpr (lookup_applyAll_uniform store ?_ ?_)
  · exact mem_touched_keyWrites.mpr ⟨record, member, rfl⟩
  · intro write isWritten same
    obtain ⟨other, isOther, rfl⟩ := List.mem_map.mp isWritten
    obtain rfl : other = record :=
      List.inj_on_of_nodup_map distinct isOther member (EncryptionKey.registry.inj same)
    rfl

/-- What is stored of the pepper is not in the registry. -/
theorem registered?_stored {process : Nat} {stored : List (Write EncryptionKey EncryptionRow)}
    {added : List EncryptionKeyRecord} (peppers : PepperWritten settings process log stored) :
    (applyAll store (keyWrites added ++ stored)).registered? version =
      (applyAll store (keyWrites added)).registered? version := by
  rw [applyAll_append]
  refine registered?_frame fun isTouched => ?_
  cases peppers with
  | nothing => cases isTouched
  | stored made => cases List.mem_singleton.mp isTouched

/-- **What is registered stays**, as it is. -/
theorem stays_of_commits (commits : Commits settings start db i log call answer writes)
    (isThere : (db.stateAt start i : EncryptionStore).registered? version = some record) :
    (applyAll (db.stateAt start i) writes).registered? version = some record := by
  by_cases isStart : IsStart call
  · cases commits with
    | started distinct free known peppers =>
        rw [registered?_stored peppers, registered?_frame, isThere]
        intro isTouched
        obtain ⟨added, member, same⟩ := mem_touched_keyWrites.mp isTouched
        obtain rfl := EncryptionKey.registry.inj same
        cases (free added member).symm.trans isThere
    | _ => cases isStart
  · rw [registered_of_commits commits isStart]
    exact isThere

/-! ## What a start has read -/

/-- A version that is added is none of those that have been listed. -/
theorem absent_of_registers {keyring : MasterKeyring Key} {registered : List EncryptionKeyRecord}
    {nonces : Nat → Nonce} {now : Nat} {versions : List Nat} {events : List EncryptionEvent}
    (registers : KeysRegistered settings keyring registered nonces now versions events)
    {shown : List EncryptionRow} {seen : Nat} (ran : .ran (.addKey record) shown seen ∈ events) :
    ∀ listed ∈ registered, listed.keyVersion ≠ record.keyVersion := by
  induction registers with
  | nil => cases ran
  | @added version versions envelope rows last events absent made rest ih =>
      rcases List.mem_cons.mp ran with same | later
      · obtain ⟨isRecord, -, -⟩ := Event.ran.inj same
        obtain rfl := EncryptionStatement.addKey.inj isRecord
        intro listed member
        simpa using List.find?_eq_none.mp absent listed member
      · exact ih later
  | found isThere valid rest ih => exact ih ran

theorem no_secret_of_registers {keyring : MasterKeyring Key}
    {registered : List EncryptionKeyRecord} {nonces : Nat → Nonce} {now : Nat} {versions : List Nat}
    {events : List EncryptionEvent}
    (registers : KeysRegistered settings keyring registered nonces now versions events)
    {secretName : String} {secret : Bytes} {keyVersion time seen : Nat}
    {shown : List EncryptionRow} :
    .ran (.putSystemSecret secretName secret keyVersion time) shown seen ∉ events := by
  induction registers with
  | nil => exact List.not_mem_nil
  | added absent made rest ih =>
      intro ran
      rcases List.mem_cons.mp ran with wrong | later
      · cases wrong
      · exact ih later
  | found isThere valid rest ih => exact ih

variable {process : Nat} {nonces : Nat → Nonce} {nonce : Nonce} {pepper : Pepper}

/-- **A start adds a version** that it has not found in the registry. -/
theorem absent_of_added (plays : EncryptionPlays settings start db i [] log)
    (outcome : Outcome settings (.ensureKeyring process nonces nonce pepper) answer log)
    {record : EncryptionKeyRecord} {shown : List EncryptionRow} {seen : Nat}
    (ran : .ran (.addKey record) shown seen ∈ log) :
    ∃ rows s, .ran .listKeys rows s ∈ log ∧
      (db.stateAt start s : EncryptionStore).registered? record.keyVersion = none := by
  cases outcome with
  | @started _ _ _ _ now s s' rows usage legacy keys last checked registers ensures =>
      have among : .ran (.addKey record) shown seen ∈ keys := by
        simp only [List.mem_append, List.mem_cons, List.not_mem_nil, or_false] at ran
        rcases ran with ((((wrong | wrong) | wrong) | member) | wrong) | wrong
        · cases wrong
        · cases wrong
        · cases checked with
          | registered => cases wrong
          | read => cases List.mem_singleton.mp wrong
        · exact member
        · cases wrong
        · cases ensures with
          | found isThere => cases List.mem_singleton.mp wrong
          | stored absent isMade =>
              rcases List.mem_cons.mp wrong with wrong | wrong
              · cases wrong
              · cases List.mem_singleton.mp wrong
      simp only [Db.plays_append] at plays
      obtain ⟨⟨⟨⟨⟨⟨n, -, listing, -⟩, -⟩, -⟩, -⟩, -⟩, -⟩ := plays
      refine ⟨rows, s, by simp, Option.eq_none_iff_forall_ne_some.mpr fun listed found => ?_⟩
      have version : listed.keyVersion = record.keyVersion := EncryptionKey.registry.inj
        (RowStore.key_of_lookup (RowKind.at?_eq_some.mp found))
      exact absent_of_registers registers among listed
        ((perform_listKeys listing.performed).mpr (version ▸ found)) version

/-- The loop over the versions touches no record. -/
theorem not_touched_of_registers {keyring : MasterKeyring Key}
    {registered : List EncryptionKeyRecord} {now : Nat} {versions : List Nat}
    {events : List EncryptionEvent} {before : List (Write EncryptionKey EncryptionRow)}
    (registers : KeysRegistered settings keyring registered nonces now versions events)
    (plays : EncryptionPlays settings start db i before events) (recordId : RecordId) :
    EncryptionKey.record recordId ∉ touched EncryptionStore
      (logged EncryptionStatement.effects events) := by
  induction registers generalizing before with
  | nil => exact List.not_mem_nil
  | added absent made rest ih =>
      obtain ⟨⟨n, -, ran, -⟩, plays⟩ := plays
      rw [logged_ran, touched_append, List.mem_append]
      rintro (here | later)
      · rcases Command.perform_insertAbsent ran.performed with ⟨-, rfl, -⟩ | ⟨-, rfl, -⟩
        · cases here
        · cases List.mem_singleton.mp here
      · exact ih plays later
  | found isThere valid rest ih => exact ih plays

/-- **A start stores the pepper** when it has found none. -/
theorem absent_of_stored (plays : EncryptionPlays settings start db i [] log)
    (outcome : Outcome settings (.ensureKeyring process nonces nonce pepper) answer log)
    {secret : Bytes} {keyVersion now seen : Nat} {shown : List EncryptionRow}
    (ran : .ran (.putSystemSecret idempotencySecretName secret keyVersion now) shown seen ∈ log) :
    ∃ rows s, .ran (.getSystemSecret idempotencySecretName) rows s ∈ log ∧
      (db.stateAt start s : EncryptionStore).record? (.system idempotencySecretName) = none := by
  cases outcome with
  | @started _ _ _ _ now' s s' rows usage legacy keys last checked registers ensures =>
      have among : .ran (.putSystemSecret idempotencySecretName secret keyVersion now) shown seen ∈
          last := by
        simp only [List.mem_append, List.mem_cons, List.not_mem_nil, or_false] at ran
        rcases ran with ((((wrong | wrong) | wrong) | wrong) | wrong) | member
        · cases wrong
        · cases wrong
        · cases checked with
          | registered => cases wrong
          | read => cases List.mem_singleton.mp wrong
        · exact absurd wrong (no_secret_of_registers registers)
        · cases wrong
        · exact member
      have legacyWrites : logged EncryptionStatement.effects legacy = [] := by
        cases checked <;> rfl
      simp only [Db.plays_append] at plays
      obtain ⟨⟨⟨⟨-, -⟩, keysPlay⟩, -⟩, lastPlay⟩ := plays
      cases ensures with
      | found isThere => cases List.mem_singleton.mp among
      | @stored read rows' seen' seen'' made absent isMade =>
          obtain ⟨⟨n, -, reading, -⟩, -⟩ := lastPlay
          refine ⟨read, seen', by simp, ?_⟩
          obtain ⟨isRead, -⟩ := Prod.mk.inj (Option.some.inj reading.performed)
          rw [← isRead] at absent
          have free : EncryptionKey.record (.system idempotencySecretName) ∉ touched EncryptionStore
              (logged EncryptionStatement.effects ([.clock now', .ran .listKeys rows s] ++ legacy ++
                keys ++ [.ran .usage usage s'])) := by
            have ends : logged EncryptionStatement.effects [.ran .usage usage s'] = [] := rfl
            have first : logged EncryptionStatement.effects [.clock now', .ran .listKeys rows s] =
                [] := rfl
            simp only [logged_append, legacyWrites, ends, first, List.nil_append, List.append_nil]
            exact not_touched_of_registers registers keysPlay _
          refine Option.eq_none_iff_forall_ne_some.mpr fun record found => ?_
          have shown := record?_eq_some.mp ((record?_frame free).trans found)
          have isFound : firstRecord? [EncryptionRow.record record] = none := by
            rw [← absent]
            exact congrArg (fun row => firstRecord? (Option.toList row)) shown.symm
          cases isFound

end Commit

/-! ## Envelopes of keys -/

section Checks

variable {Key : Type} {aead : Aead Key} {keyring : MasterKeyring Key} {version : Nat}
  {envelope : Bytes}

/-- The envelope of a version is valid under its key. -/
theorem validateCheck_encryptCheck (lawful : aead.Lawful) {nonce : Nonce}
    (made : keyring.encryptCheck aead nonce version = some envelope) :
    keyring.validateCheck aead version envelope = true := by
  obtain ⟨⟨isSealed, sealedVersion⟩, encrypted, rfl⟩ := Option.map_eq_some_iff.mp made
  obtain rfl : sealedVersion = version := MasterKeyring.version_of_encryptWithAad encrypted
  refine decide_eq_true (MasterKeyring.decryptWithAad_encryptWithAad lawful ?_ encrypted)
  decide

/-- An envelope is valid under the key that it was made under, and under no other. -/
theorem key_of_validateCheck (authentic : aead.Authentic) {other : MasterKeyring Key}
    {nonce : Nonce} (made : other.encryptCheck aead nonce version = some envelope)
    (valid : keyring.validateCheck aead version envelope = true) :
    keyring.key? version = other.key? version := by
  obtain ⟨⟨isSealed, sealedVersion⟩, encrypted, rfl⟩ := Option.map_eq_some_iff.mp made
  obtain ⟨key, isKey, same⟩ := Option.map_eq_some_iff.mp encrypted
  obtain ⟨rfl, -⟩ := Prod.mk.inj same
  have opens := of_decide_eq_true valid
  unfold MasterKeyring.decryptWithAad at opens
  split at opens
  · cases opens
  · obtain ⟨key', isKey', opens⟩ := Option.bind_eq_some_iff.mp opens
    have twelve := nonce.length_bytes
    rw [List.take_left' twelve, List.drop_left' twelve] at opens
    by_cases same : key = key'
    · exact isKey'.trans (same ▸ isKey.symm)
    · rw [authentic key key' _ _ _ same] at opens
      cases opens

end Checks

/-! ## Starts in turn -/

/-- A process is started when the last start has ended. -/
def startOrder : CallOrder EncryptionCall where
  waits first second := IsStart first ∧ IsStart second
  late _ _ := False

/-- The starts come in one after the other. -/
def StartsInTurn (world : EncryptionWorld) : DbAct EncryptionCall → Prop
  | .onDb (.begin call) => startOrder.Admits world.db call
  | _ => True

section Account

variable {Key : Type} {settings : EncryptionSettings Key} {start : EncryptionStore}
  {db : EncryptionDb} {i index : Nat} {txn : EncryptionTxn} {answer : EncryptionAnswer}

/-- An account without conditions. -/
abbrev PlainAccount (settings : EncryptionSettings Key) (start : EncryptionStore)
    (db : EncryptionDb) : Prop :=
  EncryptionAccount settings (fun _ _ _ => True) start db

/-- A commit of such an account. -/
abbrev PlainCommit (settings : EncryptionSettings Key) (start : EncryptionStore)
    (db : EncryptionDb) (i index : Nat) (txn : EncryptionTxn) (answer : EncryptionAnswer) : Prop :=
  (encryptionService settings).Committed EncryptionStatement.effects (Outcome settings)
    (fun _ _ _ => True) start db i index txn answer

/-- What a statement of a commit has seen is not later than the commit. -/
theorem seen_le (committed : PlainCommit settings start db i index txn answer)
    {statement : EncryptionStatement} {shown : List EncryptionRow} {seen : Nat}
    (ran : .ran statement shown seen ∈ txn.log) : seen ≤ i := by
  obtain ⟨earlier, later, split⟩ := List.append_of_mem ran
  have plays := committed.plays
  rw [split, Db.plays_append] at plays
  obtain ⟨-, ⟨n, le, ran, -⟩, -⟩ := plays
  exact ran.le.trans le

variable (account : PlainAccount settings start db) (inTurn : Db.InTurn startOrder db)
include account inTurn

/-- **What only starts change** is, when a start commits, as the start has seen it. -/
theorem since_seen (committed : PlainCommit settings start db i index txn answer)
    (isStart : IsStart txn.call) {statement : EncryptionStatement} {shown : List EncryptionRow}
    {seen : Nat} (ran : .ran statement shown seen ∈ txn.log) {P : EncryptionStore → Prop}
    (here : P (db.stateAt start seen))
    (kept : ∀ (j index' : Nat) (other : EncryptionTxn) (answer' : EncryptionAnswer),
      PlainCommit settings start db j index' other answer' → ¬ IsStart other.call →
        P (db.stateAt start j) →
          P (applyAll (db.stateAt start j) (logged EncryptionStatement.effects other.log))) :
    P (db.stateAt start i) := by
  have bound := (List.getElem?_eq_some_iff.mp committed.next).1
  refine account.induct (seen_le committed ran) bound.le here ?_
  intro j index' other answer' above below committed' before
  refine kept j index' other answer' committed' (fun also => ?_) before
  exact absurd (inTurn.none_between account.chronicle.recorded committed'.found committed.found
    committed'.next committed.next ⟨also, isStart⟩ ⟨isStart, also⟩ ran above)
    (Nat.not_le.mpr below)

variable {record : EncryptionKeyRecord} {n process version : Nat}

omit inTurn in
/-- **What is registered stays**, in every later state. -/
theorem registered_later {m : Nat} (le : n ≤ m) (bound : m ≤ db.history.length)
    (isThere : (db.stateAt start n : EncryptionStore).registered? version = some record) :
    (db.stateAt start m : EncryptionStore).registered? version = some record := by
  refine account.induct (P := fun store : EncryptionStore =>
    store.registered? version = some record) le bound isThere ?_
  exact fun _ _ _ _ _ _ committed before => stays_of_commits (commits_of_committed committed) before

/-- **A start that commits** has found or made a valid envelope for each of its versions. -/
theorem valid_of_started (lawful : settings.aead.Lawful)
    (committed : PlainCommit settings start db i index txn answer) {nonces : Nat → Nonce}
    {nonce : Nonce} {pepper : Pepper} (call : txn.call = .ensureKeyring process nonces nonce pepper)
    (member : version ∈ (settings.keyring process).versions) :
    ∃ record, (db.stateAt start (i + 1) : EncryptionStore).registered? version = some record ∧
      (settings.keyring process).validateCheck settings.aead version record.verificationEnvelope =
        true := by
  have isStart : IsStart txn.call := call ▸ trivial
  have bound := (List.getElem?_eq_some_iff.mp committed.next).1
  have commits := commits_of_committed committed
  have outcome := committed.outcome
  have after := committed.after
  rw [call] at commits outcome
  generalize logged EncryptionStatement.effects txn.log = writes at commits after
  cases commits with
  | @started _ _ _ _ added stored distinct free known peppers =>
      rw [after, registered?_stored peppers]
      cases known version member with
      | @registered n record le isThere valid =>
          have here := registered_later account le bound.le isThere
          have stays : (applyAll (db.stateAt start i) (keyWrites added)).registered? version =
              some record := by
            rw [registered?_frame, here]
            intro isTouched
            obtain ⟨row, isAdded, same⟩ := mem_touched_keyWrites.mp isTouched
            obtain rfl := EncryptionKey.registry.inj same
            cases (free row isAdded).symm.trans here
          exact ⟨record, stays, valid⟩
      | @added record nonce isAdded key made =>
          subst key
          refine ⟨record, lookup_keyWrites distinct isAdded, ?_⟩
          exact validateCheck_encryptCheck lawful made
      | @raced n seen record row le ran key isThere =>
          subst key
          obtain ⟨rows, s, listing, absent⟩ := absent_of_added committed.plays outcome ran
          have gone : (db.stateAt start i : EncryptionStore).registered? record.keyVersion =
              none := by
            refine since_seen account inTurn committed isStart listing
              (P := fun store => store.registered? record.keyVersion = none) absent ?_
            intro j index' other answer' committed' notStart before
            rw [registered_of_commits (commits_of_committed committed') notStart]
            exact before
          cases gone.symm.trans (registered_later account le bound.le isThere)

omit inTurn in
/-- **What a start registers** it has made under its own key. -/
theorem made_of_started (committed : PlainCommit settings start db i index txn answer)
    {nonces : Nat → Nonce} {nonce : Nonce} {pepper : Pepper}
    (call : txn.call = .ensureKeyring process nonces nonce pepper)
    (absent : (db.stateAt start i : EncryptionStore).registered? version = none)
    (found : (db.stateAt start (i + 1) : EncryptionStore).registered? version = some record) :
    ∃ nonce, (settings.keyring process).encryptCheck settings.aead nonce version =
      some record.verificationEnvelope := by
  have bound := (List.getElem?_eq_some_iff.mp committed.next).1
  have plays := committed.plays
  have outcome := committed.outcome
  have after := committed.after
  rw [call] at outcome
  generalize txn.log = log at plays outcome after
  cases outcome with
  | started checked registers ensures =>
      obtain ⟨added, stored, sublist, free, known, peppers, writes⟩ :=
        started_writes checked registers ensures plays
      rw [after, writes, registered?_stored peppers] at found
      have isAdded : record ∈ added ∧ record.keyVersion = version := by
        by_cases isTouched : EncryptionKey.registry version ∈ touched EncryptionStore
            (keyWrites added)
        · obtain ⟨row, member, same⟩ := mem_touched_keyWrites.mp isTouched
          obtain rfl := EncryptionKey.registry.inj same
          have there : (applyAll (db.stateAt start i) (keyWrites added)).registered?
              row.keyVersion = some row :=
            lookup_keyWrites (MasterKeyring.nodup_versions.sublist sublist) member
          obtain rfl := Option.some.inj (there.symm.trans found)
          exact ⟨member, rfl⟩
        · rw [registered?_frame isTouched, absent] at found
          cases found
      obtain ⟨member, rfl⟩ := isAdded
      have among := sublist.subset (List.mem_map_of_mem member)
      cases known _ among with
      | registered le isThere valid | raced le ran key isThere =>
          cases absent.symm.trans (registered_later account le bound.le isThere)
      | @added other nonce isOther same made =>
          obtain rfl : other = record := List.inj_on_of_nodup_map
            (MasterKeyring.nodup_versions.sublist sublist) isOther member same
          exact ⟨nonce, made⟩

omit inTurn in
/-- Every registered envelope was made under the key of some process. -/
theorem made_of_registered (fresh : ∀ version, start.registered? version = none)
    (bound : n ≤ db.history.length)
    (found : (db.stateAt start n : EncryptionStore).registered? version = some record) :
    ∃ process nonce, (settings.keyring process).encryptCheck settings.aead nonce version =
      some record.verificationEnvelope := by
  induction n with
  | zero => cases (fresh version).symm.trans found
  | succ n ih =>
      obtain ⟨index, txn, answer, committed⟩ := account.commit (Nat.lt_of_succ_le bound)
      cases before : (db.stateAt start n : EncryptionStore).registered? version with
      | some old =>
          have later := registered_later account (Nat.le_succ n) bound before
          obtain rfl := Option.some.inj (later.symm.trans found)
          exact ih (Nat.le_of_succ_le bound) before
      | none =>
          by_cases isStart : IsStart txn.call
          · obtain ⟨process, nonces, nonce, pepper, call⟩ := isStart.exists_call
            exact ⟨process, made_of_started account committed call before found⟩
          · rw [committed.after, registered_of_commits (commits_of_committed committed) isStart,
              before] at found
            cases found

/-- **The pepper stays**: a start that commits has not stored one in its place. -/
theorem pepper_of_committed {keyring : MasterKeyring Key} (lawful : settings.aead.Lawful)
    (tagged : Tagged settings.aead) (shared : ∀ process, settings.keyring process = keyring)
    (committed : PlainCommit settings start db i index txn answer) {record : EncryptedRecord}
    (isThere : (db.stateAt start i : EncryptionStore).record? (.system idempotencySecretName) =
      some record) :
    (applyAll (db.stateAt start i) (logged EncryptionStatement.effects txn.log)).holding?
        settings.aead keyring (.system idempotencySecretName) =
      (db.stateAt start i).holding? settings.aead keyring (.system idempotencySecretName) := by
  refine holding_of_commits lawful tagged shared (commits_of_committed committed) fun writes => ?_
  by_cases isStart : IsStart txn.call
  · obtain ⟨process, nonces, nonce, pepper, call⟩ := isStart.exists_call
    have outcome := committed.outcome
    rw [call] at outcome writes
    cases writes with
    | pepper _ stores =>
        obtain ⟨rows, s, reading, absent⟩ := absent_of_stored committed.plays outcome stores
        have gone : (db.stateAt start i : EncryptionStore).record?
            (.system idempotencySecretName) = none := by
          refine since_seen account inTurn committed isStart reading
            (P := fun store => store.record? (.system idempotencySecretName) = none) absent ?_
          intro j index' other answer' committed' notStart before
          have same := holding_of_commits lawful tagged shared (commits_of_committed committed')
            (not_writesRecord_pepper notStart)
          rw [EncryptionStore.holding?, EncryptionStore.holding?, before] at same
          exact Option.map_eq_none_iff.mp same
        cases gone.symm.trans isThere
  · exact not_writesRecord_pepper isStart writes

/-- What the pepper is, it is in every later state. -/
theorem pepper_later {keyring : MasterKeyring Key} (lawful : settings.aead.Lawful)
    (tagged : Tagged settings.aead) (shared : ∀ process, settings.keyring process = keyring)
    {m : Nat} (le : n ≤ m) (bound : m ≤ db.history.length) {held : Option Holding}
    (here : (db.stateAt start n : EncryptionStore).holding? settings.aead keyring
      (.system idempotencySecretName) = some held) :
    (db.stateAt start m : EncryptionStore).holding? settings.aead keyring
      (.system idempotencySecretName) = some held := by
  refine account.induct (P := fun store : EncryptionStore => store.holding? settings.aead keyring
    (.system idempotencySecretName) = some held) le bound here ?_
  intro j index txn answer _ _ committed before
  obtain ⟨record, isThere, -⟩ := Option.map_eq_some_iff.mp before
  exact (pepper_of_committed account inTurn lawful tagged shared committed isThere).trans before

omit account inTurn in
/-- **What a process has read** is what the pepper was at the time. -/
theorem pepper_of_read {bytes : Bytes}
    (committed : PlainCommit settings start db i index txn answer)
    (call : txn.call = .idempotencyPepper process) (isRead : answer = .pepper bytes) :
    ∃ n ≤ i, (db.stateAt start n : EncryptionStore).holding? settings.aead
      (settings.keyring process) (.system idempotencySecretName) = some (some (.bytes bytes)) := by
  have plays := committed.plays
  have outcome := committed.outcome
  rw [call, isRead] at outcome
  generalize txn.log = log at plays outcome
  cases outcome with
  | @pepper _ seen rows record _ isThere opens =>
      obtain ⟨⟨n, le, ran, -⟩, -⟩ := plays
      obtain ⟨isRow, -⟩ := Prod.mk.inj (Option.some.inj ran.performed)
      refine ⟨seen, ran.le.trans le, ?_⟩
      have found : (db.stateAt start seen : EncryptionStore).record?
          (.system idempotencySecretName) = some record := by
        refine record?_eq_some.mpr ?_
        have one : firstRecord? (Option.toList (lookup (db.stateAt start seen)
            (EncryptionKey.record (.system idempotencySecretName)))) = some record :=
          (congrArg firstRecord? isRow).trans isThere
        cases isLookup : lookup (db.stateAt start seen)
            (EncryptionKey.record (.system idempotencySecretName)) with
        | none =>
            rw [isLookup] at one
            cases one
        | some row =>
            obtain ⟨old, rfl, -⟩ := record_of_key (RowStore.key_of_lookup isLookup)
            rw [isLookup] at one
            exact congrArg (some ∘ EncryptionRow.record) (Option.some.inj one)
      have named := recordId_of_record? found
      rw [EncryptionStore.holding?, found, Option.map_some, opened_bytes, opens, Option.map_some]
      intro credentialId revision wrong
      cases named.symm.trans wrong

end Account

/-! ## Whole runs -/

section Runs

variable {Key : Type} {settings : EncryptionSettings Key} {initial : EncryptionStore → Prop}
  {world later : EncryptionWorld}

/-- A transaction that has committed has its place. -/
theorem committed_of_mem {start : EncryptionStore} {db : EncryptionDb}
    (account : PlainAccount settings start db) {txn : EncryptionTxn} (member : txn ∈ db.txns)
    (done : txn.status = .committed) :
    ∃ i index answer, PlainCommit settings start db i index txn answer := by
  obtain ⟨index, found⟩ := List.mem_iff_getElem?.mp member
  obtain ⟨i, next⟩ := List.mem_iff_getElem?.mp
    ((account.chronicle.recorded.iff index).mpr ⟨txn, found, done⟩)
  obtain ⟨index', txn', answer, committed⟩ :=
    account.commit (List.getElem?_eq_some_iff.mp next).1
  obtain rfl := Option.some.inj (committed.next.symm.trans next)
  obtain rfl := Option.some.inj (committed.found.symm.trans found)
  exact ⟨i, index', answer, committed⟩

/-- **The pepper never changes**, when processes are started one after the other and share one
keyring: once it is stored it holds the same value in every later state, and this is what all
processes have read, and will read. -/
theorem pepper_stable {keyring : MasterKeyring Key} (lawful : settings.aead.Lawful)
    (tagged : Tagged settings.aead) (shared : ∀ process, settings.keyring process = keyring)
    (reached : ((encryptionSystem settings initial).restrict StartsInTurn).Reachable world)
    (run : ((encryptionSystem settings initial).restrict StartsInTurn).Leads world later)
    {held : Option Holding} (isThere : world.db.state.holding? settings.aead keyring
      (.system idempotencySecretName) = some held) :
    later.db.state.holding? settings.aead keyring (.system idempotencySecretName) = some held ∧
      ∀ txn ∈ later.db.txns, ∀ process bytes, txn.status = .committed →
        txn.call = .idempotencyPepper process → txn.program = .done (.pepper bytes) →
          held = some (.bytes bytes) := by
  obtain ⟨start, -, account, bound, past⟩ := accounts_of_leads reached.of_restrict run.of_restrict
  have inTurn : Db.InTurn startOrder later.db := ((Service.inductive_ordered
    fun _ _ allowed => allowed).of_reachable (reached.leads run)).inTurn
  rw [past] at isThere
  have last := pepper_later account inTurn lawful tagged shared bound le_rfl isThere
  refine ⟨account.chronicle.present ▸ last, fun txn member process bytes done call isRead => ?_⟩
  obtain ⟨i, index, answer, committed⟩ := committed_of_mem account member done
  obtain rfl := Program.done.inj (committed.stands.symm.trans isRead)
  obtain ⟨n, le, read⟩ := pepper_of_read committed call rfl
  rw [shared] at read
  have placed := (List.getElem?_eq_some_iff.mp committed.next).1
  have also := pepper_later account inTurn lawful tagged shared (le.trans placed.le) le_rfl read
  exact Option.some.inj (last.symm.trans also)

/-- **Processes that have started agree on their keys**, when they are started one after the other
on a database without registered keys: each of them has, for every version that it is configured
with, the key under which the registered envelope was made, so that no two have different keys
under one version. -/
theorem started_keys_agree (lawful : settings.aead.Lawful) (authentic : settings.aead.Authentic)
    (fresh : ∀ store, initial store → ∀ version, store.registered? version = none)
    (reached : ((encryptionSystem settings initial).restrict StartsInTurn).Reachable world)
    {txn : EncryptionTxn} (member : txn ∈ world.db.txns) (done : txn.status = .committed)
    {process : Nat} {nonces : Nat → Nonce} {nonce : Nonce} {pepper : Pepper}
    (call : txn.call = .ensureKeyring process nonces nonce pepper) :
    (∀ version ∈ (settings.keyring process).versions, ∃ record,
      world.db.state.registered? version = some record ∧
        (settings.keyring process).validateCheck settings.aead version record.verificationEnvelope =
          true) ∧
    ∀ other ∈ world.db.txns, other.status = .committed → ∀ process' nonces' nonce' pepper',
      other.call = .ensureKeyring process' nonces' nonce' pepper' →
        ∀ version ∈ (settings.keyring process).versions,
          version ∈ (settings.keyring process').versions →
            (settings.keyring process).key? version = (settings.keyring process').key? version := by
  obtain ⟨start, isInitial, account, -, -⟩ :=
    accounts_of_leads reached.of_restrict (System.Leads.refl world)
  have inTurn : Db.InTurn startOrder world.db := ((Service.inductive_ordered
    fun _ _ allowed => allowed).of_reachable reached).inTurn
  have valid : ∀ txn ∈ world.db.txns, txn.status = .committed → ∀ process nonces nonce pepper,
      txn.call = .ensureKeyring process nonces nonce pepper →
        ∀ version ∈ (settings.keyring process).versions, ∃ record,
          world.db.state.registered? version = some record ∧
            (settings.keyring process).validateCheck settings.aead version
              record.verificationEnvelope = true := by
    intro txn member done process nonces nonce pepper call version isVersion
    obtain ⟨i, index, answer, committed⟩ := committed_of_mem account member done
    obtain ⟨record, found, valid⟩ := valid_of_started account inTurn lawful committed call isVersion
    have bound := (List.getElem?_eq_some_iff.mp committed.next).1
    refine ⟨record, ?_, valid⟩
    rw [account.chronicle.present]
    exact registered_later account bound le_rfl found
  refine ⟨valid txn member done process nonces nonce pepper call, ?_⟩
  intro other member' done' process' nonces' nonce' pepper' call' version isVersion isVersion'
  obtain ⟨record, found, isValid⟩ :=
    valid txn member done process nonces nonce pepper call version isVersion
  obtain ⟨record', found', isValid'⟩ :=
    valid other member' done' process' nonces' nonce' pepper' call' version isVersion'
  obtain rfl := Option.some.inj (found.symm.trans found')
  rw [account.chronicle.present] at found
  obtain ⟨maker, nonce'', made⟩ :=
    made_of_registered account (fresh start isInitial) le_rfl found
  exact (key_of_validateCheck authentic made isValid).trans
    (key_of_validateCheck authentic made isValid').symm

end Runs

/-! ## A start and a reading -/

instance : ∀ call : EncryptionCall, Decidable (IsStart call)
  | .ensureKeyring _ _ _ _ => isTrue trivial
  | .idempotencyPepper _ => isFalse id
  | .requestRotation _ _ _ => isFalse id
  | .processRotationBatch _ _ _ _ _ _ => isFalse id
  | .recordFailure _ _ => isFalse id
  | .ordinary _ => isFalse id

instance (first second : EncryptionCall) : Decidable (startOrder.waits first second) :=
  inferInstanceAs (Decidable (_ ∧ _))

instance (first second : EncryptionCall) : Decidable (startOrder.late first second) :=
  isFalse id

instance (world : EncryptionWorld) (act : DbAct EncryptionCall) :
    Decidable (StartsInTurn world act) := by
  unfold StartsInTurn CallOrder.Admits
  split <;> infer_instance

theorem zeroTagged_authentic : zeroTagged.Authentic := by
  intro key key' nonce plaintext aad apart
  refine if_neg fun same => apart ?_
  simpa [zeroTagged] using same

/-- The service on an empty database. -/
abbrev emptySystem : System EncryptionWorld (DbAct EncryptionCall) :=
  encryptionSystem bothKeys fun store => store = Table.empty

/-- A process starts. -/
def startOf (process : Nat) : EncryptionCall :=
  .ensureKeyring process (fun _ => zeroNonce) zeroNonce ⟨List.replicate 32 1, rfl⟩

/-- The first process starts on an empty database. -/
def startedFirst : List (DbAct EncryptionCall) :=
  [.onDb (.begin (startOf 1)), .onDb (.clock 0 0), .onDb (.perform 0), .onDb (.perform 0),
    .onDb (.perform 0), .onDb (.perform 0), .onDb (.perform 0), .onDb (.perform 0),
    .onDb (.perform 0), .onDb (.commit 0)]

/-- A second one starts, and reads the pepper. -/
def startedSecond : List (DbAct EncryptionCall) :=
  [.onDb (.begin (startOf 2)), .onDb (.clock 1 0), .onDb (.perform 1), .onDb (.perform 1),
    .onDb (.perform 1), .onDb (.commit 1), .onDb (.begin (.idempotencyPepper 2)),
    .onDb (.perform 2), .onDb (.commit 2)]

theorem bothKeys_shared (process : Nat) : bothKeys.keyring process = twoKeys := rfl

/-- The second process reads what the first has stored. -/
theorem pepper_stable_read : ∃ world later held,
    emptySystem.exec emptyWorld startedFirst = some world ∧
      emptySystem.exec world startedSecond = some later ∧
        world.db.state.holding? zeroTagged twoKeys (.system idempotencySecretName) = some held ∧
          later.db.state.holding? zeroTagged twoKeys (.system idempotencySecretName) = some held ∧
            ∀ txn ∈ later.db.txns, ∀ process bytes, txn.status = .committed →
              txn.call = .idempotencyPepper process → txn.program = .done (.pepper bytes) →
                held = some (.bytes bytes) := by
  have along : emptySystem.Along StartsInTurn emptyWorld startedFirst := by decide +kernel
  have ran : (emptySystem.exec emptyWorld startedFirst).any (fun world => decide
      (emptySystem.Along StartsInTurn world startedSecond ∧
        (emptySystem.exec world startedSecond).isSome = true ∧
        (world.db.state.record? (.system idempotencySecretName)).isSome = true)) = true := by
    decide +kernel
  obtain ⟨world, done, rest⟩ := (Option.any_eq_true _ _).mp ran
  obtain ⟨along', ran', stored⟩ := of_decide_eq_true rest
  obtain ⟨later, done'⟩ := Option.isSome_iff_exists.mp ran'
  obtain ⟨record, isThere⟩ := Option.isSome_iff_exists.mp stored
  have held : world.db.state.holding? zeroTagged twoKeys (.system idempotencySecretName) =
      some (opened zeroTagged twoKeys record) := by
    rw [EncryptionStore.holding?, isThere, Option.map_some]
  have reached : (emptySystem.restrict StartsInTurn).Reachable world :=
    ⟨emptyWorld, ⟨0, _, rfl, rfl⟩, System.leads_restrict_of_exec done along⟩
  refine ⟨world, later, _, done, done', held, ?_⟩
  exact pepper_stable zeroTagged_lawful zeroTagged_tagged bothKeys_shared reached
    (System.leads_restrict_of_exec done' along') held

/-- The keyring of a process that has been given a new key and no longer has the oldest. -/
def nextKeys : MasterKeyring UInt8 where
  keys := [(2, 9), (3, 11)]
  primaryVersion := 3
  distinct := by decide
  positive := by decide
  primary_mem := by decide

/-- The keyrings of the first process and of the others have one version in common. -/
def overlapping : EncryptionSettings UInt8 :=
  { bothKeys with keyring := fun process => if process = 1 then twoKeys else nextKeys }

/-- Two processes whose keyrings share a version, from empty tables on. -/
abbrev overlappingSystem : System EncryptionWorld (DbAct EncryptionCall) :=
  encryptionSystem overlapping fun store => store = Table.empty

/-- The first process starts, and then the second, which registers its new key. -/
def startedBoth : List (DbAct EncryptionCall) :=
  startedFirst ++ [.onDb (.begin (startOf 2)), .onDb (.clock 1 0), .onDb (.perform 1),
    .onDb (.perform 1), .onDb (.perform 1), .onDb (.perform 1), .onDb (.commit 1)]

/-- The process that a call starts. -/
def startedProcess : EncryptionCall → Option Nat
  | .ensureKeyring process _ _ _ => some process
  | _ => none

theorem exists_call_of_startedProcess {process : Nat} : ∀ {call : EncryptionCall},
    startedProcess call = some process →
      ∃ nonces nonce pepper, call = .ensureKeyring process nonces nonce pepper
  | .ensureKeyring _ nonces nonce pepper, rfl => ⟨nonces, nonce, pepper, rfl⟩

/-- The transaction is a start of the process that has committed. -/
def hasStarted (process : Nat) (txn : EncryptionTxn) : Bool :=
  decide (startedProcess txn.call = some process ∧ txn.status = .committed)

/-- The second process has started with the key that the first has registered. -/
theorem started_keys_agree_both : ∃ world record,
    overlappingSystem.exec emptyWorld startedBoth = some world ∧
      world.db.state.registered? 2 = some record ∧
        twoKeys.validateCheck zeroTagged 2 record.verificationEnvelope = true ∧
          twoKeys.key? 2 = nextKeys.key? 2 := by
  have along : overlappingSystem.Along StartsInTurn emptyWorld startedBoth := by decide +kernel
  have ran : (overlappingSystem.exec emptyWorld startedBoth).any (fun world =>
      world.db.txns.any (hasStarted 1) && world.db.txns.any (hasStarted 2)) = true := by
    decide +kernel
  obtain ⟨world, done, both⟩ := (Option.any_eq_true _ _).mp ran
  obtain ⟨first, second⟩ := Bool.and_eq_true_iff.mp both
  obtain ⟨txn, isFirst, states⟩ := List.any_eq_true.mp first
  obtain ⟨starts, committed⟩ := of_decide_eq_true states
  obtain ⟨nonces, nonce, pepper, call⟩ := exists_call_of_startedProcess starts
  obtain ⟨txn', isSecond, states'⟩ := List.any_eq_true.mp second
  obtain ⟨starts', committed'⟩ := of_decide_eq_true states'
  obtain ⟨nonces', nonce', pepper', call'⟩ := exists_call_of_startedProcess starts'
  have fresh : ∀ store : EncryptionStore, store = Table.empty →
      ∀ version, store.registered? version = none := by
    rintro store rfl version
    rfl
  have reached : (overlappingSystem.restrict StartsInTurn).Reachable world :=
    ⟨emptyWorld, ⟨0, _, rfl, rfl⟩, System.leads_restrict_of_exec done along⟩
  obtain ⟨valid, agree⟩ := started_keys_agree zeroTagged_lawful zeroTagged_authentic fresh reached
    isFirst committed call
  obtain ⟨record, found, isValid⟩ := valid 2 (by decide)
  exact ⟨world, record, done, found, isValid, agree txn' isSecond committed' 2 nonces' nonce'
    pepper' call' 2 (by decide) (by decide)⟩

end OpsComposer.Encryption
