import OpsComposer.Assets.Outcomes
import OpsComposer.Foundations.RowQueries

/-!
# What the operations commit

The writes with which each operation on credentials commits, and what the rows that it has
touched are until then: the log of a committed transaction is played on the committed
states at which its statements have run.
-/

set_option autoImplicit false

namespace OpsComposer.Assets

open Domain (Uuid)
open Foundations Services RowStore

/-! ## One credential -/

section Found

variable {snapshot current : AssetStore} {condition : Credential → Bool} {credentialId : Uuid}

/-- A statement that looks for one credential finds it when it meets the condition in the
snapshot and still does. -/
theorem found_credential (only : ∀ row, condition row = true → row.credentialId = credentialId) :
    (∃ old new : Credential, snapshot.credential? credentialId = some old ∧
        condition old = true ∧ current.credential? credentialId = some new ∧
        condition new = true ∧
        Command.found snapshot current (AssetRow.credentials.meets condition) =
          [.credential new]) ∨
      (Command.found snapshot current (AssetRow.credentials.meets condition) = [] ∧
        ∀ old new : Credential, snapshot.credential? credentialId = some old →
          condition old = true → current.credential? credentialId = some new →
            condition new = false) := by
  have named : ∀ row, condition row = true →
      AssetRow.key (AssetRow.credentials.wrap row) = .credential credentialId := by
    intro row holds
    exact congrArg AssetKey.credential (only row holds)
  exact RowKind.found_one named

variable {clash : AssetRow → AssetRow → Bool} {shown : List AssetRow}
  {writes : List (Write AssetKey AssetRow)}

variable {row : Credential}

theorem only_isLive (live : isLive credentialId row = true) : row.credentialId = credentialId :=
  (of_decide_eq_true live).1

/-- The row that an update of one credential returns. -/
theorem first_of_setCredential {f : Credential → Credential}
    (keeps : ∀ row, (f row).credentialId = row.credentialId)
    (only : ∀ row, condition row = true → row.credentialId = credentialId)
    (done : (setCredential condition f keeps).perform clash snapshot current = some (shown, writes))
    (first : firstCredential? shown = some row) :
    ∃ new : Credential, current.credential? credentialId = some new ∧ condition new = true ∧
      row = f new ∧ shown = [.credential (f new)] := by
  obtain ⟨rfl, -⟩ := Command.perform_set done
  rcases found_credential only with
    ⟨old, new, -, -, isNew, holds, isFound⟩ | ⟨nothing, -⟩
  · rw [isFound] at first ⊢
    have same : row = f new := (Option.some.inj first).symm
    exact ⟨new, isNew, holds, same, rfl⟩
  · rw [nothing] at first
    cases first

/-- An update of one credential that meets the condition and has met it in the snapshot. -/
theorem shown_of_setCredential {f : Credential → Credential}
    (keeps : ∀ row, (f row).credentialId = row.credentialId)
    (only : ∀ row, condition row = true → row.credentialId = credentialId)
    (done : (setCredential condition f keeps).perform clash snapshot current = some (shown, writes))
    {old new : Credential} (isOld : snapshot.credential? credentialId = some old)
    (held : condition old = true) (isNew : current.credential? credentialId = some new)
    (holds : condition new = true) : shown = [.credential (f new)] := by
  obtain ⟨rfl, -⟩ := Command.perform_set done
  rcases found_credential only with
    ⟨-, new', -, -, isNew', -, isFound⟩ | ⟨-, none⟩
  · obtain rfl : new' = new := Option.some.inj (isNew'.symm.trans isNew)
    rw [isFound]
    rfl
  · rw [none old new isOld held isNew] at holds
    cases holds

/-- The row that a query for a credential with a lock returns. -/
theorem first_of_locked
    (done : (AssetStatement.meaning (.getCredential credentialId true) snapshot).perform clash
      snapshot current = some (shown, writes))
    (first : firstCredential? shown = some row) :
    current.credential? credentialId = some row ∧ isLive credentialId row = true ∧
      shown = [.credential row] := by
  obtain ⟨rfl, -⟩ := Command.perform_set done
  rw [List.map_id] at first ⊢
  rcases found_credential fun row (live : isLive credentialId row = true) => only_isLive live with
    ⟨old, new, -, -, isNew, holds, isFound⟩ | ⟨nothing, -⟩
  · rw [isFound] at first ⊢
    obtain rfl := Option.some.inj first
    exact ⟨isNew, holds, rfl⟩
  · rw [nothing] at first
    cases first

/-- The row that a query for a credential returns. -/
theorem first_of_read
    (done : (AssetStatement.meaning (.getCredential credentialId false) snapshot).perform clash
      snapshot current = some (shown, writes))
    (first : firstCredential? shown = some row) :
    snapshot.credential? credentialId = some row ∧ isLive credentialId row = true := by
  obtain ⟨rfl, -⟩ := Prod.mk.inj (Option.some.inj done)
  have member : AssetRow.credential row ∈
      snapshot.rows.filter (AssetRow.credentials.meets (isLive credentialId)) := by
    cases shown : snapshot.rows.filter (AssetRow.credentials.meets (isLive credentialId)) with
    | nil => rw [shown] at first; cases first
    | cons head rest =>
        rw [shown] at first
        cases head with
        | credential other =>
            obtain rfl := Option.some.inj first
            exact List.mem_cons_self ..
        | revision _ | envelope _ | host _ => cases first
  obtain ⟨isThere, meets⟩ := List.mem_filter.mp member
  obtain ⟨other, same, live⟩ := AssetRow.credentials.meets_iff.mp meets
  obtain rfl := AssetRow.credential.inj same
  obtain rfl := only_isLive live
  exact ⟨AssetStore.credential?_eq_some.mpr (RowStore.lookup_of_mem (s := snapshot) isThere), live⟩

end Found

/-! ## Writes -/

section Writes

variable {Key : Type} {primitives : AssetPrimitives Key} {db : AssetDb} {start : AssetStore}
  {i : Nat} {log : List AssetEvent}

/-- A log of assets that has run up to the state after `i` commits. -/
abbrev AssetPlays (primitives : AssetPrimitives Key) (start : AssetStore) (db : AssetDb)
    (i : Nat) (log : List AssetEvent) : Prop :=
  Db.Plays (assetService primitives) AssetStatement.effects start db i [] log

/-- A revision is added. -/
def Adds (credentialId : Uuid) (version : Nat) (log : List AssetEvent) : Prop :=
  ∃ now rows seen, .ran (.addRevision ⟨credentialId, version, now⟩) rows seen ∈ log

variable {credentialId : Uuid}

/-- The writes of `_create`: the credential was not there. -/
theorem created_writes {credentialType : CredentialType} {secret : SecretDict}
    {publicConfig : Config} {nonce : Nonce}
    (plays : AssetPlays primitives start db i log)
    (created : Created primitives credentialType secret publicConfig credentialId nonce log) :
    ∃ data now envelope,
      CredentialCipher.encrypt primitives.aead primitives.keyring nonce credentialId 1 secret =
        some envelope ∧
      RowStore.lookup (db.stateAt start i) (AssetKey.credential credentialId) = none ∧
      Adds credentialId 1 log ∧
      logged AssetStatement.effects log =
        [.put (.credential (newCredential data credentialType publicConfig credentialId now)),
          .put (.revision ⟨credentialId, 1, now⟩),
          .put (.envelope ⟨credentialId, 1, envelope, primitives.keyring.primaryVersion, now⟩)] := by
  cases created with
  | @log data now envelope rows rows' rows'' seen seen' seen'' encrypted =>
      obtain ⟨⟨n, -, ran, kept⟩, ⟨n', -, ran', -⟩, ⟨n'', -, ran'', -⟩, -⟩ := plays
      obtain ⟨free, rfl, -⟩ := perform_insert ran.performed
      obtain ⟨-, rfl, -⟩ := perform_insert ran'.performed
      obtain ⟨-, rfl, -⟩ := perform_insert ran''.performed
      refine ⟨data, now, envelope, encrypted, ?_,
        ⟨now, _, seen', .tail _ (.tail _ (.head _))⟩, rfl⟩
      exact (kept _ (List.mem_cons_self ..)).symm.trans free

/-- The row of a credential that is put last is the one that is seen. -/
theorem credential?_put {store : AssetStore} (before : List (Write AssetKey AssetRow))
    {credential : Credential} (same : credential.credentialId = credentialId) :
    (applyAll store (before ++ [.put (.credential credential)])).credential? credentialId =
      some credential := by
  have named : AssetRow.key (AssetRow.credentials.wrap credential) = .credential credentialId :=
    congrArg AssetKey.credential same
  exact RowKind.at?_put before named

/-- The row of a credential is not changed by a row of another kind. -/
theorem credential?_put_other {store : AssetStore} {before : List (Write AssetKey AssetRow)}
    {row : AssetRow} (other : row.key ≠ .credential credentialId) :
    (applyAll store (before ++ [.put row])).credential? credentialId =
      (applyAll store before).credential? credentialId :=
  RowKind.at?_put_other other

/-- The writes of `_rotate`: the credential was there when the transaction committed. -/
theorem rotated_writes {credentialType : CredentialType} {secret : SecretDict}
    {publicMetadata : Config} {nonce : Nonce} (plays : AssetPlays primitives start db i log)
    (isRotated : Rotated primitives credentialType secret publicMetadata credentialId nonce log) :
    ∃ credential now envelope,
      (db.stateAt start i).credential? credentialId = some credential ∧
      isLive credentialId credential = true ∧ credential.credentialType = credentialType ∧
      CredentialCipher.encrypt primitives.aead primitives.keyring nonce credentialId
        (credential.currentVersion + 1) secret = some envelope ∧
      Adds credentialId (credential.currentVersion + 1) log ∧
      logged AssetStatement.effects log =
        let version := credential.currentVersion + 1
        let rotated := withVersion version now credential
        [.put (.credential credential),
          .put (.revision ⟨credentialId, version, now⟩),
          .put (.envelope
            ⟨credentialId, version, envelope, primitives.keyring.primaryVersion, now⟩),
          .put (.credential rotated),
          .put (.credential
            (withMetadata (withPublicMetadata publicMetadata now rotated) rotated))] := by
  cases isRotated with
  | @log found rows rows' rows'' last credential rotated now envelope s₁ s₂ s₃ s₄ s₅ isFound type
      encrypted isRotated =>
      obtain ⟨⟨n₁, -, ran₁, kept₁⟩, ⟨n₂, -, ran₂, -⟩, ⟨n₃, -, ran₃, -⟩, ⟨n₄, -, ran₄, -⟩,
        ⟨n₅, -, ran₅, -⟩, -⟩ := plays
      obtain ⟨locked, live, rfl⟩ := first_of_locked ran₁.performed isFound
      obtain ⟨-, rfl, -⟩ := perform_insert ran₂.performed
      obtain ⟨-, rfl, -⟩ := perform_insert ran₃.performed
      have key := only_isLive live
      -- the row that has been locked is the one that the updates find
      have shown₄ : ∀ store : AssetStore,
          (applyAll store ([] ++ [.put (.credential credential)] ++
            [.put (.revision ⟨credentialId, credential.currentVersion + 1, now⟩)] ++
            [.put (.envelope ⟨credentialId, credential.currentVersion + 1, envelope,
              primitives.keyring.primaryVersion, now⟩)])).credential? credentialId =
            some credential := fun store =>
        (credential?_put_other (by simp [AssetRow.key])).trans
          ((credential?_put_other (by simp [AssetRow.key])).trans (credential?_put _ key))
      obtain ⟨new, isNew, -, rfl, rfl⟩ :=
        first_of_setCredential (f := withVersion _ _) (fun _ => rfl) (fun _ => only_isLive)
          ran₄.performed isRotated
      obtain rfl : new = credential :=
        Option.some.inj (isNew.symm.trans (shown₄ (db.stateAt start n₄)))
      have shown₅ : ∀ store : AssetStore,
          (applyAll store ([] ++ [.put (.credential new)] ++
            [.put (.revision ⟨credentialId, new.currentVersion + 1, now⟩)] ++
            [.put (.envelope ⟨credentialId, new.currentVersion + 1, envelope,
              primitives.keyring.primaryVersion, now⟩)] ++
            [.put (.credential (withVersion (new.currentVersion + 1) now new))])).credential?
              credentialId =
            some (withVersion (new.currentVersion + 1) now new) := fun store => credential?_put _ key
      have holds : (isLive (withVersion (new.currentVersion + 1) now new).credentialId
          (withVersion (new.currentVersion + 1) now new) &&
            decide ((withVersion (new.currentVersion + 1) now new).lockVersion =
              (withVersion (new.currentVersion + 1) now new).lockVersion)) = true := by
        simpa [isLive, withVersion] using (of_decide_eq_true live).2
      have only : ∀ row : Credential, (isLive new.credentialId row &&
          decide (row.lockVersion = new.lockVersion + 1)) = true →
            row.credentialId = credentialId :=
        fun row meets => (only_isLive (Bool.and_eq_true_iff.mp meets).1).trans key
      obtain rfl := shown_of_setCredential (f := withMetadata _) (fun _ => rfl) only
        ran₅.performed (shown₅ (db.stateAt start s₅)) holds (shown₅ (db.stateAt start n₅)) holds
      refine ⟨new, now, envelope, ?_, live, type, encrypted,
        ⟨now, _, s₂, .tail _ (.tail _ (.head _))⟩, rfl⟩
      refine AssetStore.credential?_eq_some.mpr
        ((kept₁ _ ?_).symm.trans (AssetStore.credential?_eq_some.mp locked))
      simp [AssetStatement.effects, touched, written, RowStore.key, AssetRow.key, key]

/-- The writes of `update`: the row that is written has the lock version that was expected. -/
theorem updated_writes {expectedLockVersion : Nat} (plays : AssetPlays primitives start db i log)
    (updated : Updated credentialId expectedLockVersion log) :
    ∃ data enabled become common now current row rows seen,
      commonPublicConfig become = .ok common ∧
      .ran (.getCredential credentialId false) rows seen ∈ log ∧ seen ≤ i ∧
      (db.stateAt start seen).credential? credentialId = some current ∧
      (db.stateAt start i).credential? credentialId = some row ∧
      isLive credentialId row = true ∧ row.lockVersion = expectedLockVersion ∧
      logged AssetStatement.effects log =
        [.put (.credential
          (withMetadata (editedCredential data enabled common now current) row))] := by
  cases updated with
  | @log data enabled become common now found rows current updated seen seen' configured isFound
      isUpdated =>
      obtain ⟨⟨n, le, ran, -⟩, ⟨n', -, ran', kept⟩, -⟩ := plays
      obtain ⟨read, live⟩ := first_of_read ran.performed isFound
      have key : current.credentialId = credentialId := only_isLive live
      have only : ∀ row : Credential, (isLive current.credentialId row &&
          decide (row.lockVersion = expectedLockVersion)) = true →
            row.credentialId = credentialId :=
        fun row meets => (only_isLive (Bool.and_eq_true_iff.mp meets).1).trans key
      obtain ⟨row, isThere, meets, -, rfl⟩ := first_of_setCredential
        (f := withMetadata (editedCredential data enabled common now current)) (fun _ => rfl) only
        ran'.performed isUpdated
      obtain ⟨isRowLive, version⟩ := Bool.and_eq_true_iff.mp meets
      refine ⟨data, enabled, become, common, now, current, row, found, seen, configured,
        .tail _ (.head _), ran.le.trans le, read, ?_, key ▸ isRowLive, of_decide_eq_true version,
        rfl⟩
      refine AssetStore.credential?_eq_some.mpr
        ((kept _ ?_).symm.trans (AssetStore.credential?_eq_some.mp isThere))
      have same : row.credentialId = credentialId := (only_isLive isRowLive).trans key
      simp [AssetStatement.effects, touched, written, RowStore.key, AssetRow.key, withMetadata,
        same]

/-- The writes of `delete`. -/
theorem deleted_writes (plays : AssetPlays primitives start db i log)
    (deleted : Deleted credentialId log) :
    ∃ now row, (db.stateAt start i).credential? credentialId = some row ∧
      logged AssetStatement.effects log = [.put (.credential (deletedAtTime now row))] := by
  cases deleted with
  | @log found rows now seen seen' one =>
      obtain ⟨-, ⟨n', -, ran', kept⟩, -⟩ := plays
      obtain ⟨shown, rfl⟩ := List.length_eq_one_iff.mp one
      obtain ⟨-, each⟩ := perform_setCredential (f := deletedAtTime now) (fun _ => rfl)
        ran'.performed
      obtain ⟨row, rfl, meets, isThere⟩ := each shown (List.mem_singleton_self shown)
      have same : row.credentialId = credentialId :=
        only_isLive (Bool.and_eq_true_iff.mp meets).1
      refine ⟨now, row, ?_, rfl⟩
      rw [same] at isThere
      refine AssetStore.credential?_eq_some.mpr
        ((kept _ ?_).symm.trans (AssetStore.credential?_eq_some.mp isThere))
      simp [AssetStatement.effects, touched, written, RowStore.key, AssetRow.key, deletedAtTime,
        same]

end Writes

/-! ## Hosts -/

/-- The event leaves credentials as they are. -/
def sparesCredentials : AssetEvent → Bool
  | .clock _ => true
  | .ran (.getCredential _ forUpdate) _ _ => !forUpdate
  | .ran (.getHost _) _ _ => true
  | .ran (.addHost _) _ _ => true
  | .ran (.updateHost _ _) _ _ => true
  | .ran (.deleteHost _ _) _ _ => true
  | _ => false

/-- A transaction of statements that leave credentials as they are touches hosts only. -/
theorem host_of_held {Key : Type} {primitives : AssetPrimitives Key} {db : AssetDb}
    {start : AssetStore} {id : Nat} {txn : AssetTxn}
    (chronicle : Db.Chronicle (assetService primitives) AssetStatement.effects start db)
    (found : db.txns[id]? = some txn) (spares : txn.log.all sparesCredentials = true) {k : AssetKey}
    (held : k ∈ txn.holds) : ∃ hostId, k = .host hostId := by
  obtain ⟨write, isWritten, rfl⟩ := mem_touched.mp held
  rw [chronicle.writes id txn found] at isWritten
  obtain ⟨statement, rows, seen, ran, -, makes⟩ := chronicle.makes_of_written found isWritten
  cases write with
  | erase k => exact host_of_makes makes
  | put row =>
      have spared := List.all_eq_true.mp spares _ ran
      cases leaves_of_makes makes with
      | addHost | updateHost _ => exact ⟨_, rfl⟩
      | locked _ | addCredential | addRevision | addEnvelope | setCurrentVersion _
      | updateCredentialMetadata _ _ | deleteCredential _ => cases spared

end OpsComposer.Assets
