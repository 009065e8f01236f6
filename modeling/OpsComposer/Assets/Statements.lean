import OpsComposer.Services.Assets

/-!
# What the statements on credentials and hosts do

The writes of a statement, told by the rows that it returns (`tellable`), and the rows that
each statement can leave (`leaves_of_makes`).
-/

set_option autoImplicit false

namespace OpsComposer.Assets

open Domain (Uuid)
open Foundations Services RowStore

/-! ## Rows by key -/

namespace AssetStore

variable {store store' : AssetStore}

theorem credential?_eq_some {credentialId : Uuid} {credential : Credential} :
    store.credential? credentialId = some credential ↔
      RowStore.lookup store (AssetKey.credential credentialId) = some (.credential credential) := by
  rw [credential?, Option.bind_eq_some_iff]
  constructor
  · rintro ⟨row, found, shown⟩
    obtain rfl := (AssetRow.credentials.unwrap_eq_some row credential).mp shown
    exact found
  · intro found
    exact ⟨_, found, rfl⟩

theorem mem_hosts {host : Host} : host ∈ store.hosts ↔
    RowStore.lookup store (AssetKey.host host.hostId) = some (.host host) := by
  rw [show AssetKey.host host.hostId = RowStore.key AssetStore (.host host) from rfl,
    ← RowStore.mem_rows, hosts, List.mem_filterMap]
  constructor
  · rintro ⟨row, member, shown⟩
    obtain rfl := (AssetRow.hosts.unwrap_eq_some row host).mp shown
    exact member
  · intro member
    exact ⟨.host host, member, rfl⟩

/-- The row under the key of a credential is one. -/
theorem credential_of_lookup {credentialId : Uuid} {row : AssetRow}
    (found : RowStore.lookup store (AssetKey.credential credentialId) = some row) :
    ∃ credential : Credential, row = .credential credential ∧
      credential.credentialId = credentialId := by
  have same : row.key = AssetKey.credential credentialId := RowStore.key_of_lookup found
  cases row with
  | credential credential => exact ⟨credential, rfl, AssetKey.credential.inj same⟩
  | revision _ | envelope _ | host _ => cases same

end AssetStore

/-! ## Writes -/

section Perform

variable {Key : Type} {primitives : AssetPrimitives Key} {snapshot current : AssetStore}
  {shown : List AssetRow} {writes : List (Write AssetKey AssetRow)}

/-- The rows that an update of credentials returns. -/
theorem perform_setCredential {condition : Credential → Bool} {f : Credential → Credential}
    (keeps : ∀ row, (f row).credentialId = row.credentialId)
    (done : (setCredential condition f keeps).perform AssetRow.clash snapshot current =
      some (shown, writes)) :
    writes = shown.map .put ∧ ∀ row ∈ shown, ∃ old, row = .credential (f old) ∧
      condition old = true ∧ current.credential? old.credentialId = some old := by
  obtain ⟨rfl, rfl⟩ := Command.perform_set done
  refine ⟨rfl, fun row member => ?_⟩
  obtain ⟨before, isFound, rfl⟩ := List.mem_map.mp member
  obtain ⟨isThere, holds, -⟩ := Command.mem_found.mp isFound
  obtain ⟨old, rfl, meets⟩ := AssetRow.credentials.meets_iff.mp holds
  exact ⟨old, AssetRow.credentials.map_wrap f old, meets,
    AssetStore.credential?_eq_some.mpr (RowStore.lookup_of_mem isThere)⟩

/-- The rows that an update of hosts returns. -/
theorem perform_setHost {condition : Host → Bool} {f : Host → Host}
    (keeps : ∀ row, (f row).hostId = row.hostId)
    (done : (setHost condition f keeps).perform AssetRow.clash snapshot current =
      some (shown, writes)) :
    writes = shown.map .put ∧ ∀ row ∈ shown, ∃ old, row = .host (f old) ∧
      condition old = true ∧ old ∈ current.hosts := by
  obtain ⟨rfl, rfl⟩ := Command.perform_set done
  refine ⟨rfl, fun row member => ?_⟩
  obtain ⟨before, isFound, rfl⟩ := List.mem_map.mp member
  obtain ⟨isThere, holds, -⟩ := Command.mem_found.mp isFound
  obtain ⟨old, rfl, meets⟩ := AssetRow.hosts.meets_iff.mp holds
  exact ⟨old, AssetRow.hosts.map_wrap f old, meets,
    AssetStore.mem_hosts.mpr (RowStore.lookup_of_mem isThere)⟩

/-- An insert returns its row, and writes it. -/
theorem perform_insert {row : AssetRow}
    (done : (Command.insert row false : Command AssetStore AssetKey AssetRow).perform
      AssetRow.clash snapshot current = some (shown, writes)) :
    RowStore.lookup current row.key = none ∧ shown = [row] ∧ writes = [.put row] := by
  obtain ⟨free, ⟨-, nothing, -⟩ | ⟨-, isShown, isWritten⟩⟩ := Command.perform_insert done
  · cases nothing
  · exact ⟨free, isShown, isWritten⟩

theorem tellable : (assetService primitives).Tellable AssetStatement.effects := by
  intro statement snapshot current shown writes done
  cases statement with
  | getCredential credentialId forUpdate =>
      cases forUpdate with
      | false => exact (Prod.mk.inj (Option.some.inj done)).2.symm
      | true => exact (Command.perform_set done).2
  | addCredential credential | addRevision revision | addEnvelope envelope | addHost host =>
      obtain ⟨-, rfl, rfl⟩ := perform_insert done
      rfl
  | setCurrentVersion credentialId version now =>
      exact (perform_setCredential (f := withVersion version now) (fun _ => rfl) done).1
  | updateCredentialMetadata credential expected =>
      exact (perform_setCredential (f := withMetadata credential) (fun _ => rfl) done).1
  | deleteCredential credentialId now =>
      exact (perform_setCredential (f := deletedAtTime now) (fun _ => rfl) done).1
  | getHost hostId => exact (Prod.mk.inj (Option.some.inj done)).2.symm
  | updateHost host expected => exact (perform_setHost (f := withData host) (fun _ => rfl) done).1
  | deleteHost hostId referenced => exact (Command.perform_delete done).2

/-- What a row in a write of a statement can be. -/
inductive AssetStatement.Leaves : AssetStatement → AssetRow → Prop where
  | locked {credentialId : Uuid} {row : Credential} (live : isLive credentialId row = true) :
      Leaves (.getCredential credentialId true) (.credential row)
  | addCredential {row : Credential} : Leaves (.addCredential row) (.credential row)
  | addRevision {row : CredentialRevision} : Leaves (.addRevision row) (.revision row)
  | addEnvelope {row : SecretEnvelope} : Leaves (.addEnvelope row) (.envelope row)
  | setCurrentVersion {credentialId : Uuid} {version now : Nat} {row : Credential}
      (live : isLive credentialId row = true) :
      Leaves (.setCurrentVersion credentialId version now)
        (.credential (withVersion version now row))
  | updateCredentialMetadata {credential row : Credential} {expected : Nat}
      (live : isLive credential.credentialId row = true) (same : row.lockVersion = expected) :
      Leaves (.updateCredentialMetadata credential expected)
        (.credential (withMetadata credential row))
  | deleteCredential {credentialId : Uuid} {now : Nat} {row : Credential}
      (live : isLive credentialId row = true) :
      Leaves (.deleteCredential credentialId now) (.credential (deletedAtTime now row))
  | addHost {row : Host} : Leaves (.addHost row) (.host row)
  | updateHost {host row : Host} {expected : Nat} (same : row.hostId = host.hostId) :
      Leaves (.updateHost host expected) (.host (withData host row))

/-- **The rows in the writes of a statement.** -/
theorem leaves_of_makes {statement : AssetStatement} {row : AssetRow}
    (makes : (assetService primitives).Makes statement (.put row)) : statement.Leaves row := by
  obtain ⟨snapshot, current, shown, writes, done, member⟩ := makes
  have inserted : ∀ {other : AssetRow},
      (Command.insert other false : Command AssetStore AssetKey AssetRow).perform
        AssetRow.clash snapshot current = some (shown, writes) → row = other := by
    intro other done
    obtain ⟨-, -, rfl⟩ := perform_insert done
    exact Write.put.inj (List.mem_singleton.mp member)
  have updated : writes = shown.map .put → row ∈ shown := by
    rintro rfl
    obtain ⟨other, isShown, same⟩ := List.mem_map.mp member
    exact Write.put.inj same ▸ isShown
  cases statement with
  | getCredential credentialId forUpdate =>
      cases forUpdate with
      | false =>
          obtain rfl := (Prod.mk.inj (Option.some.inj done)).2
          cases member
      | true =>
          obtain ⟨rfl, written⟩ := Command.perform_set done
          have isShown := updated written
          rw [List.map_id] at isShown
          obtain ⟨-, holds, -⟩ := Command.mem_found.mp isShown
          obtain ⟨old, rfl, live⟩ := AssetRow.credentials.meets_iff.mp holds
          exact .locked live
  | addCredential credential => exact inserted done ▸ .addCredential
  | addRevision revision => exact inserted done ▸ .addRevision
  | addEnvelope envelope => exact inserted done ▸ .addEnvelope
  | setCurrentVersion credentialId version now =>
      obtain ⟨written, rows⟩ :=
        perform_setCredential (f := withVersion version now) (fun _ => rfl) done
      obtain ⟨old, rfl, live, -⟩ := rows row (updated written)
      exact .setCurrentVersion live
  | updateCredentialMetadata credential expected =>
      obtain ⟨written, rows⟩ :=
        perform_setCredential (f := withMetadata credential) (fun _ => rfl) done
      obtain ⟨old, rfl, holds, -⟩ := rows row (updated written)
      obtain ⟨live, same⟩ := Bool.and_eq_true_iff.mp holds
      exact .updateCredentialMetadata live (of_decide_eq_true same)
  | deleteCredential credentialId now =>
      obtain ⟨written, rows⟩ :=
        perform_setCredential (f := deletedAtTime now) (fun _ => rfl) done
      obtain ⟨old, rfl, holds, -⟩ := rows row (updated written)
      exact .deleteCredential (Bool.and_eq_true_iff.mp holds).1
  | getHost hostId =>
      obtain rfl := (Prod.mk.inj (Option.some.inj done)).2
      cases member
  | addHost host => exact inserted done ▸ .addHost
  | updateHost host expected =>
      obtain ⟨written, rows⟩ := perform_setHost (f := withData host) (fun _ => rfl) done
      obtain ⟨old, rfl, holds, -⟩ := rows row (updated written)
      exact .updateHost (of_decide_eq_true holds).1
  | deleteHost hostId referenced =>
      obtain ⟨-, rfl⟩ := Command.perform_delete done
      obtain ⟨other, -, same⟩ := List.mem_map.mp member
      cases same

/-- Only hosts are removed. -/
theorem host_of_makes {statement : AssetStatement} {k : AssetKey}
    (makes : (assetService primitives).Makes statement (.erase k)) :
    ∃ hostId, k = .host hostId := by
  obtain ⟨snapshot, current, shown, writes, done, member⟩ := makes
  have told := tellable _ _ _ _ _ done
  cases statement with
  | deleteHost hostId referenced =>
      obtain ⟨rfl, rfl⟩ := Command.perform_delete done
      obtain ⟨row, isFound, same⟩ := List.mem_map.mp member
      obtain ⟨host, rfl, -⟩ := AssetRow.hosts.meets_iff.mp (Command.mem_found.mp isFound).2.1
      exact ⟨host.hostId, (Write.erase.inj same).symm⟩
  | getCredential credentialId forUpdate =>
      cases forUpdate <;> simp [told, AssetStatement.effects] at member
  | addCredential _ | addRevision _ | addEnvelope _ | setCurrentVersion _ _ _
  | updateCredentialMetadata _ _ | deleteCredential _ _ | getHost _ | addHost _ | updateHost _ _ =>
      simp [told, AssetStatement.effects] at member

end Perform

end OpsComposer.Assets
