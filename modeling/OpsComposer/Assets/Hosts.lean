import OpsComposer.Assets.Commits

/-!
# Hosts and deleted credentials

A host is written after a query has found its credential, and a credential is deleted when
a query has found no host that uses it.  Neither locks a row that the other one writes, so
both can commit, and then the host has a deleted credential.  When no such pair overlaps,
every host keeps a credential that is not deleted.
-/

set_option autoImplicit false

namespace OpsComposer.Assets

open Domain (Uuid)
open Foundations Services RowStore

/-- The credential exists and is not deleted. -/
def LiveIn (store : AssetStore) (credentialId : Uuid) : Prop :=
  ∃ credential : Credential,
    store.credential? credentialId = some credential ∧ credential.deletedAt = none

/-- The credential of every host exists and is not deleted. -/
def HostsLive (store : AssetStore) : Prop :=
  ∀ host ∈ store.hosts, LiveIn store host.credentialId

/-- The host that the event writes. -/
def written? : AssetEvent → Option Host
  | .ran (.addHost host) _ _ => some host
  | .ran (.updateHost host _) _ _ => some host
  | _ => none

/-- The event gives the host this credential. -/
def assigns (hostId credentialId : Uuid) (event : AssetEvent) : Bool :=
  (written? event).any fun host =>
    decide (host.hostId = hostId ∧ host.credentialId = credentialId)

/-- The credential that the event looks for without a lock, and the number of commits that it
sees. -/
def read? : AssetEvent → Option (Uuid × Nat)
  | .ran (.getCredential credentialId false) _ seen => some (credentialId, seen)
  | _ => none

/-- The credential that the event deletes, and the number of commits that it sees. -/
def deleted? : AssetEvent → Option (Uuid × Nat)
  | .ran (.deleteCredential credentialId _) _ seen => some (credentialId, seen)
  | _ => none

/-- The event deletes the credential. -/
def deletes (credentialId : Uuid) (event : AssetEvent) : Bool :=
  (deleted? event).any fun deletion => decide (deletion.1 = credentialId)

/-- The transactions that have committed after the first `seen` ones. -/
def committedSince (db : AssetDb) (seen : Nat) : List AssetTxn :=
  (db.history.drop seen).filterMap fun id => db.txns[id]?

/-- What the transaction has read about hosts and credentials still holds. -/
structure StillHolds (db : AssetDb) (txn : AssetTxn) : Prop where
  /-- A credential that is given to a host has not been deleted since it was read. -/
  assigned : ∀ host ∈ txn.log.filterMap written?, ∀ read ∈ txn.log.filterMap read?,
    read.1 = host.credentialId →
      ∀ other ∈ committedSince db read.2, other.log.any (deletes host.credentialId) = false
  /-- A credential that is deleted has not been given to a host since the snapshot. -/
  deleted : ∀ deletion ∈ txn.log.filterMap deleted?, ∀ host ∈ db.state.hosts,
    host.credentialId = deletion.1 →
      ∀ other ∈ committedSince db deletion.2,
        other.log.any (assigns host.hostId host.credentialId) = false

instance (store : AssetStore) (credentialId : Uuid) : Decidable (LiveIn store credentialId) :=
  decidable_of_iff (((store.credential? credentialId).any fun credential =>
    decide (credential.deletedAt = none)) = true) (by simp [LiveIn, Option.any_eq_true])

instance (store : AssetStore) : Decidable (HostsLive store) :=
  inferInstanceAs (Decidable (∀ host ∈ store.hosts, LiveIn store host.credentialId))

instance (db : AssetDb) (txn : AssetTxn) : Decidable (StillHolds db txn) :=
  decidable_of_iff (_ ∧ _) ⟨fun both => ⟨both.1, both.2⟩, fun holds => ⟨holds.1, holds.2⟩⟩

/-- A transaction commits only when what it has read still holds. -/
def CommitsInStep (world : AssetWorld) : DbAct AssetCall → Prop
  | .onDb (.commit id) => ∀ txn ∈ world.db.txns[id]?, StillHolds world.db txn
  | _ => True

section Commit

variable {Key : Type} {primitives : AssetPrimitives Key} {db : AssetDb} {start : AssetStore}
  {i id : Nat} {txn : AssetTxn} {told : AssetStatement → List AssetRow → Prop}

theorem mem_committedSince {seen : Nat} (le : seen ≤ i) (next : db.history[i]? = some id)
    (found : db.txns[id]? = some txn) : txn ∈ committedSince db seen := by
  refine List.mem_filterMap.mpr ⟨id, ?_, found⟩
  refine List.mem_of_getElem? (i := i - seen) ?_
  rw [List.getElem?_drop, Nat.add_sub_cancel' le, next]

variable {call : AssetCall} {log : List AssetEvent}

/-! ## What the logs say -/

variable {store : AssetStore} {rows : List AssetRow} {credentialId : Uuid}

/-- New credentials are not deleted. -/
theorem live_of_added (ended : Outcome primitives call log) {row : Credential} {seen : Nat}
    (ran : .ran (.addCredential row) rows seen ∈ log) : row.deletedAt = none := by
  cases ended with
  | create _ created | createSshPrivateKey _ _ created =>
      cases created
      obtain ⟨rfl, -, -⟩ := by simpa using ran
      rfl
  | rotate rotated | rotateSshPrivateKey _ rotated => cases rotated; simp at ran
  | update updated => cases updated; simp at ran
  | get | deleteHost => simp at ran
  | delete deleted => cases deleted; simp at ran
  | host written => cases written <;> simp at ran

/-- A transaction that gives a host a credential has found it, before it has written
anything, and deletes none. -/
theorem read_of_assigns (ended : Outcome primitives call log) {hostId : Uuid}
    (assigned : log.any (assigns hostId credentialId) = true) :
    (∃ earlier rows seen later,
      log = earlier ++ .ran (.getCredential credentialId false) rows seen :: later ∧
      logged AssetStatement.effects earlier = [] ∧ (firstCredential? rows).isSome) ∧
      ∀ other, log.any (deletes other) = false := by
  cases ended with
  | create _ created | createSshPrivateKey _ _ created =>
      cases created; simp [assigns, written?] at assigned
  | rotate rotated | rotateSshPrivateKey _ rotated =>
      cases rotated; simp [assigns, written?] at assigned
  | update updated => cases updated; simp [assigns, written?] at assigned
  | get | deleteHost => simp [assigns, written?] at assigned
  | delete deleted => cases deleted; simp [assigns, written?] at assigned
  | host written =>
      cases written with
      | created isFound =>
          obtain ⟨-, rfl⟩ : _ ∧ _ = credentialId := by
            simpa [assigns, written?, newHost] using assigned
          refine ⟨⟨[.clock _], _, _, [_], rfl, rfl, ?_⟩, fun other => rfl⟩
          rw [isFound, Option.isSome_some]
      | updated isFound =>
          obtain ⟨-, rfl⟩ : _ ∧ _ = credentialId := by
            simpa [assigns, written?, editedHost] using assigned
          refine ⟨⟨[_, .clock _], _, _, [_], rfl, rfl, ?_⟩, fun other => rfl⟩
          rw [isFound, Option.isSome_some]

/-- A transaction that deletes a credential has found the row of one. -/
theorem log_of_deletes (ended : Outcome primitives call log)
    (deleted : log.any (deletes credentialId) = true) :
    ∃ earlier now rows seen,
      log = earlier ++ [.ran (.deleteCredential credentialId now) rows seen] ∧
      logged AssetStatement.effects earlier = [] ∧ rows.length = 1 := by
  cases ended with
  | create _ created | createSshPrivateKey _ _ created =>
      cases created; simp [deletes, deleted?] at deleted
  | rotate rotated | rotateSshPrivateKey _ rotated =>
      cases rotated; simp [deletes, deleted?] at deleted
  | update updated => cases updated; simp [deletes, deleted?] at deleted
  | get | deleteHost => simp [deletes, deleted?] at deleted
  | host written => cases written <;> simp [deletes, deleted?] at deleted
  | delete log =>
      cases log with
      | log one =>
          obtain rfl : _ = credentialId := by simpa [deletes, deleted?] using deleted
          exact ⟨[_, .clock _], _, _, _, rfl, rfl, one⟩

/-! ## What a transaction changes -/

/-- A credential stays, unless the transaction deletes it. -/
theorem live_view
    (chronicle : Db.Chronicle (assetService primitives) AssetStatement.effects start db)
    (found : db.txns[id]? = some txn) (ended : Outcome primitives txn.call txn.log)
    (live : LiveIn store credentialId) :
    LiveIn (txn.view store) credentialId ∨ txn.log.any (deletes credentialId) = true := by
  obtain ⟨credential, isThere, notDeleted⟩ := live
  have before := AssetStore.credential?_eq_some.mp isThere
  obtain ⟨row, after⟩ := chronicle.present_view found before fun statement makes => by
    obtain ⟨hostId, same⟩ := host_of_makes makes
    cases same
  obtain ⟨credential', rfl, rfl⟩ := AssetStore.credential_of_lookup after
  have isThere' := AssetStore.credential?_eq_some.mpr after
  rcases chronicle.row_view found after with old | ⟨statement, rows, seen, ran, makes⟩
  · obtain rfl : credential' = credential := by
      simpa using (Option.some.inj (old.symm.trans before))
    exact .inl ⟨_, isThere', notDeleted⟩
  · cases leaves_of_makes makes with
    | locked live | setCurrentVersion live | updateCredentialMetadata live _ =>
        exact .inl ⟨_, isThere', (of_decide_eq_true live).2⟩
    | addCredential => exact .inl ⟨_, isThere', live_of_added ended ran⟩
    | deleteCredential live =>
        refine .inr (List.any_eq_true.mpr ⟨_, ran, decide_eq_true ?_⟩)
        exact (of_decide_eq_true live).1.symm

/-- A host keeps its credential, unless the transaction gives it another one. -/
theorem host_view
    (chronicle : Db.Chronicle (assetService primitives) AssetStatement.effects start db)
    (found : db.txns[id]? = some txn) {host : Host} (member : host ∈ (txn.view store).hosts) :
    host ∈ store.hosts ∨ txn.log.any (assigns host.hostId host.credentialId) = true := by
  rcases chronicle.row_view found (AssetStore.mem_hosts.mp member) with
    old | ⟨statement, rows, seen, ran, makes⟩
  · exact .inl (AssetStore.mem_hosts.mpr old)
  · refine .inr (List.any_eq_true.mpr ⟨_, ran, ?_⟩)
    cases leaves_of_makes makes with
    | addHost => exact decide_eq_true ⟨rfl, rfl⟩
    | updateHost same => exact decide_eq_true ⟨same.symm, rfl⟩

/-! ## What a transaction has read -/

/-- A credential that has been read was there. -/
theorem live_of_read {store' : AssetStore}
    {writes : List (Write AssetKey AssetRow)}
    (performed : (AssetStatement.meaning (.getCredential credentialId false) store).perform
      AssetRow.clash store store' = some (rows, writes))
    (isFound : (firstCredential? rows).isSome) : LiveIn store credentialId := by
  obtain ⟨credential, first⟩ := Option.isSome_iff_exists.mp isFound
  obtain ⟨isThere, live⟩ := first_of_read performed first
  exact ⟨credential, isThere, (of_decide_eq_true live).2⟩

/-- A credential of which the row is deleted has no host in the snapshot. -/
theorem free_of_deleted {store' : AssetStore} {now : Nat} {writes : List (Write AssetKey AssetRow)}
    (performed : (AssetStatement.meaning (.deleteCredential credentialId now) store).perform
      AssetRow.clash store store' = some (rows, writes)) (one : rows.length = 1) :
    ∀ host ∈ store.hosts, host.credentialId ≠ credentialId := by
  obtain ⟨-, each⟩ := perform_setCredential (f := deletedAtTime now) (fun _ => rfl) performed
  obtain ⟨row, rfl⟩ := List.length_eq_one_iff.mp one
  obtain ⟨old, -, holds, -⟩ := each row (List.mem_singleton_self row)
  obtain ⟨live, free⟩ := Bool.and_eq_true_iff.mp holds
  obtain ⟨rfl, -⟩ := of_decide_eq_true live
  simpa using free

/-! ## The invariant -/

/-- **One commit**: when what the transaction has read still holds, every host keeps a
credential that is not deleted. -/
theorem hostsLive_view
    (chronicle : Db.Chronicle (assetService primitives) AssetStatement.effects start db)
    (points : Db.AtPoints told (fun call log program =>
      ∀ answer, program = .done answer → Outcome primitives call log) db)
    (found : db.txns[id]? = some txn) (ended : Outcome primitives txn.call txn.log)
    (still : StillHolds db txn) (live : HostsLive db.state) : HostsLive (txn.view db.state) := by
  intro host member
  have committed : ∀ {n j : Nat} {seen : Nat}, seen ≤ n → db.history[n]? = some j →
      ∃ other ∈ committedSince db seen, db.txns[j]? = some other ∧
        Outcome primitives other.call other.log := by
    intro n j seen le next
    obtain ⟨other, isOther, done⟩ := chronicle.txn_of_history next
    obtain ⟨-, -, outcome⟩ := chronicle.outcome points isOther done
    exact ⟨other, mem_committedSince le next isOther, isOther, outcome⟩
  have there : LiveIn db.state host.credentialId := by
    rcases host_view chronicle found member with old | assigned
    · exact live host old
    · obtain ⟨⟨earlier, rows, seen, later, split, nothing, isFound⟩, -⟩ :=
        read_of_assigns ended assigned
      obtain ⟨n, ran, -⟩ := chronicle.ran id txn found earlier _ rows seen later split
      have performed := ran.performed
      rw [nothing] at performed
      have read := live_of_read performed isFound
      by_contra lost
      rw [chronicle.present] at lost
      obtain ⟨m, j, le, -, next, before, after⟩ :=
        Db.exists_loss (P := fun store => LiveIn store host.credentialId) read
          (ran.le.trans ran.bound) le_rfl lost
      obtain ⟨other, since, isOther, outcome⟩ := committed le next
      rw [Db.Chronicle.stateAt_commit next isOther] at after
      have isDeleted := (live_view chronicle isOther outcome before).resolve_left after
      have isRan : .ran (.getCredential host.credentialId false) rows seen ∈ txn.log := by
        rw [split]
        exact List.mem_append_right _ (List.mem_cons_self ..)
      obtain ⟨event, isEvent, writes⟩ := List.any_eq_true.mp assigned
      obtain ⟨written, isWritten, same⟩ := (Option.any_eq_true _ _).mp writes
      have isHost : written ∈ txn.log.filterMap written? :=
        List.mem_filterMap.mpr ⟨event, isEvent, isWritten⟩
      have isRead : (host.credentialId, seen) ∈ txn.log.filterMap read? :=
        List.mem_filterMap.mpr ⟨_, isRan, rfl⟩
      obtain ⟨-, isIts⟩ := of_decide_eq_true same
      rw [← isIts, still.assigned written isHost _ isRead isIts.symm other since] at isDeleted
      cases isDeleted
  refine (live_view chronicle found ended there).resolve_right fun isDeleted => ?_
  obtain ⟨earlier, now, rows, seen, split, nothing, one⟩ := log_of_deletes ended isDeleted
  obtain ⟨n, ran, -⟩ := chronicle.ran id txn found earlier _ rows seen [] split
  have performed := ran.performed
  rw [nothing] at performed
  have free := free_of_deleted performed one
  have old : host ∈ db.state.hosts := by
    refine (host_view chronicle found member).resolve_right fun assigned => ?_
    rw [(read_of_assigns ended assigned).2] at isDeleted
    cases isDeleted
  have isThere := old
  rw [chronicle.present] at isThere
  obtain ⟨m, j, le, -, next, before, after⟩ :=
    Db.exists_loss (P := fun store => host ∉ store.hosts) (fun early => free host early rfl)
      (ran.le.trans ran.bound) le_rfl (not_not_intro isThere)
  obtain ⟨other, since, isOther, -⟩ := committed le next
  rw [Db.Chronicle.stateAt_commit next isOther, not_not] at after
  have assigned := (host_view chronicle isOther after).resolve_left before
  have isRan : .ran (.deleteCredential host.credentialId now) rows seen ∈ txn.log := by
    rw [split]
    exact List.mem_append_right _ (List.mem_singleton_self _)
  have isDeletion : (host.credentialId, seen) ∈ txn.log.filterMap deleted? :=
    List.mem_filterMap.mpr ⟨_, isRan, rfl⟩
  rw [still.deleted _ isDeletion host old rfl other since] at assigned
  cases assigned

end Commit

/-- **Hosts and deleted credentials**: in every run in which transactions commit only when
what they have read still holds, every host has a credential that is not deleted. -/
theorem hosts_live_of_reachable {Key : Type} {primitives : AssetPrimitives Key} {world : AssetWorld}
    (reached : ((assetSystem primitives).restrict CommitsInStep).Reachable world) :
    HostsLive world.db.state := by
  have start : ∀ store : AssetStore, store = Table.empty → HostsLive store := by
    rintro store rfl host member
    cases member
  refine ((Service.inductive_states tellable (fun _ _ _ _ _ _ => trivial) ends_program start
    ?_).of_reachable reached).2
  intro world id txn answer chronicled still found ended live
  obtain ⟨_, -, chronicle⟩ := chronicled.chronicle
  exact hostsLive_view chronicle chronicled.points found ended (still txn found) live

instance (world : AssetWorld) : ∀ act : DbAct AssetCall, Decidable (CommitsInStep world act)
  | .tick _ | .onDb (.begin _) | .onDb (.clock _ _) | .onDb (.snapshot _) | .onDb (.perform _)
  | .onDb (.check _) | .onDb (.abort _) => isTrue trivial
  | .onDb (.commit id) =>
      inferInstanceAs (Decidable (∀ txn ∈ world.db.txns[id]?, StillHolds world.db txn))

/-- An encryption that appends a tag of zeros. -/
def padding : Aead Unit where
  encrypt _ _ plaintext _ := plaintext ++ List.replicate 16 0
  decrypt _ _ ciphertext _ := some (ciphertext.take (ciphertext.length - 16))

/-- One key, and addresses that are what they should be. -/
def plainPrimitives : AssetPrimitives Unit where
  aead := padding
  keyring :=
    { keys := [(1, ())]
      primaryVersion := 1
      distinct := List.nodup_singleton 1
      positive := by simp
      primary_mem := List.mem_singleton_self 1 }
  loadPrivateKey _ _ := none
  fingerprint _ := none
  validateAddress := some

/-- A nonce of zeros. -/
def zeroNonce : Nonce := ⟨List.replicate 12 0, rfl⟩

/-- A password credential comes into being. -/
def credentialCreated : List (DbAct AssetCall) :=
  [.onDb (.begin (.create ⟨text "deploy", text "deploy", []⟩ ⟨text "secret", by decide⟩ none
      ⟨false, text "sudo", []⟩ 1 zeroNonce)), .onDb (.clock 0 0),
    .onDb (.perform 0), .onDb (.perform 0), .onDb (.perform 0), .onDb (.commit 0)]

/-- A request for a host with the credential. -/
def webServer : HostData where
  name := text "web"
  address := text "10.0.0.1"
  sshPort := 22
  credentialId := 1
  pythonInterpreter := none
  enabled := true
  description := []
  hostVariables := []

/-- The host comes into being, and the credential cannot be deleted any more. -/
def hostCreated : List (DbAct AssetCall) :=
  credentialCreated ++
    [.onDb (.begin (.createHost webServer 7)), .onDb (.clock 1 0), .onDb (.perform 1),
      .onDb (.perform 1), .onDb (.commit 1),
      .onDb (.begin (.delete 1)), .onDb (.perform 2), .onDb (.clock 2 0), .onDb (.perform 2)]

/-- The credential is deleted between the reading of it and the insertion of the host. -/
def hostOvertaken : List (DbAct AssetCall) :=
  credentialCreated ++
    [.onDb (.begin (.createHost webServer 7)), .onDb (.clock 1 0), .onDb (.perform 1),
      .onDb (.begin (.delete 1)), .onDb (.perform 2), .onDb (.clock 2 0), .onDb (.perform 2),
      .onDb (.commit 2), .onDb (.perform 1), .onDb (.commit 1)]

theorem hosts_live_of_reachable_created : ∃ world,
    (assetSystem plainPrimitives).exec { clock := 0, db := { state := Table.empty } }
        hostCreated = some world ∧
      world.db.state.hosts.length = 1 ∧ HostsLive world.db.state := by
  have ran : ((assetSystem plainPrimitives).exec { clock := 0, db := { state := Table.empty } }
      hostCreated).any (fun world => decide (world.db.state.hosts.length = 1)) = true := by
    decide +kernel
  have along : (assetSystem plainPrimitives).Along CommitsInStep
      { clock := 0, db := { state := Table.empty } } hostCreated := by
    decide +kernel
  obtain ⟨world, done, one⟩ := (Option.any_eq_true _ _).mp ran
  exact ⟨world, done, of_decide_eq_true one,
    hosts_live_of_reachable ⟨_, ⟨_, _, rfl, rfl⟩, System.leads_restrict_of_exec done along⟩⟩

/-- A host can come to have a deleted credential. -/
theorem hosts_live_fails : ¬ ∀ (primitives : AssetPrimitives Unit) (world : AssetWorld),
    (assetSystem primitives).Reachable world → HostsLive world.db.state := by
  intro always
  have ran : ((assetSystem plainPrimitives).exec { clock := 0, db := { state := Table.empty } }
      hostOvertaken).any (fun world => decide (¬ HostsLive world.db.state)) = true := by
    decide +kernel
  obtain ⟨world, done, broken⟩ := (Option.any_eq_true _ _).mp ran
  exact of_decide_eq_true broken
    (always plainPrimitives world ⟨_, ⟨_, _, rfl, rfl⟩, System.leads_of_exec done⟩)

end OpsComposer.Assets
