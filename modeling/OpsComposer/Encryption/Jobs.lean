import OpsComposer.Encryption.Commits

/-!
# Rotation jobs that have ended

A batch claims only a job that waits or whose lease has run out, so it leaves the jobs that
have ended alone.  The transaction that records a failure updates its job whatever the state:
when another worker has ended the job in between, the outcome is overwritten
(`outcomes_final_fails`).  In the runs in which a failure is recorded only of a job that has
not ended, an ended job stays as it is (`outcomes_final`).
-/

set_option autoImplicit false

namespace OpsComposer.Encryption

open Domain (Uuid)
open Foundations Services RowStore

/-! ## One commit -/

/-- A failure is recorded of a job that has not ended. -/
def RecordsActive (call : EncryptionCall) (store : EncryptionStore) : Prop :=
  match call with
  | .recordFailure jobId _ => ∀ job ∈ store.job? jobId, job.state.isActive = true
  | _ => True

theorem isActive_of_claimable {now : Nat} {job : KeyRotationJob}
    (claims : claimable now job = true) :
    job.state.isActive = true := by
  rcases Bool.or_eq_true_iff.mp claims with waits | expired
  · rw [of_decide_eq_true waits]
    rfl
  · rw [of_decide_eq_true (Bool.and_eq_true_iff.mp expired).1]
    rfl

section Commit

variable {Key : Type} {settings : EncryptionSettings Key} {start : EncryptionStore}
  {db : EncryptionDb} {i : Nat} {log : List EncryptionEvent} {call : EncryptionCall}
  {answer : EncryptionAnswer} {writes : List (Write EncryptionKey EncryptionRow)}

/-- A commit leaves a job that has ended as it is. -/
theorem job_of_commits (commits : Commits settings start db i log call answer writes)
    (records : RecordsActive call (db.stateAt start i)) {jobId : Uuid} {job : KeyRotationJob}
    (isThere : (db.stateAt start i : EncryptionStore).job? jobId = some job)
    (ended : job.state.isActive = false) :
    (applyAll (db.stateAt start i) writes).job? jobId = some job := by
  cases commits with
  | started distinct free known peppers =>
      refine (job?_frame fun isTouched => ?_).trans isThere
      rcases touched_of_started peppers isTouched with ⟨_, wrong⟩ | ⟨_, wrong, -⟩ <;> cases wrong
  | pepper | idle | unrecorded => exact isThere
  | @requested _ _ requestedId created _ key waits target first free =>
      refine (job?_frame fun member => ?_).trans isThere
      obtain rfl : requestedId = jobId :=
        key.symm.trans (EncryptionKey.job.inj (List.mem_singleton.mp member)).symm
      cases free.symm.trans isThere
  | @processed _ _ _ _ _ _ job' now remaining batch locks news processed jobId' key =>
      have apart : job'.keyRotationJobId ≠ jobId := by
        rintro rfl
        obtain rfl : job' = job := Option.some.inj (processed.isThere.symm.trans isThere)
        exact absurd (isActive_of_claimable processed.claims) (by simp [ended])
      refine (job?_frame ?_).trans isThere
      rw [mem_touched_batchWrites]
      rintro (same | ⟨_, -, same⟩ | ⟨_, -, same⟩ | same)
      · exact apart (EncryptionKey.job.inj same).symm
      · cases same
      · cases same
      · exact apart (EncryptionKey.job.inj same).symm
  | @recorded _ _ _ _ job' isThere' =>
      refine (job?_frame fun member => ?_).trans isThere
      have key := RowStore.key_of_lookup (RowKind.at?_eq_some.mp isThere')
      obtain rfl := EncryptionKey.job.inj (key.symm.trans (List.mem_singleton.mp member).symm)
      obtain rfl : job' = job := Option.some.inj (isThere'.symm.trans isThere)
      exact absurd (records job' isThere) (by simp [ended])
  | written changes =>
      have stays := changes (.job jobId)
      rw [RowKind.at?_eq_some.mp isThere] at stays
      refine RowKind.at?_eq_some.mpr (kept_of_ordinaryChanges ?_ ?_ stays)
      · intro record same
        cases same
      · intro business same
        cases same

end Commit

/-! ## Whole runs -/

/-- A commit records no failure of a job that has ended. -/
def FailuresOfActive (world : EncryptionWorld) : DbAct EncryptionCall → Prop
  | .onDb (.commit id) => ∀ txn ∈ world.db.txns[id]?, RecordsActive txn.call world.db.state
  | _ => True

/-- The job that a transaction has claimed. -/
def claimedJob? (log : List EncryptionEvent) : Option KeyRotationJob :=
  log.findSome? fun
    | .ran (.claimRotationJob _ _ _ _ _) rows _ => firstJob? rows
    | _ => none

/-- The failure of a batch is recorded after the transaction of the batch: it was rolled
back, or something has failed after it. -/
def FollowsBatch (world : EncryptionWorld) : DbAct EncryptionCall → Prop
  | .onDb (.begin (.recordFailure jobId targetKeyVersion)) =>
      ∃ txn ∈ world.db.txns, txn.live = false ∧ ∃ job ∈ claimedJob? txn.log,
        job.keyRotationJobId = jobId ∧ job.targetKeyVersion = targetKeyVersion
  | _ => True

variable {Key : Type} {settings : EncryptionSettings Key} {initial : EncryptionStore → Prop}
  {world later : EncryptionWorld}

/-- **Outcomes are final** in the runs that record no failure of an ended job. -/
theorem outcomes_final
    (reached : ((encryptionSystem settings initial).restrict FailuresOfActive).Reachable world)
    (run : ((encryptionSystem settings initial).restrict FailuresOfActive).Leads world later)
    {jobId : Uuid} {job : KeyRotationJob} (isThere : world.db.state.job? jobId = some job)
    (ended : job.state.isActive = false) : later.db.state.job? jobId = some job := by
  have commits : ∀ (world : EncryptionWorld) (id : Nat) (txn : EncryptionTxn),
      FailuresOfActive world (.onDb (.commit id)) → world.db.txns[id]? = some txn →
        RecordsActive txn.call world.db.state := fun _ _ txn allowed found => allowed txn found
  have tells : (encryptionService settings).Tells fun _ _ => True := fun _ _ _ _ _ _ => trivial
  have accounted : ∃ start, initial start ∧ EncryptionAccount settings
      (fun call _ store => RecordsActive call store) start world.db :=
    Service.Account.of_reachable tellable tells ends_program commits reached
  obtain ⟨start, -, account⟩ := accounted
  have after := account.leads tellable tells ends_program commits run
  obtain ⟨bound, present⟩ := account.past run
  rw [present] at isThere
  rw [after.chronicle.present]
  refine after.induct (P := fun store : EncryptionStore => store.job? jobId = some job) bound le_rfl
    isThere fun i id txn answer _ _ committed still => ?_
  exact job_of_commits (commits_of_committed committed) committed.admits still ended

/-! ## A failure that comes late -/

/-- An authenticated encryption that writes the key into the tag. -/
def stamped : Aead UInt8 where
  encrypt key _ plaintext _ := plaintext ++ (List.replicate 15 0 ++ [key])
  decrypt key _ ciphertext _ :=
    if ciphertext.getLast? = some key then some (ciphertext.take (ciphertext.length - 16)) else none

section OneKey

variable (key : UInt8)

theorem nodup_oneKey : ([(1, key)].map Prod.fst).Nodup := List.nodup_singleton 1

theorem positive_oneKey : ∀ version ∈ [(1, key)].map Prod.fst, 1 ≤ version := by simp

theorem mem_oneKey : 1 ∈ [(1, key)].map Prod.fst := List.mem_singleton_self 1

/-- A keyring of one key, with version 1. -/
def oneKey : MasterKeyring UInt8 where
  keys := [(1, key)]
  primaryVersion := 1
  distinct := nodup_oneKey key
  positive := positive_oneKey key
  primary_mem := mem_oneKey key

end OneKey

/-- All processes have one key. -/
def sharedSettings : EncryptionSettings UInt8 where
  aead := stamped
  b64decode _ := none
  keyring _ := oneKey 7
  batchSize := 100

theorem length_zeroNonce : (List.replicate 12 (0 : UInt8)).length = 12 := rfl

/-- A nonce of zeros. -/
def zeroNonce : Nonce := ⟨List.replicate 12 0, length_zeroNonce⟩

/-- The service with one key on an empty database. -/
abbrev sharedSystem : System EncryptionWorld (DbAct EncryptionCall) :=
  encryptionSystem sharedSettings fun store => store = Table.empty

/-- No process has started. -/
def emptyWorld : EncryptionWorld := { clock := 0, db := { state := Table.empty } }

theorem init_emptyWorld : sharedSystem.init emptyWorld := ⟨_, _, rfl, rfl⟩

/-- A rotation is requested. -/
def rotationRequested : List (DbAct EncryptionCall) :=
  [.onDb (.begin (.requestRotation 0 1 5)), .onDb (.clock 0 0), .onDb (.perform 0),
    .onDb (.perform 0), .onDb (.commit 0)]

/-- The first worker claims the job and fails, and the second one ends it. -/
def secondEnds : List (DbAct EncryptionCall) :=
  rotationRequested ++
    [.onDb (.begin (.processRotationBatch 1 "first" true [] [] fun _ => zeroNonce)),
      .onDb (.clock 1 0), .onDb (.perform 1), .onDb (.abort 1),
      .onDb (.begin (.processRotationBatch 2 "second" true [] [] fun _ => zeroNonce)),
      .onDb (.clock 2 0), .onDb (.perform 2), .onDb (.perform 2), .onDb (.perform 2),
      .onDb (.perform 2), .onDb (.perform 2), .onDb (.perform 2), .onDb (.perform 2),
      .onDb (.commit 2)]

/-- The first worker records its failure. -/
def firstRecords : List (DbAct EncryptionCall) :=
  [.onDb (.begin (.recordFailure 5 1)), .onDb (.perform 3), .onDb (.clock 3 0),
    .onDb (.perform 3), .onDb (.commit 3)]

instance (world : EncryptionWorld) :
    ∀ act : DbAct EncryptionCall, Decidable (FollowsBatch world act)
  | .tick _ => isTrue trivial
  | .onDb (.begin (.recordFailure jobId targetKeyVersion)) => inferInstanceAs (Decidable
      (∃ txn ∈ world.db.txns, txn.live = false ∧ ∃ job ∈ claimedJob? txn.log,
        job.keyRotationJobId = jobId ∧ job.targetKeyVersion = targetKeyVersion))
  | .onDb (.begin (.ensureKeyring _ _ _ _)) | .onDb (.begin (.idempotencyPepper _))
  | .onDb (.begin (.requestRotation _ _ _)) | .onDb (.begin (.processRotationBatch _ _ _ _ _ _))
  | .onDb (.begin (.ordinary _)) | .onDb (.clock _ _) | .onDb (.snapshot _) | .onDb (.perform _)
  | .onDb (.check _) | .onDb (.commit _) | .onDb (.abort _) => isTrue trivial

/-- The outcome of a job that has ended can be overwritten. -/
theorem outcomes_final_fails : ¬ ∀ (settings : EncryptionSettings UInt8)
    (world later : EncryptionWorld) (jobId : Uuid) (job : KeyRotationJob),
    ((encryptionSystem settings fun store => store = Table.empty).restrict FollowsBatch).Reachable
        world →
      ((encryptionSystem settings fun store => store = Table.empty).restrict FollowsBatch).Leads
          world later →
        world.db.state.job? jobId = some job → job.state.isActive = false →
          ∃ last, later.db.state.job? jobId = some last ∧ last.state = job.state ∧
            last.processedCount = job.processedCount ∧ last.remainingCount = job.remainingCount ∧
              last.errorCode = job.errorCode := by
  intro always
  have ran : (sharedSystem.exec emptyWorld secondEnds).any (fun world =>
      (sharedSystem.exec world firstRecords).any fun later => decide
        ((world.db.state.job? 5).map KeyRotationJob.state = some .succeeded ∧
          (later.db.state.job? 5).map KeyRotationJob.state = some .failed)) = true := by
    decide +kernel
  have along : sharedSystem.Along FollowsBatch emptyWorld secondEnds := by
    decide +kernel
  have later_along : ∀ world ∈ sharedSystem.exec emptyWorld secondEnds,
      sharedSystem.Along FollowsBatch world firstRecords := by
    decide +kernel
  obtain ⟨world, done, rest⟩ := (Option.any_eq_true _ _).mp ran
  obtain ⟨later, done', states⟩ := (Option.any_eq_true _ _).mp rest
  obtain ⟨ended, overwritten⟩ := of_decide_eq_true states
  obtain ⟨job, isThere, state⟩ := Option.map_eq_some_iff.mp ended
  obtain ⟨last, isLast, same, -⟩ := always sharedSettings world later 5 job
    ⟨_, init_emptyWorld, System.leads_restrict_of_exec done along⟩
    (System.leads_restrict_of_exec done' (later_along world done)) isThere (by rw [state]; rfl)
  rw [isLast, Option.map_some, same, state] at overwritten
  cases overwritten

/-- A third worker finds nothing to do. -/
def thirdIsIdle : List (DbAct EncryptionCall) :=
  [.onDb (.begin (.processRotationBatch 3 "third" true [] [] fun _ => zeroNonce)),
    .onDb (.clock 3 0), .onDb (.perform 3), .onDb (.commit 3)]

instance (store : EncryptionStore) : ∀ call : EncryptionCall, Decidable (RecordsActive call store)
  | .recordFailure jobId _ =>
      inferInstanceAs (Decidable (∀ job ∈ store.job? jobId, job.state.isActive = true))
  | .ensureKeyring _ _ _ _ | .idempotencyPepper _ | .requestRotation _ _ _
  | .processRotationBatch _ _ _ _ _ _ | .ordinary _ => isTrue trivial

instance (world : EncryptionWorld) :
    ∀ act : DbAct EncryptionCall, Decidable (FailuresOfActive world act)
  | .tick _ | .onDb (.begin _) | .onDb (.clock _ _) | .onDb (.snapshot _) | .onDb (.perform _)
  | .onDb (.check _) | .onDb (.abort _) => isTrue trivial
  | .onDb (.commit id) =>
      inferInstanceAs (Decidable (∀ txn ∈ world.db.txns[id]?, RecordsActive txn.call world.db.state))

theorem outcomes_final_third : ∃ (world later : EncryptionWorld) (job : KeyRotationJob),
    sharedSystem.exec emptyWorld secondEnds = some world ∧
      sharedSystem.exec world thirdIsIdle = some later ∧
        job.state = .succeeded ∧ later.db.state.job? 5 = some job := by
  have ran : (sharedSystem.exec emptyWorld secondEnds).any (fun world =>
      (sharedSystem.exec world thirdIsIdle).any fun _ => decide
        ((world.db.state.job? 5).map KeyRotationJob.state = some .succeeded)) = true := by
    decide +kernel
  have along : sharedSystem.Along FailuresOfActive emptyWorld secondEnds := by
    decide +kernel
  have later_along : ∀ world ∈ sharedSystem.exec emptyWorld secondEnds,
      sharedSystem.Along FailuresOfActive world thirdIsIdle := by
    decide +kernel
  obtain ⟨world, done, rest⟩ := (Option.any_eq_true _ _).mp ran
  obtain ⟨later, done', states⟩ := (Option.any_eq_true _ _).mp rest
  obtain ⟨job, isThere, state⟩ := Option.map_eq_some_iff.mp (of_decide_eq_true states)
  refine ⟨world, later, job, done, done', state, outcomes_final
    ⟨_, init_emptyWorld, System.leads_restrict_of_exec done along⟩
    (System.leads_restrict_of_exec done' (later_along world done)) isThere ?_⟩
  rw [state]
  rfl

end OpsComposer.Encryption
