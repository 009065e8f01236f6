import OpsComposer.Accounts.Factors

/-!
# What the acceptance of a code rests on

`Due` says what the log of a call must hold when one of the statements comes next by
which a second factor is accepted: the factor that the call has read, the secret in it,
and that the presented code is a code of that secret.  `due_inductive` goes through the
code of the operations that accept a second factor, and has it for every statement that
any transaction has executed or executes next.
-/

set_option autoImplicit false

namespace OpsComposer.Accounts

open Domain Foundations Repositories Services

/-! ## What a log holds -/

/-- The statement confirms a factor. -/
def isConfirm : AuthStatement → Bool
  | .confirmMfaFactor _ _ => true
  | _ => false

/-- The statement accepts a step. -/
def isAccept : AuthStatement → Bool
  | .acceptTotpStep _ _ _ => true
  | _ => false

/-- The statement adds a recovery code. -/
def isAddCode : AuthStatement → Bool
  | .addRecoveryCode _ => true
  | _ => false

/-- The log has a statement of a kind. -/
def executed (kind : AuthStatement → Bool) (log : List AuthEvent) : Bool :=
  log.any fun
    | .ran statement _ _ => kind statement
    | .clock _ => false

variable {kind : AuthStatement → Bool} {log : List AuthEvent}

@[simp] theorem executed_nil : executed kind [] = false := rfl

@[simp] theorem executed_append {later : List AuthEvent} :
    executed kind (log ++ later) = (executed kind log || executed kind later) := List.any_append

@[simp] theorem executed_clock {now : Nat} :
    executed kind (.clock now :: log) = executed kind log := rfl

@[simp] theorem executed_ran {statement : AuthStatement} {rows : List AuthRow} {seen : Nat} :
    executed kind (.ran statement rows seen :: log) = (kind statement || executed kind log) := rfl

theorem executed_iff :
    executed kind log = true ↔
      ∃ statement rows seen, .ran statement rows seen ∈ log ∧ kind statement = true := by
  rw [executed, List.any_eq_true]
  constructor
  · rintro ⟨event, member, holds⟩
    cases event with
    | clock now => cases holds
    | ran statement rows seen => exact ⟨statement, rows, seen, member, holds⟩
  · rintro ⟨statement, rows, seen, member, holds⟩
    exact ⟨_, member, holds⟩

/-- The factor that one more event leaves as the one that is being verified. -/
def readBy (before : Option MfaFactor) : AuthEvent → Option MfaFactor
  | .ran (.getMfaFactor _) [.factor factor] _ => some factor
  | .ran (.confirmMfaFactor _ _) _ _ => before
  | .ran (.endEnrollment _ _) _ _ => before
  | .ran _ _ _ => none
  | .clock _ => before

/-- The factor that a log has read and may still accept a code with. -/
def lastRead (log : List AuthEvent) : Option MfaFactor := log.foldl readBy none

@[simp] theorem lastRead_append {later : List AuthEvent} :
    lastRead (log ++ later) = later.foldl readBy (lastRead log) := List.foldl_append

/-! ## What must be in the log -/

variable (primitives : Primitives)

/-- The code that the call presents is, at a time, the code of a step of the secret in
the factor, newer than a last one. -/
def Verifies (call : AuthCall) (factor : MfaFactor)
    (last : Option Nat) (step moment : Nat) : Prop :=
  ∃ value secret, mfaValue? call.request = some value ∧
    secretOf primitives factor = some secret ∧
    matchTotpStep primitives secret value moment last = .ok (some step)

/-- What the log of a call holds when a statement comes next. -/
def Due (call : AuthCall) (log : List AuthEvent) :
    AuthStatement → Prop
  | .confirmMfaFactor userId now =>
      executed isConfirm log = false ∧
        ∃ earlier factor seen step,
          log = earlier ++ [.ran (.getMfaFactor userId) [.factor factor] seen] ∧
          factor.userId = userId ∧ Verifies primitives call factor none step now
  | .acceptTotpStep userId step _ =>
      executed isAccept log = false ∧
        ∃ factor last moment, lastRead log = some factor ∧ factor.userId = userId ∧
          .clock moment ∈ log ∧ Verifies primitives call factor last step moment
  | .deleteRecoveryCodes _ => executed isAddCode log = false
  | .consumeRecoveryCode _ codeHash _ =>
      executed isAddCode log = false ∧
        ∃ value, mfaValue? call.request = some value ∧
          primitives.hashRecoveryCode value = some codeHash
  | _ => True

/-- What is due is in the log, for the statement that comes next. -/
def NextDue (call : AuthCall) (log : List AuthEvent)
    (program : AuthProgram Unit) : Prop :=
  ∀ statement ∈ program.next?, Due primitives call log statement

section NextDue

variable {primitives : Primitives} {call : AuthCall} {log : List AuthEvent}

@[simp] theorem nextDue_done {answer : Unit} : NextDue primitives call log (.done answer) := by
  simp [NextDue, Program.next?]

@[simp] theorem nextDue_fail {error : AuthError} : NextDue primitives call log (.fail error) := by
  simp [NextDue, Program.next?]

@[simp] theorem nextDue_clock {next : Nat → AuthProgram Unit} :
    NextDue primitives call log (.clock next) := by
  simp [NextDue, Program.next?]

@[simp] theorem nextDue_run {statement : AuthStatement} {next : List AuthRow → AuthProgram Unit} :
    NextDue primitives call log (.run statement next) ↔ Due primitives call log statement := by
  simp [NextDue, Program.next?]

end NextDue

/-- Nothing is due for the statement. -/
def IsPlain : AuthStatement → Prop
  | .confirmMfaFactor _ _ => False
  | .acceptTotpStep _ _ _ => False
  | .deleteRecoveryCodes _ => False
  | .consumeRecoveryCode _ _ _ => False
  | _ => True

theorem due_of_isPlain {primitives : Primitives} {call : AuthCall} {log : List AuthEvent}
    {statement : AuthStatement} (plain : IsPlain statement) :
    Due primitives call log statement := by
  cases statement <;> trivial

section Programs

open AuthProgram Program

variable {primitives : Primitives} {call : AuthCall} {log : List AuthEvent}

theorem nextDue_of_issues {program : AuthProgram Unit} (plain : Issues IsPlain program) :
    Everywhere Told (NextDue primitives call) log program :=
  plain.next.mono fun _ _ next statement isNext => due_of_isPlain (next statement isNext)

/-! ## Parts of operations -/

theorem plain_addRecoveryCodes (userId : Uuid) (now : Nat) (rows : List (Uuid × String)) :
    Issues IsPlain (addRecoveryCodes userId now rows) := by
  induction rows with
  | nil => trivial
  | cons row rows ih => exact ⟨trivial, fun _ => ih⟩

theorem plain_completeChallenge (settings : AuthSettings) (fresh : Fresh) (user : User)
    (challenge : AuthChallenge) (recoveryCodes : List String) (now : Nat) :
    Issues IsPlain
      (completeChallenge primitives settings fresh user challenge recoveryCodes now) := by
  simp only [completeChallenge, execute_bind, issues_run]
  refine ⟨trivial, fun consumed => ?_⟩
  split
  · trivial
  · exact ⟨trivial, fun _ _ => ⟨trivial, fun _ => trivial⟩⟩

theorem plain_elevate (principal : SessionPrincipal) : Issues IsPlain (elevate principal) := by
  simp only [elevate, now_bind, execute_bind, issues_clock, issues_run]
  refine fun now => ⟨trivial, fun _ => ⟨trivial, fun rows => ?_⟩⟩
  split <;> trivial

theorem plain_storePassword (fresh : Fresh) (userId : Uuid) (newPassword : Text) (now : Nat) :
    Issues IsPlain (storePassword primitives fresh userId newPassword now) :=
  issues_bind (issues_ofExcept _) fun _ => ⟨trivial, fun _ => ⟨trivial, fun _ => trivial⟩⟩

variable {factor : MfaFactor} {value : Text} {userId : Uuid}

/-- `_verify_mfa_value`, after the factor has been read. -/
theorem nextDue_verifyMfaValue {allowRecovery : Bool}
    {next : Bool × Bool → AuthProgram Unit} (plain : ∀ answer, Issues IsPlain (next answer))
    (presented : mfaValue? call.request = some value) (read : lastRead log = some factor)
    (unaccepted : executed isAccept log = false) (unadded : executed isAddCode log = false) :
    Everywhere Told (NextDue primitives call) log
      (verifyMfaValue primitives factor value allowRecovery >>= next) := by
  simp only [verifyMfaValue, now_bind, clock_bind, everywhere_clock]
  refine ⟨nextDue_clock, fun now => ?_⟩
  cases opened : primitives.decryptTotp factor.userId factor.encryptedTotpSecret
      factor.encryptionKeyVersion with
  | none => exact nextDue_fail
  | some secret =>
      dsimp only
      split
      · exact nextDue_fail
      · rename_i step matched
        refine ⟨nextDue_run.mpr ?_, fun rows seen _ => nextDue_of_issues (plain _)⟩
        refine ⟨by simp [unaccepted], factor, factor.lastAcceptedStep, now, ?_, rfl, by simp,
          value, secret, presented, opened, matched⟩
        simp [readBy, read]
      · split
        · cases hashed : primitives.hashRecoveryCode value with
          | none => exact nextDue_fail
          | some codeHash =>
              refine ⟨nextDue_run.mpr ?_, fun rows seen _ => nextDue_of_issues (plain _)⟩
              exact ⟨by simp [unadded], value, presented, hashed⟩
        · exact nextDue_of_issues (plain _)

/-- `replace_recovery_codes`. -/
theorem nextDue_replaceRecoveryCodes {rows : List (Uuid × String)} {now : Nat}
    {next : Unit → AuthProgram Unit} (plain : Issues IsPlain (next ()))
    (unadded : executed isAddCode log = false) :
    Everywhere Told (NextDue primitives call) log
      (replaceRecoveryCodes userId rows now >>= next) :=
  ⟨nextDue_run.mpr unadded, fun _ _ _ => nextDue_of_issues
    (issues_bind (plain_addRecoveryCodes userId now rows) fun _ => plain)⟩

/-- The part of `complete_mfa` that ends an enrollment, after the factor has been read. -/
theorem nextDue_confirmEnrollment {earlier : List AuthEvent} {fresh : Fresh} {now seen : Nat}
    {next : Unit → AuthProgram Unit} (plain : Issues IsPlain (next ()))
    (presented : mfaValue? call.request = some value)
    (read : log = earlier ++ [.ran (.getMfaFactor userId) [.factor factor] seen])
    (owner : factor.userId = userId) (clock : .clock now ∈ log)
    (unconfirmed : executed isConfirm log = false) (unaccepted : executed isAccept log = false)
    (unadded : executed isAddCode log = false) :
    Everywhere Told (NextDue primitives call) log
      (confirmEnrollment primitives fresh userId factor value now >>= next) := by
  unfold confirmEnrollment
  split
  · exact nextDue_fail
  · cases opened : primitives.decryptTotp factor.userId factor.encryptedTotpSecret
        factor.encryptionKeyVersion with
    | none => exact nextDue_fail
    | some secret =>
        dsimp only
        split
        · exact nextDue_fail
        · exact nextDue_fail
        · rename_i step matched
          have verified : Verifies primitives call factor none step now :=
            ⟨value, secret, presented, opened, matched⟩
          have isRead : lastRead log = some factor := by
            rw [read, lastRead_append]
            rfl
          simp only [execute_bind, run_bind, everywhere_run]
          refine ⟨nextDue_run.mpr ?_, fun _ _ _ => ⟨nextDue_run.mpr trivial, fun _ _ _ =>
            ⟨nextDue_run.mpr ?_, fun accepted _ _ => ?_⟩⟩⟩
          · exact ⟨unconfirmed, earlier, factor, seen, step, read, owner, verified⟩
          · refine ⟨by simp [unaccepted, isAccept], factor, none, now, ?_, owner, ?_, verified⟩
            · simp [readBy, isRead]
            · simp [clock]
          · split
            · exact nextDue_fail
            · cases recoveryCodeRows primitives fresh with
              | none => exact nextDue_fail
              | some rows =>
                  exact nextDue_replaceRecoveryCodes plain (by simp [unadded, isAddCode])

/-! ## Operations -/

/-- The user in the rows has the id that was asked for. -/
theorem user_of_told {rows : List AuthRow} {user : User} (told : Told (.getUser userId) rows)
    (isUser : user? rows = some user) : user.userId = userId := by
  cases rows with
  | nil => cases isUser
  | cons row rows =>
      obtain ⟨other, rfl, owner⟩ := told row (List.mem_cons_self ..)
      obtain rfl : other = user := Option.some.inj isUser
      exact owner

/-- The rows of the factor that was read. -/
theorem factor_of_told {rows : List AuthRow} (told : Told (.getMfaFactor userId) rows)
    (isFactor : factor? rows = some factor) : rows = [.factor factor] ∧ factor.userId = userId := by
  rcases told with rfl | ⟨other, rfl, owner⟩
  · cases isFactor
  · obtain rfl : other = factor := Option.some.inj isFactor
    exact ⟨rfl, owner⟩

variable (settings : AuthSettings) (fresh : Fresh)

theorem nextDue_completeMfa (challengeToken : String)
    (expectedPurpose : Option ChallengePurpose) (presented : mfaValue? call.request = some value) :
    Everywhere Told (NextDue primitives call) []
      (completeMfa primitives settings fresh challengeToken value expectedPurpose >>=
        fun _ => pure ()) := by
  unfold completeMfa
  split
  · exact nextDue_fail
  · simp only [now_bind, execute_bind, clock_bind, run_bind, everywhere_clock, everywhere_run]
    refine ⟨nextDue_clock, fun now => ⟨nextDue_run.mpr trivial, fun rows seen _ => ?_⟩⟩
    split
    · exact nextDue_fail
    · rename_i challenge _
      split
      · exact nextDue_fail
      · simp only [getUser_bind, getMfaFactor_bind, run_bind, everywhere_run]
        refine ⟨nextDue_run.mpr trivial, fun userRows userSeen users =>
          ⟨nextDue_run.mpr trivial, fun factorRows factorSeen factors => ?_⟩⟩
        split
        · rename_i user factor isUser isFactor
          obtain ⟨rfl, owner⟩ := factor_of_told factors isFactor
          have same : user.userId = challenge.userId := user_of_told users isUser
          have ended : ∀ answer codes, Issues IsPlain
              (completeChallenge primitives settings fresh answer challenge codes now >>=
                fun _ => pure ()) := fun answer codes =>
            issues_bind (plain_completeChallenge settings fresh answer challenge codes now)
              fun _ => trivial
          split
          · rw [bind_assoc]
            exact nextDue_confirmEnrollment (ended _ _) presented (by rw [same])
              (owner.trans same.symm) (by simp) (by simp [isConfirm]) (by simp [isAccept])
              (by simp [isAddCode])
          · rw [bind_assoc]
            refine nextDue_verifyMfaValue (fun verified => ?_) presented
              (by simp [lastRead, readBy]) (by simp [isAccept]) (by simp [isAddCode])
            split
            · trivial
            · exact ended _ _
        · exact nextDue_fail

theorem nextDue_reauthenticate (principal : SessionPrincipal)
    (password : Text) {mfaValue : Option Text} (presented : mfaValue? call.request = mfaValue) :
    Everywhere Told (NextDue primitives call) []
      (reauthenticate primitives settings principal password mfaValue >>= fun _ => pure ()) := by
  have ended : Issues IsPlain (elevate principal >>= fun _ => pure ()) :=
    issues_bind (plain_elevate principal) fun _ => trivial
  simp only [reauthenticate, findUserByUsername_bind, getMfaFactor_bind, run_bind, everywhere_run]
  refine ⟨nextDue_run.mpr trivial, fun rows seen _ => ?_⟩
  split
  · exact nextDue_fail
  · split
    · exact nextDue_of_issues ended
    · simp only [run_bind, everywhere_run]
      refine ⟨nextDue_run.mpr trivial, fun factorRows factorSeen factors => ?_⟩
      split
      · rename_i factor value isFactor
        obtain ⟨rfl, owner⟩ := factor_of_told factors isFactor
        split
        · exact nextDue_fail
        · rw [bind_assoc]
          refine nextDue_verifyMfaValue (fun verified => ?_) presented
            (by simp [lastRead, readBy]) (by simp [isAccept]) (by simp [isAddCode])
          split
          · trivial
          · exact ended
      · exact nextDue_fail

theorem nextDue_changePassword (actor : SessionPrincipal) (currentPassword newPassword : Text)
    {mfaValue : Option Text} (presented : mfaValue? call.request = mfaValue) :
    Everywhere Told (NextDue primitives call) []
      (changePassword primitives settings fresh actor currentPassword newPassword mfaValue) := by
  have ended : ∀ now, Issues IsPlain
      (storePassword primitives fresh actor.userId newPassword now) :=
    plain_storePassword fresh actor.userId newPassword
  unfold changePassword
  cases AuthService.validatePassword newPassword with
  | error error => exact nextDue_fail
  | ok _ =>
      simp only [AuthProgram.ofExcept, pure_bind', now_bind, findUserByUsername_bind,
        getMfaFactor_bind, everywhere_clock, everywhere_run]
      refine ⟨nextDue_clock, fun now => ⟨nextDue_run.mpr trivial, fun rows seen _ => ?_⟩⟩
      cases AuthService.checkPassword primitives (user? rows) currentPassword with
      | error error => exact nextDue_fail
      | ok checked =>
        dsimp only
        split
        · exact nextDue_fail
        · refine ⟨nextDue_run.mpr trivial, fun factorRows factorSeen factors => ?_⟩
          dsimp only
          split
          · exact nextDue_of_issues (ended now)
          · rename_i factor isFactor
            obtain ⟨rfl, owner⟩ := factor_of_told factors isFactor
            split
            · exact nextDue_of_issues (ended now)
            · cases mfaValue with
              | none => exact nextDue_fail
              | some value =>
                  refine nextDue_verifyMfaValue (fun verified => ?_) presented
                    (by simp [lastRead, readBy]) (by simp [isAccept]) (by simp [isAddCode])
                  split
                  · trivial
                  · exact ended now

theorem nextDue_regenerateRecoveryCodes (actor : SessionPrincipal) :
    Everywhere Told (NextDue primitives call) []
      (regenerateRecoveryCodes primitives settings fresh actor >>= fun _ => pure ()) := by
  unfold regenerateRecoveryCodes
  split
  · exact nextDue_fail
  · simp only [requireRecentReauthentication, now_bind, clock_bind, everywhere_clock]
    refine ⟨nextDue_clock, fun now => ?_⟩
    split
    · exact nextDue_fail
    · simp only [pure_bind', clock_bind, everywhere_clock]
      refine ⟨nextDue_clock, fun now => ?_⟩
      cases recoveryCodeRows primitives fresh with
      | none => exact nextDue_fail
      | some rows =>
          simp only [getMfaFactor_bind, run_bind, everywhere_run]
          refine ⟨nextDue_run.mpr trivial, fun factorRows seen _ => ?_⟩
          split
          · exact nextDue_fail
          · rw [bind_assoc]
            exact nextDue_replaceRecoveryCodes trivial (by simp [isAddCode])

/-- A call that presents no code and adds no recovery code has nothing due. -/
theorem nextDue_of_quiet (quiet : mfaValue? call.request = none) (kept : ¬ Renews call.request) :
    Everywhere Told (NextDue primitives call) [] (call.program primitives) := by
  have permitted := permitted_program primitives call
  refine (permitted.everywhere fun _ _ _ ran => by cases ran).mono ?_
  rintro log program ⟨before, next⟩ statement isNext
  have allowed := next statement isNext
  cases statement with
  | confirmMfaFactor _ _ => exact absurd quiet (mfaValue_of_completion allowed)
  | acceptTotpStep _ _ _ | consumeRecoveryCode _ _ _ => exact absurd quiet allowed
  | deleteRecoveryCodes _ =>
      refine Bool.eq_false_iff.mpr fun added => kept ?_
      obtain ⟨other, rows, seen, ran, isAdd⟩ := executed_iff.mp added
      cases other with
      | addRecoveryCode code => exact (before _ _ _ ran).2.2
      | _ => cases isAdd
  | _ => trivial

/-- **What is due is in the log.** -/
theorem nextDue_program (primitives : Primitives) (call : AuthCall) :
    Everywhere Told (NextDue primitives call) [] (call.program primitives) := by
  by_cases renews : Renews call.request
  · rcases renews with ⟨challengeToken, value, expectedPurpose, request⟩ | ⟨actor, request⟩
    · unfold AuthCall.program
      rw [request]
      exact nextDue_completeMfa call.settings call.fresh challengeToken expectedPurpose
        (by rw [request]; rfl)
    · unfold AuthCall.program
      rw [request]
      exact nextDue_regenerateRecoveryCodes call.settings call.fresh actor
  · by_cases quiet : mfaValue? call.request = none
    · exact nextDue_of_quiet quiet renews
    · cases request : call.request with
      | reauthenticate principal password mfaValue =>
          unfold AuthCall.program
          rw [request]
          exact nextDue_reauthenticate call.settings principal password (by rw [request]; rfl)
      | changePassword actor currentPassword newPassword mfaValue =>
          unfold AuthCall.program
          rw [request]
          exact nextDue_changePassword call.settings call.fresh actor currentPassword newPassword
            (by rw [request]; rfl)
      | completeMfa challengeToken value expectedPurpose =>
          exact absurd (.inl ⟨_, _, _, request⟩) renews
      | _ => exact absurd (by rw [request]; rfl) quiet

end Programs

/-! ## In every reachable world -/

/-- What is due is in the log, at every statement of a transaction. -/
structure DueAt (primitives : Primitives) (call : AuthCall) (log : List AuthEvent)
    (program : AuthProgram Unit) : Prop where
  next : NextDue primitives call log program
  logged : ∀ earlier statement rows seen later,
    log = earlier ++ .ran statement rows seen :: later → Due primitives call earlier statement

theorem due_inductive (primitives : Primitives) :
    (accountSystem primitives).Inductive fun world =>
      world.db.AtPoints Told (DueAt primitives) :=
  inductive_onDb (fun _ _ found => by simp at found) fun _ _ holds effect => by
    refine holds.effect (tells primitives) (fun call => ?_) effect
    have all := (nextDue_program primitives call).logged fun earlier _ _ _ later split => by
      simp at split
    exact all.mono fun _ _ both => ⟨both.1, both.2⟩

/-- What is due is in the log of a transaction that is about to execute a statement. -/
theorem due_of_next {primitives : Primitives} {world : AccountWorld}
    (reachable : (accountSystem primitives).Reachable world) {id : Nat} {txn : AuthTxn}
    (found : world.db.txns[id]? = some txn) {statement : AuthStatement}
    (next : txn.program.next? = some statement) : Due primitives txn.call txn.log statement :=
  (((due_inductive primitives).of_reachable reachable) id txn found).here.next statement next

end OpsComposer.Accounts
