import OpsComposer.Accounts.Statements

/-!
# Who manages users

Which call may execute which statement on users and on activation codes, and what it must have
been told by then (`Legal`).  `lawful_program` goes through the code of every operation.
-/

set_option autoImplicit false

namespace OpsComposer.Accounts

open Domain Foundations Repositories Services

/-! ## What a call may execute, and when -/

/-- `get_user` has returned this user. -/
def HasRead (log : List AuthEvent) (userId : Uuid) (before : User) : Prop :=
  ∃ rows seen, .ran (.getUser userId) (.user before :: rows) seen ∈ log

/-- `consume_activation_token` has returned this user. -/
def HasSpent (log : List AuthEvent) (tokenHash : String) (now : Nat) (grant : User) : Prop :=
  ∃ rows seen, .ran (.consumeActivationToken tokenHash now) (.user grant :: rows) seen ∈ log

/-- What `update_user` asks of the user that it has read. -/
structure MayBecome (before : User) (status : UserStatus) : Prop where
  notActivated : before.status = .pendingActivation → status ≠ .active
  notReturned : status = .pendingActivation → before.status = .pendingActivation
  hasActivated : status = .active → before.activatedAt ≠ none

variable (primitives : Primitives)

/-- The statements on users and activation codes that a call may execute, with this log. -/
def Legal (call : AuthCall) (log : List AuthEvent) : AuthStatement → Prop
  | .addUser user =>
      (user.status = .pendingActivation ∧ user.activatedAt = none ∧
          ∃ actor username role activationTokenId activationCode, call.request =
            .createUser actor username role user.userId activationTokenId activationCode) ∨
        (user.status = .active ∧
          ∃ username password, call.request = .bootstrap user.userId username password)
  | .updateUser userId role status expectedVersion _ =>
      (∃ actor, call.request = .updateUser actor userId role status expectedVersion) ∧
        ∃ before, HasRead log userId before ∧ MayBecome before status
  | .activateUser userId _ _ now =>
      ∃ activationCode password grant, call.request = .activate activationCode password ∧
        HasSpent log (primitives.hashToken activationCode) now grant ∧ grant.userId = userId
  | .consumeActivationToken _ now => log = [.clock now]
  | _ => True

/-- A call of `activate` that comes to its end has consumed its code. -/
def EndsWell (call : AuthCall) (log : List AuthEvent) : Prop :=
  ∀ activationCode password, call.request = .activate activationCode password →
    ∃ now grant, HasSpent log (primitives.hashToken activationCode) now grant

/-- What holds at every point of a call. -/
def LegalAt (call : AuthCall) (log : List AuthEvent)
    (program : AuthProgram Unit) : Prop :=
  (∀ statement ∈ program.next?, Legal primitives call log statement) ∧
    ∀ answer, program = .done answer → EndsWell primitives call log

section Programs

open AuthProgram Program

variable {primitives : Primitives} {call : AuthCall} {log : List AuthEvent}

variable {actor : SessionPrincipal} {activationCode : String} {userId : Uuid}

theorem HasRead.longer {before : User} (read : HasRead log userId before)
    (event : AuthEvent) : HasRead (log ++ [event]) userId before := by
  obtain ⟨rows, seen, member⟩ := read
  exact ⟨rows, seen, List.mem_append_left _ member⟩

theorem HasSpent.longer {tokenHash : String} {now : Nat} {grant : User}
    (spent : HasSpent log tokenHash now grant) (event : AuthEvent) :
    HasSpent (log ++ [event]) tokenHash now grant := by
  obtain ⟨rows, seen, member⟩ := spent
  exact ⟨rows, seen, List.mem_append_left _ member⟩

theorem EndsWell.longer (ends : EndsWell primitives call log) (event : AuthEvent) :
    EndsWell primitives call (log ++ [event]) := by
  intro activationCode password request
  obtain ⟨now, grant, spent⟩ := ends activationCode password request
  exact ⟨now, grant, spent.longer event⟩

/-- The points of a program, without what its statements return. -/
abbrev Lawful (primitives : Primitives) (call : AuthCall) (log : List AuthEvent)
    (program : AuthProgram Unit) : Prop :=
  Everywhere (fun _ _ => True) (LegalAt primitives call) log program

theorem lawful_fail (error : AuthError) : Lawful primitives call log (.fail error) :=
  ⟨by simp [next?], by simp⟩

theorem lawful_done (ends : EndsWell primitives call log) : Lawful primitives call log (.done ()) :=
  ⟨by simp [next?], fun _ _ => ends⟩

theorem lawful_clock {next : Nat → AuthProgram Unit}
    (each : ∀ now, Lawful primitives call (log ++ [.clock now]) (next now)) :
    Lawful primitives call log (.clock next) :=
  ⟨⟨by simp [next?], by simp⟩, each⟩

theorem lawful_run {statement : AuthStatement} {next : List AuthRow → AuthProgram Unit}
    (legal : Legal primitives call log statement)
    (each : ∀ rows seen, Lawful primitives call (log ++ [.ran statement rows seen]) (next rows)) :
    Lawful primitives call log (.run statement next) :=
  ⟨⟨by simpa [next?] using legal, by simp⟩, fun rows seen _ => each rows seen⟩

theorem lawful_ofExcept {α : Type} {answer : Except AuthError α} {next : α → AuthProgram Unit}
    (each : ∀ value, Lawful primitives call log (next value)) :
    Lawful primitives call log (ofExcept answer >>= next) := by
  cases answer with
  | error error => exact lawful_fail error
  | ok value => exact each value

theorem lawful_requireManager {next : Unit → AuthProgram Unit}
    (each : ∀ log, Lawful primitives call log (next ())) :
    Lawful primitives call log (requireManager actor >>= next) := by
  unfold requireManager
  split
  · exact lawful_fail _
  · simp only [requireRecentReauthentication, now_bind, clock_bind]
    refine lawful_clock fun now => ?_
    split
    · exact lawful_fail _
    · exact each _

/-- A program that manages no users is lawful from any log on. -/
theorem lawful_of_tame {program : AuthProgram Unit} (issues : Issues (Tame primitives call) program)
    (ends : EndsWell primitives call log) : Lawful primitives call log program := by
  have legal : ∀ {log : List AuthEvent} {statement : AuthStatement},
      Tame primitives call statement → Legal primitives call log statement := by
    intro log statement tame
    cases statement <;> first | exact tame.elim | trivial
  induction program generalizing log with
  | done answer => exact lawful_done ends
  | fail error => exact lawful_fail error
  | clock next ih => exact lawful_clock fun now => ih now (issues now) (ends.longer _)
  | run statement next ih =>
      exact lawful_run (legal issues.1) fun rows seen => ih rows (issues.2 rows) (ends.longer _)

theorem endsWell_of_other (other : ∀ activationCode password,
    call.request ≠ .activate activationCode password) : EndsWell primitives call log :=
  fun activationCode password request => absurd request (other activationCode password)

theorem lawful_grantActivation
    (other : ∀ activationCode password, call.request ≠ .activate activationCode password)
    (actor : SessionPrincipal) (userId activationTokenId : Uuid) (activationCode : String)
    (now : Nat) :
    Lawful primitives call log
      (grantActivation primitives actor userId activationTokenId activationCode now) :=
  lawful_run trivial fun _ _ => lawful_done (endsWell_of_other other)

theorem lawful_bootstrap {username : String} {password : Text}
    (request : call.request = .bootstrap userId username password) :
    Lawful primitives call []
      (bootstrap primitives call.fresh userId username password >>= fun _ => pure ()) := by
  simp only [bootstrap, Program.bind_assoc]
  refine lawful_ofExcept fun _ => lawful_ofExcept fun _ => lawful_ofExcept fun passwordHash => ?_
  simp only [now_bind, execute_bind]
  refine lawful_clock fun now => lawful_run trivial fun users seen => ?_
  split
  · exact lawful_fail _
  · refine lawful_run (.inr ⟨rfl, username, password, request⟩) fun _ _ => ?_
    exact lawful_done (endsWell_of_other (by simp [request]))

theorem lawful_createUser {username : String} {role : UserRole}
    {activationTokenId : Uuid}
    (request : call.request =
      .createUser actor username role userId activationTokenId activationCode) :
    Lawful primitives call []
      (createUser primitives actor username role userId activationTokenId activationCode) := by
  refine lawful_requireManager fun _ => lawful_ofExcept fun _ => lawful_clock fun now => ?_
  refine lawful_run (.inl ⟨rfl, rfl, actor, username, role, _, _, request⟩) fun _ _ => ?_
  exact lawful_grantActivation (by simp [request]) actor userId activationTokenId activationCode now

theorem lawful_reissueActivation {activationTokenId : Uuid}
    (request : call.request = .reissueActivation actor userId activationTokenId activationCode) :
    Lawful primitives call []
      (reissueActivation primitives actor userId activationTokenId activationCode) := by
  refine lawful_requireManager fun _ => ?_
  simp only [now_bind, getUser_bind]
  refine lawful_clock fun now => lawful_run trivial fun rows seen => ?_
  split
  · exact lawful_fail _
  · split
    · exact lawful_fail _
    · refine lawful_run trivial fun _ _ => ?_
      exact lawful_grantActivation (by simp [request]) actor userId activationTokenId activationCode
        now

/-- The first row of `get_user` is the user that it returns. -/
theorem rows_of_user {rows : List AuthRow} {user : User} (shown : user? rows = some user) :
    ∃ rest, rows = .user user :: rest := by
  cases rows with
  | nil => cases shown
  | cons row rest =>
      cases row with
      | user other =>
          obtain rfl := Option.some.inj shown
          exact ⟨rest, rfl⟩
      | _ => cases shown

theorem lawful_updateUser {role : UserRole} {status : UserStatus} {expectedVersion : Nat}
    (request : call.request = .updateUser actor userId role status expectedVersion) :
    Lawful primitives call []
      (updateUser actor userId role status expectedVersion >>= fun _ => pure ()) := by
  simp only [updateUser, Program.bind_assoc]
  refine lawful_requireManager fun _ => ?_
  simp only [now_bind, getUser_bind]
  refine lawful_clock fun now => lawful_run trivial fun rows seen => ?_
  split
  · exact lawful_fail _
  · rename_i before shown
    obtain ⟨rest, rfl⟩ := rows_of_user shown
    split
    · exact lawful_fail _
    · rename_i activating
      split
      · exact lawful_fail _
      · rename_i returning
        split
        · exact lawful_fail _
        · rename_i never
          have may : MayBecome before status := by
            refine ⟨fun isPending active => activating ⟨isPending, active⟩, fun isPending => ?_,
              fun active none => never ⟨active, none⟩⟩
            by_contra left
            exact returning ⟨left, isPending⟩
          simp only [execute_bind, run_bind]
          refine lawful_run ⟨⟨actor, request⟩, before, ⟨rest, seen, by simp⟩, may⟩ fun updated _ => ?_
          split
          · exact lawful_fail _
          · refine lawful_run trivial fun _ _ => ?_
            exact lawful_done (endsWell_of_other (by simp [request]))

theorem lawful_activate (quiet : mfaValue? call.request = none)
    {password : Text} (request : call.request = .activate activationCode password) :
    Lawful primitives call []
      (activate primitives call.settings call.fresh activationCode password >>= fun _ => pure ()) := by
  simp only [activate, Program.bind_assoc]
  refine lawful_ofExcept fun _ => lawful_ofExcept fun passwordHash => ?_
  simp only [now_bind, execute_bind]
  refine lawful_clock fun now => lawful_run rfl fun granted seen => ?_
  split
  · exact lawful_fail _
  · rename_i grant shown
    obtain ⟨rest, rfl⟩ := rows_of_user shown
    have spent : HasSpent ([] ++ [.clock now] ++ [.ran (.consumeActivationToken
        (primitives.hashToken activationCode) now) (.user grant :: rest) seen])
        (primitives.hashToken activationCode) now grant := ⟨rest, seen, by simp⟩
    have ends : EndsWell primitives call ([] ++ [.clock now] ++ [.ran (.consumeActivationToken
        (primitives.hashToken activationCode) now) (.user grant :: rest) seen]) := by
      intro code password' request'
      obtain ⟨rfl, -⟩ := AuthRequest.activate.inj (request.symm.trans request')
      exact ⟨now, grant, spent⟩
    simp only [run_bind]
    refine lawful_run ⟨activationCode, password, grant, request, spent, rfl⟩ fun activated seen' => ?_
    refine lawful_of_tame ?_ (ends.longer _)
    split
    · trivial
    · split
      · exact issues_bind (issues_bind (issues_issueChallenge quiet _ _ _) fun _ => trivial)
          fun _ => trivial
      · exact issues_bind (issues_bind (issues_issue _ _ _ (by simp)) fun _ => trivial)
          fun _ => trivial

/-- **Every call** executes what is legal. -/
theorem lawful_program (primitives : Primitives) (call : AuthCall) :
    Lawful primitives call [] (call.program primitives) := by
  by_cases other : managesUsers call.request = false
  · refine lawful_of_tame (tame_program primitives call other) (endsWell_of_other ?_)
    intro activationCode password request
    simp [request, managesUsers] at other
  · unfold AuthCall.program
    cases request : call.request with
    | bootstrap userId username password => exact lawful_bootstrap request
    | activate activationCode password => exact lawful_activate (by rw [request]; rfl) request
    | createUser actor username role userId activationTokenId activationCode =>
        exact lawful_createUser request
    | reissueActivation actor userId activationTokenId activationCode =>
        exact lawful_reissueActivation request
    | updateUser actor userId role status expectedVersion => exact lawful_updateUser request
    | _ => simp [request, managesUsers] at other

/-- Every statement of a log was legal when it came next. -/
def LoggedAt (primitives : Primitives) (call : AuthCall) (log : List AuthEvent)
    (program : AuthProgram Unit) : Prop :=
  (∀ statement ∈ program.next?, Legal primitives call log statement) ∧
    ∀ earlier statement rows seen later, log = earlier ++ .ran statement rows seen :: later →
      Legal primitives call earlier statement

theorem logged_program (primitives : Primitives) (call : AuthCall) :
    Everywhere (fun _ _ => True) (LoggedAt primitives call) [] (call.program primitives) := by
  refine Everywhere.logged ((lawful_program primitives call).mono fun _ _ => And.left) ?_
  intro earlier statement rows seen later split
  cases earlier <;> cases split

end Programs

end OpsComposer.Accounts
