import OpsComposer.Foundations.Transition
import OpsComposer.Services.Auth

/-!
# Accounts under requests of anyone

The authentication service as a transition system.  An `AuthWorld` is the
committed store, the clock, and the principals that requests have been resolved
to: a request first resolves its session and then runs its operation, in two
transactions, so that the principal of an operation may be out of date.

Every action is one call of the service with the arguments that its caller and
the random sources supply.  A call that fails leaves the store as it was, but
for the two rate-limit counters of `login`.
-/

set_option autoImplicit false

namespace OpsComposer.Authentication

open Domain Foundations Repositories Services

/-- One call of the service; `request` is the position of a resolved request. -/
inductive AuthAction where
  | tick (elapsed : Nat)
  | bootstrap (userId : Uuid) (username : String) (password : Text) (fresh : Fresh)
  | login (username : String) (password : Text) (clientKey : String) (fresh : Fresh)
  | resolve (sessionToken : String)
  | completeMfa (challengeToken : String) (value : Text)
      (expectedPurpose : Option ChallengePurpose) (fresh : Fresh)
  | beginMfaEnrollment (request : Nat) (fresh : Fresh)
  | reauthenticate (request : Nat) (password : Text) (mfaValue : Option Text)
  | regenerateRecoveryCodes (request : Nat) (fresh : Fresh)
  | changePassword (request : Nat) (currentPassword newPassword : Text)
      (mfaValue : Option Text) (fresh : Fresh)
  | activate (activationCode : String) (password : Text) (fresh : Fresh)
  | createUser (request : Nat) (username : String) (role : UserRole)
      (userId activationTokenId : Uuid) (activationCode : String)
  | reissueActivation (request : Nat) (userId activationTokenId : Uuid) (activationCode : String)
  | updateUser (request : Nat) (userId : Uuid) (role : UserRole) (status : UserStatus)
      (expectedVersion : Nat)
  | resetUserMfa (request : Nat) (userId : Uuid)
  | breakGlassResetMfa (username confirmation : String)
  | breakGlassResetPassword (username confirmation : String) (newPassword : Text)
      (fresh : Fresh)
  | logout (request : Nat)
  | rotateFactors (batch : List (Uuid × Nat))
  | purgeExpired

/-- The tables of the accounts, and the requests that have been resolved. -/
structure AuthWorld where
  clock : Nat
  store : AuthStore
  /-- What the requests so far were resolved to. -/
  requests : List SessionPrincipal

namespace AuthWorld

/-- A freshly migrated database. -/
def start : AuthWorld where
  clock := 0
  store := .empty
  requests := []

/-- A unit of work commits its store, or rolls back. -/
def commit (world : AuthWorld) {α : Type} (answer : Except AuthError α) (stored : α → AuthStore) :
    AuthStore :=
  match answer with
  | .ok result => stored result
  | .error _ => world.store

variable (primitives : Primitives) (settings : AuthSettings)

/-- The store after one call. -/
def call (world : AuthWorld) :
    AuthAction → Option AuthStore
  | .tick _ => some world.store
  | .bootstrap userId username password fresh =>
      some (world.commit (AuthService.bootstrap primitives world.store userId username password
        fresh world.clock) Prod.snd)
  | .login username password clientKey fresh =>
      some (AuthService.login primitives settings world.store username password clientKey fresh
        world.clock).2
  | .resolve _ => some world.store
  | .completeMfa challengeToken value expectedPurpose fresh =>
      some (world.commit (AuthService.completeMfa primitives settings world.store challengeToken
        value expectedPurpose fresh world.clock) Prod.snd)
  | .beginMfaEnrollment request fresh =>
      world.requests[request]?.map fun principal =>
        world.commit (AuthService.beginMfaEnrollment primitives settings world.store principal
          fresh world.clock) Prod.snd
  | .reauthenticate request password mfaValue =>
      world.requests[request]?.map fun principal =>
        world.commit (AuthService.reauthenticate primitives settings world.store principal
          password mfaValue world.clock) Prod.snd
  | .regenerateRecoveryCodes request fresh =>
      world.requests[request]?.map fun actor =>
        world.commit (AuthService.regenerateRecoveryCodes primitives settings world.store actor
          fresh world.clock) Prod.snd
  | .changePassword request currentPassword newPassword mfaValue fresh =>
      world.requests[request]?.map fun actor =>
        world.commit (AuthService.changePassword primitives settings world.store actor
          currentPassword newPassword mfaValue fresh world.clock) id
  | .activate activationCode password fresh =>
      some (world.commit (AuthService.activate primitives settings world.store activationCode
        password fresh world.clock) Prod.snd)
  | .createUser request username role userId activationTokenId activationCode =>
      world.requests[request]?.map fun actor =>
        world.commit (AuthService.createUser primitives world.store actor username role userId
          activationTokenId activationCode world.clock) id
  | .reissueActivation request userId activationTokenId activationCode =>
      world.requests[request]?.map fun actor =>
        world.commit (AuthService.reissueActivation primitives world.store actor userId
          activationTokenId activationCode world.clock) id
  | .updateUser request userId role status expectedVersion =>
      world.requests[request]?.map fun actor =>
        world.commit (AuthService.updateUser world.store actor userId role status expectedVersion
          world.clock) Prod.snd
  | .resetUserMfa request userId =>
      world.requests[request]?.map fun actor =>
        world.commit (AuthService.resetUserMfa world.store actor userId world.clock) id
  | .breakGlassResetMfa username confirmation =>
      some (world.commit (AuthService.breakGlassResetMfa primitives world.store username
        confirmation world.clock) id)
  | .breakGlassResetPassword username confirmation newPassword fresh =>
      some (world.commit (AuthService.breakGlassResetPassword primitives world.store username
        confirmation newPassword fresh world.clock) id)
  | .logout request =>
      world.requests[request]?.map fun principal => AuthService.logout world.store principal
  | .rotateFactors batch =>
      some (world.commit (AuthService.rotateFactors primitives world.store world.clock batch) id)
  | .purgeExpired => some (AuthRepository.purgeExpired world.store world.clock)

/-- The clock and the requests after an action. -/
def clockAfter (world : AuthWorld) : AuthAction → Nat
  | .tick elapsed => world.clock + elapsed
  | _ => world.clock

/-- The requests that have been resolved after the action. -/
def requestsAfter (world : AuthWorld) :
    AuthAction → List SessionPrincipal
  | .resolve sessionToken =>
      match AuthService.resolve primitives settings world.store sessionToken world.clock with
      | .ok principal => world.requests ++ [principal]
      | .error _ => world.requests
  | _ => world.requests

/-- One call, if it succeeds. -/
def step (world : AuthWorld)
    (action : AuthAction) : Option AuthWorld :=
  (call primitives settings world action).map fun store =>
    { clock := world.clockAfter action
      store := store
      requests := world.requestsAfter primitives settings action }

end AuthWorld

/-- The authentication service as a transition system. -/
def accounts (primitives : Primitives) (settings : AuthSettings) :
    System AuthWorld AuthAction where
  init world := world = .start
  step := AuthWorld.step primitives settings

end OpsComposer.Authentication
