import IdentityAuthority.Storage.Management
import IdentityAuthority.Storage.PasswordAttempts

/-!
# Account operations

Creating accounts, changing them under host authorization, and recovering a password from
maintenance. Every change burns an epoch of the account.
-/

namespace IdentityAuthority

open Relational

/-- The first account of a tenant (`initialize`). -/
def initializeTenant (key : AccountKey) (login hash : String) : Action AccountState := do
  insertAccount key login hash
  let stored ← load key
  pure stored.state

/-- A new account with a local password, by an authorized actor (`create_local_account`). -/
def createLocalAccount (env : Env) (actor : AuthenticatedSession) (login hash : String) :
    Action AccountState := do
  let principal ← newV4 env
  let loaded ← recheck env actor
  authorize env loaded .createAccount (some ⟨principal⟩)
  insertAccount ⟨principal⟩ login hash
  let stored ← load ⟨principal⟩
  pure stored.state

/-- A new account provisioned by another tenant's actor, whom the host authorized there
(`create_local_account_in`). -/
def createLocalAccountIn (env : Env) (login hash : String) : Action AccountState := do
  let principal ← newV4 env
  insertAccount ⟨principal⟩ login hash
  let stored ← load ⟨principal⟩
  pure stored.state

/-- Two tenants of one instance, in one transaction: the actor's, and the one it provisions. -/
structure TwoTenants where
  source : Db
  target : Db

/-- The tenant of the actor. -/
def TwoTenants.ofSource : Part TwoTenants Db := ⟨source, fun db next => { db with source := next }⟩

/-- The tenant that is provisioned. -/
def TwoTenants.ofTarget : Part TwoTenants Db := ⟨target, fun db next => { db with target := next }⟩

/-- Whose actors a provisioner serves, and which tenants it knows. -/
structure AccountProvisioner where
  source : Uuid
  tenants : List Uuid

/-- Authorizes an actor of the source tenant inside a transaction of the target (`authorize_in`). -/
def authorizeIn (env : Env) (provisioner : AccountProvisioner) (target actorTenant : Uuid)
    (actor : AuthenticatedSession) : Tx TwoTenants Failure Unit := do
  Tx.require (actorTenant = provisioner.source ∧ target ≠ provisioner.source ∧
    actor.authority = env.instanceId ∧ target ∈ provisioner.tenants) .rejected
  Tx.within TwoTenants.ofSource do
    let loaded ← recheck env actor
    authorize env loaded (.provisionAccount target) none

/-- Provisions an account of the target tenant, by an authorized actor of the source tenant
(`AccountProvisioner::create_local_account_in`). -/
def provisionLocalAccount (env : Env) (provisioner : AccountProvisioner)
    (target actorTenant : Uuid) (actor : AuthenticatedSession) (login hash : String) :
    Tx TwoTenants Failure AccountState := do
  authorizeIn env provisioner target actorTenant actor
  Tx.within TwoTenants.ofTarget (createLocalAccountIn env login hash)

/-- The change of an account, a password with its new hash. -/
inductive AccountChange
  | enabled (value : Bool)
  | membership (value : Bool)
  | password (hash : String)
deriving DecidableEq

namespace AccountChange

/-- The policy's view of a change. -/
def localChange : AccountChange → LocalChange
  | enabled value => .enabled value
  | membership value => .membership value
  | password _ => .password

/-- The management operation a change is. -/
def operation (change : AccountChange) (own : Bool) : ManagementOperation :=
  match change with
  | enabled value => .setAccountEnabled value
  | membership value => .setMembership value
  | password _ => if own then .changeOwnPassword else .resetPassword

end AccountChange

/-- Stores the hash of a new password and forgets the attempts at the old one. -/
def setPassword (env : Env) (target : AccountKey) (hash : String) : Action Unit := do
  let _ ← Tx.updateIn Tables.localCredentials (fun row => decide (row.principal = target))
    (fun row => { row with passwordHash := hash }) .constraint
  clearAttempts env target

/-- The password step of an account change. -/
def applyPassword (env : Env) (target : AccountKey) (change : AccountChange) : Action Unit :=
  match change with
  | .password hash => setPassword env target hash
  | _ => pure ()

/-- A reauthentication that comes with a change is the actor's own, and still current. -/
def recheckReauthentication (env : Env) (actor : AuthenticatedSession) (target : AccountKey)
    (reauthentication : Option AuthenticationCandidate) : Action Unit :=
  match reauthentication with
  | some proof => do
    Tx.require (proof.state.key = actor.key ∧ target = actor.key) .rejected
    let _ ← current env proof
    pure ()
  | none => pure ()

/-- Writes the columns of an account that a change sets. -/
def setAccount (next : AccountState) : Action Unit := do
  let _ ← Tx.updateIn Tables.accounts (fun row => decide (row.principal = next.key))
    (fun row => { row with enabled := next.enabled, authEpoch := next.epoch }) .constraint
  pure ()

/-- Writes the columns of a membership that a change sets. -/
def setMembership (next : AccountState) : Action Unit := do
  let _ ← Tx.updateIn Tables.memberships (fun row => decide (row.principal = next.key))
    (fun row => { row with active := next.memberActive, epoch := next.membershipEpoch })
    .constraint
  pure ()

/-- Changes an account, by an authorized actor (`apply_account_change`). -/
def applyAccountChange (env : Env) (actor : AuthenticatedSession) (target : AccountKey)
    (change : AccountChange) (reauthentication : Option AuthenticationCandidate) :
    Action AccountState := do
  let loaded ← recheck env actor
  recheckReauthentication env actor target reauthentication
  authorize env loaded (change.operation reauthentication.isSome) (some target)
  let old ← load target
  let (next, _) ← Tx.ofExcept (ofRule (old.state.transition change.localChange))
  setAccount next
  applyPassword env target change
  setMembership next
  pure next

/-- Replaces the password of an account from maintenance (`recover_local_password`). -/
def recoverLocalPassword (env : Env) (key : AccountKey) (hash : String) :
    Action AccountState := do
  let old ← load key
  let (next, _) ← Tx.ofExcept (ofRule old.state.recover)
  let _ ← Tx.updateIn Tables.accounts (fun row => decide (row.principal = key))
    (fun row => { row with authEpoch := next.epoch }) .constraint
  setPassword env key hash
  pure next

/-- The account a password is checked against, with the time of the check (the first read of
`check_password`). -/
def readPassword (env : Env) (login : String) : Action (Option (Stored × AuthenticationCandidate)) :=
  do
  let found ← Tx.select Tables.localCredentials fun row => decide (row.loginKey = login)
  match found.head? with
  | none => pure none
  | some row => do
    let stored ← load row.principal
    let now ← now
    pure (some (stored, ⟨stored.state, env.instanceId, now⟩))

/-- A candidate whose password was found right is still current (the second read of
`check_password`). -/
def confirmPassword (env : Env) (candidate : AuthenticationCandidate) :
    Action AuthenticationCandidate := do
  Tx.require (candidate.state.active = true) .rejected
  let _ ← current env candidate
  pure candidate

end IdentityAuthority
