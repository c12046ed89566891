import IdentityAuthority.Storage.Management
import IdentityAuthority.Storage.Profiles

/-!
# Local profiles

A profile the component keeps itself is replaced as a whole, under the revision its editor saw.
An update is settled once: a repeated one gets the receipt of the first.
-/

namespace IdentityAuthority

open Relational Json

/-- An update of a local profile. -/
structure ProfileChange where
  operation : Uuid
  expectedRevision : ℤ
  value : Option LocalProfile

/-- The update as its digest covers it. -/
def ProfileChange.toJson (env : Env) (change : ProfileChange) : Value :=
  .object
    [("operationId", .string (env.parsers.uuidText change.operation)),
      ("expectedRevision", .number (.integer change.expectedRevision)),
      ("value", change.value.elim .null LocalProfile.toJson)]

/-- The digest of an update. -/
def ProfileChange.digest (env : Env) (change : ProfileChange) : Digest :=
  env.sha256.text (String.ofList (render .compact (change.toJson env)))

/-- What an update settled as. -/
structure ProfileReceipt where
  operation : Uuid
  revision : ℤ
deriving DecidableEq

/-- How many updates an account may have settled. -/
def maxProfileOperations : ℕ := 4096

/-- Stores the value of an account at its next revision. -/
def storeLocalProfile (next : LocalProfileRow) : Action Unit := do
  Tx.require (Keyed.Check next) .constraint
  let stored ← Tx.find Tables.localProfiles next.principal
  match stored with
  | none => Tx.insertInto Tables.localProfiles next .constraint
  | some _ => do
    let _ ← Tx.updateIn Tables.localProfiles (fun row => decide (row.principal = next.principal))
      (fun row => { row with revision := next.revision, value := next.value }) .constraint
    pure ()

/-- What the audit learns of a profile (`ProfileEvent`). -/
structure ProfileEvent where
  principal : AccountKey
  actor : Option AccountKey
  action : String
  source : ProfileSource
  snapshot : Option Uuid
  revision : Option ℤ
  changedFields : List String
deriving DecidableEq

/-- The attributes that a profile changes (`changes`); all of them, where there was none. -/
def changes (previous : Option Profile) (next : Profile) : List String :=
  [("displayName", decide (previous.map Profile.displayName ≠ some next.displayName)),
    ("username", decide (previous.map Profile.username ≠ some next.username)),
    ("email", decide (previous.map Profile.email ≠ some next.email)),
    ("emailVerified", decide (previous.map Profile.emailVerified ≠ some next.emailVerified)),
    ("extensions", decide (previous.map Profile.extensions ≠ some next.extensions))].filterMap
    fun (name, changed) => if changed then some name else none

/-- A local profile with its revision. -/
structure LocalProfileView where
  revision : ℤ
  value : Option LocalProfile

/-- What an account's row says of its local profile (`local_view`). -/
def localView (row : Option LocalProfileRow) : LocalProfileView where
  revision := row.elim 0 LocalProfileRow.revision
  value := row.bind LocalProfileRow.value

/-- The profile that a local profile amounts to, if there is one. -/
def observed : Option LocalProfile → Option (Option Profile)
  | none => some none
  | some value => value.observation.map some

/-- What the audit learns of an update. -/
def updateEvent (actor target : AccountKey) (old : LocalProfileView) (change : ProfileChange)
    (before after : Option Profile) (revision : ℤ) : ProfileEvent where
  principal := target
  actor := some actor
  action := "local_updated"
  source := .identityLocal
  snapshot := none
  revision := some revision
  changedFields := changes before (after.getD .absent) ++
    if old.value.map LocalProfile.maxAgeSeconds ≠ change.value.map LocalProfile.maxAgeSeconds then
      ["maxAgeSeconds"] else []

/-- Settles an update that was not settled before. -/
def settleProfile (env : Env) (actor target : AccountKey) (change : ProfileChange) :
    Action (ProfileReceipt × List ProfileEvent) := do
  let settled ← Tx.select Tables.profileOperations fun row => decide (row.principal = target)
  Tx.require (settled.length < maxProfileOperations) .rejected
  let row ← Tx.find Tables.localProfiles target
  let old := localView row
  Tx.require (old.revision = change.expectedRevision) .revisionConflict
  let next ← Tx.demand (checkedAdd old.revision 1) .corrupt
  let before ← Tx.demand (observed old.value) .corrupt
  let after ← Tx.demand (observed change.value) .corrupt
  storeLocalProfile { principal := target, revision := next, value := change.value }
  Tx.insertInto Tables.profileOperations
    { operation := change.operation
      principal := target
      actor
      digest := change.digest env
      revision := next } .constraint
  pure ({ operation := change.operation, revision := next },
    [updateEvent actor target old change before after next])

/-- Admits an actor to the update of an account that is active. -/
def admitUpdate (env : Env) (actor : AuthenticatedSession) (target : AccountKey) : Action Unit := do
  let loaded ← recheck env actor
  authorize env loaded .updateLocalProfile (some target)
  let stored ← load target
  Tx.require (stored.state.active = true) .rejected

/-- Answers an update that was admitted. A repeated one is answered before the bound on updates or
the revision is looked at, and the audit learns nothing of it. -/
def answerUpdate (env : Env) (actor target : AccountKey) (change : ProfileChange) :
    Action (ProfileReceipt × List ProfileEvent) := do
  let replayed ← Tx.find Tables.profileOperations change.operation
  match replayed with
  | some row => do
    Tx.require (row.principal = target ∧ row.actor = actor ∧ row.digest = change.digest env)
      .operationConflict
    pure ({ operation := change.operation, revision := row.revision }, [])
  | none => settleProfile env actor target change

/-- Replaces the local profile of an account, by an authorized actor (`update_local_profile`). -/
def updateLocalProfile (env : Env) (actor : AuthenticatedSession) (target : AccountKey)
    (change : ProfileChange) : Action (ProfileReceipt × List ProfileEvent) := do
  Tx.require (0 ≤ change.expectedRevision ∧
    ∀ value ∈ change.value, value.observation.isSome = true) .invalidInput
  admitUpdate env actor target
  answerUpdate env actor.key target change

end IdentityAuthority
