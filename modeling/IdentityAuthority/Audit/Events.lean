import IdentityAuthority.Core.Identifiers
import IdentityAuthority.Json.Text
import IdentityAuthority.Operations.Profiles

/-!
# Security events

What a transaction reports to the audit, and the one mapping of its events to audit records. The
mapping states again what each action means: an event that does not have that meaning gives no
record, and takes the transaction that reported it down with it.
-/

namespace IdentityAuthority

open Json

section Events

/-- The flags of an account that its events carry. -/
structure EventState where
  enabled : Bool
  memberActive : Bool
  membershipEpoch : ℤ
deriving DecidableEq

/-- A change of an account. -/
structure AccountEvent where
  action : String
  tenant : String
  principal : Uuid
  actor : Option Uuid
  epoch : ℤ
  state : EventState
deriving DecidableEq

/-- An account that was provisioned from another tenant. -/
structure ProvisioningEvent where
  account : AccountEvent
  actorTenant : String
  actorInstance : String
deriving DecidableEq

/-- What happened to a session. -/
inductive SessionAction
  | created
  | refreshed
  | revoked
  | allRevoked
deriving DecidableEq

/-- A change of a session. -/
structure SessionEvent where
  action : SessionAction
  tenant : String
  principal : Uuid
  source : AuthenticationSource
  session : SessionId
  replaced : Option SessionId
  epoch : ℤ
deriving DecidableEq

/-- What happened at a provider, or through one. -/
inductive FederationAction
  | providerCreated
  | providerUpdated
  | providerEnabled
  | providerDisabled
  | providerTested
  | providerTestFailed
  | jitCreated
  | loggedIn
  | linked
  | alreadyLinked
  | reauthenticated
  | steppedUp
deriving DecidableEq

/-- A change of a provider, or an authentication through it. -/
structure FederationEvent where
  tenant : String
  action : FederationAction
  provider : ProviderId
  configVersion : ℤ
  principal : Option Uuid
  diagnostic : Option ProviderFailure
deriving DecidableEq

/-- What happened to the authenticators of an account. -/
inductive AuthenticationAction
  | registered
  | removed
  | recovered
  | verified
deriving DecidableEq

/-- A change or a use of the authenticators of an account. -/
structure AuthenticationEvent where
  tenant : String
  principal : Uuid
  action : AuthenticationAction
deriving DecidableEq

/-- The events of the component. -/
inductive SecurityEvent
  | authentication (event : AuthenticationEvent)
  | profile (tenant : String) (event : ProfileEvent)
  | account (event : AccountEvent)
  | provisioned (event : ProvisioningEvent)
  | session (event : SessionEvent)
  | federation (event : FederationEvent)
deriving DecidableEq

/-- The tenant an event is about. -/
def SecurityEvent.tenant : SecurityEvent → String
  | authentication event => event.tenant
  | profile tenant _ => tenant
  | account event => event.tenant
  | provisioned event => event.account.tenant
  | session event => event.tenant
  | federation event => event.tenant

/-- The contract of an event: its name, its major version and the file of its schema. -/
def SecurityEvent.contract : SecurityEvent → String × ℕ × String
  | authentication _ =>
    ("identity.authentication.security", 1, "authentication-security-event-v1.json")
  | profile _ _ => ("identity.profile.security", 1, "profile-security-event-v1.json")
  | provisioned _ => ("identity.account.provisioning", 1, "account-provisioning-v1.json")
  | account _ => ("identity.account.security", 3, "security-event-v3.json")
  | federation _ => ("identity.federation.security", 2, "federation-security-event-v2.json")
  | session _ => ("identity.session.security", 1, "session-security-event-v1.json")

end Events

section Wire

/-- `SecurityAction::as_str`. -/
def SecurityAction.wire : SecurityAction → String
  | initialized => "initialized"
  | accountCreated => "account_created"
  | accountEnabled => "account_enabled"
  | accountDisabled => "account_disabled"
  | membershipEnabled => "membership_enabled"
  | membershipDisabled => "membership_disabled"
  | passwordChanged => "password_changed"
  | passwordRecovered => "password_recovered"

def SessionAction.wire : SessionAction → String
  | created => "created"
  | refreshed => "refreshed"
  | revoked => "revoked"
  | allRevoked => "all_revoked"

def FederationAction.wire : FederationAction → String
  | providerCreated => "provider_created"
  | providerUpdated => "provider_updated"
  | providerEnabled => "provider_enabled"
  | providerDisabled => "provider_disabled"
  | providerTested => "provider_tested"
  | providerTestFailed => "provider_test_failed"
  | jitCreated => "jit_created"
  | loggedIn => "logged_in"
  | linked => "linked"
  | alreadyLinked => "already_linked"
  | reauthenticated => "reauthenticated"
  | steppedUp => "stepped_up"

def AuthenticationAction.wire : AuthenticationAction → String
  | registered => "registered"
  | removed => "removed"
  | recovered => "recovered"
  | verified => "verified"

def AuthenticationSource.wire : AuthenticationSource → String
  | localPassword => "local_password"
  | oidc => "oidc"
  | platform => "platform"

def ProviderStage.wire : ProviderStage → String
  | binding => "binding"
  | discovery => "discovery"
  | jwks => "jwks"
  | exchange => "exchange"
  | claims => "claims"

def ProviderReason.wire : ProviderReason → String
  | invalidTrustAnchor => "invalid_trust_anchor"
  | egressDenied => "egress_denied"
  | tlsRejected => "tls_rejected"
  | unavailable => "unavailable"
  | timeout => "timeout"
  | invalidResponse => "invalid_response"
  | issuerMismatch => "issuer_mismatch"
  | issuerResponseUnsupported => "issuer_response_unsupported"
  | codeRejected => "code_rejected"
  | invalidToken => "invalid_token"

/-- A failure in the payload of a record. -/
def ProviderFailure.payload (failure : ProviderFailure) : Value :=
  .object [("reason", .string failure.reason.wire), ("stage", .string failure.stage.wire)]

/-- The flags of an account in the payload of a record. -/
def EventState.payload (state : EventState) : Value :=
  .object
    [("enabled", .bool state.enabled), ("member_active", .bool state.memberActive),
      ("membership_epoch", .number (.integer state.membershipEpoch))]

/-- The source of a profile in the payload of a record. -/
def ProfileSource.payload (ids : UuidFormat) : ProfileSource → Value
  | identityLocal => .object [("kind", .string "identity_local")]
  | idp provider => .object [("kind", .string "idp"), ("provider", .string (ids.text provider.uuid))]

/-- An optional identifier in the payload of a record. -/
def optionalId (ids : UuidFormat) (id : Option Uuid) : Value :=
  id.elim .null fun id => .string (ids.text id)

end Wire

section Records

/-- How an audited action ended. -/
inductive AuditOutcome
  | succeeded
  | failed
deriving DecidableEq

/-- What an event says in the terms of the audit. The members of its payload are in the order of
their names. -/
structure AuditFacts where
  action : String
  actorKind : String
  actorId : String
  resourceKind : String
  resourceId : String
  outcome : AuditOutcome
  payload : Value

/-- The meaning of an event about authenticators. That its principal is not the nil one is in its
type. -/
def AuthenticationEvent.facts (ids : UuidFormat) (event : AuthenticationEvent) (tenant : String) :
    Option AuditFacts :=
  if event.tenant = tenant then
    some
      { action := "identity.authentication." ++ event.action.wire
        actorKind := "principal"
        actorId := ids.text event.principal
        resourceKind := "authentication"
        resourceId := ids.text event.principal
        outcome := .succeeded
        payload := .object [] }
  else none

/-- The attributes of a profile that an event may name. -/
def knownFields : List String :=
  ["displayName", "username", "email", "emailVerified", "extensions", "maxAgeSeconds"]

/-- The meaning of an event about a profile: it was observed, or replaced by an actor. -/
def ProfileEvent.facts (ids : UuidFormat) (event : ProfileEvent) (own tenant : String) :
    Option AuditFacts :=
  if event.changedFields.length ≤ 6 ∧ (∀ field ∈ event.changedFields, field ∈ knownFields) ∧
      own = tenant ∧ event.action ∈ ["observed", "local_updated"] ∧
      (∀ revision ∈ event.revision, 0 < revision) ∧
      (event.action = "observed" ↔ event.snapshot.isSome = true) ∧
      (event.action = "local_updated" ↔ event.actor.isSome = true) then
    some
      { action := "identity.profile." ++ event.action
        actorKind := "principal"
        actorId := ids.text (event.actor.getD event.principal).uuid
        resourceKind := "profile"
        resourceId := ids.text event.principal.uuid
        outcome := .succeeded
        payload := .object
          [("changed_fields", .array (event.changedFields.map .string)),
            ("revision", event.revision.elim .null fun n => .number (.integer n)),
            ("snapshot_id", optionalId ids event.snapshot), ("source", event.source.payload ids)] }
  else none

/-- The meaning of a provisioning: an account was made by an actor of another tenant. -/
def ProvisioningEvent.facts (ids : UuidFormat) (event : ProvisioningEvent) (instanceId : Uuid) :
    Option AuditFacts := do
  let actor ← event.account.actor
  if event.account.action = "account_created" ∧ event.actorInstance = ids.text instanceId ∧
      event.actorTenant ≠ event.account.tenant ∧ 0 < event.account.epoch ∧
      0 < event.account.state.membershipEpoch ∧ (ids.parse event.actorTenant).isSome = true then
    some
      { action := "identity.account.provisioned"
        actorKind := "principal"
        actorId := event.actorTenant ++ ":" ++ ids.text actor
        resourceKind := "account"
        resourceId := ids.text event.account.principal
        outcome := .succeeded
        payload := .object
          [("actor_instance", .string event.actorInstance),
            ("actor_principal", .string (ids.text actor)),
            ("actor_tenant", .string event.actorTenant),
            ("epoch", .number (.integer event.account.epoch)),
            ("state", event.account.state.payload)] }
  else none

/-- The changes of an account that are recorded. -/
def accountActions : List String :=
  ["initialized", "account_created", "account_enabled", "account_disabled", "membership_enabled",
    "membership_disabled", "password_changed", "password_recovered"]

/-- The changes of an account that maintenance may make, without an actor. -/
def maintenanceActions : List String := ["initialized", "account_created", "password_recovered"]

/-- The meaning of an event about an account. -/
def AccountEvent.facts (ids : UuidFormat) (event : AccountEvent) (instanceId : Uuid)
    (tenant : String) : Option AuditFacts :=
  if event.tenant = tenant ∧ 0 < event.epoch ∧ 0 < event.state.membershipEpoch ∧
      event.action ∈ accountActions ∧
      (event.actor.isSome = true ∨ event.action ∈ maintenanceActions) then
    some
      { action := "identity.account." ++ event.action
        actorKind := event.actor.elim "maintenance" fun _ => "principal"
        actorId := ids.text (event.actor.getD instanceId)
        resourceKind := "account"
        resourceId := ids.text event.principal
        outcome := .succeeded
        payload := .object
          [("epoch", .number (.integer event.epoch)), ("state", event.state.payload)] }
  else none

/-- The meaning of an event about a session: only a new one replaces another. -/
def SessionEvent.facts (ids : UuidFormat) (event : SessionEvent) (tenant : String) :
    Option AuditFacts :=
  if event.tenant = tenant ∧ 0 < event.epoch ∧
      (event.action = .created ∨ event.replaced = none) then
    some
      { action := "identity.session." ++ event.action.wire
        actorKind := "principal"
        actorId := ids.text event.principal
        resourceKind := if event.action = .allRevoked then "account_sessions" else "session"
        resourceId :=
          ids.text (if event.action = .allRevoked then event.principal else event.session.uuid)
        outcome := .succeeded
        payload := .object
          [("epoch", .number (.integer event.epoch)),
            ("replaced_session_id", optionalId ids (event.replaced.map SessionId.uuid)),
            ("session_id", .string (ids.text event.session.uuid)),
            ("source", .string event.source.wire)] }
  else none

/-- The actions that are about a provider itself. -/
def FederationAction.onProvider : FederationAction → Bool
  | providerCreated | providerUpdated | providerEnabled | providerDisabled | providerTested
  | providerTestFailed => true
  | _ => false

/-- The resource of an event about federation: the provider, or the account it authenticated. -/
def FederationEvent.resource (ids : UuidFormat) (event : FederationEvent) :
    Option (String × String) :=
  if event.action.onProvider then some ("provider", ids.text event.provider.uuid)
  else event.principal.map fun principal => ("federated_principal", ids.text principal)

/-- The meaning of an event about federation: it has an account, unless a provider was updated,
and a diagnostic exactly where a test failed. -/
def FederationEvent.facts (ids : UuidFormat) (event : FederationEvent) (instanceId : Uuid)
    (tenant : String) : Option AuditFacts := do
  if event.tenant = tenant ∧ 0 < event.configVersion ∧
      (event.principal.isSome = true ∨ event.action = .providerUpdated) ∧
      (event.diagnostic.isSome = true ↔ event.action = .providerTestFailed) then
    let (resourceKind, resourceId) ← event.resource ids
    some
      { action := "identity.federation." ++ event.action.wire
        actorKind := event.principal.elim "system" fun _ => "principal"
        actorId := ids.text (event.principal.getD instanceId)
        resourceKind
        resourceId
        outcome := if event.action = .providerTestFailed then .failed else .succeeded
        payload := .object
          [("config_version", .number (.integer event.configVersion)),
            ("diagnostic", event.diagnostic.elim .null ProviderFailure.payload),
            ("provider_id", .string (ids.text event.provider.uuid))] }
  else none

/-- The meaning of an event. -/
def SecurityEvent.facts (ids : UuidFormat) (event : SecurityEvent) (instanceId : Uuid)
    (tenant : String) : Option AuditFacts :=
  match event with
  | authentication event => event.facts ids tenant
  | profile own event => event.facts ids own tenant
  | provisioned event => event.facts ids instanceId
  | account event => event.facts ids instanceId tenant
  | session event => event.facts ids tenant
  | federation event => event.facts ids instanceId tenant

/-- The parsers of the audit for the fields of a record, and how identifiers and the digests of
schemas are written. -/
structure AuditFormat where
  ids : UuidFormat
  schemaText : String → String
  contractId : String → Bool
  contractVersion : ℕ → Bool
  schemaDigest : String → Bool
  sourceId : String → Bool
  eventId : String → Bool
  actorKind : String → Bool
  actorId : String → Bool
  action : String → Bool
  resourceKind : String → Bool
  resourceId : String → Bool
  payload : List Char → Bool

/-- A record of the audit. -/
structure AuditRecord where
  tenant : Uuid
  source : String
  contract : String
  version : ℕ
  schema : String
  event : String
  occurred : ℤ
  facts : AuditFacts

/-- The audit takes all fields of a record. -/
def AuditFormat.takes (format : AuditFormat) (record : AuditRecord) : Bool :=
  format.contractId record.contract && format.contractVersion record.version &&
    format.schemaDigest record.schema && format.sourceId record.source &&
    format.eventId record.event && format.actorKind record.facts.actorKind &&
    format.actorId record.facts.actorId && format.action record.facts.action &&
    format.resourceKind record.facts.resourceKind && format.resourceId record.facts.resourceId &&
    format.payload (render .compact record.facts.payload)

/-- The record of an event, under a fresh identifier (`map_event`). -/
def mapEvent (format : AuditFormat) (instanceId tenant id : Uuid) (occurred : ℤ)
    (event : SecurityEvent) : Option AuditRecord := do
  if event.tenant = format.ids.text tenant then
    let facts ← event.facts format.ids instanceId (format.ids.text tenant)
    let (contract, version, schema) := event.contract
    let record : AuditRecord :=
      { tenant, contract, version, occurred, facts
        source := "identity." ++ format.ids.text instanceId
        schema := format.schemaText schema
        event := format.ids.text id }
    if format.takes record then some record else none
  else none

end Records

end IdentityAuthority
