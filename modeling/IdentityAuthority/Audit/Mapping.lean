import IdentityAuthority.Audit.Reports
import IdentityAuthority.Audit.Settlement
import IdentityAuthority.Safety.LocalProfiles
import IdentityAuthority.Safety.Reconciliation

/-!
# Every reported event has a record

The mapping refuses an event that does not have the meaning of its action, and the transaction of a
refused event is rolled back. No operation reports such an event, where the audit takes the fixed
words of the component and identifiers as it writes them.
-/

namespace IdentityAuthority

open Relational Json

section Acceptance

/-- The kinds of actors in records. -/
def auditActorKinds : List String := ["principal", "maintenance", "system"]

/-- The kinds of resources in records. -/
def auditResourceKinds : List String :=
  ["authentication", "profile", "account", "account_sessions", "session", "provider",
    "federated_principal"]

/-- The actions in records. -/
def auditActions : List String :=
  accountActions.map ("identity.account." ++ ·) ++ ["identity.account.provisioned"] ++
  [AuthenticationAction.registered, .removed, .recovered, .verified].map
    (fun action => "identity.authentication." ++ action.wire) ++
  ["observed", "local_updated"].map ("identity.profile." ++ ·) ++
  [SessionAction.created, .refreshed, .revoked, .allRevoked].map
    (fun action => "identity.session." ++ action.wire) ++
  [FederationAction.providerCreated, .providerUpdated, .providerEnabled, .providerDisabled,
    .providerTested, .providerTestFailed, .jitCreated, .loggedIn, .linked, .alreadyLinked,
    .reauthenticated, .steppedUp].map (fun action => "identity.federation." ++ action.wire)

/-- The audit takes what the component always writes: its contracts, its source, the fixed kinds
and actions, identifiers, and the payloads of events. -/
structure AuditFormat.Accepts (format : AuditFormat) (instanceId : Uuid) : Prop where
  contract : ∀ event : SecurityEvent, format.contractId event.contract.1 = true ∧
    format.contractVersion event.contract.2.1 = true ∧
    format.schemaDigest (format.schemaText event.contract.2.2) = true
  sourceId : format.sourceId ("identity." ++ format.ids.text instanceId) = true
  id : ∀ id, format.eventId (format.ids.text id) = true ∧ format.actorId (format.ids.text id) = true ∧
    format.resourceId (format.ids.text id) = true
  foreignActor : ∀ tenant actor,
    format.actorId (format.ids.text tenant ++ ":" ++ format.ids.text actor) = true
  actorKind : ∀ kind ∈ auditActorKinds, format.actorKind kind = true
  resourceKind : ∀ kind ∈ auditResourceKinds, format.resourceKind kind = true
  action : ∀ action ∈ auditActions, format.action action = true
  payload : ∀ (event : SecurityEvent) tenant facts,
    event.facts format.ids instanceId tenant = some facts →
      format.payload (render .compact facts.payload) = true

/-- An event gives a record, under whatever identifier and at whatever time. -/
def AuditFormat.Maps (format : AuditFormat) (instanceId tenant : Uuid) (event : SecurityEvent) :
    Prop :=
  ∀ id occurred, (mapEvent format instanceId tenant id occurred event).isSome = true

/-- Facts in the words of the component. -/
structure AuditFacts.Known (facts : AuditFacts) (ids : UuidFormat) : Prop where
  actorKind : facts.actorKind ∈ auditActorKinds
  actorId : (∃ id, facts.actorId = ids.text id) ∨
    ∃ tenant id, facts.actorId = ids.text tenant ++ ":" ++ ids.text id
  action : facts.action ∈ auditActions
  resourceKind : facts.resourceKind ∈ auditResourceKinds
  resourceId : ∃ id, facts.resourceId = ids.text id

variable {format : AuditFormat} {instanceId tenant : Uuid} {event : SecurityEvent}

/-- An event of the tenant whose facts are in the words of the component gives a record. -/
theorem AuditFormat.Accepts.maps {facts : AuditFacts} (h : format.Accepts instanceId)
    (htenant : event.tenant = format.ids.text tenant)
    (hfacts : event.facts format.ids instanceId (format.ids.text tenant) = some facts)
    (hknown : facts.Known format.ids) : format.Maps instanceId tenant event := by
  intro id occurred
  obtain ⟨hcontract, hversion, hschema⟩ := h.contract event
  obtain ⟨hevent, -, -⟩ := h.id id
  have hactor : format.actorId facts.actorId = true := by
    rcases hknown.actorId with ⟨actor, hactor⟩ | ⟨actorTenant, actor, hactor⟩
    · rw [hactor]
      exact (h.id actor).2.1
    · rw [hactor]
      exact h.foreignActor actorTenant actor
  have hresource : format.resourceId facts.resourceId = true := by
    obtain ⟨resource, hresource⟩ := hknown.resourceId
    rw [hresource]
    exact (h.id resource).2.2
  simp only [mapEvent, if_pos htenant, hfacts, Option.bind_eq_bind, Option.bind_some,
    AuditFormat.takes, hcontract, hversion, hschema, h.sourceId, hevent,
    h.actorKind _ hknown.actorKind, hactor, h.action _ hknown.action,
    h.resourceKind _ hknown.resourceKind, hresource, h.payload event _ facts hfacts, Bool.and_self,
    if_true, Option.isSome_some]

end Acceptance

section Events

variable {format : AuditFormat} {instanceId tenant : Uuid} {parsers : Parsers}

/-- The reporter of a tenant that writes identifiers as the audit reads them. -/
def AuditFormat.reporter (format : AuditFormat) (tenant : Uuid) : Reporter := ⟨format.ids, tenant⟩

/-- A change of an account is recorded, if an actor made it or it is one of maintenance. -/
theorem account_maps (h : format.Accepts instanceId) {action : SecurityAction}
    {state : AccountState} {actor : Option AccountKey}
    (hactor : actor.isSome = true ∨ action.wire ∈ maintenanceActions) :
    format.Maps instanceId tenant ((format.reporter tenant).account action state actor) := by
  have hepoch := state.epoch_pos
  have hmembership := state.membershipEpoch_pos
  have haction : action.wire ∈ accountActions := by
    cases action <;> decide
  have hfacts : 0 < state.epoch ∧ 0 < state.membershipEpoch ∧ action.wire ∈ accountActions ∧
      ((actor.map PrincipalId.uuid).isSome = true ∨ action.wire ∈ maintenanceActions) :=
    ⟨by omega, by omega, haction, by rwa [Option.isSome_map]⟩
  refine h.maps rfl (if_pos ⟨rfl, hfacts⟩) ⟨?_, .inl ⟨_, rfl⟩, ?_, ?_, _, rfl⟩
  · cases actor <;> simp [Reporter.accountEvent, auditActorKinds]
  · simp only [auditActions, List.mem_append]
    exact .inl (.inl (.inl (.inl (.inl (List.mem_map_of_mem haction)))))
  · simp [auditResourceKinds]

/-- A provisioning is recorded, if it came from another tenant. -/
theorem provisioned_maps (h : format.Accepts instanceId) {state : AccountState} {actorTenant : Uuid}
    {actor : AccountKey} (hforeign : actorTenant ≠ tenant) :
    format.Maps instanceId tenant
      ((format.reporter tenant).provisioned state actorTenant actor instanceId) := by
  have hepoch := state.epoch_pos
  have hmembership := state.membershipEpoch_pos
  have htexts : format.ids.text actorTenant ≠ format.ids.text tenant := by
    intro htext
    have hparsed := format.ids.parse_text actorTenant
    rw [htext, format.ids.parse_text, Option.some.injEq] at hparsed
    exact hforeign hparsed.symm
  have hread : (format.ids.parse (format.ids.text actorTenant)).isSome = true := by
    rw [format.ids.parse_text]
    rfl
  refine h.maps rfl (if_pos ⟨rfl, rfl, htexts, ?_, ?_, hread⟩)
    ⟨?_, .inr ⟨_, _, rfl⟩, ?_, ?_, _, rfl⟩
  · simp [auditActorKinds]
  · simp [auditActions]
  · simp [auditResourceKinds]
  · exact (show 0 < state.epoch by omega)
  · exact (show 0 < state.membershipEpoch by omega)

/-- What happened to a session is recorded, if only a new one replaces another. -/
theorem session_maps (h : format.Accepts instanceId) {action : SessionAction} {state : AccountState}
    {id : SessionId} {replaced : Option SessionId} {source : AuthenticationSource}
    (hreplaced : action = .created ∨ replaced = none) :
    format.Maps instanceId tenant
      ((format.reporter tenant).session action state id replaced source) := by
  have hepoch := state.epoch_pos
  refine h.maps rfl (if_pos ⟨rfl, (show 0 < state.epoch by omega), hreplaced⟩)
    ⟨?_, .inl ⟨_, rfl⟩, ?_, ?_, _, rfl⟩
  · simp [auditActorKinds]
  · simp only [auditActions, List.mem_append]
    refine .inl (.inr (List.mem_map.mpr ⟨action, ?_, rfl⟩))
    cases action <;> decide
  · split <;> simp [auditResourceKinds]

/-- What happened to authenticators is recorded. -/
theorem authentication_maps (h : format.Accepts instanceId) {key : AccountKey}
    {action : AuthenticationAction} :
    format.Maps instanceId tenant ((format.reporter tenant).authentication key action) := by
  refine h.maps rfl (if_pos rfl) ⟨?_, .inl ⟨_, rfl⟩, ?_, ?_, _, rfl⟩
  · simp [auditActorKinds]
  · simp only [auditActions, List.mem_append]
    refine .inl (.inl (.inl (.inr (List.mem_map.mpr ⟨action, ?_, rfl⟩))))
    cases action <;> decide
  · simp [auditResourceKinds]

/-- An event about a profile has the meaning of its action. -/
structure ProfileEvent.Meant (event : ProfileEvent) : Prop where
  few : event.changedFields.length ≤ 6
  known : ∀ field ∈ event.changedFields, field ∈ knownFields
  action : event.action ∈ ["observed", "local_updated"]
  revision : ∀ revision ∈ event.revision, 0 < revision
  snapshot : event.action = "observed" ↔ event.snapshot.isSome = true
  actor : event.action = "local_updated" ↔ event.actor.isSome = true

/-- What happened to a profile is recorded, if the event has the meaning of its action. -/
theorem profile_maps (h : format.Accepts instanceId) {event : ProfileEvent} (hevent : event.Meant) :
    format.Maps instanceId tenant ((format.reporter tenant).profile event) := by
  refine h.maps rfl (if_pos ⟨hevent.few, hevent.known, rfl, hevent.action, hevent.revision,
    hevent.snapshot, hevent.actor⟩) ⟨?_, .inl ⟨_, rfl⟩, ?_, ?_, _, rfl⟩
  · simp [auditActorKinds]
  · simp only [auditActions, List.mem_append]
    exact .inl (.inl (.inr (List.mem_map_of_mem hevent.action)))
  · simp [auditResourceKinds]

/-- An event about federation has the meaning of its action. -/
structure FederationEvent.Meant (event : FederationEvent) : Prop where
  version : 0 < event.configVersion
  principal : event.principal.isSome = true ∨ event.action = .providerUpdated
  diagnostic : event.diagnostic.isSome = true ↔ event.action = .providerTestFailed

/-- An action at a provider or through one is recorded, if the event has the meaning of its
action. -/
theorem federation_maps (h : format.Accepts instanceId) {event : FederationEvent}
    (htenant : event.tenant = format.ids.text tenant) (hevent : event.Meant) :
    format.Maps instanceId tenant (.federation event) := by
  obtain ⟨resource, hresource, hkind, hid⟩ : ∃ resource, event.resource format.ids = some resource ∧
      resource.1 ∈ auditResourceKinds ∧ ∃ id, resource.2 = format.ids.text id := by
    unfold FederationEvent.resource
    split
    · exact ⟨_, rfl, by simp [auditResourceKinds], _, rfl⟩
    next hother =>
      rcases hevent.principal with hprincipal | hprincipal
      · obtain ⟨principal, hprincipal⟩ := Option.isSome_iff_exists.mp hprincipal
        rw [hprincipal]
        exact ⟨_, rfl, by simp [auditResourceKinds], _, rfl⟩
      · rw [hprincipal] at hother
        exact absurd rfl hother
  have haction : "identity.federation." ++ event.action.wire ∈ auditActions := by
    simp only [auditActions, List.mem_append]
    refine .inr (List.mem_map.mpr ⟨event.action, ?_, rfl⟩)
    cases event.action <;> decide
  have hfacts : (SecurityEvent.federation event).facts format.ids instanceId
      (format.ids.text tenant) = some
        { action := "identity.federation." ++ event.action.wire
          actorKind := event.principal.elim "system" fun _ => "principal"
          actorId := format.ids.text (event.principal.getD instanceId)
          resourceKind := resource.1
          resourceId := resource.2
          outcome := if event.action = .providerTestFailed then .failed else .succeeded
          payload := .object
            [("config_version", .number (.integer event.configVersion)),
              ("diagnostic", event.diagnostic.elim .null ProviderFailure.payload),
              ("provider_id", .string (format.ids.text event.provider.uuid))] } := by
    simp only [SecurityEvent.facts, FederationEvent.facts]
    rw [if_pos ⟨htenant, hevent.version, hevent.principal, hevent.diagnostic⟩, hresource]
    rfl
  refine h.maps htenant hfacts ⟨?_, .inl ⟨_, rfl⟩, haction, hkind, hid⟩
  cases event.principal <;> simp [auditActorKinds]

end Events

section Operations

variable {env : Env} {format : AuditFormat} {tenant : Uuid}

/-- What a transaction reports is recorded: one event at least, and no more than it may report. -/
structure AuditFormat.Records (format : AuditFormat) (instanceId tenant : Uuid)
    (events : List SecurityEvent) : Prop where
  reported : events ≠ []
  few : events.length ≤ maxMutationEvents
  maps : ∀ event ∈ events, format.Maps instanceId tenant event

/-- A single event. -/
theorem AuditFormat.Records.one {instanceId : Uuid} {event : SecurityEvent}
    (h : format.Maps instanceId tenant event) : format.Records instanceId tenant [event] where
  reported := List.cons_ne_nil _ _
  few := by
    rw [List.length_singleton]
    decide
  maps e he := by
    obtain rfl := List.mem_singleton.mp he
    exact h

/-- A few events, and perhaps that of a profile. -/
theorem AuditFormat.Records.observed {instanceId : Uuid} {events : List SecurityEvent}
    {observed : Option SecurityEvent} (h : format.Records instanceId tenant events)
    (hfew : events.length < maxMutationEvents)
    (hobserved : ∀ event ∈ observed, format.Maps instanceId tenant event) :
    format.Records instanceId tenant (events ++ observed.toList) where
  reported := by
    intro hnil
    exact h.reported (List.append_eq_nil_iff.mp hnil).1
  few := by
    have hone : observed.toList.length ≤ 1 := by cases observed <;> simp
    rw [List.length_append]
    omega
  maps event hevent := by
    rcases List.mem_append.mp hevent with hevent | hevent
    · exact h.maps event hevent
    · exact hobserved event (Option.mem_toList.mp hevent)

/-- What the value of a transaction tells is recorded. -/
theorem reporting_ensures {σ α : Type} {m : Tx σ Failure α} {events : α → List SecurityEvent}
    {P : α → Prop} {Q : List SecurityEvent → Prop} (hm : m.Ensures P) (hP : ∀ a, P a → Q (events a)) :
    (reporting m events).Ensures fun r => Q r.2 :=
  .bind hm fun a ha => .of_pure (hP a ha)

/-- A recovery is always reported as one. -/
theorem AccountState.recover_action {state next : AccountState} {action : SecurityAction}
    (h : state.recover = .ok (next, action)) : action = .passwordRecovered := by
  unfold AccountState.recover at h
  split at h
  · cases h
  · simp only [bind, Except.bind] at h
    split at h
    · cases h
    · cases h
      rfl

/-- A provider that was read has a version. -/
theorem provider_ensures {id : ProviderId} :
    (provider env id).Ensures fun view => 0 < view.version := by
  intro w view w' h
  obtain ⟨-, -, hfound⟩ := run_provider h
  exact (Table.check_of_mem (Table.mem_of_find? hfound)).1

theorem prepareCommit_ensures {held : ClaimedAttempt env} {claims : UpstreamClaims} :
    (prepareCommit env held claims).Ensures fun committing => 0 < committing.view.version := by
  refine .after ?_
  rintro ⟨attempt, secrets⟩
  exact .bind provider_ensures fun view hview => .after fun _ => .after fun _ => .after fun _ =>
    .after fun _ => .after fun _ => .after fun _ => .after fun _ => .after fun _ => .after fun _ =>
    .after fun _ => .of_pure hview

/-- The attributes that a profile changes are known ones, and not more than there are. -/
theorem changes_known (previous : Option Profile) (next : Profile) :
    (changes previous next).length ≤ 5 ∧ ∀ field ∈ changes previous next, field ∈ knownFields := by
  constructor
  · exact (List.length_filterMap_le _ _).trans le_rfl
  · intro field hfield
    obtain ⟨⟨name, changed⟩, hmem, hsome⟩ := List.mem_filterMap.mp hfield
    have hname : name = field := by
      cases changed <;> simp at hsome
      exact hsome
    subst hname
    have hnames := List.mem_map_of_mem (f := Prod.fst) hmem
    simp only [List.map_cons, List.map_nil] at hnames
    simp only [knownFields, List.mem_cons, List.not_mem_nil, or_false] at hnames ⊢
    rcases hnames with hname | hname | hname | hname | hname <;> simp [hname]

/-- The event of an observation has the meaning of one. -/
theorem observedEvent_meant {key : AccountKey} {observation : Observation} {snapshot : Uuid}
    {previous : Option Profile} {limits : ProfileLimits}
    (hrevision : ∀ revision ∈ observation.revision, 0 < revision) :
    (observedEvent key observation snapshot previous limits).Meant := by
  obtain ⟨hfew, hknown⟩ := changes_known previous (observation.profile.applyLimits limits)
  exact
    { few := hfew.trans (by decide)
      known := hknown
      action := List.mem_cons_self
      revision := hrevision
      snapshot := by simp [observedEvent]
      actor := by simp [observedEvent] }

/-- What a local login observes has the revision of a row, if it has one. -/
theorem localObservation_ensures {key : AccountKey} {instant : ℤ} :
    (localObservation key instant).Ensures fun observation =>
      ∀ revision ∈ observation.revision, 0 < revision := by
  intro w observation w' h
  simp only [localObservation, Tx.run_bind, Tx.run_find, Tx.run_demand, Tx.run_pure,
    Tables.localProfiles_get] at h
  obtain ⟨row, _, ⟨hrow, rfl⟩, profile, _, -, sequence, _, -, rfl, -⟩ := h
  intro revision hrevision
  obtain ⟨found, hfound, rfl⟩ := Option.map_eq_some_iff.mp hrevision
  rw [hfound] at hrow
  exact (Table.check_of_mem (Table.mem_of_find? hrow.symm)).1

/-- What a platform login observes has no revision, or that of a local profile. -/
theorem platformObservation_ensures {profile : PlatformProfile} {created : ℤ}
    {row : PlatformChallengeRow} {instant : ℤ} :
    (platformObservation env profile created row instant).Ensures fun found =>
      ∀ observation ∈ found, ∀ revision ∈ observation.revision, 0 < revision := by
  cases profile with
  | unavailable => exact .of_pure (by simp)
  | identityLocal =>
    refine .bind localObservation_ensures fun observation hrevision => .of_pure ?_
    intro found hfound
    cases hfound
    exact hrevision
  | idp id claims =>
    refine .bind (P := fun observation => observation.revision = none) ?_
      fun observation hnone => .of_pure ?_
    · refine .after fun named => .after fun _ => .after fun view => .after ?_
      rintro ⟨source, issuer, subject⟩
      exact .after fun _ => .of_pure rfl
    · intro found hfound
      cases hfound
      simp [hnone]

/-- An update is reported as what it is, at a revision that is not the first state. -/
theorem updateLocalProfile_ensures {actor : AuthenticatedSession} {target : AccountKey}
    {change : ProfileChange} :
    (updateLocalProfile env actor target change).Ensures fun settled =>
      settled.2 = [] ∨ ∃ event, settled.2 = [event] ∧ event.Meant := by
  refine .after fun _ => .after fun _ => .after fun replayed => ?_
  cases replayed with
  | some row => exact .after fun _ => .of_pure (.inl rfl)
  | none =>
    intro w settled w' h
    simp only [settleProfile, Tx.run_bind, Tx.run_select, Tx.run_require, Tx.run_find,
      Tx.run_demand, Tx.run_pure, Tables.localProfiles_get, checkedAdd_eq_some] at h
    obtain ⟨_, _, -, -, _, -, row, _, ⟨hrow, rfl⟩, -, _, -, next, _, ⟨⟨-, hnext⟩, -⟩, before, _, -,
      after, _, -, -, _, -, -, _, -, rfl, -⟩ := h
    refine .inr ⟨_, rfl, ?_⟩
    obtain ⟨hfew, hknown⟩ := changes_known before (after.getD .absent)
    have hrevision : 0 < next := by
      cases row with
      | none =>
        have hzero : (localView none).revision = 0 := rfl
        omega
      | some found =>
        have hfound : 0 < found.revision := (Table.check_of_mem (Table.mem_of_find? hrow.symm)).1
        have hsame : (localView (some found)).revision = found.revision := rfl
        omega
    refine
      { few := ?_
        known := ?_
        action := by simp [updateEvent]
        revision := ?_
        snapshot := by simp [updateEvent]
        actor := by simp [updateEvent] }
    · rw [updateEvent, List.length_append]
      split
      · rw [List.length_singleton]
        omega
      · rw [List.length_nil]
        omega
    · intro field hfield
      rcases List.mem_append.mp hfield with hfield | hfield
      · exact hknown field hfield
      · split at hfield
        · obtain rfl := List.mem_singleton.mp hfield
          simp [knownFields]
        · cases hfield
    · intro revision hsome
      cases hsome
      exact hrevision

variable (h : format.Accepts env.instanceId)
include h

theorem initializeTenant_records {key : AccountKey} {login hash : String} :
    (initializeTenantReporting (format.reporter tenant) key login hash).Ensures fun r =>
      format.Records env.instanceId tenant r.2 :=
  reporting_ensures .trivial fun _ _ => .one (account_maps h (.inr (by decide)))

theorem createLocalAccount_records {actor : AuthenticatedSession} {login hash : String} :
    (createLocalAccountReporting env (format.reporter tenant) actor login hash).Ensures fun r =>
      format.Records env.instanceId tenant r.2 :=
  reporting_ensures .trivial fun _ _ => .one (account_maps h (.inl rfl))

/-- The actor of a provisioning is of another tenant. -/
theorem provisionLocalAccount_records {provisioner : AccountProvisioner} {actorTenant : Uuid}
    {actor : AuthenticatedSession} {login hash : String} {reporter : Reporter}
    (hids : reporter.ids = format.ids) :
    (provisionLocalAccountReporting env reporter provisioner tenant actorTenant actor login
      hash).Ensures fun r => format.Records env.instanceId tenant r.2 := by
  have hforeign : (provisionLocalAccount env provisioner tenant actorTenant actor login hash).Ensures
      fun _ => actorTenant ≠ tenant := by
    refine .bind (P := fun _ => actorTenant ≠ tenant) ?_ fun _ hne => ?_
    · refine .bind .of_require fun _ hgranted => ?_
      intro w a w' _
      rw [hgranted.1]
      exact hgranted.2.1.symm
    · intro w a w' _
      exact hne
  refine reporting_ensures hforeign fun state hne => ?_
  rw [hids]
  exact .one (provisioned_maps h hne)

theorem applyAccountChange_records {actor : AuthenticatedSession} {target : AccountKey}
    {change : AccountChange} {reauthentication : Option AuthenticationCandidate} :
    (applyAccountChangeReporting env (format.reporter tenant) actor target change
      reauthentication).Ensures fun r => format.Records env.instanceId tenant r.2 := by
  refine .after fun loaded => .after fun _ => .after fun _ => .after fun old => .after ?_
  rintro ⟨next, action⟩
  exact .after fun _ => .after fun _ => .after fun _ => .of_pure (.one (account_maps h (.inl rfl)))

/-- A recovery is reported as what maintenance may do. -/
theorem recoverLocalPassword_records {key : AccountKey} {hash : String} :
    (recoverLocalPasswordReporting env (format.reporter tenant) key hash).Ensures fun r =>
      format.Records env.instanceId tenant r.2 := by
  refine .after fun old => .bind .of_ofExcept ?_
  rintro ⟨next, action⟩ hrecover
  have haction := AccountState.recover_action (ofRule_eq_ok.mp hrecover)
  rw [haction]
  exact .after fun _ => .after fun _ => .of_pure (.one (account_maps h (.inr (by decide))))

theorem updateLocalProfile_records {actor : AuthenticatedSession} {target : AccountKey}
    {change : ProfileChange} :
    (updateLocalProfileReporting env (format.reporter tenant) actor target change).Ensures fun r =>
      r.2 = [] ∨ format.Records env.instanceId tenant r.2 := by
  refine reporting_ensures
    (Q := fun events => events = [] ∨ format.Records env.instanceId tenant events)
    updateLocalProfile_ensures fun settled hsettled => ?_
  rcases hsettled with hnone | ⟨event, hone, hmeant⟩
  · exact .inl (by rw [hnone]; rfl)
  · rw [hone]
    exact .inr (.one (profile_maps h hmeant))

/-- The event of an observation that is accepted is recorded. -/
theorem accept_maps {key : AccountKey} {session : SessionId} {absolute : ℤ}
    {observation : Observation} (hrevision : ∀ revision ∈ observation.revision, 0 < revision) :
    (acceptReporting env (format.reporter tenant) key session absolute observation).Ensures fun r =>
      ∀ event ∈ r.2, format.Maps env.instanceId tenant event := by
  refine .after fun _ => .after fun _ => .after fun expiresAt => .ite (fun _ => .of_pure (by simp))
    fun _ => .after fun snapshot => .after fun previous => .after fun collectedAt =>
    .after fun accepted => .ite (fun _ => .after fun _ => .of_pure ?_) fun _ => .of_pure (by simp)
  intro event hevent
  cases hevent
  exact profile_maps h (observedEvent_meant hrevision)

theorem createSessionFor_records {candidate : AuthenticationCandidate}
    {replacement : Option AuthenticatedSession} {kind : CredentialKind} :
    (createSessionForReporting env (format.reporter tenant) candidate replacement kind).Ensures
      fun r => format.Records env.instanceId tenant r.2 := by
  refine .after fun _ => .after fun state => .after fun replaced => .after fun now =>
    .after fun issued => .bind localObservation_ensures fun observation hrevision =>
    .bind (accept_maps h hrevision) ?_
  rintro ⟨u, observed⟩ hobserved
  exact .of_pure (.observed (.one (session_maps h (.inl rfl))) (by simp [maxMutationEvents])
    hobserved)

theorem refreshSession_records {old : Secret} :
    (refreshSessionReporting env (format.reporter tenant) old).Ensures fun r =>
      format.Records env.instanceId tenant r.2 :=
  .after fun _ => .after fun _ => .after fun _ => .after fun _ =>
    .of_pure (.one (session_maps h (.inr rfl)))

theorem revokeSession_records {actor : AuthenticatedSession} {all : Bool} :
    (revokeSessionReporting env (format.reporter tenant) actor all).Ensures fun r =>
      format.Records env.instanceId tenant r.2 := by
  have hone : ∀ action (state : AccountState) source, format.Records env.instanceId tenant
      [(format.reporter tenant).session action state actor.view.id none source] :=
    fun _ _ _ => .one (session_maps h (.inr rfl))
  exact .after fun loaded => .ite
    (fun _ => .after fun next => .after fun _ => .of_pure (hone _ _ _))
    fun _ => reporting_ensures .trivial fun _ _ => hone _ _ _

/-- An action of an actor at a provider, or through one, is recorded. -/
theorem actor_maps {action : FederationAction} {view : ProviderView env.parsers} {key : AccountKey}
    (hversion : 0 < view.version) (hpassed : action ≠ .providerTestFailed) :
    format.Maps env.instanceId tenant
      ((format.reporter tenant).federation action view (some key)) :=
  federation_maps h rfl ⟨hversion, .inl rfl, ⟨fun hsome => (by cases hsome), fun hfailed =>
    absurd hfailed hpassed⟩⟩

theorem createProvider_records {actor : AuthenticatedSession}
    {settings : ProviderSettings env.parsers} {credentials : ℕ} {profile : Digest} :
    (createProviderReporting env (format.reporter tenant) actor settings credentials
      profile).Ensures fun r => format.Records env.instanceId tenant r.2 := by
  have hfirst : (createProvider env actor settings credentials profile).Ensures fun view =>
      view.version = 1 :=
    .after fun _ => .after fun _ => .after fun _ => .after fun _ => .after fun _ => .after fun _ =>
      .after fun _ => .of_pure rfl
  refine reporting_ensures hfirst fun view hversion => .one (actor_maps h ?_ (by decide))
  omega

theorem editProvider_records {actor : AuthenticatedSession} {id : ProviderId} {expected : ℤ}
    {edit : ProviderEdit env.parsers} :
    (editProviderReporting env (format.reporter tenant) actor id expected edit).Ensures fun r =>
      format.Records env.instanceId tenant r.2 := by
  have hstepped : (editProvider env actor id expected edit).Ensures fun view => 0 < view.version := by
    refine .after fun _ => .after fun _ => .bind provider_ensures fun view hversion =>
      .after fun _ => .bind .of_ofExcept fun next hset => .after fun _ =>
      .bind .of_ofExcept fun version hstep => .after fun _ => .of_pure ?_
    have hkept := (ProviderEdit.set_moves hset).2.1
    have hnext := ProviderEdit.step_eq_ok hstep
    change 0 < version
    omega
  refine reporting_ensures hstepped fun view hversion => .one (actor_maps h hversion ?_)
  cases edit with
  | settings => simp [ProviderEdit.action]
  | enabled value => cases value <;> simp [ProviderEdit.action]

/-- A failed test comes with its diagnostic, and no other event has one. -/
theorem persistTest_records {actor : AuthenticatedSession} {id : ProviderId}
    {view : ProviderView env.parsers} {result : Except FederationError Unit} :
    (persistTestReporting env (format.reporter tenant) actor id view result).Ensures fun r =>
      format.Records env.instanceId tenant r.2 := by
  refine .after fun _ => .after fun _ => .bind provider_ensures fun current hversion =>
    .bind .of_require fun _ hsame => .of_pure (.one (federation_maps h rfl ?_))
  rw [hsame] at hversion
  refine ⟨hversion, .inl rfl, ?_⟩
  cases result <;> simp

/-- A provider that was brought to its profile is reported by maintenance. -/
theorem updated_maps {row : ProviderRow} (hversion : 0 < row.configVersion) :
    format.Maps env.instanceId tenant ((format.reporter tenant).updated row) :=
  federation_maps h rfl ⟨hversion, .inr rfl, by simp⟩

theorem resolveEntra_records {verified : VerifiedExternalSubject} :
    (resolveEntraReporting env (format.reporter tenant) verified).Ensures fun r =>
      r.2 = [] ∨ format.Records env.instanceId tenant r.2 := by
  refine .bind provider_ensures fun view hversion => .after fun _ =>
    .bind (P := fun r => r.2 = [] ∨ format.Records env.instanceId tenant r.2) ?_ ?_
  · refine .after fun bound => ?_
    cases bound.head? with
    | some row => exact .of_pure (.inl rfl)
    | none =>
      exact .after fun _ => .after fun _ => .after fun _ => .after fun _ => .after fun _ =>
        .of_pure (.inr (.one (actor_maps h hversion (by decide))))
  · rintro ⟨key, events⟩ hevents
    exact .after fun _ => .after fun _ => .of_pure hevents

/-- The event of an authentication through a provider, and that of its session. -/
theorem login_records {action : FederationAction} {view : ProviderView env.parsers}
    {state : AccountState} {id : SessionId} {replaced : Option SessionId}
    {source : AuthenticationSource} {key : AccountKey} (hversion : 0 < view.version)
    (hpassed : action ≠ .providerTestFailed) :
    format.Records env.instanceId tenant
      [(format.reporter tenant).federation action view (some key),
        (format.reporter tenant).session .created state id replaced source] where
  reported := List.cons_ne_nil _ _
  few := by simp [maxMutationEvents]
  maps event hevent := by
    rcases List.mem_cons.mp hevent with rfl | hevent
    · exact actor_maps h hversion hpassed
    · obtain rfl := List.mem_singleton.mp hevent
      exact session_maps h (.inl rfl)

theorem commitLink_records {committing : CommittingAttempt env}
    (hversion : 0 < committing.view.version) :
    (commitLinkReporting env (format.reporter tenant) committing).Ensures fun r =>
      format.Records env.instanceId tenant r.2 := by
  refine .after fun _ => .after fun _ => .after fun _ => .after fun _ => .after fun _ =>
    .after fun _ => .after fun _ => .after fun _ => .after fun _ => .after fun _ => .after fun _ =>
    .after fun _ => .of_pure (login_records h hversion ?_)
  split <;> decide

theorem commitLogin_records {committing : CommittingAttempt env} {claims : UpstreamClaims}
    (hversion : 0 < committing.view.version) :
    (commitLoginReporting env (format.reporter tenant) committing claims).Ensures fun r =>
      format.Records env.instanceId tenant r.2 := by
  refine .after fun _ => .after fun _ => .after fun _ => .after fun _ => .after fun _ =>
    .bind (accept_maps h (by simp [oidcObservation])) ?_
  rintro ⟨u, observed⟩ hobserved
  refine .after fun _ => .of_pure (.observed (login_records h hversion ?_)
    (by simp [maxMutationEvents]) hobserved)
  split <;> decide

theorem commitAttempt_records {held : ClaimedAttempt env} {claims : UpstreamClaims} :
    (commitAttemptReporting env (format.reporter tenant) held claims).Ensures fun r =>
      format.Records env.instanceId tenant r.2 :=
  .after fun _ => .after fun _ => .bind prepareCommit_ensures fun _ hversion => .ite
    (fun _ => reporting_ensures .trivial fun _ _ => .one (authentication_maps h))
    fun _ => .ite (fun _ => commitLink_records h hversion) fun _ => commitLogin_records h hversion

/-- A reauthentication is reported at the version of its provider. -/
theorem finishReauthentication_records {held : ClaimedAttempt env} {claims : UpstreamClaims}
    {target : ProviderView env.parsers} :
    (finishReauthenticationReporting env (format.reporter tenant) held claims target).Ensures
      fun r => format.Records env.instanceId tenant r.2 := by
  refine .after fun _ => .after fun _ => .after fun _ => .after fun _ => .after ?_
  rintro ⟨locator, material⟩
  refine .after ?_
  rintro ⟨attempt, secrets⟩
  refine .bind provider_ensures fun current hversion => .bind .of_ofExcept fun _ hexact => ?_
  have hsame : held.view.version = current.version := (exact_eq_ok.mp (ofFederation_eq_ok.mp hexact)).2.symm
  refine .after fun _ => .after fun found => .after fun _ =>
    .after fun _ => .after fun _ => .after fun _ => .after fun _ => .after fun _ => .after fun _ =>
    .after fun _ => .after fun _ => .after fun _ => .after fun _ => .after fun _ =>
    .of_pure (.one (actor_maps h ?_ (by decide)))
  omega

theorem completePlatformLogin_records {id : Uuid} {nonce : Secret} {browser : String}
    {context : PlatformChallengeContext} {evidence : PlatformEvidence} :
    (completePlatformLoginReporting env (format.reporter tenant) id nonce browser context
      evidence).Ensures fun r => format.Records env.instanceId tenant r.2 := by
  refine .after fun _ => .after fun _ => .after fun _ => .after fun _ => .after fun _ =>
    .after fun _ => .after fun _ => .after fun _ => .after fun _ => .after fun _ => .after fun _ =>
    .after fun _ => .after fun _ => .after fun _ => .after fun _ =>
    .bind platformObservation_ensures fun observation hrevision => .after fun issued =>
    .after fun assertion => .bind
      (P := fun r => ∀ event ∈ r.2, format.Maps env.instanceId tenant event) ?_ ?_
  · cases observation with
    | none => exact .of_pure (by simp)
    | some observation => exact accept_maps h (hrevision observation rfl)
  · rintro ⟨u, observed⟩ hobserved
    exact .after fun _ => .after fun _ => .after fun _ => .of_pure
      (.observed (.one (session_maps h (.inl rfl))) (by simp [maxMutationEvents]) hobserved)

/-- An action on authenticators that reports itself alone. -/
theorem authentication_records {α : Type} {m : Action α} {key : AccountKey}
    {action : AuthenticationAction} :
    (reporting m fun _ => [(format.reporter tenant).authentication key action]).Ensures fun r =>
      format.Records env.instanceId tenant r.2 :=
  reporting_ensures .trivial fun _ _ => .one (authentication_maps h)

/-- A transaction of the scan that changed nothing has nothing to report. -/
theorem reconcileBatch_records {profile : ProviderSettings env.parsers → Digest}
    {events : List SecurityEvent} {more : Bool} {w w' : Tenant}
    (hrun : (reconcileBatch env (format.reporter tenant) profile).run w =
      .ok ((more, events), w')) :
    format.Records env.instanceId tenant events ∨ events = [] ∧ w'.state = w.state := by
  obtain ⟨changed, hbatched⟩ := run_reconcileBatch hrun
  by_cases hnone : changed = []
  · subst hnone
    exact .inr ⟨hbatched.reported, hbatched.brought.unchanged⟩
  · refine .inl ⟨?_, hbatched.bounded, ?_⟩
    · rw [hbatched.reported]
      simpa using hnone
    · intro event hevent
      rw [hbatched.reported] at hevent
      obtain ⟨row, hrow, rfl⟩ := List.mem_map.mp hevent
      have hversion := (Table.check_of_mem (hbatched.brought.drifted row hrow).1).1
      exact updated_maps h (show 0 < row.configVersion + 1 by omega)

end Operations

end IdentityAuthority
