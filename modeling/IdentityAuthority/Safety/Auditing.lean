import IdentityAuthority.Audit.Mapping

/-!
# Every committed transaction is recorded

The operations that settle security events are the transactions of the system that change accounts,
sessions, providers, profiles or authenticators, the provisioning of an account from another tenant,
and the test of a provider. What they report has records, so no commit is lost to the audit.
-/

namespace IdentityAuthority

open Relational

variable {env : Env}

/-- The transactions that settle events. A provisioned account is reported by its provisioner. -/
def Commit.settles : Commit env → Bool
  | .initializeTenant .. | .createLocalAccount .. | .applyAccountChange .. | .recoverLocalPassword ..
  | .createSession .. | .refreshSession .. | .revokeSession .. | .createProvider ..
  | .editProvider .. | .reconcileAssuranceProfiles .. | .resolveEntra .. | .commitAttempt ..
  | .finishReauthentication .. | .completePlatformLogin .. | .updateLocalProfile ..
  | .finishRegistration .. | .finishAuthentication .. | .removeCredential .. => true
  | _ => false

/-- The transactions that may end without an event. -/
def Commit.conditional : Commit env → Bool
  | .reconcileAssuranceProfiles .. | .resolveEntra .. | .updateLocalProfile .. => true
  | _ => false

/-- A transaction that settles events commits, and reports these. -/
def Commit.Reports (reporter : Reporter) (commit : Commit env) (events : List SecurityEvent)
    (w w' : Tenant) : Prop :=
  match commit with
  | .initializeTenant key login hash result =>
    (initializeTenantReporting reporter key login hash).run w = .ok ((result, events), w')
  | .createLocalAccount actor login hash result =>
    (createLocalAccountReporting env reporter actor login hash).run w = .ok ((result, events), w')
  | .applyAccountChange actor target change reauthentication result =>
    (applyAccountChangeReporting env reporter actor target change reauthentication).run w =
      .ok ((result, events), w')
  | .recoverLocalPassword key hash result =>
    (recoverLocalPasswordReporting env reporter key hash).run w = .ok ((result, events), w')
  | .createSession candidate replacement kind result =>
    (createSessionForReporting env reporter candidate replacement kind).run w =
      .ok ((result, events), w')
  | .refreshSession old result =>
    (refreshSessionReporting env reporter old).run w = .ok ((result, events), w')
  | .revokeSession actor all =>
    (revokeSessionReporting env reporter actor all).run w = .ok (((), events), w')
  | .createProvider actor settings credentials profile result =>
    (createProviderReporting env reporter actor settings credentials profile).run w =
      .ok ((result, events), w')
  | .editProvider actor id expected edit result =>
    (editProviderReporting env reporter actor id expected edit).run w = .ok ((result, events), w')
  | .reconcileAssuranceProfiles profile result =>
    (reconcileBatch env reporter profile).run w = .ok ((result, events), w')
  | .resolveEntra verified result =>
    (resolveEntraReporting env reporter verified).run w = .ok ((result, events), w')
  | .commitAttempt held claims result =>
    (commitAttemptReporting env reporter held claims).run w = .ok ((result, events), w')
  | .finishReauthentication held claims target result =>
    (finishReauthenticationReporting env reporter held claims target).run w =
      .ok ((result, events), w')
  | .completePlatformLogin id nonce browser context evidence result =>
    (completePlatformLoginReporting env reporter id nonce browser context evidence).run w =
      .ok ((result, events), w')
  | .updateLocalProfile actor target change result =>
    (updateLocalProfileReporting env reporter actor target change).run w = .ok ((result, events), w')
  | .finishRegistration this actor id snapshot response result =>
    (finishRegistrationReporting env reporter this actor id snapshot response).run w =
      .ok ((result, events), w')
  | .finishAuthentication this actor id snapshot response result =>
    (finishAuthenticationReporting env reporter this actor id snapshot response).run w =
      .ok ((result, events), w')
  | .removeCredential this actor id grant =>
    (removeCredentialReporting env reporter this actor id grant).run w = .ok (((), events), w')
  | _ => False

variable {format : AuditFormat} {tenant : Uuid} {reporter : Reporter} {commit : Commit env}
  {events : List SecurityEvent} {w w' : Tenant}

/-- A transaction commits with its events where it commits, and to the same state. -/
theorem Commit.runs_iff_reports (hsettles : commit.settles = true) :
    commit.Runs w w' ↔ ∃ events, commit.Reports reporter events w w' := by
  cases commit with
  | initializeTenant => exact reporting_reports _ _ _ _ _
  | createLocalAccount => exact reporting_reports _ _ _ _ _
  | applyAccountChange => exact applyAccountChange_reports _ _ _
  | recoverLocalPassword => exact recoverLocalPassword_reports _ _ _
  | createSession => exact createSessionFor_reports _ _ _
  | refreshSession => exact refreshSession_reports _ _ _
  | revokeSession => exact revokeSession_reports _ _ _
  | createProvider => exact reporting_reports _ _ _ _ _
  | editProvider => exact reporting_reports _ _ _ _ _
  | reconcileAssuranceProfiles => exact reconcileBatch_reports _ _ _
  | resolveEntra => exact resolveEntra_reports _ _ _
  | commitAttempt => exact commitAttempt_reports _ _ _
  | finishReauthentication => exact finishReauthentication_reports _ _ _
  | completePlatformLogin => exact completePlatformLogin_reports _ _ _
  | updateLocalProfile => exact reporting_reports _ _ _ _ _
  | finishRegistration => exact reporting_reports _ _ _ _ _
  | finishAuthentication => exact reporting_reports _ _ _ _ _
  | removeCredential => exact reporting_reports _ _ _ _ _
  | _ => cases hsettles

/-- An account that was resolved without an event was there before. -/
theorem resolveEntra_unchanged {verified : VerifiedExternalSubject} {result : AccountState}
    (hrun : (resolveEntraReporting env reporter verified).run w = .ok ((result, []), w')) :
    w'.state = w.state := by
  simp only [resolveEntraReporting, entraAccountReporting, Tx.run_bind, Tx.run_ofExcept,
    Tx.run_select, Tx.run_require, Tx.run_pure] at hrun
  obtain ⟨view, w₁, hview, -, _, ⟨-, rfl⟩, ⟨key, events⟩, w₂, ⟨bound, _, ⟨-, rfl⟩, haccount⟩, stored,
    w₃, hload, -, _, ⟨-, rfl⟩, hresult, rfl⟩ := hrun
  obtain ⟨rfl, -, -⟩ := run_provider hview
  obtain ⟨rfl, -, -⟩ := run_load hload
  cases hbound : bound.head? with
  | some row =>
    rw [hbound] at haccount
    obtain ⟨-, rfl⟩ := Tx.run_pure.mp haccount
    rfl
  | none =>
    rw [hbound] at haccount
    simp only [Tx.run_bind, Tx.run_pure, Prod.mk.injEq] at haccount
    obtain ⟨-, _, -, _, _, -, -, _, -, _, _, -, -, _, -, ⟨-, rfl⟩, -⟩ := haccount
    simp at hresult

/-- What a committed transaction reports is recorded; one without an event changed nothing. -/
theorem Commit.reports_recorded (h : format.Accepts env.instanceId)
    (hreports : commit.Reports (format.reporter tenant) events w w') :
    format.Records env.instanceId tenant events ∨
      commit.conditional = true ∧ events = [] ∧ w'.state = w.state := by
  cases commit with
  | initializeTenant => exact .inl (initializeTenant_records h _ _ _ hreports)
  | createLocalAccount => exact .inl (createLocalAccount_records h _ _ _ hreports)
  | applyAccountChange => exact .inl (applyAccountChange_records h _ _ _ hreports)
  | recoverLocalPassword => exact .inl (recoverLocalPassword_records h _ _ _ hreports)
  | createSession => exact .inl (createSessionFor_records h _ _ _ hreports)
  | refreshSession => exact .inl (refreshSession_records h _ _ _ hreports)
  | revokeSession => exact .inl (revokeSession_records h _ _ _ hreports)
  | createProvider => exact .inl (createProvider_records h _ _ _ hreports)
  | editProvider => exact .inl (editProvider_records h _ _ _ hreports)
  | reconcileAssuranceProfiles =>
    rcases reconcileBatch_records h hreports with hrecords | hnone
    · exact .inl hrecords
    · exact .inr ⟨rfl, hnone⟩
  | resolveEntra =>
    rcases resolveEntra_records h _ _ _ hreports with hnone | hrecords
    · obtain rfl : events = [] := hnone
      exact .inr ⟨rfl, rfl, resolveEntra_unchanged hreports⟩
    · exact .inl hrecords
  | commitAttempt => exact .inl (commitAttempt_records h _ _ _ hreports)
  | finishReauthentication => exact .inl (finishReauthentication_records h _ _ _ hreports)
  | completePlatformLogin => exact .inl (completePlatformLogin_records h _ _ _ hreports)
  | updateLocalProfile actor target change result =>
    rcases updateLocalProfile_records h _ _ _ hreports with hnone | hrecords
    · obtain rfl : events = [] := hnone
      obtain ⟨receipt, reported⟩ := result
      obtain ⟨settled, w₁, hrun, hresult⟩ := Tx.run_bind.mp hreports
      obtain ⟨hpair, rfl⟩ := Tx.run_pure.mp hresult
      obtain ⟨rfl, hmapped⟩ := Prod.mk.inj hpair
      rcases run_updateLocalProfile hrun with hsettles | hreplays
      · obtain ⟨event, hone⟩ := hsettles.audited
        rw [hone] at hmapped
        simp at hmapped
      · exact .inr ⟨rfl, rfl, hreplays.unchanged⟩
    · exact .inl hrecords
  | finishRegistration => exact .inl (authentication_records h _ _ _ hreports)
  | finishAuthentication => exact .inl (authentication_records h _ _ _ hreports)
  | removeCredential => exact .inl (authentication_records h _ _ _ hreports)
  | _ => exact hreports.elim

/-- The test of a provider changes nothing. -/
theorem persistTest_unchanged {actor : AuthenticatedSession} {id : ProviderId}
    {view : ProviderView env.parsers} {result : Except FederationError Unit}
    (hrun : (persistTestReporting env reporter actor id view result).run w =
      .ok (((), events), w')) : w'.state = w.state := by
  simp only [persistTestReporting, Tx.run_bind, Tx.run_require, Tx.run_pure] at hrun
  obtain ⟨loaded, w₁, hrecheck, _, w₂, hauthorize, current, w₃, hcurrent, -, w₄, ⟨-, hw⟩, -, hw'⟩ :=
    hrun
  obtain ⟨hread, -, -⟩ := run_provider hcurrent
  have hrecheck := @WritesOnly.readOnly _ env _ (fun _ => recheck_writes) _ _ _ hrecheck
  have hauthorize := @WritesOnly.readOnly _ env _ (fun _ => authorize_writes) _ _ _ hauthorize
  subst hw' hw hread
  exact hauthorize.trans hrecheck

/-- The record of one event, under the identifier of its place. -/
def Writer.record {A : Type} (writer : Writer Tenant A) (tenant : Uuid) (now : ℤ)
    (pair : SecurityEvent × ℕ) : Option AuditRecord := do
  let record ← mapEvent writer.format writer.instanceId tenant (writer.eventId pair.2) now pair.1
  if writer.store.prepares record then some record else none

theorem Writer.records_eq {A : Type} {writer : Writer Tenant A} {now : ℤ} :
    writer.records tenant now events = events.zipIdx.mapM (writer.record tenant now) := rfl

theorem isSome_mapM {α β : Type} {f : α → Option β} {l : List α}
    (h : ∀ a ∈ l, (f a).isSome = true) : (l.mapM f).isSome = true := by
  induction l with
  | nil => rfl
  | cons a l ih =>
    obtain ⟨b, hb⟩ := Option.isSome_iff_exists.mp (h a List.mem_cons_self)
    obtain ⟨bs, hbs⟩ := Option.isSome_iff_exists.mp
      (ih fun a ha => h a (List.mem_cons_of_mem _ ha))
    rw [List.mapM_cons, hb, hbs]
    rfl

/-- The records of events that have some: no write is refused for them. -/
theorem AuditFormat.Records.reportable {A : Type} {writer : Writer Tenant A} {now : ℤ}
    (h : format.Records env.instanceId tenant events) (hformat : writer.format = format)
    (hinstance : writer.instanceId = env.instanceId)
    (hprepares : ∀ record, writer.store.prepares record = true) :
    (writer.records tenant now events).isSome = true := by
  rw [Writer.records_eq]
  refine isSome_mapM fun pair hpair => ?_
  have hone := h.maps pair.1 (List.fst_mem_of_mem_zipIdx hpair) (writer.eventId pair.2) now
  rw [← hformat, ← hinstance] at hone
  obtain ⟨record, hrecord⟩ := Option.isSome_iff_exists.mp hone
  simp [Writer.record, hrecord, hprepares]

/-- No commit is lost to the audit. -/
structure AuditComplete (env : Env) (format : AuditFormat) (tenant : Uuid) : Prop where
  /-- With its events, a transaction commits where it does without them. -/
  commits : ∀ (commit : Commit env) w w', commit.settles = true →
    (commit.Runs w w' ↔ ∃ events, commit.Reports (format.reporter tenant) events w w')
  /-- What it reports is recorded: between one event and as many as it may report. Only a
  conditional one may report nothing, and it changed nothing then. -/
  records : ∀ (commit : Commit env) events w w',
    commit.Reports (format.reporter tenant) events w w' →
      format.Records env.instanceId tenant events ∨
        commit.conditional = true ∧ events = [] ∧ w'.state = w.state
  /-- The same of the provisioning of an account. -/
  provisions : ∀ provisioner actorTenant actor login hash w state w',
    (provisionLocalAccount env provisioner tenant actorTenant actor login hash).run w =
        .ok (state, w') ↔
      ∃ events, (provisionLocalAccountReporting env (format.reporter tenant) provisioner tenant
        actorTenant actor login hash).run w = .ok ((state, events), w') ∧
        format.Records env.instanceId tenant events
  /-- The same of the test of a provider. -/
  tests : ∀ actor id (view : ProviderView env.parsers) result events w w',
    (persistTestReporting env (format.reporter tenant) actor id view result).run w =
        .ok (((), events), w') →
      format.Records env.instanceId tenant events ∧ w'.state = w.state
  /-- No write is refused for what was reported. -/
  reportable : ∀ {A : Type} (writer : Writer Tenant A) events, writer.format = format →
    writer.instanceId = env.instanceId → (∀ record, writer.store.prepares record = true) →
    format.Records env.instanceId tenant events →
      ∀ now, (writer.records tenant now events).isSome = true

/-- The mapping takes no committed transaction down. -/
theorem audit_complete (env : Env) (format : AuditFormat) (tenant : Uuid)
    (h : format.Accepts env.instanceId) : AuditComplete env format tenant where
  commits _ _ _ hsettles := Commit.runs_iff_reports hsettles
  records _ _ _ _ hreports := Commit.reports_recorded h hreports
  provisions provisioner actorTenant actor login hash w state w' := by
    have hreports : (provisionLocalAccountReporting env (format.reporter tenant) provisioner tenant
        actorTenant actor login hash).Reports
        (provisionLocalAccount env provisioner tenant actorTenant actor login hash) :=
      reporting_reports _ _
    rw [hreports w state w']
    refine exists_congr fun events => ⟨fun hrun => ⟨hrun, ?_⟩, fun hrun => hrun.1⟩
    exact provisionLocalAccount_records h (show (format.reporter tenant).ids = format.ids from rfl)
      w (state, events) w' hrun
  tests _ _ _ _ _ _ _ hrun :=
    ⟨persistTest_records h _ _ _ hrun, persistTest_unchanged hrun⟩
  reportable _ _ hformat hinstance hprepares hrecords _ :=
    hrecords.reportable hformat hinstance hprepares

section Example

/-- An audit that takes the fixed words of the component, identifiers as they are usually spelled,
and objects. -/
def AuditFormat.strict : AuditFormat where
  ids := .hyphenated
  schemaText schema := "sha256:" ++ schema
  contractId contract := decide (contract ∈ ["identity.authentication.security",
    "identity.profile.security", "identity.account.provisioning", "identity.account.security",
    "identity.federation.security", "identity.session.security"])
  contractVersion version := decide (0 < version)
  schemaDigest text := decide (text.toList.take 7 = "sha256:".toList)
  sourceId text := decide (text.toList.take 9 = "identity.".toList)
  eventId text := (UuidFormat.hyphenated.parse text).isSome
  actorKind kind := decide (kind ∈ auditActorKinds)
  actorId text := (UuidFormat.hyphenated.parse text).isSome || text.toList.contains ':'
  action action := decide (action ∈ auditActions)
  resourceKind kind := decide (kind ∈ auditResourceKinds)
  resourceId text := (UuidFormat.hyphenated.parse text).isSome
  payload text := decide (text.head? = some '{')

/-- The payload of every event is an object. -/
theorem payload_object {ids : UuidFormat} {event : SecurityEvent} {instanceId : Uuid}
    {tenant : String} {facts : AuditFacts}
    (hfacts : event.facts ids instanceId tenant = some facts) :
    ∃ members, facts.payload = .object members := by
  cases event with
  | authentication event =>
    obtain ⟨-, hfacts⟩ := Option.ite_none_right_eq_some.mp hfacts
    cases hfacts
    exact ⟨_, rfl⟩
  | profile own event =>
    obtain ⟨-, hfacts⟩ := Option.ite_none_right_eq_some.mp hfacts
    cases hfacts
    exact ⟨_, rfl⟩
  | account event =>
    obtain ⟨-, hfacts⟩ := Option.ite_none_right_eq_some.mp hfacts
    cases hfacts
    exact ⟨_, rfl⟩
  | provisioned event =>
    obtain ⟨actor, -, hfacts⟩ := Option.bind_eq_some_iff.mp hfacts
    obtain ⟨-, hfacts⟩ := Option.ite_none_right_eq_some.mp hfacts
    cases hfacts
    exact ⟨_, rfl⟩
  | session event =>
    obtain ⟨-, hfacts⟩ := Option.ite_none_right_eq_some.mp hfacts
    cases hfacts
    exact ⟨_, rfl⟩
  | federation event =>
    obtain ⟨-, hfacts⟩ := Option.ite_none_right_eq_some.mp hfacts
    obtain ⟨resource, -, hfacts⟩ := Option.bind_eq_some_iff.mp hfacts
    cases hfacts
    exact ⟨_, rfl⟩

/-- Such an audit takes what the component writes. -/
theorem strict_accepts (instanceId : Uuid) : AuditFormat.strict.Accepts instanceId where
  contract event := by
    cases event <;> simp [AuditFormat.strict, SecurityEvent.contract]
  sourceId := by simp [AuditFormat.strict]
  id id := by simp [AuditFormat.strict, UuidFormat.parse_text]
  foreignActor tenant actor := by simp [AuditFormat.strict]
  actorKind kind hkind := decide_eq_true hkind
  resourceKind kind hkind := decide_eq_true hkind
  action action haction := decide_eq_true haction
  payload event tenant facts hfacts := by
    obtain ⟨members, hmembers⟩ := payload_object hfacts
    rw [hmembers]
    simp [AuditFormat.strict, Json.render]

/-- With a strict audit, no commit is lost. -/
theorem strict_complete : AuditComplete .transparent .strict ⟨7, by decide⟩ :=
  audit_complete .transparent .strict _ (strict_accepts _)

end Example

end IdentityAuthority
