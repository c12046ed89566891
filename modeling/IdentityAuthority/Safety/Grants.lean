import IdentityAuthority.Safety.Attempts
import IdentityAuthority.Safety.Ceremonies
import IdentityAuthority.Safety.Credentials
import IdentityAuthority.Safety.StepUp

/-!
# Step-up grants are consumed once, where they were issued

A grant is issued at the end of an upstream step-up or of an authenticator ceremony, and consumed in the
transaction of the effect it is for. Every grant that is consumed is traced back to its issue; between
the two the session must live on at its epochs, and the source of the grant must stay as it was.
-/

namespace IdentityAuthority

open Relational Transition

variable {env : Env} {w w' : Tenant} {s₀ s s' : System env} {label : Label env}
  {trace : List (Event (System env) (Label env))} {e : Event (System env) (Label env)}
  {actor : AuthenticatedSession} {expected : StepUpContext} {handle : Secret} {row : StepUpGrantRow}

section Upstream

variable {held : ClaimedAttempt env} {claims : UpstreamClaims}

/-- The actor of an attempt is the live session whose credential the callback presents. -/
theorem checkActor_live {attempt : OidcAttempt} {session : Option Digest} {loaded : Loaded}
    (h : (checkActor env attempt session).run w = .ok (some loaded, w')) :
    ∃ stored t, w.clock ≤ t ∧ t ≤ w'.clock ∧ loaded.LiveIn env w.state stored (seconds t) ∧
      session = some stored.tokenHash := by
  cases hlink : attempt.link with
  | some id =>
    obtain ⟨rfl, found, actor, stored, digest, hactor, -, -, -, -, rfl, hof, rfl, -⟩ :=
      run_checkActor_link hlink h
    cases hactor
    have hlive := hof.liveIn
    exact ⟨stored, _, w.clock_le_tick.trans w.tick.clock_le_tick, le_rfl, hlive, rfl⟩
  | none =>
    cases hreplacement : attempt.replacement with
    | none =>
      simp only [checkActor, hlink, hreplacement, Tx.run_pure] at h
      cases h.1
    | some expected =>
      simp only [checkActor, hlink, hreplacement, Tx.run_bind, Tx.run_require, Tx.run_demand,
        Tx.run_pure, Option.some.injEq] at h
      obtain ⟨digest, _, ⟨rfl, rfl⟩, found, _, hlookup, -, _, ⟨-, rfl⟩, rfl, rfl⟩ := h
      obtain ⟨rfl, stored, hof, rfl, -⟩ := run_lookup hlookup
      exact ⟨stored, _, w.clock_le_tick, le_rfl, hof.liveIn, rfl⟩

/-- A grant was issued for a strong upstream authentication around the attempt, of the subject that is
bound to the account of the session. -/
structure UpstreamStepUp (held : ClaimedAttempt env) (claims : UpstreamClaims) (row : StepUpGrantRow)
    (w w' : Tenant) : Prop where
  attempt : ∃ stored now, w.state.oidcTransactions.find? held.locator.id = some stored ∧
    stored.authenticationMode = .stepUp ∧ stored.operationContext = some row.context ∧
    claims.assurance.accepted .stepUp stored.createdAt now = true
  strong : claims.assurance.acr = .mfa ∧ claims.assurance.authTime = some row.authenticatedAt
  issued : ∃ loaded stored t, w.clock ≤ t ∧ t ≤ w'.clock ∧
    loaded.LiveIn env w.state stored (seconds t) ∧ held.callback.session = some stored.tokenHash ∧
    row.IssuedIn env loaded row.context row.source w w'
  subject : ∃ identity provider version epoch bound, row.source = .oidc identity provider version epoch ∧
    w'.state.externalIdentities.find? identity = some bound ∧ bound.principal = row.principal ∧
    bound.provider = provider ∧ bound.issuer = claims.issuer ∧
    bound.subject = claims.subject.storageKey env.parsers
  backed : w'.state.BacksGrant row.principal row.source

/-- A commit checks the actor of its attempt as the tables are when it begins. -/
theorem prepareCommit_checked {committing : CommittingAttempt env}
    (h : (prepareCommit env held claims).run w = .ok (committing, w')) :
    ∃ w₁ w₂ : Tenant, w₁.state = w.state ∧ w.Advances w₁ ∧ w₂.Advances w' ∧
      (checkActor env committing.attempt held.callback.session).run w₁ = .ok (committing.actor, w₂) := by
  obtain ⟨⟨attempt, secrets⟩, w₁, hattempt, h⟩ := Tx.run_bind.mp h
  obtain ⟨view, w₂, hprovider, h⟩ := Tx.run_bind.mp h
  obtain ⟨_, w₃, hexact, h⟩ := Tx.run_bind.mp h
  obtain ⟨actor, w₄, hchecked, hrest⟩ := Tx.run_bind.mp h
  have hlater := Tx.advances _ _ _ _ hrest
  obtain ⟨rfl, -⟩ := run_oidcAttempt hattempt
  obtain ⟨rfl, -⟩ := run_provider hprovider
  obtain ⟨-, rfl⟩ := Tx.run_ofExcept.mp hexact
  have hsame : committing.attempt = attempt ∧ committing.actor = actor := by
    simp only [Tx.run_bind, Tx.run_pure] at hrest
    obtain ⟨_, _, -, _, _, -, _, _, -, _, _, -, _, _, -, _, _, -, _, _, -, _, _, -, rfl, -⟩ := hrest
    exact ⟨rfl, rfl⟩
  rw [← hsame.1, ← hsame.2] at hchecked
  exact ⟨w.tick, w₄, rfl, .tick w, hlater, hchecked⟩

/-- The actor that a commit was prepared for is the live session of the callback. -/
theorem prepareCommit_live {committing : CommittingAttempt env} {loaded : Loaded}
    (h : (prepareCommit env held claims).run w = .ok (committing, w'))
    (hactor : committing.actor = some loaded) :
    ∃ stored t, w.clock ≤ t ∧ t ≤ w'.clock ∧ loaded.LiveIn env w.state stored (seconds t) ∧
      held.callback.session = some stored.tokenHash := by
  obtain ⟨w₁, w₂, hstate, hbefore, hafter, hchecked⟩ := prepareCommit_checked h
  rw [hactor] at hchecked
  obtain ⟨stored, t, hlo, hhi, hlive, hsession⟩ := checkActor_live hchecked
  rw [hstate] at hlive
  exact ⟨stored, t, hbefore.clock.trans hlo, hhi.trans hafter.clock, hlive, hsession⟩

theorem Effects.stepUpGrants_eq {areas : List Area} {start : Tenant} (h : Effects env areas start w w')
    (hareas : .grants ∉ areas) : w'.state.stepUpGrants = w.state.stepUpGrants :=
  h.frame Db.stepUpGrants fun _ _ _ ha heffect => heffect.stepUpGrants_eq fun heq => hareas (heq ▸ ha)

/-- The commit of an attempt issues a grant for a step-up, and for nothing else. -/
theorem run_commitAttempt_grants {outcome : FederatedOutcome}
    (h : (commitAttempt env held claims).run w = .ok (outcome, w')) :
    w'.state.stepUpGrants = w.state.stepUpGrants ∨
      ∃ grant url row, outcome = .stepUp grant url ∧ UpstreamStepUp held claims row w w' ∧
        row.tokenHash = env.sha256.secret grant.secret := by
  obtain ⟨haccepted, committing, w₁, hprepare, hprepared, hof, h⟩ := run_commitAttempt_ways h
  have hsame := hprepared.stepUpGrants_eq (by decide)
  have hbefore := hprepared.advances
  rcases h with ⟨hmode, h⟩ | ⟨-, ⟨-, h⟩ | ⟨-, h⟩⟩
  · refine .inr ?_
    have hkept : Effects env [.grants, .oidc] w₁ w₁ w' :=
      commitStepUp_writes (by decide) (by decide) (.refl _) _ _ _ (.refl _) h
    have hdirectory := hkept.directory_eq (by decide)
    simp only [commitStepUp, Tx.run_bind, Tx.run_demand, Tx.run_require, Tx.run_pure] at h
    obtain ⟨loaded, _, ⟨hactor, rfl⟩, -, _, ⟨hkey, rfl⟩, context, _, ⟨hcontext, rfl⟩, authenticatedAt, _,
      ⟨htime, rfl⟩, grant, w₂, hissue, _, w₃, hunexpired, _, w₄, hconsume, rfl, rfl⟩ := h
    have hissuing := Tx.advances _ _ _ _ hissue
    obtain ⟨row, t, hissued, hhash, hauthenticated, -⟩ := run_issueGrant_row hissue
    have hread : w₃.state = w₂.state :=
      @WritesOnly.readOnly _ env _ (fun _ => requireUnexpired_writes) _ _ _ hunexpired
    have hgranted : w₄.state.stepUpGrants = w₂.state.stepUpGrants := by
      have hconsumed : Effects env [.oidc] w₃ w₃ w₄ :=
        consumeAttempt_writes (by decide) _ _ _ (.refl _) hconsume
      rw [hconsumed.stepUpGrants_eq (by decide), hread]
    have hafter : w₂.Advances w₄ := (Tx.advances _ _ _ _ hunexpired).trans (Tx.advances _ _ _ _ hconsume)
    obtain ⟨stored, hstored, -, hview⟩ := hof.attempt
    have haccepted := hof.assurance
    rw [hmode] at haccepted
    obtain ⟨session, moment, hlo, hhi, hlive, hsession⟩ := prepareCommit_live hprepare hactor
    obtain ⟨bound, hbound, howner, hprovider, hissuer, hsubject⟩ := hof.identity
    have hmade := hissued.made
    have hsource : row.source = .oidc committing.identity committing.view.id committing.view.version
        committing.view.revocationEpoch := by rw [hmade]; rfl
    have hrowContext : row.context = context := by rw [hmade]; rfl
    have hprincipal : row.principal = committing.state.key := by rw [hmade]; exact hkey
    have hidentities : w₄.state.externalIdentities = w₁.state.externalIdentities :=
      congrArg Directory.externalIdentities hdirectory
    have hproviders : w₄.state.providers = w₁.state.providers := congrArg Directory.providers hdirectory
    have hconfigured : w₄.state.providers.find? committing.view.id = some committing.view.row := by
      rw [hproviders, hof.providers]
      exact hof.configured
    rw [← hidentities] at hbound
    refine ⟨grant, _, row, rfl, ⟨⟨stored, committing.now, hstored, ?_, ?_, ?_⟩, ⟨mfa_of_accepted haccepted,
      ?_⟩, ⟨loaded, session, moment, hlo, hhi.trans (hissuing.trans hafter).clock, hlive, hsession, ?_⟩,
      ⟨_, _, _, _, bound, hsource, hbound, howner.trans hprincipal.symm, hprovider, hissuer, hsubject⟩, ?_⟩,
      hhash⟩
    · rw [hview] at hmode
      exact hmode
    · rw [hview] at hcontext
      rw [hrowContext]
      exact hcontext
    · rw [hview] at haccepted
      exact haccepted
    · rw [hauthenticated]
      exact htime
    · rw [hrowContext, hsource]
      exact hissued.within hsame.symm hgranted hbefore hafter
    · rw [hsource]
      exact ⟨bound, hbound, howner.trans hprincipal.symm, hprovider, committing.view.row, hconfigured,
        hof.enabled, rfl, rfl⟩
  · refine .inl ?_
    obtain ⟨_, _, _, _, _, _, _, _, hissues⟩ := commitLink_issues
      (show Area.accounts ∈ [.accounts, .sessions, .bindings, .completion, .oidc] by decide) (by decide)
      (by decide) (by decide) (by decide) hof.holds hof.now.le (.refl _) h
    exact ((hissues.effects (.refl _)).stepUpGrants_eq (by decide)).trans hsame
  · refine .inl ?_
    obtain ⟨_, _, _, _, hissues⟩ := commitLogin_issues
      (show Area.sessions ∈ [.sessions, .bindings, .profiles, .sequence, .oidc] by decide) (by decide)
      (by decide) (by decide) (by decide) haccepted hof (.refl _) h
    exact ((hissues.effects (.refl _)).stepUpGrants_eq (by decide)).trans hsame

end Upstream

section Events

/-- An event consumes a grant: for an operation of the host, for a registration, or for the removal of a
credential. -/
def ConsumesGrant (e : Event (System env) (Label env)) (actor : AuthenticatedSession)
    (expected : StepUpContext) (handle : Secret) : Prop :=
  (∃ taken, e.label = .commit (.consumeStepUp actor expected handle taken)) ∨
    (∃ this title recover result,
      e.label = .commit (.beginRegistration this actor title recover (.stepUp handle) result) ∧
      expected = webauthnManagementContext env actor.key (if recover then "recover" else "register")
        none) ∨
    ∃ this id, e.label = .commit (.removeCredential this actor id handle) ∧
      expected = webauthnManagementContext env actor.key "remove" (some id)

/-- An event ends a grant: it consumes it, or its session cancels it. -/
def EndsGrant (e : Event (System env) (Label env)) (row : StepUpGrantRow) : Prop :=
  (∃ actor expected handle, ConsumesGrant e actor expected handle ∧
      env.sha256.secret handle = row.tokenHash) ∨
    ∃ actor handle, e.label = .commit (.cancelStepUp actor handle) ∧
      env.sha256.secret handle = row.tokenHash ∧ row.principal = actor.key ∧ row.session = actor.view.id

/-- An event issues a grant: for an authenticator that answered a ceremony, or for a strong upstream
authentication. -/
def IssuesGrant (e : Event (System env) (Label env)) (row : StepUpGrantRow) : Prop :=
  (∃ this actor id snapshot grant selected ceremony account,
      FinishesAuthentication e this actor id snapshot grant ∧
      AuthenticationFinished env this actor id snapshot selected row ceremony account e.before.world
        e.after.world ∧ row.tokenHash = env.sha256.secret grant.secret) ∨
    ∃ held claims grant url, e.label = .commit (.commitAttempt held claims (.stepUp grant url)) ∧
      UpstreamStepUp held claims row e.before.world e.after.world ∧
      row.tokenHash = env.sha256.secret grant.secret

/-- Whatever it is issued for, a grant is issued to a live session. -/
theorem IssuesGrant.issued (h : IssuesGrant e row) : ∃ loaded stored t, e.before.world.clock ≤ t ∧
    t ≤ e.after.world.clock ∧ loaded.LiveIn env e.before.world.state stored (seconds t) ∧
    row.IssuedIn env loaded row.context row.source e.before.world e.after.world := by
  obtain ⟨this, actor, id, snapshot, grant, selected, ceremony, account, -, hfinished, -⟩ |
    ⟨held, claims, grant, url, -, hupstream, -⟩ := h
  · obtain ⟨state, context, keys, -, -, loaded, hrechecked, hissued, -⟩ := hfinished.asked
    obtain ⟨stored, t, hlo, hhi, hlive, -⟩ := hrechecked.live
    have hcontext : row.context = context := by
      rw [hissued.made]
      rfl
    have hsource : row.source = .webauthn selected.id selected.epoch this.party.rp this.generation := by
      rw [hissued.made]
      rfl
    rw [hcontext, hsource]
    exact ⟨loaded, stored, t, hlo, hhi, hlive, hissued⟩
  · obtain ⟨loaded, stored, t, hlo, hhi, hlive, -, hissued⟩ := hupstream.issued
    exact ⟨loaded, stored, t, hlo, hhi, hlive, hissued⟩

/-- Cancelling a grant removes it where it belongs to the session, and issues none. -/
theorem run_cancelStepUp {u : Unit} (h : (cancelStepUp env actor handle).run w = .ok (u, w')) :
    (∀ k r, w'.state.stepUpGrants.find? k = some r → w.state.stepUpGrants.find? k = some r) ∧
      ∀ r, w'.state.stepUpGrants.find? (env.sha256.secret handle) = some r →
        ¬ (r.principal = actor.key ∧ r.session = actor.view.id) := by
  simp only [cancelStepUp, Tx.run_bind, Tx.run_deleteFrom, Tx.run_pure, Tables.stepUpGrants_get,
    Tables.stepUpGrants_put, Option.some.injEq] at h
  obtain ⟨loaded, _, hrecheck, _, _, ⟨_, rfl, -, rfl⟩, -, rfl⟩ := h
  obtain ⟨rfl, -⟩ := run_recheck_as hrecheck
  refine ⟨fun k r hr => Table.find?_of_find?_deleteWhere hr, fun r hr hown => ?_⟩
  obtain ⟨hfound, hkept⟩ := Table.find?_deleteWhere_eq_some.mp hr
  exact of_decide_eq_false hkept ⟨hown.1, hown.2, Table.key_of_find? hfound⟩

end Events

section Steps

theorem Step.consumes_grant (h : Step env s label s')
    (hconsumes : ConsumesGrant ⟨s, label, s'⟩ actor expected handle) :
    ∃ row : StepUpGrantRow, row.ConsumedBy env actor expected handle s.world s'.world := by
  obtain ⟨taken, rfl⟩ | ⟨this, title, recover, result, rfl, rfl⟩ | ⟨this, id, rfl, rfl⟩ := hconsumes
  · cases h with
    | commit hadmissible hruns =>
      obtain ⟨row, t, hconsumed, -⟩ := run_consumeStepUpOn hruns
      exact ⟨row, hconsumed⟩
  · cases h with
    | commit hadmissible hruns =>
      obtain ⟨ceremony, account, -, -, state, source, hostRecovery, time, -, hgranted⟩ :=
        run_beginRegistration hruns
      cases hgranted with
      | stepUp hconsumed => exact ⟨_, hconsumed⟩
  · cases h with
    | commit hadmissible hruns => exact (run_removeCredential hruns).grant

/-- What a step stores of grants was stored before, or is issued by it. -/
theorem Step.grants_issued (h : Step env s label s') {k : Digest}
    (hrow : s'.world.state.stepUpGrants.find? k = some row) :
    s.world.state.stepUpGrants.find? k = some row ∨ IssuesGrant ⟨s, label, s'⟩ row := by
  cases h with
  | elapse hstate _ =>
    rw [hstate] at hrow
    exact .inl hrow
  | @commit commit w' hadmissible hruns =>
    have hframe := (Commit.effects hruns).stepUpGrants_eq
    cases commit with
    | consumeStepUp =>
      obtain ⟨taken, t, hconsumed, -⟩ := run_consumeStepUpOn hruns
      exact .inl (hconsumed.others k row hrow)
    | cancelStepUp => exact .inl ((run_cancelStepUp hruns).1 k row hrow)
    | beginRegistration =>
      obtain ⟨ceremony, account, -, -, state, source, hostRecovery, time, -, hgranted⟩ :=
        run_beginRegistration hruns
      cases hgranted with
      | first _ hsame =>
        rw [hsame] at hrow
        exact .inl hrow
      | hostRecovery hsame =>
        rw [hsame] at hrow
        exact .inl hrow
      | stepUp hconsumed => exact .inl (hconsumed.others k row hrow)
    | finishAuthentication this actor id snapshot response grant =>
      obtain ⟨selected, issued, ceremony, account, hfinished, hhash⟩ := run_finishAuthentication hruns
      obtain ⟨state, context, keys, -, -, loaded, -, hissued, -⟩ := hfinished.asked
      rcases hissued.others k row hrow with rfl | hold
      · exact .inr (.inl ⟨this, actor, id, snapshot, grant, selected, ceremony, account, ⟨response, rfl⟩,
          hfinished, hhash⟩)
      · exact .inl hold
    | removeCredential =>
      obtain ⟨taken, hconsumed⟩ := (run_removeCredential hruns).grant
      exact .inl (hconsumed.others k row hrow)
    | commitAttempt held claims outcome =>
      rcases run_commitAttempt_grants hruns with hsame | ⟨grant, url, issued, rfl, hupstream, hhash⟩
      · rw [hsame] at hrow
        exact .inl hrow
      · obtain ⟨loaded, stored, t, -, -, -, -, hissued⟩ := hupstream.issued
        rcases hissued.others k row hrow with rfl | hold
        · exact .inr (.inr ⟨held, claims, grant, url, rfl, hupstream, hhash⟩)
        · exact .inl hold
    | _ =>
      rw [hframe (by simp [Commit.areas])] at hrow
      exact .inl hrow

/-- A grant that an event ends is not stored after it. -/
theorem Step.ends_grant (h : Step env s label s') (hends : EndsGrant ⟨s, label, s'⟩ row) :
    s'.world.state.stepUpGrants.find? row.tokenHash ≠ some row := by
  obtain ⟨actor, expected, handle, hconsumes, hhash⟩ | ⟨actor, handle, rfl, hhash, howner, hsession⟩ := hends
  · obtain ⟨taken, hconsumed⟩ := h.consumes_grant hconsumes
    rw [← hhash, hconsumed.gone]
    exact (Option.some_ne_none row).symm
  · cases h with
    | commit hadmissible hruns =>
      rw [← hhash]
      exact fun hstored => (run_cancelStepUp hruns).2 row hstored ⟨howner, hsession⟩

end Steps

section Histories

/-- What the events of a run say of the grants that are stored, and of those that were consumed. -/
structure GrantHistory (trace : List (Event (System env) (Label env))) (s : System env) : Prop where
  stored : ∀ k row, s.world.state.stepUpGrants.find? k = some row →
    (∃ i < s.world.drawn, k = secretHash env i) ∧ ∃ e ∈ trace, IssuesGrant e row
  consumed : ∀ e ∈ trace, ∀ actor expected handle, ConsumesGrant e actor expected handle →
    (∃ i < s.world.drawn, env.sha256.secret handle = secretHash env i) ∧
      s.world.state.stepUpGrants.find? (env.sha256.secret handle) = none
  once : trace.Pairwise fun e f => ∀ actor expected actor' expected' handle,
    ConsumesGrant e actor expected handle → ¬ ConsumesGrant f actor' expected' handle

theorem GrantHistory.step (h : GrantHistory trace s) (hstep : Step env s label s') :
    GrantHistory (trace ++ [⟨s, label, s'⟩]) s' := by
  have hlater := hstep.advances.drawn
  have hdescends := hstep.descends.grants
  refine ⟨?_, ?_, ?_⟩
  · intro k row hrow
    rcases hstep.grants_issued hrow with hold | hissues
    · obtain ⟨⟨i, hi, hk⟩, e, he, hissued⟩ := h.stored k row hold
      exact ⟨⟨i, lt_of_lt_of_le hi hlater, hk⟩, e, List.mem_append_left _ he, hissued⟩
    · have hkey : row.tokenHash = k := Table.key_of_find? hrow
      obtain ⟨loaded, stored, t, -, -, -, hissued⟩ := hissues.issued
      obtain ⟨i, hi, -, hhi⟩ := hissued.fresh
      exact ⟨⟨i, hhi, hkey.symm.trans hi⟩, _, by simp, hissues⟩
  · intro e he actor expected handle hconsumes
    rcases List.mem_append.mp he with he | he
    · obtain ⟨⟨i, hi, hk⟩, hgone⟩ := h.consumed e he actor expected handle hconsumes
      refine ⟨⟨i, lt_of_lt_of_le hi hlater, hk⟩, ?_⟩
      rw [hk] at hgone ⊢
      exact hdescends.gone (secretHash_injective env) hi hgone
    · obtain rfl := List.mem_singleton.mp he
      obtain ⟨row, hconsumed⟩ := hstep.consumes_grant hconsumes
      obtain ⟨⟨i, hi, hk⟩, -⟩ := h.stored _ row hconsumed.found
      exact ⟨⟨i, lt_of_lt_of_le hi hlater, hk⟩, hconsumed.gone⟩
  · refine List.pairwise_append.mpr ⟨h.once, List.pairwise_singleton _ _, ?_⟩
    intro e he f hf actor expected actor' expected' handle hconsumes hconsumes'
    obtain rfl := List.mem_singleton.mp hf
    obtain ⟨row, hconsumed⟩ := hstep.consumes_grant hconsumes'
    have hfound := hconsumed.found
    rw [(h.consumed e he actor expected handle hconsumes).2] at hfound
    cases hfound

theorem grantHistory_of_run (hstart : s₀.Provisioned) (hrun : Run (Step env) s₀ trace s) :
    GrantHistory trace s := by
  refine hrun.history (H := GrantHistory) ?_ fun _ _ _ _ _ h hstep => h.step hstep
  refine ⟨?_, by simp, .nil⟩
  intro k row hrow
  rw [hstart.1] at hrow
  exact absurd (Table.mem_of_find? hrow) Table.not_mem_empty

/-- The account and the membership of a principal are in one world as in another. -/
structure AccountSteady (key : AccountKey) (w w' : Tenant) : Prop where
  account : w'.state.accounts.find? key = w.state.accounts.find? key
  membership : w'.state.memberships.find? key = w.state.memberships.find? key

/-- An account whose epochs are later what they were was, in between, as it was. -/
theorem accountSteady_between {w₁ w₂ w₃ : Tenant} {state state' : AccountState} (h : Follows w₁ w₂)
    (h' : Follows w₂ w₃) (hholds : w₁.state.Holds state) (hlater : w₃.state.Holds state')
    (hkey : state'.key = state.key) (hepoch : state'.epoch = state.epoch)
    (hmembership : state'.membershipEpoch = state.membershipEpoch) :
    AccountSteady state.key w₁ w₂ := by
  have hstored := hholds.account
  have hmember := hholds.membership
  have hstored' := hlater.account
  have hmember' := hlater.membership
  rw [hkey] at hstored' hmember'
  constructor
  · obtain ⟨account, haccount, hmoved⟩ := h.accounts _ _ hstored
    obtain ⟨last, hlast, hmoved'⟩ := h'.accounts _ _ haccount
    obtain rfl := Option.some_injective _ (hstored'.symm.trans hlast)
    rw [haccount, hstored, hmoved.between hmoved' hepoch]
  · obtain ⟨member, hfound, hadvanced⟩ := h.memberships _ _ hmember
    obtain ⟨last, hlast, hadvanced'⟩ := h'.memberships _ _ hfound
    obtain rfl := Option.some_injective _ (hmember'.symm.trans hlast)
    obtain ⟨hactive, hsame⟩ := hadvanced.between hadvanced' hmembership
    have hprincipal : member.principal = state.key := Table.key_of_find? hfound
    obtain ⟨principal, active, epoch⟩ := member
    simp only at hactive hsame hprincipal
    rw [hfound, hmember, hactive, hsame, hprincipal]

/-- What holds of a grant that one event issued and another consumed. -/
structure GrantMet (i e : Event (System env) (Label env)) (actor : AuthenticatedSession)
    (expected : StepUpContext) (handle : Secret) (row : StepUpGrantRow) : Prop where
  issued : IssuesGrant i row
  /-- It is consumed for the operation that it was issued for, by its live session, while its source is
  good, and it is gone. -/
  consumed : row.ConsumedBy env actor expected handle e.before.world e.after.world
  /-- The session was live at the issue, and the grant ends with it, as it was then. -/
  session : ∃ (loaded : Loaded) (stored : SessionRow), ∃ t, i.before.world.clock ≤ t ∧
    t ≤ i.after.world.clock ∧ loaded.LiveIn env i.before.world.state stored (seconds t) ∧
    loaded.state.key = actor.key ∧ loaded.view.id = row.session ∧
    row.expiresAt ≤ loaded.view.idleExpiresAt ∧ row.expiresAt ≤ loaded.view.absoluteExpiresAt
  /-- The authentication is less than five minutes old at the consumption. -/
  fresh : ∃ t, e.before.world.clock ≤ t ∧ t ≤ e.after.world.clock ∧ row.authenticatedAt ≤ seconds t ∧
    seconds t < row.expiresAt ∧ row.expiresAt ≤ row.authenticatedAt + 300

/-- What holds of the grants of a run. -/
structure GrantsFenced (trace : List (Event (System env) (Label env))) : Prop where
  /-- A grant is consumed at most once, for whatever operation. -/
  once : trace.Pairwise fun e f => ∀ actor expected actor' expected' handle,
    ConsumesGrant e actor expected handle → ¬ ConsumesGrant f actor' expected' handle
  /-- What is consumed was issued in the run; in between nothing ended it, and nothing changed the
  account of its session. -/
  met : ∀ earlier e later, trace = earlier ++ e :: later → ∀ actor expected handle,
    ConsumesGrant e actor expected handle → ∃ before i between row,
      earlier = before ++ i :: between ∧ GrantMet i e actor expected handle row ∧
      ∀ m ∈ between, ¬ EndsGrant m row ∧ AccountSteady actor.key i.before.world m.before.world

/-- Grants are consumed once, where they were issued: in every run, whatever calls interleave. -/
theorem grants_fenced (hstart : s₀.Provisioned) (hrun : Run (Step env) s₀ trace s) :
    GrantsFenced trace := by
  refine ⟨(grantHistory_of_run hstart hrun).once, ?_⟩
  intro earlier e later htrace actor expected handle hconsumes
  obtain ⟨hearlier, hstep, -⟩ := Run.split (htrace ▸ hrun)
  obtain ⟨row, hconsumed⟩ := hstep.consumes_grant hconsumes
  have hkey : row.tokenHash = env.sha256.secret handle := Table.key_of_find? hconsumed.found
  obtain ⟨-, i, hi, hissues⟩ := (grantHistory_of_run hstart hearlier).stored _ row hconsumed.found
  obtain ⟨before, between, rfl⟩ := List.append_of_mem hi
  obtain ⟨-, hissue, hbetween⟩ := Run.split hearlier
  obtain ⟨loaded, stored, t, hlo, hhi, hlive, hissued⟩ := hissues.issued
  obtain ⟨found, moment, hrechecked, hfrom, hto, hanswers⟩ := hconsumed.answers
  obtain ⟨current, _, -, -, hcurrent, -⟩ := hrechecked.live
  have hprincipal : row.principal = loaded.state.key := by
    rw [hissued.made]
    rfl
  have hsession : row.session = loaded.view.id := by
    rw [hissued.made]
    rfl
  have hepoch : row.authEpoch = loaded.state.epoch := by
    rw [hissued.made]
    rfl
  have hmembership : row.membershipEpoch = loaded.state.membershipEpoch := by
    rw [hissued.made]
    rfl
  have hexpires : row.expiresAt = grantExpiry loaded row.authenticatedAt := by
    conv_lhs => rw [hissued.made]
    rfl
  have hwindow : row.expiresAt ≤ row.authenticatedAt + 300 := by
    rw [hexpires]
    exact (min_le_left _ _).trans (min_le_left _ _)
  have hidle : row.expiresAt ≤ loaded.view.idleExpiresAt := by
    rw [hexpires]
    exact (min_le_left _ _).trans (min_le_right _ _)
  have habsolute : row.expiresAt ≤ loaded.view.absoluteExpiresAt := by
    rw [hexpires]
    exact min_le_right _ _
  have howner : loaded.state.key = actor.key := hprincipal.symm.trans hanswers.principal
  refine ⟨before, i, between, row, rfl, ⟨hissues, hconsumed, ⟨loaded, stored, t, hlo, hhi, hlive, howner,
    hsession.symm, hidle, habsolute⟩, ⟨moment, hfrom, hto, hanswers.started, hanswers.unexpired, hwindow⟩⟩,
    ?_⟩
  intro m hm
  obtain ⟨first, second, rfl⟩ := List.append_of_mem hm
  obtain ⟨hfirst, hmid, hrest⟩ := Run.split hbetween
  refine ⟨fun hends => ?_, ?_⟩
  · -- A grant that was ended is gone for good: its handle was drawn at the issue.
    obtain ⟨d, hd, -, hdrawn⟩ := hissued.fresh
    have hbefore : d < m.before.world.drawn :=
      lt_of_lt_of_le hdrawn (descends_of_run hfirst).advances.drawn
    have hfound := hconsumed.found
    rw [← hkey, hd] at hfound
    obtain ⟨kept, hkept, rfl⟩ := (descends_of_run hrest).grants.before (secretHash_injective env)
      (lt_of_lt_of_le hbefore hmid.advances.drawn) hfound
    rw [← hd] at hkept
    exact hmid.ends_grant hends hkept
  · have hsteady := accountSteady_between (hissue.follows.trans (follows_of_run hfirst))
      (hmid.follows.trans (follows_of_run hrest)) hlive.holds hcurrent.holds
      (hrechecked.key.trans howner.symm) (hanswers.authEpoch.symm.trans hepoch)
      (hanswers.membershipEpoch.symm.trans hmembership)
    rw [howner] at hsteady
    exact hsteady

/-- The grant of the first step-up of `ada` is fenced; it was consumed in it. -/
theorem firstStepUp_fenced : ∃ trace, @GrantsFenced .transparent trace ∧
    ∃ e ∈ trace, ∃ actor expected handle, ConsumesGrant e actor expected handle := by
  obtain ⟨⟨taken, w⟩, hsome⟩ := Option.isSome_iff_exists.mp steppedUp_isSome
  have hrun := eq_ok_of_toOption hsome
  unfold steppedUp at hrun
  obtain ⟨earlier, f, e, held, hrun, -, actor, handle, hlabel⟩ := run_firstStepUp hrun
  exact ⟨_, grants_fenced ⟨rfl, rfl⟩ hrun, e, by simp, actor, _, handle, .inl ⟨_, hlabel⟩⟩

end Histories

end IdentityAuthority
