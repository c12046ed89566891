import IdentityAuthority.Operations.Footprints

/-!
# Footprints of the protocols

The transactions of federation attempts, links, platform logins and authenticator ceremonies.
A commit is followed in detail: what it found before its first write is what its result rests
on.
-/

namespace IdentityAuthority

open Relational

variable {env : Env} {areas : List Area} {start since w w' : Tenant}

section Begin

/-- The state of a new attempt and its secrets are the next values drawn. -/
theorem run_newMaterial {purpose : Purpose} {made : StateLocator × ProtocolMaterial}
    (h : (newMaterial env purpose).run w = .ok (made, w')) :
    w' = { w with drawn := w.drawn + 3 } ∧ made.1 = ⟨attemptId env w.drawn, purpose⟩ ∧
      made.2.state = env.signer.issue made.1 := by
  simp only [newMaterial, Tx.run_bind, Tx.run_random, run_randomSecret, Tx.run_pure] at h
  obtain ⟨_, _, ⟨rfl, rfl⟩, _, _, ⟨rfl, rfl⟩, _, _, ⟨rfl, rfl⟩, rfl, rfl⟩ := h
  exact ⟨rfl, rfl, rfl⟩

theorem newMaterial_writes {purpose : Purpose} :
    WritesOnly env areas start since (newMaterial env purpose) :=
  .bind .random fun _ => .bind .randomSecret fun _ => .bind .randomSecret fun _ => .pure

theorem checkStepUp_writes {key : AccountKey} {view : ProviderView env.parsers} :
    WritesOnly env areas start since (checkStepUp env key view) :=
  .bind .require fun _ => .bind .require fun _ => .bind .exists? fun _ => .require

theorem attemptReplacement_writes {request : LoginRequest} {mode : AuthenticationMode}
    {view : ProviderView env.parsers} :
    WritesOnly env areas start since (attemptReplacement env request mode view) := by
  unfold attemptReplacement
  cases request.replacement with
  | none => exact .pure
  | some proof =>
    refine .bind recheck_writes fun _ => .ite ?_ .pure
    exact .bind provider_writes fun _ => .bind .ofExcept fun _ => .bind checkStepUp_writes fun _ =>
      .pure

/-- Drawing the material of an attempt leaves its key drawn for the rest. -/
theorem newMaterial_bind {β : Type} {purpose : Purpose}
    {f : StateLocator × ProtocolMaterial → Action β} (hsince : start.Advances since)
    (hf : ∀ made since', start.Advances since' →
      (∃ i, made.1.id = attemptId env i ∧ DrawnIn start since' i) →
      WritesOnly env areas start since' (f made)) :
    WritesOnly env areas start since (newMaterial env purpose >>= f) :=
  .bind' fun w made w₁ hw hrun => by
    have hadvances := (newMaterial env purpose).advances _ _ _ hrun
    obtain ⟨rfl, hlocator, -⟩ := run_newMaterial hrun
    have hlo := (hsince.trans hw).drawn
    refine ⟨newMaterial_writes _ _ _ hw hrun, hf made _ ((hsince.trans hw).trans hadvances)
      ⟨w.drawn, by rw [hlocator], hlo, ?_⟩⟩
    simp only
    omega

theorem beginFederated_writes (ha : .oidc ∈ areas) (hs : .sequence ∈ areas)
    (hsince : start.Advances since) {request : LoginRequest} {mode : AuthenticationMode}
    {context : Option StepUpContext} {view : ProviderView env.parsers} :
    WritesOnly env areas start since (beginFederated env request mode context view) :=
  .bind .require fun _ => .bind .require fun _ => .bind .require fun _ => .bind .require fun _ =>
    .bind .require fun _ => .bind .require fun _ => .bind .require fun _ =>
      newMaterial_bind hsince fun _ _ _ ⟨_, hid, hi⟩ =>
        .bind attemptReplacement_writes fun _ =>
          .bind (insertAttempt_writes ha hs hid hi) fun _ => .pure

theorem recheckCandidate_writes {candidate : Option AuthenticationCandidate} :
    WritesOnly env areas start since (recheckCandidate env candidate) := by
  cases candidate with
  | none => exact .pure
  | some candidate => exact .bind current_writes fun _ => .pure

theorem readLinkActor_writes {actor : AuthenticatedSession} :
    WritesOnly env areas start since (readLinkActor env actor) :=
  .bind .require fun _ => .bind recheck_writes fun _ => .bind origin_writes fun _ =>
    .bind .find fun _ => .pure

theorem beginLink_writes (hi : .intents ∈ areas) (ha : .oidc ∈ areas) (hs : .sequence ∈ areas)
    (hsince : start.Advances since) {request : LinkRequest env} :
    WritesOnly env areas start since (beginLink env request) := by
  refine .bind .require fun _ => newMaterial_bind hsince fun _ _ hsince' ⟨_, hid, hdrawn⟩ =>
    .bind recheck_writes fun _ => .bind .require fun _ => .bind provider_writes fun _ =>
      .bind .ofExcept fun _ => .bind recheckCandidate_writes fun _ => .bind .now fun _ =>
        .bind' fun w id w₁ hw hrun => ⟨WritesOnly.newV4 w id w₁ hw hrun, ?_⟩
  have hadvances := (newV4 env).advances _ _ _ hrun
  obtain ⟨rfl, rfl⟩ := run_newV4.mp hrun
  have hlo := (hsince'.trans hw).drawn
  refine .bind .ofExcept fun _ => .bind (.insertInto hi fun w' t db hw' ht hdb => ?_) fun _ =>
    .bind (insertAttempt_writes ha hs hid ⟨hdrawn.1, lt_of_lt_of_le hdrawn.2
      (hw.trans hadvances).drawn⟩) fun _ => .pure
  cases hdb
  exact .intentInserted ht rfl ⟨hlo, lt_of_lt_of_le (Nat.lt_succ_self _) hw'.drawn⟩

theorem cancelAttempt_writes (ha : .oidc ∈ areas) {callback : Callback} :
    WritesOnly env areas start since (cancelAttempt env callback) :=
  .bind .require fun _ => .bind .demand fun _ => .bind oidcAttempt_writes fun _ =>
    .bind provider_writes fun _ => .bind .ofExcept fun _ => .bind .require fun _ =>
      .bind checkActor_writes fun _ => consumeAttempt_writes ha

theorem recheckStepUp_writes {attempt : OidcAttempt} {actor : Option Loaded}
    {view : ProviderView env.parsers} :
    WritesOnly env areas start since (recheckStepUp env attempt actor view) :=
  .ite (.bind .demand fun _ => checkStepUp_writes) .pure

theorem claimAttempt_writes (ha : .oidc ∈ areas) {callback : Callback} :
    WritesOnly env areas start since (claimAttempt env callback) :=
  .bind .require fun _ => .bind .demand fun _ => .bind oidcAttempt_writes fun _ =>
    .bind provider_writes fun _ => .bind .ofExcept fun _ => .bind .require fun _ =>
      .bind checkActor_writes fun _ => .bind recheckStepUp_writes fun _ => .bind .demand fun _ =>
        .bind (.updateIn ha fun w t n db _ ht hn hdb => by
          cases hdb
          exact .attemptsClaimed (Table.rewritten_of_updateWhere ht fun _ _ _ => rfl)) fun _ => .pure

end Begin

section Commit

variable {held : ClaimedAttempt env} {claims : UpstreamClaims} {committing : CommittingAttempt env}

/-- What a commit has found before it makes its result, from one world to another. -/
structure CommittingAttempt.Of (committing : CommittingAttempt env) (held : ClaimedAttempt env)
    (claims : UpstreamClaims) (w w' : Tenant) : Prop where
  locator : committing.locator = held.locator
  attempt : ∃ row, w.state.oidcTransactions.find? held.locator.id = some row ∧
    row.Presented env held.locator held.callback.state held.callback.browser true
      (seconds w.tick.clock) ∧ committing.attempt = row.attemptView
  provider : committing.view.id = committing.attempt.provider
  configured : w.state.providers.find? committing.view.id = some committing.view.row
  enabled : committing.view.enabled = true
  version : committing.view.version = committing.attempt.version
  actor : ∃ w₁, (checkActor env committing.attempt held.callback.session).run w.tick =
    .ok (committing.actor, w₁)
  providers : w'.state.providers = w.state.providers
  identity : ∃ row, w'.state.externalIdentities.find? committing.identity = some row ∧
    row.principal = committing.state.key ∧ row.provider = committing.view.id ∧
    row.issuer = claims.issuer ∧ row.subject = claims.subject.storageKey env.parsers
  bound : committing.alreadyBound = true → w'.state = w.state
  unbound : committing.alreadyBound = false →
    committing.attempt.purpose = .link ∨ committing.attempt.mode ≠ .stepUp
  linked : committing.attempt.purpose = .link →
    ∃ actor, committing.actor = some actor ∧ committing.state.key = actor.state.key
  holds : w'.state.Holds committing.state
  active : committing.state.active = true
  now : committing.now = seconds w'.clock
  assurance : claims.assurance.accepted committing.attempt.mode committing.attempt.created
    committing.now = true

/-- The account of an attempt: that of the actor of a link, that of a bound identity, or new. -/
theorem run_attemptAccount {attempt : OidcAttempt} {view : ProviderView env.parsers}
    {actor : Option Loaded} {bound : Option ExternalIdentityRow} {key : AccountKey}
    (ha : .accounts ∈ areas)
    (h : (attemptAccount env attempt view actor bound).run w = .ok (key, w')) :
    Effects env areas start w w' ∧ w'.state.providers = w.state.providers ∧
      (bound.isSome = true → w'.state = w.state) ∧
      (bound = none → attempt.purpose = .link ∨ attempt.mode ≠ .stepUp) ∧
      (attempt.purpose = .link → ∃ loaded, actor = some loaded ∧ key = loaded.state.key) := by
  rcases Tx.run_ite.mp h with ⟨hlink, h⟩ | ⟨hlink, h⟩
  · simp only [Tx.run_bind, Tx.run_demand, Tx.run_pure] at h
    obtain ⟨loaded, _, ⟨hactor, rfl⟩, rfl, rfl⟩ := h
    exact ⟨.refl, rfl, fun _ => rfl, fun _ => .inl hlink, fun _ => ⟨loaded, hactor, rfl⟩⟩
  · cases bound with
    | some row =>
      obtain ⟨rfl, rfl⟩ := Tx.run_pure.mp h
      exact ⟨.refl, rfl, fun _ => rfl, by simp, fun h => absurd h hlink⟩
    | none =>
      simp only [Tx.run_bind, Tx.run_require, run_newV4, Tx.run_pure] at h
      obtain ⟨-, _, ⟨⟨hmode, -⟩, rfl⟩, principal, _, ⟨-, rfl⟩, _, w₁, hinsert, rfl, rfl⟩ := h
      have hdrew : Effects env areas start w { w with drawn := w.drawn + 1 } :=
        .drew (Nat.le_succ _)
      have hframe := insertFederatedAccount_frame hinsert
      exact ⟨hdrew.trans (insertFederatedAccount_writes ha _ _ _ (.refl _) hinsert), hframe, by simp,
        fun _ => .inr hmode, fun h => absurd h hlink⟩

/-- The identity of an attempt is bound to its account. -/
theorem run_bindIdentity {key : AccountKey} {view : ProviderView env.parsers}
    {bound : Option ExternalIdentityRow} {id : Uuid} (ha : .identities ∈ areas)
    (hprovider : (w.state.providers.find? view.id).isSome = true)
    (hsource : (FactSource.new env.parsers view.id claims.issuer).isSome = true)
    (hbound : ∀ row ∈ bound, row ∈ w.state.externalIdentities ∧ row.provider = view.id ∧
      row.issuer = claims.issuer ∧ row.subject = claims.subject.storageKey env.parsers)
    (h : (bindIdentity env key view claims bound).run w = .ok (id, w')) :
    Effects env areas start w w' ∧ w'.state.providers = w.state.providers ∧
      (bound.isSome = true → w'.state = w.state) ∧
      ∃ row, w'.state.externalIdentities.find? id = some row ∧ row.principal = key ∧
        row.provider = view.id ∧ row.issuer = claims.issuer ∧
        row.subject = claims.subject.storageKey env.parsers := by
  cases bound with
  | some row =>
    simp only [bindIdentity, Tx.run_bind, Tx.run_require, Tx.run_pure] at h
    obtain ⟨-, _, ⟨hkey, rfl⟩, rfl, rfl⟩ := h
    obtain ⟨hrow, hmatch⟩ := hbound row rfl
    exact ⟨.refl, rfl, fun _ => rfl, row, Table.find?_of_mem hrow, hkey, hmatch⟩
  | none =>
    simp only [bindIdentity, Tx.run_bind, run_newV4] at h
    obtain ⟨identity, _, ⟨-, rfl⟩, _, w₁, hinsert, hpure⟩ := h
    obtain ⟨rfl, rfl⟩ := Tx.run_pure.mp hpure
    have hdrew : Effects env areas start w { w with drawn := w.drawn + 1 } := .drew (Nat.le_succ _)
    refine ⟨hdrew.trans (insertIdentity_effects ha hprovider hsource hinsert), ?_, by simp, ?_⟩
    · obtain ⟨t, db, -, hdb, rfl⟩ := Tx.run_insertInto.mp hinsert
      obtain ⟨-, rfl⟩ := advanceRevision_eq_some.mp hdb
      rfl
    · obtain ⟨t, db, ht, hdb, rfl⟩ := Tx.run_insertInto.mp hinsert
      obtain ⟨-, rfl⟩ := advanceRevision_eq_some.mp hdb
      refine ⟨_, (Table.find?_insert ht _).trans (if_pos rfl), rfl, rfl, rfl, rfl⟩

theorem run_boundIdentity {view : ProviderView env.parsers} {bound : Option ExternalIdentityRow}
    (h : (boundIdentity env view claims).run w = .ok (bound, w')) :
    w' = w ∧ ∀ row ∈ bound, row ∈ w.state.externalIdentities ∧ row.provider = view.id ∧
      row.issuer = claims.issuer ∧ row.subject = claims.subject.storageKey env.parsers := by
  simp only [boundIdentity, Tx.run_bind, Tx.run_select, Tx.run_pure] at h
  obtain ⟨_, _, ⟨rfl, rfl⟩, rfl, rfl⟩ := h
  refine ⟨rfl, fun row hrow => ?_⟩
  have hmem := Table.mem_filter.mp (List.mem_of_head? hrow)
  exact ⟨hmem.1, of_decide_eq_true hmem.2⟩

/-- Preparing a commit establishes what its result rests on. -/
theorem run_prepareCommit (ha : .accounts ∈ areas) (hp : .identities ∈ areas)
    (haccepted : exchangeAccepted env held claims = true)
    (h : (prepareCommit env held claims).run w = .ok (committing, w')) :
    Effects env areas start w w' ∧ committing.Of held claims w w' := by
  simp only [prepareCommit, Tx.run_bind, Tx.run_ofExcept, Tx.run_require, run_now, Tx.run_pure,
    ofFederation_eq_ok] at h
  obtain ⟨⟨attempt, secrets⟩, _, hattempt, view, _, hprovider, _, _, ⟨hexact, rfl⟩, actor, w₁,
    hactor, _, _, hstepUp, bound, w₂, hbound, key, w₃, haccount, identity, w₄, hidentity, stored, _, hload, -, _, ⟨hactive, rfl⟩, instant, _, ⟨rfl, rfl⟩, _, _, ⟨hassurance, rfl⟩, rfl,
    rfl⟩ := h
  obtain ⟨henabled, hversion⟩ := exact_eq_ok.mp hexact
  obtain ⟨rfl, row, hrow, hpresented, rfl, -⟩ := run_oidcAttempt hattempt
  obtain ⟨rfl, hid, hfound⟩ := run_provider hprovider
  obtain ⟨rfl, hrows⟩ := run_boundIdentity hbound
  have hchecked : w₁.state = w.tick.state :=
    @WritesOnly.readOnly _ env _ (fun _ => checkActor_writes) _ _ _ hactor
  have hrechecked : w₂.state = w₁.state :=
    @WritesOnly.readOnly _ env _ (fun _ => recheckStepUp_writes) _ _ _ hstepUp
  obtain ⟨haccounts, hproviders, hsame, hunbound, hlink⟩ : Effects env areas start _ _ ∧ _ :=
    run_attemptAccount ha haccount
  obtain ⟨rfl, rfl, hholds⟩ := run_load hload
  have hsource : (FactSource.new env.parsers view.id claims.issuer).isSome = true := by
    simp only [exchangeAccepted, Bool.and_eq_true, decide_eq_true_eq] at haccepted
    rw [haccepted.2, FactSource.new_of_settings]
    rfl
  have hstate : w₂.state = w.state := by rw [hrechecked, hchecked, World.tick_state]
  have hexists : w₃.state.providers.find? view.id = some view.row := by
    rw [hproviders, hstate, hid]
    exact hfound
  have hkept : ∀ row ∈ bound, row ∈ w₃.state.externalIdentities ∧ row.provider = view.id ∧
      row.issuer = claims.issuer ∧ row.subject = claims.subject.storageKey env.parsers := by
    intro row hmem
    rw [hsame (by rw [Option.mem_def.mp hmem]; rfl)]
    exact hrows row hmem
  obtain ⟨hidentities, hproviders', hsame', hbindings⟩ : Effects env areas start _ _ ∧ _ :=
    run_bindIdentity hp (by rw [hexists]; rfl) hsource hkept hidentity
  have hread₁ : Effects env areas start _ _ := checkActor_writes _ _ _ (.refl _) hactor
  have hread₂ : Effects env areas start _ _ := recheckStepUp_writes _ _ _ (.refl _) hstepUp
  refine ⟨(Effects.tick.trans (hread₁.trans hread₂)).trans ((haccounts.trans hidentities).trans
    Effects.tick), ⟨rfl, ⟨row, hrow, hpresented, rfl⟩, hid, by rw [hid]; exact hfound, henabled,
    hversion, ⟨w₁, hactor⟩, ?_, hbindings, ?_, ?_, hlink, hholds, hactive, rfl,
    Assurance.check_eq_ok.mp hassurance⟩⟩
  · rw [World.tick_state, hproviders', hproviders, hstate]
  · intro hsome
    rw [World.tick_state, hsame' hsome, hsame hsome, hstate]
  · intro hnone
    exact hunbound (by simpa using hnone)

theorem requireUnexpired_writes {attempt : OidcAttempt} :
    WritesOnly env areas start since (requireUnexpired attempt) :=
  .bind .now fun _ => .require

theorem commitStepUp_writes (hg : .grants ∈ areas) (ha : .oidc ∈ areas)
    (hsince : start.Advances since) :
    WritesOnly env areas start since (commitStepUp env committing claims) :=
  .bind .demand fun _ => .bind .require fun _ => .bind .demand fun _ => .bind .demand fun _ =>
    .bind (issueGrant_writes hg hsince) fun _ => .bind requireUnexpired_writes fun _ =>
      .bind (consumeAttempt_writes ha) fun _ => .pure

/-- Burning the epoch of an active account leaves its next state stored. -/
theorem run_setAuthEpoch (ha : .accounts ∈ areas) {state next : AccountState}
    (hholds : w.state.Holds state) (hnext : state.revokeSessions = .ok next) {a : Unit}
    (h : (setAuthEpoch next).run w = .ok (a, w')) :
    Effects env areas start w w' ∧ w'.state.Holds next ∧ next.active = true ∧
      next.key = state.key := by
  obtain ⟨hactive, hsucceeds, henabled, hmember, hmembership⟩ :=
    AccountState.revokeSessions_succeeds hnext
  simp only [setAuthEpoch, Tx.run_bind, Tx.run_pure, hsucceeds.key] at h
  obtain ⟨n, _, h, -, rfl⟩ := h
  obtain ⟨heffects, hmemberships, hcredentials, hfind⟩ : Effects env areas start _ _ ∧ _ :=
    updateAccounts_effects ha hholds hsucceeds h fun r => ⟨rfl, rfl⟩
  refine ⟨heffects, ⟨?_, ?_, ?_⟩, ?_, hsucceeds.key⟩
  · rw [hsucceeds.key, hfind, henabled]
  · rw [hsucceeds.key, hmemberships, hholds.membership, hmember, hmembership]
  · rw [hsucceeds.key, hcredentials, hsucceeds.hasLocalPassword, hholds.hasLocalPassword]
  · rw [← hactive]
    simp only [AccountState.active, henabled, hmember]

/-- Advancing an intent from its second stage completes it; exactly one row moved. -/
theorem advance_completes (hc : .completion ∈ areas) {id : Uuid} {a : Unit}
    (h : (advance id .targetReady).run w = .ok (a, w')) :
    Effects env areas start w w' ∧ w'.state.directory = w.state.directory := by
  simp only [advance, Tx.run_bind, Tx.run_demand, Tx.run_updateIn, Tx.run_require,
    Tables.linkIntents_put, Tables.linkIntents_get, Option.some.injEq] at h
  obtain ⟨next, _, ⟨hnext, rfl⟩, n, _, ⟨t, db, ht, rfl, -, rfl⟩, -, rfl⟩ := h
  cases hnext
  refine ⟨.write hc (.intentsCompleted (Table.rewritten_of_updateWhere ht ?_)), rfl⟩
  intro r _ hr
  have hstage : r.intent = id ∧ r.stage = LinkStage.targetReady.code := of_decide_eq_true hr
  exact ⟨hstage.2, rfl⟩

theorem run_checkIntentOrigin {key : AccountKey} {o : Option Origin} {a : Unit}
    (h : (checkIntentOrigin env key o).run w = .ok (a, w')) :
    w' = w ∧ SessionRow.Backed env w.state key o := by
  cases o with
  | none =>
    obtain ⟨-, rfl⟩ := Tx.run_pure.mp h
    exact ⟨rfl, trivial⟩
  | some o =>
    simp only [checkIntentOrigin, Tx.run_bind, Tx.run_pure, run_checkOrigin] at h
    obtain ⟨source, _, ⟨rfl, identity, provider, hbacks, hsource⟩, -, rfl⟩ := h
    exact ⟨rfl, identity, provider, hbacks, by rw [hsource]; rfl⟩

/-- The authentication of a completed link is good where the intent's origin is. -/
theorem Intent.authentication_good {db : Db} {key : AccountKey} {found : Intent}
    {row : LinkIntentRow} {authentication : SessionAuthentication} (hrow : found.RowOf row)
    (hbacked : SessionRow.Backed env db key found.origin)
    (h : found.authentication = .ok authentication) : authentication.Good env db key := by
  unfold Intent.authentication at h
  cases horigin : found.origin with
  | some o =>
    rw [horigin] at h hbacked
    cases h
    exact ⟨(hrow.sourceFacts o horigin).2, hbacked⟩
  | none =>
    rw [horigin] at h
    cases htime : found.localAuthenticatedAt with
    | none => simp [htime] at h
    | some time =>
      simp only [htime] at h
      cases h
      trivial

/-- A completed link issues a session in place of the intent's. -/
theorem commitLink_issues (hc : .accounts ∈ areas) (hs : .sessions ∈ areas) (hb : .bindings ∈ areas)
    (hd : .completion ∈ areas) (ha : .oidc ∈ areas) (hholds : w.state.Holds committing.state)
    (hnow : committing.now ≤ seconds w.clock) (hsince : start.Advances w)
    {outcome : FederatedOutcome}
    (h : (commitLink env committing).run w = .ok (outcome, w')) :
    ∃ id row issued url linked, committing.attempt.link = some id ∧
      w.state.linkIntents.find? id = some row ∧ outcome = .session issued url linked ∧
      Issues env areas start w w' (some row.session) .cookie issued := by
  simp only [commitLink, Tx.run_bind, Tx.run_demand, Tx.run_require, Tx.run_ofExcept,
    ofRule_eq_ok, Tx.run_pure] at h
  obtain ⟨id, _, ⟨hlink, rfl⟩, found, _, hintent, -, _, ⟨-, rfl⟩, next, _, ⟨hnext, rfl⟩, _, w₁, hepoch,
    _, w₂, hadvance, _, w₂', horigin, authentication, _, ⟨hauthentication, rfl⟩, issued, w₃, hinsert,
    _, w₄, hretain, _, w₅, hunexpired, _, w₆, hconsume, rfl, rfl⟩ := h
  obtain ⟨rfl, -, row, hrow, hrowOf⟩ := run_intent hintent
  obtain ⟨hburned, hheld, hactive, -⟩ : Effects env areas start _ _ ∧ _ :=
    run_setAuthEpoch hc hholds hnext hepoch
  obtain ⟨hcompleted, hdirectory⟩ : Effects env areas start _ _ ∧ _ := advance_completes hd hadvance
  obtain ⟨hsame, hbacked⟩ := run_checkIntentOrigin horigin
  rw [hsame] at hinsert
  have hheld' : w₂.state.Holds next := hheld.of_directory hdirectory
  have hlater : committing.now ≤ seconds w₂.clock :=
    hnow.trans (seconds_mono (hburned.advances.clock.trans hcompleted.advances.clock))
  have hinserted : Effects env areas start _ w₃ := insertSession_effects hs hheld' hactive
    (Intent.authentication_good hrowOf hbacked hauthentication) hlater
    ((hsince.trans hburned.advances).trans hcompleted.advances) hinsert
  rw [← hrowOf.session] at hinsert
  refine ⟨id, row, issued, _, _, hlink, hrow, rfl, .intro (hburned.trans hcompleted) hinsert
    hinserted ?_⟩
  intro since _
  have hretained : Effects env areas since _ w₄ := retainBinding_writes hb _ _ _ (.refl _) hretain
  have hjudged : Effects env areas since _ w₅ := requireUnexpired_writes _ _ _ (.refl _) hunexpired
  have hconsumed : Effects env areas since _ _ := consumeAttempt_writes ha _ _ _ (.refl _) hconsume
  exact hretained.trans (hjudged.trans hconsumed)

theorem run_collectFacts {view : ProviderView env.parsers} {instant : ℤ}
    {facts : AuthenticationFacts}
    (h : (collectFacts env claims view instant).run w = .ok (facts, w')) :
    w' = { w with drawn := w.drawn + 2 } ∧ facts.decodable = true ∧
      facts.providerConfigVersion = view.version ∧ facts.assurance = claims.assurance := by
  simp only [collectFacts, Tx.run_bind, run_newV4, Tx.run_ofExcept, ofFederation_eq_ok] at h
  obtain ⟨_, _, ⟨-, rfl⟩, _, _, ⟨-, rfl⟩, hcollect, rfl⟩ := h
  have hcollected := AuthenticationFacts.collect_eq_ok hcollect
  exact ⟨rfl, AuthenticationFacts.collect_decodable hcollect, hcollected.2.1, hcollected.2.2⟩

/-- The authentication of a federated login is good for its account. -/
theorem CommittingAttempt.Of.authentication_good {w₀ : Tenant}
    (hof : committing.Of held claims w₀ w) (haccepted : exchangeAccepted env held claims = true)
    {facts : AuthenticationFacts} (hdecodable : facts.decodable = true)
    (hversion : facts.providerConfigVersion = committing.view.version) (sequence : ℤ) :
    SessionAuthentication.Good env w.state committing.state.key
      (.oidc ⟨committing.identity, committing.view.revocationEpoch, facts, sequence⟩) := by
  obtain ⟨identity, hidentity, hprincipal, hprovider, hissuer, -⟩ := hof.identity
  have hsource : (FactSource.new env.parsers identity.provider identity.issuer).isSome = true := by
    simp only [exchangeAccepted, Bool.and_eq_true, decide_eq_true_eq] at haccepted
    rw [hissuer, haccepted.2, FactSource.new_of_settings]
    rfl
  have hconfigured : w.state.providers.find? identity.provider = some committing.view.row := by
    rw [hof.providers, hprovider]
    exact hof.configured
  have hbacked : SessionRow.Backed env w.state committing.state.key (some
      ⟨committing.identity, committing.view.revocationEpoch, facts, sequence⟩) :=
    ⟨identity, committing.view.row, ⟨hidentity, hconfigured, hof.enabled, rfl, hversion.symm,
      hprincipal⟩, hsource⟩
  exact ⟨hdecodable, hbacked⟩

/-- A federated login issues a session in place of the attempt's. -/
theorem commitLogin_issues (hs : .sessions ∈ areas) (hb : .bindings ∈ areas) (hp : .profiles ∈ areas)
    (hq : .sequence ∈ areas) (ha : .oidc ∈ areas) {w₀ : Tenant}
    (haccepted : exchangeAccepted env held claims = true) (hof : committing.Of held claims w₀ w)
    (hsince : start.Advances w)
    {outcome : FederatedOutcome} (h : (commitLogin env committing claims).run w = .ok (outcome, w')) :
    ∃ issued url linked, outcome = .session issued url linked ∧
      Issues env areas start w w' committing.attempt.replacement .cookie issued := by
  simp only [commitLogin, Tx.run_bind, Tx.run_require, Tx.run_pure] at h
  obtain ⟨-, _, ⟨-, rfl⟩, sequence, w₁, hsequence, facts, _, hfacts, issued, w₂, hinsert, _, w₃,
    hunexpired, _, w₄, haccept, _, w₅, hconsume, rfl, rfl⟩ := h
  have hsequenced : Effects env areas start _ w₁ := profileSequence_writes hq _ _ _ (.refl _) hsequence
  have hframe : w₁.state.directory = w.state.directory :=
    (show Effects env [.sequence] start _ w₁ from
      profileSequence_writes (by decide) _ _ _ (.refl _) hsequence).directory_eq (by decide)
  obtain ⟨rfl, hdecodable, hversion, -⟩ := run_collectFacts hfacts
  have hgood := hof.authentication_good haccepted hdecodable hversion sequence
  have hnow : committing.now ≤ seconds w₁.clock := by
    rw [hof.now]
    exact seconds_mono hsequenced.advances.clock
  have hdrew : Effects env areas start w₁ { w₁ with drawn := w₁.drawn + 2 } := .drew (by omega)
  have hinserted : Effects env areas start { w₁ with drawn := w₁.drawn + 2 } w₂ :=
    insertSession_effects hs (hof.holds.of_directory hframe) hof.active
      (show SessionAuthentication.Good env _ _ (.oidc _) from
        ⟨hdecodable, SessionRow.backed_of_directory hgood.2 hframe⟩) hnow
      ((hsince.trans hsequenced.advances).trans hdrew.advances) hinsert
  refine ⟨issued, _, _, rfl, .intro (hsequenced.trans hdrew) hinsert hinserted ?_⟩
  intro since hlater
  have hjudged : Effects env areas since _ w₃ := requireUnexpired_writes _ _ _ (.refl _) hunexpired
  have haccepted' : Effects env areas since _ w₄ := accept_writes hp hb
    (hlater.trans hjudged.advances) _ _ _ (.refl _) haccept
  have hconsumed : Effects env areas since _ _ := consumeAttempt_writes ha _ _ _ (.refl _) hconsume
  exact hjudged.trans (haccepted'.trans hconsumed)

/-- The areas the commit of an attempt writes to. -/
def commitAreas : List Area :=
  [.accounts, .identities, .sessions, .bindings, .profiles, .sequence, .oidc, .completion, .grants]

/-- What an attempt issues a session in place of: the session of its intent, if it is a link, or
the one it was begun to replace. -/
def OidcTransactionRow.Replaces (row : OidcTransactionRow) (db : Db) (replaced : Option SessionId) :
    Prop :=
  if row.purpose = .link then ∃ id intent, row.linkIntent = some id ∧
    db.linkIntents.find? id = some intent ∧ replaced = some intent.session
  else replaced = row.replacementSession

/-- Intents change only under the areas of attempts, intents, proofs and completions. -/
theorem Effects.linkIntents_eq (h : Effects env areas start w w')
    (hareas : ∀ a ∈ areas, a ≠ .oidc ∧ a ≠ .intents ∧ a ≠ .proofs ∧ a ≠ .completion) :
    w'.state.linkIntents = w.state.linkIntents :=
  h.frame Db.linkIntents fun _ a _ ha heffect =>
    heffect.linkIntents_eq (hareas a ha).1 (hareas a ha).2.1 (hareas a ha).2.2.1 (hareas a ha).2.2.2

/-- A commit of an attempt for a step-up ends in a grant. -/
theorem run_commitStepUp_grants {committing : CommittingAttempt env} {outcome : FederatedOutcome}
    (h : (commitStepUp env committing claims).run w = .ok (outcome, w')) :
    ∃ grant url, outcome = .stepUp grant url := by
  simp only [commitStepUp, Tx.run_bind, Tx.run_pure] at h
  obtain ⟨_, _, -, _, _, -, _, _, -, _, _, -, grant, _, -, _, _, -, _, _, -, rfl, -⟩ := h
  exact ⟨grant, _, rfl⟩

/-- What every commit of an attempt does first, and the three ways it goes on. -/
theorem run_commitAttempt_ways {outcome : FederatedOutcome}
    (h : (commitAttempt env held claims).run w = .ok (outcome, w')) :
    exchangeAccepted env held claims = true ∧ ∃ (committing : CommittingAttempt env) (w₁ : Tenant),
      (prepareCommit env held claims).run w = .ok (committing, w₁) ∧
      Effects env [.accounts, .identities] w w w₁ ∧ committing.Of held claims w w₁ ∧
      (committing.attempt.mode = .stepUp ∧
          (commitStepUp env committing claims).run w₁ = .ok (outcome, w') ∨
        committing.attempt.mode ≠ .stepUp ∧
          (committing.attempt.purpose = .link ∧
              (commitLink env committing).run w₁ = .ok (outcome, w') ∨
            committing.attempt.purpose ≠ .link ∧
              (commitLogin env committing claims).run w₁ = .ok (outcome, w'))) := by
  simp only [commitAttempt, Tx.run_bind, Tx.run_require, Tx.run_ite] at h
  obtain ⟨-, _, ⟨haccepted, rfl⟩, -, _, ⟨-, rfl⟩, committing, w₁, hprepare, h⟩ := h
  obtain ⟨hprepared, hof⟩ : Effects env [.accounts, .identities] w w w₁ ∧ _ :=
    run_prepareCommit (by decide) (by decide) haccepted hprepare
  exact ⟨haccepted, committing, w₁, hprepare, hprepared, hof, h⟩

/-- The commit of an attempt ends in a grant or in a session. -/
theorem run_commitAttempt {outcome : FederatedOutcome}
    (h : (commitAttempt env held claims).run w = .ok (outcome, w')) :
    ∃ (committing : CommittingAttempt env) (w₁ : Tenant),
      Effects env [.accounts, .identities] w w w₁ ∧ committing.Of held claims w w₁ ∧
      ((committing.attempt.mode = .stepUp ∧ (∃ grant url, outcome = .stepUp grant url) ∧
          Effects env commitAreas w w w') ∨
        committing.attempt.mode ≠ .stepUp ∧ ∃ row replaced issued url linked,
          w.state.oidcTransactions.find? held.locator.id = some row ∧
          row.Replaces w.state replaced ∧ outcome = .session issued url linked ∧
          Issues env commitAreas w w w' replaced .cookie issued) := by
  obtain ⟨haccepted, committing, w₁, -, hprepared, hof, h⟩ := run_commitAttempt_ways h
  have hbefore : Effects env commitAreas w w w₁ := hprepared.mono (by decide)
  refine ⟨committing, w₁, hprepared, hof, ?_⟩
  obtain ⟨row, hrow, -, hattempt⟩ := hof.attempt
  rcases h with ⟨hmode, h⟩ | ⟨hmode, ⟨hlink, h⟩ | ⟨hlink, h⟩⟩
  · exact .inl ⟨hmode, run_commitStepUp_grants h, hbefore.trans (commitStepUp_writes (by decide)
      (by decide) hprepared.advances _ _ _ (.refl _) h)⟩
  · obtain ⟨id, intent, issued, url, linked, hid, hintent, hresult, hissues⟩ :=
      commitLink_issues (show .accounts ∈ commitAreas by decide) (by decide) (by decide) (by decide)
        (by decide) hof.holds hof.now.le hprepared.advances h
    refine .inr ⟨hmode, row, some intent.session, issued, url, linked, hrow, ?_, hresult,
      hissues.after hbefore⟩
    rw [hattempt] at hid hlink
    rw [hprepared.linkIntents_eq (by decide)] at hintent
    simp only [OidcTransactionRow.Replaces, if_pos (show row.purpose = .link from hlink)]
    exact ⟨id, intent, hid, hintent, rfl⟩
  · obtain ⟨issued, url, linked, hresult, hissues⟩ := commitLogin_issues
      (show .sessions ∈ commitAreas by decide) (by decide) (by decide) (by decide) (by decide) haccepted
      hof hprepared.advances h
    rw [hattempt] at hlink hissues
    refine .inr ⟨hmode, row, row.replacementSession, issued, url, linked, hrow, ?_, hresult,
      hissues.after hbefore⟩
    simp only [OidcTransactionRow.Replaces, if_neg (show ¬ row.purpose = .link from hlink)]

theorem commitAttempt_effects {outcome : FederatedOutcome}
    (h : (commitAttempt env held claims).run w = .ok (outcome, w')) :
    Effects env commitAreas w w w' := by
  obtain ⟨_, _, -, -, ⟨-, -, heffects⟩ | ⟨-, _, _, _, _, _, -, -, -, hissues⟩⟩ := run_commitAttempt h
  · exact heffects
  · exact hissues.effects (.refl w)

end Commit

section Reauthentication

theorem setSourceFacts_writes (hp : .proofs ∈ areas) {id : Uuid} {facts : AuthenticationFacts}
    {sequence : ℤ} : WritesOnly env areas start since (setSourceFacts id facts sequence) :=
  .bind (.updateIn hp fun w t n db _ ht hn hdb => by
    cases hdb
    exact .intentsProved (Table.rewritten_of_updateWhere ht fun _ _ _ => ⟨rfl, .inl rfl⟩))
    fun _ => .pure

theorem advance_proves (hp : .proofs ∈ areas) {id : Uuid} :
    WritesOnly env areas start since (advance id .reauthenticationRequired) := by
  refine .bind' fun w next w₁ hw hrun => ⟨WritesOnly.demand w next w₁ hw hrun, ?_⟩
  obtain ⟨hnext, rfl⟩ := Tx.run_demand.mp hrun
  cases hnext
  refine .bind (.updateIn hp fun w t n db _ ht hn hdb => ?_) fun _ => .require
  cases hdb
  refine .intentsProved (Table.rewritten_of_updateWhere ht fun r _ hr => ⟨rfl, .inr ⟨?_, rfl⟩⟩)
  have hstage : r.intent = id ∧ r.stage = LinkStage.reauthenticationRequired.code :=
    of_decide_eq_true hr
  exact hstage.2

theorem collectFacts_writes {claims : UpstreamClaims} {view : ProviderView env.parsers}
    {instant : ℤ} : WritesOnly env areas start since (collectFacts env claims view instant) :=
  .bind .newV4 fun _ => .bind .newV4 fun _ => .ofExcept

theorem finishReauthentication_writes (hp : .proofs ∈ areas) (ha : .oidc ∈ areas)
    (hs : .sequence ∈ areas) (hsince : start.Advances since) {held : ClaimedAttempt env}
    {claims : UpstreamClaims} {target : ProviderView env.parsers} :
    WritesOnly env areas start since (finishReauthentication env held claims target) :=
  .bind .require fun _ => .bind .require fun _ => .bind .require fun _ => .bind .demand fun _ =>
    newMaterial_bind hsince fun _ _ _ ⟨_, hid, hi⟩ =>
      .bind oidcAttempt_writes fun _ => .bind provider_writes fun _ => .bind .ofExcept fun _ =>
        .bind checkActor_writes fun _ => .bind intent_writes fun _ => .bind .demand fun _ =>
          .bind checkOrigin_writes fun _ => .bind identity_writes fun _ => .bind .now fun _ =>
            .bind .require fun _ => .bind collectFacts_writes fun _ => .bind .ofExcept fun _ =>
              .bind (profileSequence_writes hs) fun _ => .bind (setSourceFacts_writes hp) fun _ =>
                .bind (advance_proves hp) fun _ => .bind (consumeAttempt_writes ha) fun _ =>
                  .bind (insertAttempt_writes ha hs hid hi) fun _ => .pure

end Reauthentication

section Platform

variable (hc : .challenges ∈ areas)

include hc

theorem deleteChallenges_writes {p : PlatformChallengeRow → Bool} {e : Failure} :
    WritesOnly env areas start since (Tx.deleteFrom Tables.platformChallenges p e) :=
  .deleteFrom hc fun w db n hdb => by
    cases hdb
    exact .challengesDeleted

/-- A challenge is inserted under an identifier just drawn. -/
theorem beginPlatformLogin_writes (hs : .sequence ∈ areas) (hsince : start.Advances since)
    {binding : Uuid} {purpose : PlatformPurpose} {browser : String} :
    WritesOnly env areas start since (beginPlatformLogin env binding purpose browser) := by
  refine .bind .require fun _ => .bind .demand fun _ => .bind .world fun _ => .bind .require fun _ =>
    .bind .ofExcept fun _ => .bind .demand fun _ => .bind .require fun _ => .bind load_writes fun _ =>
      .bind .require fun _ => .bind external_writes fun _ => .bind .world fun _ =>
        .bind .require fun _ => .bind .now fun _ =>
          .bind (.bind .select fun _ => .bind (deleteChallenges_writes hc) fun _ => .pure) fun _ =>
            .bind .select fun _ => .bind .require fun _ => .bind' fun w id w₁ hw hrun =>
              ⟨WritesOnly.newV4 w id w₁ hw hrun, ?_⟩
  obtain ⟨rfl, rfl⟩ := run_newV4.mp hrun
  refine .bind .randomSecret fun _ => .bind .world fun _ => .bind (profileSequence_writes hs) fun _ =>
    .bind (.insertInto hc fun w' t db hw' ht hdb => ?_) fun _ => .pure
  cases hdb
  have hlo := (hsince.trans hw).drawn
  have hhi := hw'.drawn
  exact .challengeInserted ht rfl ⟨hlo, by simpa using hhi⟩

omit hc in
theorem platformObservation_writes (hs : .sequence ∈ areas) {profile : PlatformProfile}
    {created : ℤ} {row : PlatformChallengeRow} {instant : ℤ} :
    WritesOnly env areas start since (platformObservation env profile created row instant) := by
  unfold platformObservation
  cases profile with
  | unavailable => exact .pure
  | identityLocal => exact .bind (localObservation_writes hs) fun _ => .pure
  | idp id claims =>
    refine .bind (.bind .demand fun _ => .bind .require fun _ => .bind provider_writes fun _ =>
      .bind identity_writes fun _ => .bind .require fun _ => .pure) fun _ => .pure

omit hc in
theorem issueFor_writes {config : Option EnterpriseConfig} {target : Option EnterpriseTarget}
    {stored : PlatformAuthentication} {instant expiry : ℤ} :
    WritesOnly env areas start since (issueFor env config target stored instant expiry) := by
  cases target with
  | none => exact .pure
  | some target =>
    exact .bind .demand fun _ => .bind (.bind .newV4 fun _ => .bind .demand fun _ =>
      .bind .require fun _ => .pure) fun _ => .pure

omit hc in
theorem showChallenge_writes {id : Uuid} {nonce : Secret} {browser : String} :
    WritesOnly env areas start since (showChallenge env id nonce browser) :=
  .bind .require fun _ => .bind .demand fun _ => .bind (.bind .find fun _ => .bind .demand fun _ =>
    .bind .now fun _ => .bind .require fun _ => .pure) fun _ => .pure

/-- A platform login issues a session next to the others of its account. -/
theorem completePlatformLogin_issues (hs : .sessions ∈ areas) (hb : .bindings ∈ areas)
    (hp : .profiles ∈ areas) (hq : .sequence ∈ areas) (hsince : start.Advances w) {id : Uuid}
    {nonce : Secret} {browser : String} {context : PlatformChallengeContext}
    {evidence : PlatformEvidence} {login : PlatformLogin}
    (h : (completePlatformLogin env id nonce browser context evidence).run w = .ok (login, w')) :
    Issues env areas start w w' none .cookie login.session := by
  simp only [completePlatformLogin, readChallenge, Tx.run_bind, Tx.run_require, Tx.run_demand,
    Tx.run_find, Tx.run_world, Tx.run_ofExcept, run_now, Tx.run_pure, and_assoc, exists_and_left,
    exists_eq_left', exists_eq_left, exists_const] at h
  obtain ⟨-, verifier, -, -, row, _, ⟨_, -, -, -, -, -, rfl, rfl⟩, -, -, stored, _, hload, hactive, -, -,
    _, _, hrecheck, -, -, target, -, -, -, observation, w₁, hobserve, issued, w₂, hinsert, assertion,
    w₂', hissue, _, w₃, haccept, -, n, w₄, hdelete, rfl, rfl⟩ := h
  obtain ⟨rfl, -, hholds⟩ := run_load hload
  obtain rfl := run_recheckPlatform hrecheck
  have hobserved : Effects env areas start _ w₁ :=
    platformObservation_writes hq _ _ _ (.refl _) hobserve
  have hframe : w₁.state.directory = w.tick.tick.state.directory :=
    (show Effects env [.sequence] start _ w₁ from
      platformObservation_writes (by decide) _ _ _ (.refl _) hobserve).directory_eq (by decide)
  have hheld : w₁.state.Holds stored.state := hholds.of_directory hframe
  have hinserted : Effects env areas start w₁ w₂ := insertSession_effects hs hheld hactive
    (show SessionAuthentication.Good env _ _ (.platform (context.authentication evidence)) from trivial)
    (seconds_mono hobserved.advances.clock)
    ((hsince.trans (.tick w)).trans ((World.Advances.tick _).trans hobserved.advances)) hinsert
  refine .intro ((Effects.tick.trans Effects.tick).trans hobserved) hinsert hinserted ?_
  intro since hlater
  have hissued : Effects env areas since w₂ w₂' := issueFor_writes _ _ _ (.refl _) hissue
  have haccepted : Effects env areas since w₂' w₃ := by
    cases observation with
    | none => exact WritesOnly.pure _ _ _ (.refl _) haccept
    | some observation =>
      exact accept_writes hp hb (hlater.trans hissued.advances) _ _ _ (.refl _) haccept
  have hdeleted : Effects env areas since _ w₄ := deleteChallenges_writes hc _ _ _ (.refl _) hdelete
  exact hissued.trans (haccepted.trans (Effects.tick.trans hdeleted))

end Platform

section Webauthn

variable (hw : .webauthn ∈ areas)

include hw

theorem connectWebauthn_writes {party : RelyingParty} :
    WritesOnly env areas start since (connectWebauthn env party) :=
  .bind .find fun stored => by
    cases stored with
    | some row => exact .bind .require fun _ => .pure
    | none =>
      refine .bind (.insertInto hw fun w t db _ _ hdb => ?_) fun _ => .pure
      cases hdb
      exact .webauthnWritten

omit hw in
theorem checkConfiguration_writes {this : WebauthnAuthority} :
    WritesOnly env areas start since (checkConfiguration env this) :=
  .bind .find fun _ => .bind .demand fun _ => .require

theorem webauthnAccount_writes {key : AccountKey} :
    WritesOnly env areas start since (webauthnAccount env key) :=
  .bind .find fun stored => by
    cases stored with
    | some row => exact .pure
    | none =>
      refine .bind .newV4 fun _ => .bind (.insertInto hw fun w t db _ _ hdb => ?_) fun _ => .pure
      cases hdb
      exact .webauthnWritten

theorem deleteCeremonies_writes {p : WebauthnCeremonyRow → Bool} {e : Failure} :
    WritesOnly env areas start since (Tx.deleteFrom Tables.webauthnCeremonies p e) :=
  .deleteFrom hw fun w db n hdb => by
    cases hdb
    exact .webauthnWritten

theorem updateCredentials_writes {p : WebauthnCredentialRow → Bool}
    {g : WebauthnCredentialRow → WebauthnCredentialRow} {e : Failure} :
    WritesOnly env areas start since (Tx.updateIn Tables.webauthnCredentials p g e) :=
  .updateIn hw fun w t n db _ _ _ hdb => by
    cases hdb
    exact .webauthnWritten

theorem advanceCredentialEpoch_writes {key : AccountKey}
    {f : WebauthnAccountRow → WebauthnAccountRow} :
    WritesOnly env areas start since (advanceCredentialEpoch key f) :=
  .bind (.updateIn hw fun w t n db _ _ _ hdb => by cases hdb; exact .webauthnWritten) fun _ => .pure

theorem storeCeremony_writes {loaded : Loaded} {epoch : ℤ} {config : Digest} {ceremony : Ceremony} :
    WritesOnly env areas start since (storeCeremony env loaded epoch config ceremony) :=
  .bind .now fun _ => .bind (.bind (deleteCeremonies_writes hw) fun _ => .bind .select fun _ =>
    .bind (deleteCeremonies_writes hw) fun _ => .pure) fun _ => .bind .select fun _ =>
      .bind .require fun _ => .bind .newV4 fun _ =>
        .bind (.insertInto hw fun w t db _ _ hdb => by cases hdb; exact .webauthnWritten) fun _ =>
          .pure

theorem readLoaded_writes {loaded : Loaded} {id : Uuid} {config : Digest} :
    WritesOnly env areas start since (readLoaded env loaded id config) :=
  .bind .find fun _ => .bind .demand fun _ => .bind (webauthnAccount_writes hw) fun _ =>
    .bind .now fun _ => .bind .require fun _ => .pure

theorem readCeremony_writes {actor : AuthenticatedSession} {id : Uuid} {config : Digest} :
    WritesOnly env areas start since (readCeremony env actor id config) :=
  .bind recheck_writes fun _ => readLoaded_writes hw

theorem consumeCeremony_writes {key : AccountKey} {id : Uuid} :
    WritesOnly env areas start since (consumeCeremony key id) :=
  .bind (deleteCeremonies_writes hw) fun _ => .require

theorem beginRegistration_writes (hg : .grants ∈ areas) {this : WebauthnAuthority}
    {actor : AuthenticatedSession} {label : String} {recover : Bool}
    {authorization : RegistrationAuthorization} :
    WritesOnly env areas start since
      (beginRegistration env this actor label recover authorization) := by
  have hauthorized : ∀ {loaded enrolled}, WritesOnly env areas start since
      (authorizeRegistration env actor loaded enrolled recover authorization) := by
    intro loaded enrolled
    cases authorization with
    | first =>
      exact .bind .require fun _ => .bind recentlyAuthenticated_writes fun _ => .bind .require
        fun _ => .pure
    | stepUp token => exact .bind (consumeStepUpOn_writes hg) fun _ => .pure
    | hostRecovery => exact .bind .require fun _ => .pure
  exact .bind .require fun _ => .bind recheck_writes fun _ => .bind checkConfiguration_writes fun _ =>
    .bind (webauthnAccount_writes hw) fun _ => .bind authorize_writes fun _ => .bind hauthorized
      fun _ => .bind (.bind .select fun _ => .pure) fun _ => .bind .require fun _ =>
        .bind .random fun _ => .bind .demand fun _ => storeCeremony_writes hw

theorem beginAuthentication_writes {this : WebauthnAuthority} {actor : AuthenticatedSession}
    {context : StepUpContext} :
    WritesOnly env areas start since (beginAuthentication env this actor context) :=
  .bind recheck_writes fun _ => .bind checkConfiguration_writes fun _ =>
    .bind (webauthnAccount_writes hw) fun _ => .bind (.bind .select fun _ => .pure) fun _ =>
      .bind .require fun _ => .bind .random fun _ => .bind .demand fun _ => storeCeremony_writes hw

theorem snapshotCeremony_writes {this : WebauthnAuthority} {actor : AuthenticatedSession}
    {id : Uuid} : WritesOnly env areas start since (snapshotCeremony env this actor id) :=
  .bind .require fun _ => .bind lookup_writes fun _ => .bind .require fun _ =>
    .bind checkConfiguration_writes fun _ => readLoaded_writes hw

theorem finishRegistration_writes {this : WebauthnAuthority} {actor : AuthenticatedSession}
    {id : Uuid} {snapshot : CeremonySnapshot} {response : ℕ} :
    WritesOnly env areas start since (finishRegistration env this actor id snapshot response) := by
  unfold finishRegistration
  cases snapshot.ceremony with
  | authenticate state context credentials => exact .throw
  | register state label recover authorization hostRecovery authorizationTime =>
    refine .bind .demand fun _ => .bind recheck_writes fun loaded => .bind checkConfiguration_writes
      fun _ => .bind (readCeremony_writes hw) fun _ => .bind .require fun _ =>
        .bind authorize_writes fun _ => .bind ?_ fun _ => .bind ?_ fun _ => .bind (.bind .newV4
          fun _ => .bind .exists? fun _ => .bind .require fun _ => .bind (.insertInto hw ?_)
            fun _ => .pure) fun _ => .bind (advanceCredentialEpoch_writes hw) fun _ =>
              .bind .now fun _ => .bind .require fun _ => .bind (consumeCeremony_writes hw) fun _ =>
                .pure
    · cases authorization with
      | some source =>
        exact .bind .now fun _ => .bind .require fun _ => validateSource_writes
      | none =>
        exact .ite .pure (.bind recentlyAuthenticated_writes fun _ => .require)
    · exact .ite (.bind (updateCredentials_writes hw) fun _ => .pure) .pure
    · intro w t db _ _ hdb
      cases hdb
      exact .webauthnWritten

theorem finishAuthentication_writes (hg : .grants ∈ areas) (hsince : start.Advances since)
    {this : WebauthnAuthority} {actor : AuthenticatedSession} {id : Uuid}
    {snapshot : CeremonySnapshot} {response : ℕ} :
    WritesOnly env areas start since (finishAuthentication env this actor id snapshot response) := by
  unfold finishAuthentication
  cases snapshot.ceremony with
  | register state label recover authorization hostRecovery authorizationTime => exact .throw
  | authenticate state context credentials =>
    exact .bind .demand fun _ => .bind .require fun _ => .bind .demand fun _ =>
      .bind recheck_writes fun _ => .bind checkConfiguration_writes fun _ =>
        .bind (readCeremony_writes hw) fun _ => .bind .require fun _ =>
          .bind (.bind (updateCredentials_writes hw) fun _ => .require) fun _ =>
            .bind (issueGrant_writes hg hsince) fun _ => .bind .now fun _ => .bind .require fun _ =>
              .bind (consumeCeremony_writes hw) fun _ => .pure

theorem removeCredential_writes (hg : .grants ∈ areas) {this : WebauthnAuthority}
    {actor : AuthenticatedSession} {id : Uuid} {grant : Secret} :
    WritesOnly env areas start since (removeCredential env this actor id grant) :=
  .bind recheck_writes fun _ => .bind checkConfiguration_writes fun _ => .bind authorize_writes
    fun _ => .bind (consumeStepUpOn_writes hg) fun _ => .bind (updateCredentials_writes hw) fun _ =>
      .bind .require fun _ => advanceCredentialEpoch_writes hw

theorem cancelCeremony_writes {this : WebauthnAuthority} {actor : AuthenticatedSession} {id : Uuid} :
    WritesOnly env areas start since (cancelCeremony env this actor id) :=
  .bind (readCeremony_writes hw) fun _ => .bind checkConfiguration_writes fun _ =>
    consumeCeremony_writes hw

theorem activateWebauthnRp_writes {party : RelyingParty} {expected : ℤ} :
    WritesOnly env areas start since (activateWebauthnRp env party expected) :=
  .bind .require fun _ => .bind .find fun _ => .bind .demand fun _ =>
    .bind (.updateIn hw fun w t n db _ _ _ hdb => by cases hdb; exact .webauthnWritten) fun _ =>
      .bind .require fun _ => .bind (deleteCeremonies_writes hw) fun _ =>
        .bind (updateCredentials_writes hw) fun _ => .pure

end Webauthn

end IdentityAuthority
