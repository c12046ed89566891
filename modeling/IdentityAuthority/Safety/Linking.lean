import IdentityAuthority.Safety.Grants

/-!
# Identities are linked by the session that asked for it

A link spans two attempts, three transactions or more, and two proofs of the actor. The intent ties
them together: it names the session, its epochs, the browser and the target, and its stage says whether
the actor was proved.
-/

namespace IdentityAuthority

open Relational Transition

variable {env : Env} {w w' : Tenant} {s₀ s s' : System env} {label : Label env}
  {trace : List (Event (System env) (Label env))} {e : Event (System env) (Label env)}
  {request : LinkRequest env} {row : LinkIntentRow} {held : ClaimedAttempt env} {claims : UpstreamClaims}
  {already : Bool} {id : Uuid}

section Begun

/-- An intent was begun by a live session, for a target that is enabled at the version recorded, with a
password that is current or at the provider that the session came from. -/
structure LinkBegun (env : Env) (request : LinkRequest env) (row : LinkIntentRow) (w w' : Tenant) :
    Prop where
  admissible : request.Admissible
  actor : ∃ loaded, request.link.actor.RecheckedAs env loaded w w' ∧
    loaded.state.matchesVerification request.link.account = true
  target : w.state.EnabledAt request.target.id request.target.version
  password : ∀ candidate ∈ request.candidate, ∃ state, w.state.Holds state ∧
    state.matchesVerification candidate.state = true
  made : ∃ facts t, w.clock ≤ t ∧ t ≤ w'.clock ∧ row = request.row row.intent facts (seconds t)
  fresh : ∃ i, row.intent = freshUuid env i ∧ DrawnIn w w' i
  others : ∀ k r, w'.state.linkIntents.find? k = some r →
    r = row ∨ w.state.linkIntents.find? k = some r

theorem run_recheckCandidate {candidate : Option AuthenticationCandidate} {u : Unit}
    (h : (recheckCandidate env candidate).run w = .ok (u, w')) :
    w' = w ∧ ∀ c ∈ candidate, ∃ state, w.state.Holds state ∧
      state.matchesVerification c.state = true := by
  cases candidate with
  | none =>
    obtain ⟨-, rfl⟩ := Tx.run_pure.mp h
    exact ⟨rfl, by simp⟩
  | some candidate =>
    simp only [recheckCandidate, Tx.run_bind, Tx.run_pure] at h
    obtain ⟨state, _, hcurrent, -, rfl⟩ := h
    obtain ⟨rfl, hholds, hmatches, -⟩ := run_current hcurrent
    refine ⟨rfl, fun c hc => ?_⟩
    obtain rfl := Option.some_injective _ hc
    exact ⟨state, hholds, hmatches⟩

theorem run_beginLink_row {locator : StateLocator}
    (h : (beginLink env request).run w = .ok (locator, w')) :
    ∃ row, LinkBegun env request row w w' := by
  simp only [beginLink, Tx.run_bind, Tx.run_require, Tx.run_ofExcept, run_now, run_newV4,
    Tx.run_pure, Tx.run_insertInto, Tables.linkIntents_put, and_assoc, exists_and_left,
    exists_eq_left', exists_eq_left, exists_const, Option.some.injEq] at h
  obtain ⟨hadmissible, made, w₁, hmaterial, loaded, w₂, hrecheck, hmatches, target, w₃, htarget, _,
    hexact, _, w₄, hcandidate, facts, -, w₅, ⟨t, ht, hw₅⟩, _, _, hinsert, -, rfl⟩ := h
  have hinserting := Tx.advances _ _ _ _ hinsert
  have hdrew := Tx.advances _ _ _ _ hmaterial
  obtain ⟨hw₁, -, -⟩ := run_newMaterial hmaterial
  have hstate : w₁.state = w.state := by rw [hw₁]
  obtain ⟨rfl, hrechecked⟩ := run_recheck_as hrecheck
  obtain ⟨rfl, -, -, henabled⟩ := run_provider_enabled htarget (ofFederation_eq_ok.mp hexact)
  obtain ⟨rfl, hpassword⟩ := run_recheckCandidate hcandidate
  obtain ⟨attempt, hattempt⟩ := run_insertAttempt hinsert
  have hintents := hattempt.intents
  have hinserted : w₁.tick.tick.Advances w₅ := by
    rw [hw₅]
    exact ⟨le_rfl, Nat.le_succ _⟩
  have hlater := hinserted.trans hinserting
  have hread := hdrew.trans ((World.Advances.tick w₁).trans (.tick _))
  have hdrawn : w₁.tick.tick.drawn < w₅.drawn := by
    rw [hw₅]
    exact Nat.lt_succ_self _
  rw [World.tick_state, hstate] at henabled hpassword
  simp only [Tables.linkIntents_get, World.tick_state, hstate] at ht
  refine ⟨request.row (freshUuid env w₁.tick.tick.drawn) facts (seconds w₁.tick.tick.clock), hadmissible,
    ⟨loaded, hrechecked.within (by rw [hstate]) hdrew ((World.Advances.tick _).trans hlater), hmatches⟩,
    henabled, hpassword, ⟨facts, w₁.tick.tick.clock, hread.clock, hlater.clock, rfl⟩,
    ⟨w₁.tick.tick.drawn, rfl, hread.drawn, lt_of_lt_of_le hdrawn hinserting.drawn⟩, fun k r hr => ?_⟩
  have hr' := hintents k r hr
  simp only [hw₅, World.tick_state, hstate] at hr'
  rw [Table.find?_insert ht] at hr'
  split at hr'
  · exact .inl (Option.some_injective _ hr').symm
  · exact .inr hr'

end Begun

section Committed

/-- A link was committed: its attempt was presented again, its intent waits for the target inside its
time, the actor is the live session that the intent names, at the epochs recorded, and the identity
that the target says is bound to the account. -/
structure LinkCommitted (env : Env) (held : ClaimedAttempt env) (claims : UpstreamClaims)
    (already : Bool) (attempt : OidcTransactionRow) (intent : LinkIntentRow) (w w' : Tenant) : Prop where
  found : w.state.oidcTransactions.find? held.locator.id = some attempt
  presented : ∃ t, w.clock ≤ t ∧ t ≤ w'.clock ∧ attempt.Presented env held.locator held.callback.state
    held.callback.browser true (seconds t)
  purpose : attempt.purpose = .link ∧ attempt.linkIntent = some intent.intent
  stored : w.state.linkIntents.find? intent.intent = some intent
  ready : intent.stage = LinkStage.targetReady.code
  browser : intent.browserHash = attempt.browserHash
  time : ∃ t, w.clock ≤ t ∧ t ≤ w'.clock ∧ intent.createdAt ≤ seconds t ∧ seconds t < intent.expiresAt
  actor : ∃ (loaded : Loaded) (session : SessionRow), ∃ t, w.clock ≤ t ∧ t ≤ w'.clock ∧
    loaded.LiveIn env w.state session (seconds t) ∧ session.credentialKind = .cookie ∧
    held.callback.session = some session.tokenHash ∧ loaded.view.id = intent.session ∧
    loaded.state.key = intent.principal ∧ loaded.state.epoch = intent.authEpoch ∧
    loaded.state.membershipEpoch = intent.membershipEpoch
  target : intent.targetProvider = attempt.provider ∧ intent.targetVersion = attempt.configVersion ∧
    w.state.EnabledAt intent.targetProvider intent.targetVersion
  bound : ∃ id bound, w'.state.externalIdentities.find? id = some bound ∧
    bound.principal = intent.principal ∧ bound.provider = intent.targetProvider ∧
    bound.issuer = claims.issuer ∧ bound.subject = claims.subject.storageKey env.parsers ∧
    (already = true → w.state.externalIdentities.find? id = some bound)
  completed : ∀ next, w'.state.linkIntents.find? intent.intent = some next →
    next.stage = LinkStage.completed.code

/-- What a check of the actor of an intent saw of it. -/
theorem checkActor_intent {attempt : OidcAttempt} {session : Option Digest} {actor : Option Loaded}
    (hlink : attempt.link = some id) (h : (checkActor env attempt session).run w = .ok (actor, w')) :
    ∃ (loaded : Loaded) (stored : LinkIntentRow) (row : SessionRow), actor = some loaded ∧
      w.state.linkIntents.find? id = some stored ∧ stored.browserHash = attempt.browser ∧
      (∃ t, w.clock ≤ t ∧ t ≤ w'.clock ∧ stored.createdAt ≤ seconds t ∧ seconds t < stored.expiresAt) ∧
      (∃ t, w.clock ≤ t ∧ t ≤ w'.clock ∧ loaded.LiveIn env w.state row (seconds t)) ∧
      row.credentialKind = .cookie ∧ session = some row.tokenHash ∧ loaded.view.id = stored.session ∧
      loaded.state.key = stored.principal ∧ loaded.state.epoch = stored.authEpoch ∧
      loaded.state.membershipEpoch = stored.membershipEpoch := by
  obtain ⟨rfl, found, loaded, row, digest, hactor, ⟨stored, hstored, hrowOf⟩, -, hawaits, hbegun, hsession,
    hof, rfl, hkind⟩ := run_checkActor_link hlink h
  have htime : stored.createdAt ≤ seconds w.tick.clock ∧ seconds w.tick.clock < stored.expiresAt := by
    rw [hrowOf.created, hrowOf.expiry]
    exact ⟨hawaits.created, hawaits.unexpired⟩
  exact ⟨loaded, stored, row, hactor, hstored, hrowOf.browser.trans hawaits.browser,
    ⟨w.tick.clock, w.clock_le_tick, w.tick.clock_le_tick, htime⟩,
    ⟨w.tick.tick.clock, w.clock_le_tick.trans w.tick.clock_le_tick, le_rfl, hof.liveIn⟩, hkind, hsession,
    hbegun.session.trans hrowOf.session.symm, hbegun.principal.trans hrowOf.principal.symm,
    hbegun.epoch.trans hrowOf.epoch.symm, hbegun.memberEpoch.trans hrowOf.memberEpoch.symm⟩

theorem run_insertSession_intents {state : AccountState} {replaced : Option SessionId}
    {authentication : SessionAuthentication} {instant : ℤ} {kind : CredentialKind} {issued : IssuedSession}
    (h : (insertSession env state replaced authentication instant kind).run w = .ok (issued, w')) :
    w'.state.linkIntents = w.state.linkIntents := by
  simp only [insertSession, Tx.run_bind, Tx.run_ofExcept, run_randomSecret, Tx.run_demand,
    run_newV4, Tx.run_pure, Tx.run_insertInto, Tables.sessions_put, advanceRevision_eq_some] at h
  obtain ⟨columns, _, ⟨-, rfl⟩, secret, _, ⟨-, rfl⟩, lifetime, _, ⟨-, rfl⟩, _, w₁, hclose, id, _, ⟨-, rfl⟩,
    facts, _, ⟨-, rfl⟩, _, _, ⟨t, _, -, ⟨-, rfl⟩, rfl⟩, -, rfl⟩ := h
  have hclosed : Effects env [.sessions] w { w with drawn := w.drawn + 1 } w₁ :=
    closeReplaced_writes (by decide) _ _ _ (.refl _) hclose
  exact hclosed.linkIntents_eq (by decide)

theorem run_setAuthEpoch_intents {state : AccountState} {u : Unit}
    (h : (setAuthEpoch state).run w = .ok (u, w')) : w'.state.linkIntents = w.state.linkIntents := by
  simp only [setAuthEpoch, Tx.run_bind, Tx.run_updateIn, Tx.run_pure, Tables.accounts_put,
    advanceRevision_eq_some] at h
  obtain ⟨n, _, ⟨t, _, -, ⟨-, rfl⟩, -, rfl⟩, -, rfl⟩ := h
  rfl

/-- What a link moves on: its intent was ready for the target, at the provider and version of the
attempt, and is completed. -/
theorem run_commitLink_intent {committing : CommittingAttempt env} {outcome : FederatedOutcome}
    (h : (commitLink env committing).run w = .ok (outcome, w')) :
    ∃ intent issued, committing.attempt.link = some intent.intent ∧
      outcome = .session issued committing.attempt.returnUrl (some committing.alreadyBound) ∧
      w.state.linkIntents.find? intent.intent = some intent ∧
      intent.stage = LinkStage.targetReady.code ∧ intent.targetProvider = committing.view.id ∧
      intent.targetVersion = committing.view.version ∧
      ∀ next, w'.state.linkIntents.find? intent.intent = some next →
        next.stage = LinkStage.completed.code := by
  simp only [commitLink, Tx.run_bind, Tx.run_demand, Tx.run_require, Tx.run_ofExcept,
    ofRule_eq_ok, Tx.run_pure] at h
  obtain ⟨id, _, ⟨hlink, rfl⟩, found, _, hintent, -, _, ⟨⟨hstage, htarget, hversion⟩, rfl⟩, next, _,
    ⟨-, rfl⟩, _, w₁, hepoch, _, w₂, hadvance, _, _, horigin, authentication, _, ⟨-, rfl⟩, issued, w₃, hinsert,
    _, w₄, hretain, _, w₅, hunexpired, _, w₆, hconsume, rfl, rfl⟩ := h
  obtain ⟨rfl, rfl, row, hrow, hrowOf⟩ := run_intent hintent
  obtain ⟨moved, t, hmoved, hw₂, ⟨stored, hstored, hready⟩, hfind⟩ := run_advance hadvance
  obtain ⟨rfl, -⟩ := run_checkIntentOrigin horigin
  rw [run_setAuthEpoch_intents hepoch] at hstored hfind
  obtain rfl := Option.some_injective _ (hrow.symm.trans hstored)
  have hkey : row.intent = found.id := Table.key_of_find? hrow
  have hretained : Effects env [.bindings] w₃ w₃ w₄ :=
    retainBinding_writes (by decide) _ _ _ (.refl _) hretain
  have hjudged : Effects env [] w₄ w₄ w₅ := requireUnexpired_writes _ _ _ (.refl _) hunexpired
  have hafter : w₆.state.linkIntents = t := by
    rw [run_consumeAttempt hconsume]
    exact (hjudged.linkIntents_eq (by simp)).trans ((hretained.linkIntents_eq (by decide)).trans
      ((run_insertSession_intents hinsert).trans (by rw [hw₂])))
  refine ⟨row, issued, hkey ▸ hlink, rfl, hkey ▸ hrow, hready, hrowOf.target.trans htarget,
    hrowOf.version.trans hversion, fun next hnext => ?_⟩
  rw [hafter, hfind, hkey, hrow, Option.map_some, if_pos ⟨hkey, hready⟩, Option.some.injEq] at hnext
  cases hmoved
  rw [← hnext]

/-- The commit of an attempt that answers with a link has committed it. -/
theorem run_commitAttempt_link {issued : IssuedSession} {url : String}
    (h : (commitAttempt env held claims).run w = .ok (.session issued url (some already), w')) :
    ∃ attempt intent, LinkCommitted env held claims already attempt intent w w' := by
  obtain ⟨ended, hended⟩ := run_commitAttempt_ended h
  obtain ⟨-, committing, w₁, hprepare, hprepared, hof, h⟩ := run_commitAttempt_ways h
  have hbefore := hprepared.advances
  rcases h with ⟨-, h⟩ | ⟨-, ⟨hlink, h⟩ | ⟨-, h⟩⟩
  · obtain ⟨_, _, hresult⟩ := run_commitStepUp_grants h
    cases hresult
  · have hafter := Tx.advances _ _ _ _ h
    obtain ⟨_, _, _, _, _, -, -, -, hissues⟩ := commitLink_issues
      (show Area.accounts ∈ [.accounts, .sessions, .bindings, .completion, .oidc] by decide) (by decide)
      (by decide) (by decide) (by decide) hof.holds hof.now.le (.refl _) h
    obtain ⟨intent, issued', hid, hresult, hintent, hready, htarget, hversion, hcompleted⟩ :=
      run_commitLink_intent h
    cases hresult
    rw [hprepared.linkIntents_eq (by decide)] at hintent
    obtain ⟨w₂, w₃, hstate, hfrom, hto, hchecked⟩ := prepareCommit_checked hprepare
    obtain ⟨loaded, stored, session, hactor, hstored, hbrowser, ⟨t, hlo, hhi, htime⟩,
      ⟨t', hlo', hhi', hlive⟩, hkind, hsession, hnamed, hprincipal, hepochs⟩ :=
      checkActor_intent hid hchecked
    rw [hstate] at hstored hlive
    obtain rfl := Option.some_injective _ (hintent.symm.trans hstored)
    obtain ⟨attempt, hattempt, hpresented, hview⟩ := hof.attempt
    obtain ⟨bound, hbound, howner, hprovider, hissuer, hsubject⟩ := hof.identity
    obtain ⟨actor, hactor', hkey⟩ := hof.linked hlink
    obtain rfl := Option.some_injective _ (hactor.symm.trans hactor')
    have hidentities : w'.state.externalIdentities = w₁.state.externalIdentities :=
      (hissues.effects (.refl _)).frame Db.externalIdentities fun _ _ a ha heffect =>
        heffect.externalIdentities_eq (by rintro rfl; simp at ha)
    have hproviders : intent.targetProvider = attempt.provider := by
      rw [htarget, hof.provider, hview]
      rfl
    have hversions : intent.targetVersion = attempt.configVersion := by
      rw [hversion, hof.version, hview]
      rfl
    have hend := hto.clock.trans hafter.clock
    obtain rfl := Option.some_injective _ (hattempt.symm.trans hended.passes.found)
    refine ⟨attempt, intent, hattempt, hended.passes.presented, ⟨?_, ?_⟩, hintent, hready, ?_,
      ⟨t, hfrom.clock.trans hlo, hhi.trans hend, htime⟩, ⟨loaded, session, t', hfrom.clock.trans hlo',
        hhi'.trans hend, hlive, hkind, hsession, hnamed, hprincipal, hepochs⟩,
      ⟨hproviders, hversions, committing.view.row, ?_, hof.enabled, hversion.symm⟩,
      ⟨committing.identity, bound, ?_, ?_, hprovider.trans htarget.symm, hissuer, hsubject, ?_⟩,
      hcompleted⟩
    · rw [hview] at hlink
      exact hlink
    · rw [hview] at hid
      exact hid
    · rw [hbrowser, hview]
      rfl
    · rw [htarget]
      exact hof.configured
    · rw [hidentities]
      exact hbound
    · rw [howner, hkey, hprincipal]
    · intro hbefore
      rw [← hof.bound hbefore]
      exact hbound
  · simp only [commitLogin, Tx.run_bind, Tx.run_pure] at h
    obtain ⟨_, _, -, _, _, -, _, _, -, _, _, -, _, _, -, _, _, -, _, _, -, hresult, -⟩ := h
    cases hresult

end Committed

section Events

/-- An event begins a link, for an actor that was read before and a password that was verified. -/
def BeginsLink (e : Event (System env) (Label env)) (request : LinkRequest env) (row : LinkIntentRow) :
    Prop :=
  ∃ locator, e.label = .commit (.beginLink request locator) ∧
    LinkBegun env request row e.before.world e.after.world ∧
    .linkActor request.link ∈ e.before.held ∧
    ∀ candidate ∈ request.candidate, .verified candidate ∈ e.before.held

/-- An event proves the actor of an intent at the provider that the session came from. -/
def ProvesLink (e : Event (System env) (Label env)) (id : Uuid) : Prop :=
  ∃ held claims target outcome attempt intent source,
    e.label = .commit (.finishReauthentication held claims target outcome) ∧
    Reauthenticated env held claims attempt intent source e.before.world e.after.world ∧
    intent.intent = id

/-- An event answers an attempt with a link. -/
def LinksIdentity (e : Event (System env) (Label env)) (held : ClaimedAttempt env)
    (claims : UpstreamClaims) (already : Bool) : Prop :=
  ∃ issued url, e.label = .commit (.commitAttempt held claims (.session issued url (some already)))

/-- An event completes an intent. -/
def CompletesLink (e : Event (System env) (Label env)) (id : Uuid) : Prop :=
  ∃ held claims already attempt intent, LinksIdentity e held claims already ∧
    LinkCommitted env held claims already attempt intent e.before.world e.after.world ∧
    intent.intent = id

theorem Step.links (h : Step env s label s') (hlinks : LinksIdentity ⟨s, label, s'⟩ held claims already) :
    ∃ attempt intent, LinkCommitted env held claims already attempt intent s.world s'.world := by
  obtain ⟨issued, url, rfl⟩ := hlinks
  cases h with
  | commit hadmissible hruns => exact run_commitAttempt_link hruns

theorem Effect.intents_later {start : Tenant} {a : Area} {db : Db} (h : Effect env start w a db)
    (ha : a ≠ .intents) {k : Uuid} {next : LinkIntentRow} (hnext : db.linkIntents.find? k = some next) :
    ∃ row, w.state.linkIntents.find? k = some row ∧ row.Later next ∧
      (a ≠ .proofs → row.stage = LinkStage.reauthenticationRequired.code → next.stage = row.stage) := by
  cases h with
  | intentsDeleted =>
    exact ⟨next, Table.find?_of_find?_deleteWhere hnext, .refl next, fun _ _ => rfl⟩
  | intentInserted => exact absurd rfl ha
  | intentsProved hmoved =>
    obtain ⟨row, hrow, rfl | hproves⟩ := hmoved.find?_before (fun _ _ h => h.later.intent) hnext
    · exact ⟨next, hrow, .refl next, fun _ _ => rfl⟩
    · exact ⟨row, hrow, hproves.later, fun hp => absurd rfl hp⟩
  | intentsCompleted hmoved =>
    obtain ⟨row, hrow, rfl | hcompletes⟩ := hmoved.find?_before (fun _ _ h => h.later.intent) hnext
    · exact ⟨next, hrow, .refl next, fun _ _ => rfl⟩
    · refine ⟨row, hrow, hcompletes.later, fun _ hwaiting => ?_⟩
      rw [hcompletes.1] at hwaiting
      cases hwaiting
  | _ => exact ⟨next, hnext, .refl next, fun _ _ => rfl⟩

/-- Where no intent is inserted, those that are stored were stored before; those that wait for a
reauthentication do so until it is proved. -/
theorem Effects.intents_later {areas : List Area} {start : Tenant} (h : Effects env areas start w w')
    (hi : .intents ∉ areas) : ∀ k next, w'.state.linkIntents.find? k = some next →
      ∃ row, w.state.linkIntents.find? k = some row ∧ row.Later next ∧
        (.proofs ∉ areas → row.stage = LinkStage.reauthenticationRequired.code →
          next.stage = row.stage) := by
  induction h with
  | refl => exact fun k next hnext => ⟨next, hnext, .refl next, fun _ _ => rfl⟩
  | tail _ hmove ih =>
    intro k next hnext
    rcases hmove with ⟨hstate, -⟩ | ⟨ha, heffect⟩
    · rw [hstate] at hnext
      exact ih k next hnext
    · obtain ⟨mid, hmid, hlater, hwaits⟩ := heffect.intents_later (fun heq => hi (heq ▸ ha)) hnext
      obtain ⟨row, hrow, hbefore, hwaited⟩ := ih k mid hmid
      refine ⟨row, hrow, hbefore.trans hlater, fun hp hwaiting => ?_⟩
      have hsame := hwaited hp hwaiting
      rw [hwaits (fun heq => hp (heq ▸ ha)) (hsame.trans hwaiting), hsame]

/-- What a step stores of intents was stored before, or is begun by it; an intent stops waiting for a
reauthentication where the step proves it. -/
theorem Step.intents_kept (h : Step env s label s') {k : Uuid} {next : LinkIntentRow}
    (hnext : s'.world.state.linkIntents.find? k = some next) :
    (∃ request, BeginsLink ⟨s, label, s'⟩ request next) ∨
      ∃ row, s.world.state.linkIntents.find? k = some row ∧ row.Later next ∧
        (row.stage = LinkStage.reauthenticationRequired.code →
          next.stage ≠ LinkStage.reauthenticationRequired.code → ProvesLink ⟨s, label, s'⟩ k) := by
  cases h with
  | elapse hstate _ =>
    rw [hstate] at hnext
    exact .inr ⟨next, hnext, .refl next, fun h hno => absurd h hno⟩
  | @commit commit w' hadmissible hruns =>
    have hkept := (Commit.effects hruns).intents_later
    cases commit with
    | beginLink request locator =>
      obtain ⟨row, hbegun⟩ := run_beginLink_row hruns
      rcases hbegun.others k next hnext with rfl | hold
      · exact .inl ⟨request, locator, rfl, hbegun, hadmissible.1, hadmissible.2⟩
      · exact .inr ⟨next, hold, .refl next, fun h hno => absurd h hno⟩
    | finishReauthentication held claims target outcome =>
      obtain ⟨row, hrow, hlater, -⟩ := hkept (by simp [Commit.areas]) k next hnext
      refine .inr ⟨row, hrow, hlater, fun hwaits hno => ?_⟩
      obtain ⟨attempt, intent, source, hdone⟩ := run_finishReauthentication hruns
      by_cases hk : k = intent.intent
      · exact ⟨held, claims, target, outcome, attempt, intent, source, rfl, hdone, hk.symm⟩
      · have hold := hdone.others k next hk hnext
        obtain rfl := Option.some_injective _ (hrow.symm.trans hold)
        exact absurd hwaits hno
    | _ =>
      obtain ⟨row, hrow, hlater, hwaited⟩ := hkept (by simp [Commit.areas, commitAreas]) k next hnext
      refine .inr ⟨row, hrow, hlater, fun hwaits hno => ?_⟩
      exact absurd ((hwaited (by simp [Commit.areas, commitAreas]) hwaits).trans hwaits) hno

/-- What calls in flight hold of the actors of links and of verified passwords, earlier events gave
them. -/
theorem Step.proof_held (h : Step env s label s') :
    (∀ link, .linkActor link ∈ s'.held → .linkActor link ∈ s.held ∨
      ∃ actor, label = .commit (.readLinkActor actor link)) ∧
    ∀ candidate, .verified candidate ∈ s'.held → .verified candidate ∈ s.held ∨
      ∃ login claim outcome, label = .commit (.settlePassword login claim outcome (.ok candidate)) := by
  cases h with
  | elapse hstate _ => exact ⟨fun link h => .inl h, fun candidate h => .inl h⟩
  | @commit commit w' hadmissible hruns =>
    constructor
    · intro link hheld
      rcases List.mem_append.mp hheld with hgiven | hold
      · cases commit with
        | readLinkActor actor result =>
          simp only [Commit.gives, List.mem_singleton, Held.linkActor.injEq] at hgiven
          subst hgiven
          exact .inr ⟨actor, rfl⟩
        | claimPassword login source lease result => cases result <;> simp [Commit.gives] at hgiven
        | readPassword login result => cases result <;> simp [Commit.gives] at hgiven
        | settlePassword login claim outcome result => cases result <;> simp [Commit.gives] at hgiven
        | _ => simp [Commit.gives] at hgiven
      · exact .inl hold
    · intro candidate hheld
      rcases List.mem_append.mp hheld with hgiven | hold
      · cases commit with
        | settlePassword login claim outcome result =>
          cases result with
          | error e => simp [Commit.gives] at hgiven
          | ok verified =>
            simp only [Commit.gives, List.mem_singleton, Held.verified.injEq] at hgiven
            subst hgiven
            exact .inr ⟨login, claim, outcome, rfl⟩
        | claimPassword login source lease result => cases result <;> simp [Commit.gives] at hgiven
        | readPassword login result => cases result <;> simp [Commit.gives] at hgiven
        | _ => simp [Commit.gives] at hgiven
      · exact .inl hold

end Events

section Histories

/-- An intent that is stored was begun by an event, and where it waited for a reauthentication and does
so no more, a later event proved it. -/
def IntentBacked (trace : List (Event (System env) (Label env))) (row : LinkIntentRow) : Prop :=
  ∃ before b between request first, trace = before ++ b :: between ∧ BeginsLink b request first ∧
    first.Later row ∧ (first.stage = LinkStage.reauthenticationRequired.code →
      row.stage ≠ LinkStage.reauthenticationRequired.code → ∃ p ∈ between, ProvesLink p row.intent)

/-- What the events of a run say of the intents that are stored, and of the proofs that calls hold. -/
structure LinkHistory (trace : List (Event (System env) (Label env))) (s : System env) : Prop where
  backed : ∀ k row, s.world.state.linkIntents.find? k = some row →
    (∃ i < s.world.drawn, k = freshUuid env i) ∧ IntentBacked trace row
  actors : ∀ link, .linkActor link ∈ s.held → ∃ e ∈ trace, ∃ actor,
    e.label = .commit (.readLinkActor actor link)
  verified : ∀ candidate, .verified candidate ∈ s.held → ∃ e ∈ trace, ∃ login claim outcome,
    e.label = .commit (.settlePassword login claim outcome (.ok candidate))
  completed : ∀ e ∈ trace, ∀ id, CompletesLink e id → (∃ i < s.world.drawn, id = freshUuid env i) ∧
    ∀ row, s.world.state.linkIntents.find? id = some row → LinkStage.completed.code ≤ row.stage
  once : trace.Pairwise fun e f => ∀ id, CompletesLink e id → ¬ CompletesLink f id

/-- An intent that a step completes was ready for its target, and is completed after it. -/
theorem CompletesLink.moved (h : CompletesLink e id) :
    (∃ row, e.before.world.state.linkIntents.find? id = some row ∧
      row.stage = LinkStage.targetReady.code) ∧
    ∀ row, e.after.world.state.linkIntents.find? id = some row →
      LinkStage.completed.code ≤ row.stage := by
  obtain ⟨held, claims, already, attempt, intent, -, hcommitted, rfl⟩ := h
  exact ⟨⟨intent, hcommitted.stored, hcommitted.ready⟩,
    fun row hrow => (hcommitted.completed row hrow).ge⟩

theorem LinkHistory.backed_step (h : LinkHistory trace s) (hstep : Step env s label s') {k : Uuid}
    {next : LinkIntentRow} (hnext : s'.world.state.linkIntents.find? k = some next) :
    (∃ i < s'.world.drawn, k = freshUuid env i) ∧ IntentBacked (trace ++ [⟨s, label, s'⟩]) next := by
  rcases hstep.intents_kept hnext with ⟨request, hbegins⟩ | ⟨row, hrow, hlater, hproves⟩
  · have hkey : next.intent = k := Table.key_of_find? hnext
    obtain ⟨i, hid, -, hi⟩ := hbegins.choose_spec.2.1.fresh
    exact ⟨⟨i, hi, hkey.symm.trans hid⟩, trace, _, [], request, next, rfl, hbegins, .refl next,
      fun h hno => absurd h hno⟩
  · obtain ⟨⟨i, hi, hid⟩, before, b, between, request, first, rfl, hbegins, hfirst, hproved⟩ :=
      h.backed k row hrow
    refine ⟨⟨i, lt_of_lt_of_le hi hstep.advances.drawn, hid⟩, before, b,
      between ++ [⟨s, label, s'⟩], request, first, by simp, hbegins, hfirst.trans hlater,
      fun hwaits hno => ?_⟩
    have hkey : row.intent = k := Table.key_of_find? hrow
    rw [hlater.intent]
    by_cases hready : row.stage = LinkStage.reauthenticationRequired.code
    · exact ⟨_, by simp, hkey ▸ hproves hready hno⟩
    · obtain ⟨p, hp, hproof⟩ := hproved hwaits hready
      exact ⟨p, List.mem_append_left _ hp, hproof⟩

theorem LinkHistory.step (h : LinkHistory trace s) (hstep : Step env s label s') :
    LinkHistory (trace ++ [⟨s, label, s'⟩]) s' := by
  have hlater := hstep.advances.drawn
  refine ⟨fun k next hnext => h.backed_step hstep hnext, ?_, ?_, ?_, ?_⟩
  · intro link hheld
    rcases hstep.proof_held.1 link hheld with hold | ⟨actor, rfl⟩
    · obtain ⟨e, he, hread⟩ := h.actors link hold
      exact ⟨e, List.mem_append_left _ he, hread⟩
    · exact ⟨⟨s, .commit (.readLinkActor actor link), s'⟩, by simp, actor, rfl⟩
  · intro candidate hheld
    rcases hstep.proof_held.2 candidate hheld with hold | ⟨login, claim, outcome, rfl⟩
    · obtain ⟨e, he, hsettled⟩ := h.verified candidate hold
      exact ⟨e, List.mem_append_left _ he, hsettled⟩
    · exact ⟨⟨s, .commit (.settlePassword login claim outcome (.ok candidate)), s'⟩, by simp, login,
        claim, outcome, rfl⟩
  · intro e he id hcompletes
    rcases List.mem_append.mp he with he | he
    · obtain ⟨⟨i, hi, hid⟩, hdone⟩ := h.completed e he id hcompletes
      refine ⟨⟨i, lt_of_lt_of_le hi hlater, hid⟩, fun next hnext => ?_⟩
      rw [hid] at hnext hdone
      obtain ⟨row, hrow, hrest⟩ :=
        hstep.descends.intents.before (freshUuid_injective env) hi hnext
      exact (hdone row hrow).trans hrest.stage
    · obtain rfl := List.mem_singleton.mp he
      obtain ⟨⟨row, hrow, -⟩, hdone⟩ := hcompletes.moved
      obtain ⟨⟨i, hi, hid⟩, -⟩ := h.backed id row hrow
      exact ⟨⟨i, lt_of_lt_of_le hi hlater, hid⟩, hdone⟩
  · refine List.pairwise_append.mpr ⟨h.once, List.pairwise_singleton _ _, ?_⟩
    intro e he f hf id hcompletes hcompletes'
    obtain rfl := List.mem_singleton.mp hf
    obtain ⟨⟨row, hrow, hready⟩, -⟩ := hcompletes'.moved
    have hdone := (h.completed e he id hcompletes).2 row hrow
    rw [hready] at hdone
    revert hdone
    decide

theorem linkHistory_of_run (hstart : s₀.Provisioned) (hrun : Run (Step env) s₀ trace s) :
    LinkHistory trace s := by
  refine hrun.history (H := LinkHistory) ?_ fun _ _ _ _ _ h hstep => h.step hstep
  refine ⟨?_, ?_, ?_, by simp, .nil⟩
  · intro k row hrow
    rw [hstart.1] at hrow
    exact absurd (Table.mem_of_find? hrow) Table.not_mem_empty
  · intro link hheld
    rw [hstart.2] at hheld
    cases hheld
  · intro candidate hheld
    rw [hstart.2] at hheld
    cases hheld

/-- How the actor of a link was proved: by a password that was verified before the link began, or by a
reauthentication after it at the provider that the session came from. -/
inductive ActorProved (before between : List (Event (System env) (Label env))) (request : LinkRequest env)
    (id : Uuid) : Prop
  | password {candidate r login claim outcome} : request.candidate = some candidate → r ∈ before →
      r.label = .commit (.settlePassword login claim outcome (.ok candidate)) →
      ActorProved before between request id
  | reauthentication {p} : request.candidate = none → p ∈ between → ProvesLink p id →
      ActorProved before between request id

/-- What holds of a link that one event began and another committed. -/
structure LinkMet (before between : List (Event (System env) (Label env)))
    (b e : Event (System env) (Label env)) (request : LinkRequest env) (first intent : LinkIntentRow)
    (attempt : OidcTransactionRow) (held : ClaimedAttempt env) (claims : UpstreamClaims)
    (already : Bool) : Prop where
  begun : BeginsLink b request first
  /-- The intent is the one that was begun, but for its stage and the facts of the reauthentication. -/
  same : first.Later intent
  /-- The checks passed at the commit. -/
  committed : LinkCommitted env held claims already attempt intent e.before.world e.after.world
  /-- The actor of the link was read before it began, with the origin of their session. -/
  read : ∃ r ∈ before, ∃ actor, r.label = .commit (.readLinkActor actor request.link)
  proved : ActorProved before between request intent.intent

/-- What holds of the links of a run. -/
structure LinksProved (trace : List (Event (System env) (Label env))) : Prop where
  /-- An intent is completed at most once. -/
  once : trace.Pairwise fun e f => ∀ id, CompletesLink e id → ¬ CompletesLink f id
  /-- What is linked was begun in the run by the session that commits it, its actor proved. -/
  met : ∀ earlier e later, trace = earlier ++ e :: later → ∀ held claims already,
    LinksIdentity e held claims already → ∃ before b between request first intent attempt,
      earlier = before ++ b :: between ∧
      LinkMet before between b e request first intent attempt held claims already

/-- The actor of an intent that is ready for its target was proved: a request without a password
begins where a reauthentication is required. -/
theorem BeginsLink.proved {before between : List (Event (System env) (Label env))}
    {b : Event (System env) (Label env)} {first intent : LinkIntentRow} (h : BeginsLink b request first)
    (hhistory : LinkHistory before b.before) (hready : intent.stage = LinkStage.targetReady.code)
    (hproved : first.stage = LinkStage.reauthenticationRequired.code →
      intent.stage ≠ LinkStage.reauthenticationRequired.code → ∃ p ∈ between, ProvesLink p intent.intent) :
    ActorProved before between request intent.intent := by
  obtain ⟨locator, -, hbegun, -, hverified⟩ := h
  cases hcandidate : request.candidate with
  | some candidate =>
    obtain ⟨r, hr, login, claim, outcome, hlabel⟩ :=
      hhistory.verified candidate (hverified candidate hcandidate)
    exact .password hcandidate hr hlabel
  | none =>
    obtain ⟨facts, t, -, -, hmade⟩ := hbegun.made
    have hwaits : first.stage = LinkStage.reauthenticationRequired.code := by
      rw [hmade]
      simp [LinkRequest.row, LinkRequest.stage, LinkRequest.purpose, hcandidate, Purpose.stage]
    obtain ⟨p, hp, hproof⟩ := hproved hwaits (by rw [hready]; decide)
    exact .reauthentication hcandidate hp hproof

/-- Links are committed by the session that began them, its actor proved: in every run, whatever calls
interleave. -/
theorem links_proved (hstart : s₀.Provisioned) (hrun : Run (Step env) s₀ trace s) :
    LinksProved trace := by
  refine ⟨(linkHistory_of_run hstart hrun).once, ?_⟩
  rintro earlier e later rfl held claims already hlinks
  obtain ⟨hearlier, hstep, -⟩ := hrun.split
  obtain ⟨attempt, intent, hcommitted⟩ := hstep.links hlinks
  obtain ⟨-, before, b, between, request, first, rfl, hbegins, hsame, hproved⟩ :=
    (linkHistory_of_run hstart hearlier).backed _ _ hcommitted.stored
  have hhistory := linkHistory_of_run hstart hearlier.split.1
  exact ⟨before, b, between, request, first, intent, attempt, rfl, hbegins, hsame, hcommitted,
    hhistory.actors request.link hbegins.choose_spec.2.2.1,
    hbegins.proved hhistory hcommitted.ready hproved⟩

/-- Ada, signed in, sets up a provider, proves her password again and links an identity from there. -/
def firstLink (env : Env) (key : AccountKey) (login hash browser : String)
    (settings : ProviderSettings env.parsers) (claims : UpstreamClaims) : Action FederatedOutcome := do
  let issued ← firstLogin env key login hash
  let actor ← authenticateSession env (env.sha256.secret issued.secret) .cookie false
  let view ← createProvider env actor settings 0 (env.assuranceProfile settings).fingerprint
  let target ← editProvider env actor view.id view.version (.enabled true)
  let link ← readLinkActor env actor
  let claimed ← claimPassword env login "127.0.0.1" 60
  let claim ← Tx.demand claimed.toOption .rejected
  let found ← readPassword env login
  let found ← Tx.demand found .rejected
  let candidate ← confirmPassword env found.2
  let settled ← settlePassword env claim (.ok candidate)
  let candidate ← Tx.demand settled.toOption .rejected
  let locator ← beginLink env ⟨link, browser, "/", target, some candidate, target⟩
  let held ← claimAttempt env ⟨env.signer.issue locator, browser, settings.input.issuer,
    some (env.sha256.secret issued.secret)⟩
  commitAttempt env held claims

/-- The link is a run of the authority; its last step commits the attempt. -/
theorem run_firstLink {key : AccountKey} {login hash browser : String}
    {settings : ProviderSettings env.parsers} {outcome : FederatedOutcome}
    (h : (firstLink env key login hash browser settings claims).run w = .ok (outcome, w')) :
    ∃ earlier e held held', Run (Step env) ⟨w, []⟩ (earlier ++ [e]) ⟨w', held'⟩ ∧
      e.label = .commit (.commitAttempt held claims outcome) := by
  simp only [firstLink, Tx.run_bind, Tx.run_demand] at h
  obtain ⟨issued, _, hfirst, actor, _, hactor, view, _, hcreate, target, _, hedit, link, _, hlink, claimed,
    _, hclaim, claim, _, ⟨hclaimed, rfl⟩, read, _, hread, found, _, ⟨hfound, rfl⟩, candidate, _, hconfirm,
    settled, _, hsettle, verified, _, ⟨hsettled, rfl⟩, locator, _, hbegin, attempt, _, htake, hcommit⟩ := h
  obtain rfl := eq_ok_of_toOption hclaimed
  obtain rfl := eq_ok_of_toOption hsettled
  subst hfound
  obtain ⟨stored, offered⟩ := found
  obtain ⟨trace, held, hrun⟩ := run_firstLogin hfirst
  have hrun := commit_step (.authenticate _ .cookie false actor) hrun trivial hactor
  have hrun := commit_step (.createProvider actor settings 0 _ view) hrun trivial hcreate
  have hrun := commit_step (.editProvider actor view.id view.version (.enabled true) target) hrun
    trivial hedit
  have hrun := commit_step (.readLinkActor actor link) hrun trivial hlink
  have hrun := commit_step (.claimPassword login "127.0.0.1" 60 (.ok claim)) hrun trivial hclaim
  have hrun := commit_step (.readPassword login _) hrun trivial hread
  have hrun := commit_step (.confirmPassword login offered candidate) hrun
    (by simp [Commit.gives, Commit.Admissible]) hconfirm
  have hrun := commit_step (.settlePassword login claim (.ok candidate) (.ok verified)) hrun
    (by simp [Commit.gives, Commit.Admissible]) hsettle
  have hrun := commit_step (.beginLink ⟨link, browser, "/", target, some verified, target⟩ locator) hrun
    (by simp [Commit.gives, Commit.Admissible]) hbegin
  have hrun := commit_step (.claimAttempt _ attempt) hrun trivial htake
  have hrun := commit_step (.commitAttempt attempt claims outcome) hrun
    (by simp [Commit.gives, Commit.Admissible]) hcommit
  exact ⟨_, _, attempt, _, hrun, rfl⟩

/-- The first link of `ada`. -/
@[irreducible] def linked : Except Failure (FederatedOutcome × Tenant) :=
  (firstLink .transparent ⟨Uuid.newV4 0⟩ "ada" "hash"
    "0123456789012345678901234567890123456789012" partner partnerClaims).run newTenant

/-- Whether the outcome of an attempt is a link, of an identity that was bound already or not. -/
def FederatedOutcome.alreadyLinked? : FederatedOutcome → Option Bool
  | .stepUp .. => none
  | .redirect _ => none
  | .session _ _ alreadyLinked => alreadyLinked

theorem linked_isNew : linked.toOption.bind (fun r => r.1.alreadyLinked?) = some false := by
  decide +kernel

/-- The link of `ada` was proved; an identity that was bound to nobody was linked in it. -/
theorem firstLink_proved : ∃ trace, @LinksProved .transparent trace ∧
    ∃ e ∈ trace, ∃ held, LinksIdentity e held partnerClaims false := by
  obtain ⟨⟨outcome, w⟩, hsome, hnew⟩ := Option.bind_eq_some_iff.mp linked_isNew
  have hrun := eq_ok_of_toOption hsome
  unfold linked at hrun
  obtain ⟨earlier, e, held, held', hrun, hlabel⟩ := run_firstLink hrun
  refine ⟨_, links_proved ⟨rfl, rfl⟩ hrun, e, by simp, held, ?_⟩
  cases outcome with
  | session issued url already =>
    obtain rfl : already = some false := hnew
    exact ⟨issued, url, hlabel⟩
  | stepUp => cases hnew
  | redirect => cases hnew

end Histories

end IdentityAuthority
