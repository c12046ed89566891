import IdentityAuthority.Safety.Descent

/-!
# Attempts at the upstream

An attempt is inserted at a provider that is enabled, under the version the provider has. One call
claims it, which hands the secrets of the exchange to that call and to no other, and one call commits
a result for it, in a second transaction. Both compare the same columns of the row, the first with a
row that is not claimed and the second with one that is, and the commit removes the row.
-/

namespace IdentityAuthority

open Relational Transition

variable {env : Env} {areas : List Area} {start w w₁ w' : Tenant}

section Checks

/-- A provider is enabled at a version. -/
def Db.EnabledAt (db : Db) (id : ProviderId) (version : ℤ) : Prop :=
  ∃ provider, db.providers.find? id = some provider ∧ provider.enabled = true ∧
    provider.configVersion = version

theorem Db.EnabledAt.congr {db db' : Db} {id : ProviderId} {version : ℤ}
    (h : db.EnabledAt id version) (hsame : db'.providers = db.providers) :
    db'.EnabledAt id version := by
  obtain ⟨provider, hfound, hrest⟩ := h
  exact ⟨provider, by rw [hsame]; exact hfound, hrest⟩

/-- A provider that was read, and is enabled at a version. -/
theorem run_provider_enabled {id : ProviderId} {view : ProviderView env.parsers} {version : ℤ}
    (h : (provider env id).run w = .ok (view, w')) (hexact : exact view version = .ok ()) :
    w' = w ∧ view.id = id ∧ view.version = version ∧ w.state.EnabledAt id version := by
  obtain ⟨rfl, hid, hfound⟩ := run_provider h
  obtain ⟨henabled, hversion⟩ := exact_eq_ok.mp hexact
  exact ⟨rfl, hid, hversion, view.row, hfound, henabled, hversion⟩

/-- A call passes the checks of an attempt that is claimed or not: it presents the digests and the
purpose of the row, inside the time of the row, while the provider is enabled at the version
recorded. -/
structure OidcTransactionRow.Passes (env : Env) (row : OidcTransactionRow) (locator : StateLocator)
    (callback : Callback) (claimed : Bool) (w w' : Tenant) : Prop where
  found : w.state.oidcTransactions.find? locator.id = some row
  presented : ∃ t, w.clock ≤ t ∧ t ≤ w'.clock ∧
    row.Presented env locator callback.state callback.browser claimed (seconds t)
  enabled : w.state.EnabledAt row.provider row.configVersion

/-- The row of an attempt that was claimed. -/
def OidcTransactionRow.taken (row : OidcTransactionRow) : OidcTransactionRow :=
  { row with claimed := true, nonce := none, verifier := none }

theorem OidcTransactionRow.Later.taken {row next : OidcTransactionRow} (h : row.taken.Later next) :
    next = row.taken := by
  rcases h with rfl | rfl <;> rfl

end Checks

section Insert

/-- The row that an attempt is stored as. -/
def NewAttempt.row {env : Env} (input : NewAttempt env.parsers) (sequence now : ℤ) :
    OidcTransactionRow where
  attempt := input.locator.id
  operationContext := input.context
  provider := input.provider.id
  configVersion := input.provider.version
  stateHash := env.sha256.text input.material.state
  browserHash := env.sha256.text input.browser
  profileSequence := sequence
  purpose := input.locator.purpose
  authenticationMode := input.mode
  nonce := some input.material.nonce
  verifier := some input.material.verifier
  claimed := false
  createdAt := now
  expiresAt := min (input.expiry.getD (now + 120)) (now + 120)
  returnUrl := input.returnUrl
  linkIntent := input.link
  replacementSession := input.replacement

/-- Removing what is over removes attempts and intents, and nothing else. -/
theorem run_removeExpiredAttempts {instant : ℤ} {u : Unit}
    (h : (removeExpiredAttempts instant).run w = .ok (u, w')) :
    ∃ p q, w' = { w with state := { w.state with
      oidcTransactions := w.state.oidcTransactions.deleteWhere p
      linkIntents := w.state.linkIntents.deleteWhere q } } := by
  simp only [removeExpiredAttempts, Tx.run_bind, Tx.run_select, Tx.run_deleteFrom, Tx.run_pure,
    Tables.oidcTransactions_put, Tables.oidcTransactions_get, Tables.linkIntents_put,
    Tables.linkIntents_get, Option.some.injEq] at h
  obtain ⟨_, _, ⟨-, rfl⟩, n, _, ⟨db, rfl, -, rfl⟩, _, _, ⟨-, rfl⟩, _, _, ⟨-, rfl⟩, m, _,
    ⟨db', rfl, -, rfl⟩, -, rfl⟩ := h
  exact ⟨_, _, rfl⟩

/-- An attempt is stored, at one clock reading, and besides it attempts and intents are kept or
removed. -/
structure NewAttempt.Stored (input : NewAttempt env.parsers) (row : OidcTransactionRow)
    (w w' : Tenant) : Prop where
  made : ∃ sequence, row = input.row sequence (seconds w'.clock)
  clock : w.clock ≤ w'.clock
  enabled : w.state.EnabledAt input.provider.id input.provider.version
  unexpired : row.createdAt < row.expiresAt
  stored : w'.state.oidcTransactions.find? input.locator.id = some row
  others : ∀ k other, w'.state.oidcTransactions.find? k = some other →
    other = row ∨ w.state.oidcTransactions.find? k = some other
  intents : ∀ k intent, w'.state.linkIntents.find? k = some intent →
    w.state.linkIntents.find? k = some intent

theorem run_insertAttempt {input : NewAttempt env.parsers} {u : Unit}
    (h : (insertAttempt env input).run w = .ok (u, w')) : ∃ row, input.Stored row w w' := by
  simp only [insertAttempt, Tx.run_bind, Tx.run_ofExcept, ofFederation_eq_ok, run_now,
    Tx.run_require, Tx.run_select, Tx.run_insertInto, Tables.oidcTransactions_put, and_assoc,
    exists_and_left, exists_eq_left', exists_eq_left, exists_const, Option.some.injEq] at h
  obtain ⟨current, w₀, hprovider, _, hexact, -, hunexpired, _, w₁, hremove, -, sequence, w₂,
    hsequence, t, ht, rfl⟩ := h
  obtain ⟨rfl, -, -, henabled⟩ := run_provider_enabled hprovider hexact
  obtain ⟨p, q, rfl⟩ := run_removeExpiredAttempts hremove
  obtain ⟨g, rfl⟩ := run_profileSequence hsequence
  refine ⟨_, ⟨sequence, rfl⟩, (World.Advances.tick w₀).clock, henabled, hunexpired,
    (Table.find?_insert ht _).trans (if_pos rfl), ?_, ?_⟩
  · intro k other hother
    rw [Table.find?_insert ht] at hother
    split at hother
    · exact .inl (Option.some_injective _ hother.symm)
    · exact .inr (Table.find?_of_find?_deleteWhere hother)
  · exact fun k intent hintent => Table.find?_of_find?_deleteWhere hintent

/-- An attempt was inserted by a transaction: under a key it drew, with the secrets of its exchange,
and at a provider that is enabled at the version recorded. -/
structure OidcTransactionRow.InsertedIn (env : Env) (row : OidcTransactionRow) (w w' : Tenant) :
    Prop where
  stored : w'.state.oidcTransactions.find? row.attempt = some row
  fresh : ∃ i, row.attempt = attemptId env i ∧ DrawnIn w w' i
  unclaimed : row.claimed = false
  enabled : w.state.EnabledAt row.provider row.configVersion
  created : ∃ t, w.clock ≤ t ∧ t ≤ w'.clock ∧ row.createdAt = seconds t
  lasting : row.createdAt < row.expiresAt ∧ row.expiresAt ≤ row.createdAt + 120

/-- A transaction inserts an attempt, and besides it stores those there were. -/
def InsertsOne (env : Env) (w w₁ w' : Tenant) : Prop :=
  ∃ row : OidcTransactionRow, row.InsertedIn env w w' ∧
    ∀ k other, w'.state.oidcTransactions.find? k = some other →
      other = row ∨ w₁.state.oidcTransactions.find? k = some other

/-- An insert by a transaction that drew the key of the attempt, and did not write to providers
before. -/
theorem insertsOne_of_insertAttempt {input : NewAttempt env.parsers} {u : Unit}
    (hadvances : w.Advances w₁) (hdrawn : ∃ i, input.locator.id = attemptId env i ∧ DrawnIn w w₁ i)
    (hproviders : w₁.state.providers = w.state.providers)
    (h : (insertAttempt env input).run w₁ = .ok (u, w')) : InsertsOne env w w₁ w' := by
  have hlater := (insertAttempt env input).advances _ _ _ h
  obtain ⟨row, hstored⟩ := run_insertAttempt h
  obtain ⟨sequence, rfl⟩ := hstored.made
  obtain ⟨i, hid, hlo, hhi⟩ := hdrawn
  refine ⟨_, ⟨hstored.stored, ⟨i, hid, hlo, lt_of_lt_of_le hhi hlater.drawn⟩, rfl,
    hstored.enabled.congr hproviders.symm,
    ⟨w'.clock, hadvances.clock.trans hstored.clock, le_rfl, rfl⟩,
    hstored.unexpired, min_le_right _ _⟩, hstored.others⟩

/-- A login that begins inserts its attempt. -/
theorem beginFederated_inserts {request : LoginRequest} {mode : AuthenticationMode}
    {context : Option StepUpContext} {view : ProviderView env.parsers} {locator : StateLocator}
    (h : (beginFederated env request mode context view).run w = .ok (locator, w')) :
    InsertsOne env w w w' := by
  simp only [beginFederated, Tx.run_bind, Tx.run_require, Tx.run_pure, and_assoc, exists_and_left,
    exists_eq_left', exists_const] at h
  obtain ⟨-, -, -, -, -, -, -, made, w₁, hmaterial, replacement, w₂, hreplacement, _, _, hinsert, -,
    rfl⟩ := h
  obtain ⟨rfl, hlocator, -⟩ := run_newMaterial hmaterial
  have hread := @WritesOnly.readOnly _ env _ (fun _ => attemptReplacement_writes) _ _ _ hreplacement
  have hlater := (attemptReplacement env request mode view).advances _ _ _ hreplacement
  have hdrew : w.Advances { w with drawn := w.drawn + 3 } := ⟨le_rfl, Nat.le_add_right _ _⟩
  have hhi : w.drawn < w₂.drawn := lt_of_lt_of_le (by simp only; omega) hlater.drawn
  obtain ⟨row, hinserted, hothers⟩ := insertsOne_of_insertAttempt (hdrew.trans hlater)
    ⟨w.drawn, by rw [hlocator], le_rfl, hhi⟩ (by rw [hread]) hinsert
  refine ⟨row, hinserted, fun k other hother => ?_⟩
  have hbefore := hothers k other hother
  rw [hread] at hbefore
  exact hbefore

/-- A link that begins inserts its first attempt. -/
theorem beginLink_inserts {request : LinkRequest env} {locator : StateLocator}
    (h : (beginLink env request).run w = .ok (locator, w')) : InsertsOne env w w w' := by
  simp only [beginLink, Tx.run_bind, Tx.run_require, Tx.run_ofExcept, run_now, run_newV4,
    Tx.run_pure, Tx.run_insertInto, Tables.linkIntents_put, and_assoc, exists_and_left,
    exists_eq_left', exists_eq_left, exists_const, Option.some.injEq] at h
  obtain ⟨-, made, w₁, hmaterial, loaded, w₂, hrecheck, -, target, w₃, htarget, _, -, _, w₄,
    hcandidate, facts, -, w₅, ⟨t, -, hw₅⟩, _, _, hinsert, -, rfl⟩ := h
  obtain ⟨rfl, hlocator, -⟩ := run_newMaterial hmaterial
  obtain ⟨rfl, -, -⟩ := run_provider htarget
  have hread := @WritesOnly.readOnly _ env _ (fun _ => recheck_writes) _ _ _ hrecheck
  have hread' := @WritesOnly.readOnly _ env _ (fun _ => recheckCandidate_writes) _ _ _ hcandidate
  have hlater := (recheck env request.link.actor).advances _ _ _ hrecheck
  have hlater' := (recheckCandidate env request.candidate).advances _ _ _ hcandidate
  have hclock : w.clock ≤ w₅.clock := by
    rw [hw₅]
    exact (hlater.clock.trans hlater'.clock).trans (World.Advances.tick w₄).clock
  have hdrawn : w.drawn + 3 ≤ w₅.drawn := by
    rw [hw₅]
    exact (hlater.drawn.trans hlater'.drawn).trans (Nat.le_succ _)
  have hoidc : w₅.state.oidcTransactions = w.state.oidcTransactions := by
    rw [hw₅]
    simp only [World.tick_state, hread', hread]
  have hproviders : w₅.state.providers = w.state.providers := by
    rw [hw₅]
    simp only [World.tick_state, hread', hread]
  obtain ⟨row, hinserted, hothers⟩ := insertsOne_of_insertAttempt ⟨hclock, by omega⟩
    ⟨w.drawn, by rw [hlocator], le_rfl, by omega⟩ hproviders hinsert
  refine ⟨row, hinserted, fun k other hother => ?_⟩
  rw [← hoidc]
  exact hothers k other hother

end Insert

section Reauthenticate

variable {id : Uuid} {u : Unit}

theorem run_setSourceFacts {facts : AuthenticationFacts} {sequence : ℤ}
    (h : (setSourceFacts id facts sequence).run w = .ok (u, w')) :
    ∃ t : Table LinkIntentRow, w' = { w with state := { w.state with linkIntents := t } } ∧
      ∀ k, t.find? k = (w.state.linkIntents.find? k).map fun row =>
        if row.intent = id then
          { row with sourceFacts := some facts, sourceFactsSequence := some sequence }
        else row := by
  simp only [setSourceFacts, Tx.run_bind, Tx.run_updateIn, Tx.run_pure, Tables.linkIntents_put,
    Tables.linkIntents_get, Option.some.injEq] at h
  obtain ⟨n, _, ⟨t, db, ht, rfl, -, rfl⟩, -, rfl⟩ := h
  exact ⟨t, rfl, fun k => by simpa using Table.find?_updateWhere ht (fun _ => rfl) k⟩

/-- An intent moves from its stage to the next one; it was at that stage. -/
theorem run_advance {stage : LinkStage} (h : (advance id stage).run w = .ok (u, w')) :
    ∃ next t, stage.next = some next ∧
      w' = { w with state := { w.state with linkIntents := t } } ∧
      (∃ row, w.state.linkIntents.find? id = some row ∧ row.stage = stage.code) ∧
      ∀ k, t.find? k = (w.state.linkIntents.find? k).map fun row =>
        if row.intent = id ∧ row.stage = stage.code then { row with stage := next.code }
        else row := by
  simp only [advance, Tx.run_bind, Tx.run_demand, Tx.run_updateIn, Tx.run_require,
    Tables.linkIntents_put, Tables.linkIntents_get, Option.some.injEq] at h
  obtain ⟨next, _, ⟨hnext, rfl⟩, n, _, ⟨t, db, ht, rfl, rfl, rfl⟩, hone, rfl⟩ := h
  refine ⟨next, t, hnext, rfl, ?_, fun k => by simpa using Table.find?_updateWhere ht (fun _ => rfl) k⟩
  have hpos : 0 < w.state.linkIntents.rows.countP
      fun row => decide (row.intent = id ∧ row.stage = stage.code) := Nat.lt_of_lt_of_eq Nat.one_pos hone.symm
  obtain ⟨row, hrow, hmatch⟩ := List.countP_pos_iff.mp hpos
  obtain ⟨hid, hstage⟩ := of_decide_eq_true hmatch
  exact ⟨row, Table.find?_eq_some.mpr ⟨hrow, hid⟩, hstage⟩

theorem run_consumeAttempt {locator : StateLocator}
    (h : (consumeAttempt locator).run w = .ok (u, w')) :
    w' = { w with state := { w.state with oidcTransactions :=
      w.state.oidcTransactions.deleteWhere fun row => decide (row.attempt = locator.id) } } := by
  simp only [consumeAttempt, Tx.run_bind, Tx.run_deleteFrom, Tx.run_pure,
    Tables.oidcTransactions_put, Tables.oidcTransactions_get, Option.some.injEq] at h
  obtain ⟨n, _, ⟨db, rfl, -, rfl⟩, -, rfl⟩ := h
  rfl

/-- A reauthentication was finished for a claimed attempt and the intent it belongs to. -/
structure Reauthenticated (env : Env) (held : ClaimedAttempt env) (claims : UpstreamClaims)
    (row : OidcTransactionRow) (intent : LinkIntentRow) (source : ExternalIdentityRow)
    (w w' : Tenant) : Prop where
  found : w.state.oidcTransactions.find? held.locator.id = some row
  presented : ∃ t, w.clock ≤ t ∧ t ≤ w'.clock ∧
    row.Presented env held.locator held.callback.state held.callback.browser true (seconds t)
  enabled : w.state.EnabledAt held.view.id held.view.version
  purpose : held.attempt.purpose = .reauthenticate
  named : held.attempt.link = some intent.intent
  actor : ∃ w₁ w₂ actor, w₁.state = w.state ∧ w.Advances w₁ ∧ w₂.Advances w' ∧
    (checkActor env row.attemptView held.callback.session).run w₁ = .ok (actor, w₂)
  stored : w.state.linkIntents.find? intent.intent = some intent
  waiting : intent.stage = LinkStage.reauthenticationRequired.code
  identity : intent.sourceIdentity = some source.identity ∧
    w.state.externalIdentities.find? source.identity = some source
  proves : ∃ t, w.clock ≤ t ∧ t ≤ w'.clock ∧
    ProvesSource env held claims (source.provider, source.issuer, source.subject) row.createdAt
      (seconds t)
  moved : ∀ next, w'.state.linkIntents.find? intent.intent = some next →
    next.stage = LinkStage.targetReady.code
  others : ∀ k other, k ≠ intent.intent → w'.state.linkIntents.find? k = some other →
    w.state.linkIntents.find? k = some other
  consumed : ∃ w₁ : Tenant, w₁.state.oidcTransactions = w.state.oidcTransactions.deleteWhere
    (fun row => decide (row.attempt = held.locator.id)) ∧ InsertsOne env w w₁ w'

/-- What a finished reauthentication writes before it inserts the next attempt: its intent moves on,
and its attempt is gone. -/
structure MovesOn (id : Uuid) (locator : StateLocator) (w w' : Tenant) : Prop where
  waiting : ∃ row, w.state.linkIntents.find? id = some row ∧
    row.stage = LinkStage.reauthenticationRequired.code
  moved : ∀ next, w'.state.linkIntents.find? id = some next →
    next.stage = LinkStage.targetReady.code
  others : ∀ k, k ≠ id → w'.state.linkIntents.find? k = w.state.linkIntents.find? k
  consumed : w'.state.oidcTransactions =
    w.state.oidcTransactions.deleteWhere fun row => decide (row.attempt = locator.id)
  providers : w'.state.providers = w.state.providers
  clock : w'.clock = w.clock
  drawn : w'.drawn = w.drawn

theorem movesOn {locator : StateLocator} {facts : AuthenticationFacts} {sequence : ℤ}
    {u₁ u₂ u₃ : Unit} {w₂ w₃ : Tenant} (hsequence : profileSequence.run w = .ok (sequence, w₁))
    (hfacts : (setSourceFacts id facts sequence).run w₁ = .ok (u₁, w₂))
    (hadvance : (advance id .reauthenticationRequired).run w₂ = .ok (u₂, w₃))
    (hconsume : (consumeAttempt locator).run w₃ = .ok (u₃, w')) : MovesOn id locator w w' := by
  obtain ⟨g, rfl⟩ := run_profileSequence hsequence
  obtain ⟨t, rfl, hkept⟩ := run_setSourceFacts hfacts
  obtain ⟨next, t', hnext, rfl, ⟨row, hrow, hstage⟩, hmoved⟩ := run_advance hadvance
  obtain rfl := run_consumeAttempt hconsume
  cases hnext
  refine ⟨?_, ?_, ?_, rfl, rfl, rfl, rfl⟩
  · rw [hkept, Option.map_eq_some_iff] at hrow
    obtain ⟨before, hbefore, rfl⟩ := hrow
    refine ⟨before, hbefore, ?_⟩
    split at hstage <;> exact hstage
  · intro next hafter
    rw [hmoved, hrow, Option.map_some, Option.some.injEq] at hafter
    have hid : row.intent = id := Table.key_of_find? hrow
    rw [if_pos ⟨hid, hstage⟩] at hafter
    rw [← hafter]
  · intro k hk
    simp only [hmoved, hkept, Option.map_map]
    cases hfind : w.state.linkIntents.find? k with
    | none => rfl
    | some other =>
      have hid : other.intent ≠ id := fun h => hk ((Table.key_of_find? hfind).symm.trans h)
      simp [hid]

/-- A reauthentication that is finished removes its attempt, moves its intent on, and inserts the
attempt at the target. -/
theorem run_finishReauthentication {held : ClaimedAttempt env} {claims : UpstreamClaims}
    {target : ProviderView env.parsers} {outcome : FederatedOutcome}
    (h : (finishReauthentication env held claims target).run w = .ok (outcome, w')) :
    ∃ row intent source, Reauthenticated env held claims row intent source w w' := by
  simp only [finishReauthentication, Tx.run_bind, Tx.run_require, Tx.run_demand, Tx.run_ofExcept,
    run_now, Tx.run_pure, and_assoc, exists_and_left, exists_eq_left', exists_eq_left,
    exists_const] at h
  obtain ⟨-, hpurpose, -, id, hlink, made, wm, hmaterial, ⟨attempt, _⟩, wa, hattempt, h⟩ := h
  obtain ⟨current, wp, hprovider, _, hexact, actor, w₂, hactor, found, w₃, hintent, h⟩ := h
  obtain ⟨o, horigin, fact, w₄, hcheck, source, w₅, hsource, hproves, facts, wc, hcollect, h⟩ := h
  obtain ⟨encoded, -, sequence, ws, hsequence, _, wf, hfacts, _, wv, hadvance, h⟩ := h
  obtain ⟨_, wd, hconsume, _, wi, hinsert, -, rfl⟩ := h
  have hmoves := movesOn hsequence hfacts hadvance hconsume
  obtain ⟨hwm, hlocator, -⟩ := run_newMaterial hmaterial
  obtain ⟨hwa, row, hrow, hpresented, hview, -⟩ := run_oidcAttempt hattempt
  obtain ⟨hwp, -, -, henabled⟩ := run_provider_enabled hprovider (ofFederation_eq_ok.mp hexact)
  have hchecked := @WritesOnly.readOnly _ env _ (fun _ => checkActor_writes) _ _ _ hactor
  have hlater := (checkActor env attempt held.callback.session).advances _ _ _ hactor
  obtain ⟨hw₃, -, intent, hintent, hrowOf⟩ := run_intent hintent
  obtain ⟨hw₄, -⟩ := run_checkOrigin.mp hcheck
  obtain ⟨hw₅, sourceRow, hsourceRow, hsourced⟩ := run_identity hsource
  obtain ⟨hwc, -⟩ := run_collectFacts hcollect
  obtain ⟨inserted, hinserted⟩ := run_insertAttempt hinsert
  have hsame : w₅ = w₂ := hw₅.trans (hw₄.symm.trans hw₃)
  have hstate : w₂.state = w.state := by rw [hchecked, hwp, hwa, World.tick_state, hwm]
  have hcollected : wc.state = w.state := by
    rw [hwc, hsame]
    exact hstate
  have hdrew : w.Advances wm := by
    rw [hwm]
    exact ⟨le_rfl, Nat.le_add_right _ _⟩
  have hread : w.Advances wa := by
    rw [hwa]
    exact hdrew.trans (.tick wm)
  have hactorRead : w.Advances w₂ := hread.trans (hwp ▸ hlater)
  have hproved : w.Advances w₅.tick := by
    rw [hsame]
    exact hactorRead.trans (.tick w₂)
  have hrest : w₅.tick.Advances wd := by
    refine ⟨?_, ?_⟩
    · rw [hmoves.clock, hwc]
    · rw [hmoves.drawn, hwc]
      exact Nat.le_add_right _ _
  have hdone : w₅.tick.Advances wi :=
    hrest.trans ⟨hinserted.clock, ((insertAttempt env _).advances _ _ _ hinsert).drawn⟩
  have hlow : w.drawn < wd.drawn := by
    have hdrawn := ((hwp ▸ hlater : wa.Advances w₂).trans (.tick w₂)).drawn
    have hrestDrawn := hrest.drawn
    rw [hsame] at hrestDrawn
    rw [hwa, hwm] at hdrawn
    simp only [World.tick_drawn] at hdrawn hrestDrawn
    omega
  obtain ⟨⟨waiting, hwaiting, hstage⟩, hmoved, hothers, hconsumed, hproviders, -, -⟩ := hmoves
  rw [hcollected] at hwaiting hothers hconsumed hproviders
  rw [hstate] at hintent
  obtain rfl := Option.some_injective _ (hwaiting.symm.trans hintent)
  obtain rfl : waiting.intent = id := Table.key_of_find? hwaiting
  rw [← hw₄, hw₃, hstate] at hsourceRow
  have hsourceId : sourceRow.identity = o.identity := Table.key_of_find? hsourceRow
  have hfound : w.state.oidcTransactions.find? held.locator.id = some row := by
    rw [hwm] at hrow
    exact hrow
  have hwaState : wa.state = w.state := by rw [hwa, World.tick_state, hwm]
  refine ⟨row, waiting, sourceRow, hfound, ⟨wa.clock, hread.clock, ?_, ?_⟩, ?_, hpurpose, hlink,
    ⟨wp, w₂, actor, by rw [hwp, hwaState], by rw [hwp]; exact hread, ?_, ?_⟩, hwaiting, hstage,
    ⟨?_, ?_⟩, ⟨w₅.tick.clock, hproved.clock, hdone.clock, ?_⟩, ?_, ?_, wd, hconsumed, ?_⟩
  · exact ((hwp ▸ hlater : wa.Advances w₂).clock.trans (hsame ▸ (World.Advances.tick w₂).clock)).trans
      hdone.clock
  · rw [hwa]
    exact hpresented
  · rw [← hwaState]
    exact henabled
  · rw [hsame] at hdone
    exact (World.Advances.tick w₂).trans hdone
  · rw [← hview]
    exact hactor
  · rw [hrowOf.sourceIdentity, horigin, hsourceId]
    rfl
  · rw [hsourceId]
    exact hsourceRow
  · simp only at hview
    rw [hsourced, hview] at hproves
    exact hproves
  · exact fun next hnext => hmoved next (hinserted.intents _ _ hnext)
  · intro k other hk hother
    rw [← hothers k hk]
    exact hinserted.intents k other hother
  · exact insertsOne_of_insertAttempt (hproved.trans hrest)
      ⟨w.drawn, by rw [hlocator], le_rfl, hlow⟩ hproviders hinsert

end Reauthenticate

section Claim

variable {callback : Callback}

/-- What the two halves of a completion, and a cancellation, read first. -/
theorem run_checks {locator : StateLocator} {claimed : Bool} {w₂ : Tenant}
    {found : OidcAttempt × Option (Secret × Secret)} {view : ProviderView env.parsers} {u : Unit}
    (hattempt : (oidcAttempt env locator callback.state callback.browser claimed).run w =
      .ok (found, w₁))
    (hprovider : (provider env found.1.provider).run w₁ = .ok (view, w₂))
    (hexact : ofFederation (exact view found.1.version) = .ok u) (hlater : w₂.Advances w') :
    w₂ = w.tick ∧ ∃ row : OidcTransactionRow, row.Passes env locator callback claimed w w' ∧
      found.1 = row.attemptView ∧ view.id = row.provider ∧ view.version = row.configVersion ∧
      (claimed = false → row.nonce = found.2.map Prod.fst ∧ row.verifier = found.2.map Prod.snd) := by
  obtain ⟨hw₁, row, hrow, hpresented, hview, hsecrets⟩ := run_oidcAttempt hattempt
  obtain ⟨hw₂, hid, hversion, henabled⟩ :=
    run_provider_enabled hprovider (ofFederation_eq_ok.mp hexact)
  rw [hview] at hid hversion henabled
  rw [hw₁] at henabled hw₂
  rw [hw₂] at hlater
  refine ⟨hw₂, row, ⟨hrow, ⟨w.tick.clock, (World.Advances.tick w).clock, hlater.clock, hpresented⟩,
    henabled⟩, hview, hid, hversion, fun hclaimed => ?_⟩
  obtain ⟨nonce, verifier, hnonce, hverifier, hheld⟩ := hsecrets hclaimed
  rw [hheld]
  exact ⟨hnonce, hverifier⟩

/-- An attempt was claimed by a call: its checks passed, the secrets of the row were handed over, and
the row is without them. -/
structure ClaimedAttempt.TakenFrom (held : ClaimedAttempt env) (row : OidcTransactionRow)
    (w w' : Tenant) : Prop where
  passes : row.Passes env held.locator held.callback false w w'
  verified : env.signer.verify held.callback.state = some held.locator
  attempt : held.attempt = row.attemptView
  provider : held.view.id = row.provider ∧ held.view.version = row.configVersion
  state : held.material.state = held.callback.state
  nonce : row.nonce = some held.material.nonce
  verifier : row.verifier = some held.material.verifier
  taken : w'.state.oidcTransactions.find? held.locator.id = some row.taken
  others : ∀ k, k ≠ held.locator.id →
    w'.state.oidcTransactions.find? k = w.state.oidcTransactions.find? k

theorem run_claimAttempt {held : ClaimedAttempt env}
    (h : (claimAttempt env callback).run w = .ok (held, w')) :
    held.callback = callback ∧ ∃ row, held.TakenFrom row w w' := by
  simp only [claimAttempt, Tx.run_bind, Tx.run_require, Tx.run_demand, Tx.run_ofExcept, Tx.run_pure,
    Tx.run_updateIn, Tables.oidcTransactions_put, Tables.oidcTransactions_get, and_assoc,
    exists_and_left, exists_eq_left', exists_const, Option.some.injEq] at h
  obtain ⟨-, locator, hverify, ⟨attempt, secrets⟩, wa, hattempt, view, wp, hprovider, _, hexact, -,
    actor, w₁, hactor, _, w₂, hstepUp, ⟨nonce, verifier⟩, hsecrets, _, w₃, ⟨t, ht, -, hw₃⟩, rfl,
    rfl⟩ := h
  have hchecked := @WritesOnly.readOnly _ env _ (fun _ => checkActor_writes) _ _ _ hactor
  have hrechecked := @WritesOnly.readOnly _ env _ (fun _ => recheckStepUp_writes) _ _ _ hstepUp
  have hlater : wp.Advances w₃ := by
    have hactorRead := (checkActor env attempt callback.session).advances _ _ _ hactor
    have hstepUpRead := (recheckStepUp env attempt actor view).advances _ _ _ hstepUp
    rw [hw₃]
    exact (hactorRead.trans hstepUpRead).trans ⟨le_rfl, le_rfl⟩
  obtain ⟨hwp, row, hpasses, hview, hid, hversion, hheld⟩ :=
    run_checks hattempt hprovider hexact hlater
  obtain ⟨hnonce, hverifier⟩ := hheld rfl
  simp only at hsecrets hview hnonce hverifier
  rw [hsecrets] at hnonce hverifier
  have hstate : w₂.state = w.state := by rw [hrechecked, hchecked, hwp, World.tick_state]
  rw [hstate] at ht
  have hkey : row.attempt = locator.id := Table.key_of_find? hpasses.found
  refine ⟨rfl, row, hpasses, hverify, hview, ⟨hid, hversion⟩, rfl, hnonce, hverifier, ?_, ?_⟩
  · rw [hw₃]
    simp only [Table.find?_updateWhere ht fun _ => rfl, hpasses.found, Option.map_some, hkey,
      decide_true, if_true, OidcTransactionRow.taken]
  · intro k hk
    rw [hw₃]
    simp only [Table.find?_updateWhere ht fun _ => rfl]
    cases hfind : w.state.oidcTransactions.find? k with
    | none => rfl
    | some other =>
      have hother : other.attempt ≠ locator.id := fun h => hk ((Table.key_of_find? hfind).symm.trans h)
      simp [hother]

/-- An attempt was ended by a call: its checks passed, and its row is gone. -/
structure OidcTransactionRow.EndedBy (row : OidcTransactionRow) (env : Env) (locator : StateLocator)
    (callback : Callback) (claimed : Bool) (w w' : Tenant) : Prop where
  passes : row.Passes env locator callback claimed w w'
  ended : w'.state.oidcTransactions =
    w.state.oidcTransactions.deleteWhere fun row => decide (row.attempt = locator.id)

theorem run_cancelAttempt {u : Unit} (h : (cancelAttempt env callback).run w = .ok (u, w')) :
    ∃ (locator : StateLocator) (row : OidcTransactionRow),
      env.signer.verify callback.state = some locator ∧
      row.EndedBy env locator callback false w w' := by
  simp only [cancelAttempt, Tx.run_bind, Tx.run_require, Tx.run_demand, Tx.run_ofExcept, and_assoc,
    exists_and_left, exists_eq_left', exists_const] at h
  obtain ⟨-, locator, hverify, ⟨attempt, secrets⟩, wa, hattempt, view, wp, hprovider, _, hexact, -,
    actor, w₁, hactor, hconsume⟩ := h
  have hchecked := @WritesOnly.readOnly _ env _ (fun _ => checkActor_writes) _ _ _ hactor
  have hconsumed := run_consumeAttempt hconsume
  have hlater : wp.Advances w' := by
    have hactorRead := (checkActor env attempt callback.session).advances _ _ _ hactor
    rw [hconsumed]
    exact hactorRead.trans ⟨le_rfl, le_rfl⟩
  obtain ⟨hwp, row, hpasses, -⟩ := run_checks hattempt hprovider hexact hlater
  refine ⟨locator, row, hverify, hpasses, ?_⟩
  rw [hconsumed]
  simp only [hchecked, hwp, World.tick_state]

end Claim

section Commit

variable {α β : Type} {m : Action α} {f : α → Action β} {locator : StateLocator}

/-- A transaction leaves the attempts that are stored as they are. -/
def LeavesAttempts (m : Action α) : Prop :=
  ∀ w a w', m.run w = .ok (a, w') → w'.state.oidcTransactions = w.state.oidcTransactions

/-- A transaction removes one attempt, and leaves all others as they are. -/
def RemovesAttempt (locator : StateLocator) (m : Action α) : Prop :=
  ∀ w a w', m.run w = .ok (a, w') → w'.state.oidcTransactions =
    w.state.oidcTransactions.deleteWhere fun row => decide (row.attempt = locator.id)

theorem LeavesAttempts.of_writes (env : Env) (areas : List Area) (hareas : .oidc ∉ areas)
    (hm : ∀ w, WritesOnly env areas w w m) : LeavesAttempts m := fun w a w' h =>
  (hm w w a w' (.refl w) h).frame Db.oidcTransactions fun _ _ _ ha heffect =>
    heffect.oidcTransactions_eq fun heq => hareas (heq ▸ ha)

theorem LeavesAttempts.of_readOnly (env : Env) (hm : ∀ w, WritesOnly env [] w w m) :
    LeavesAttempts m := .of_writes env [] (by simp) hm

theorem LeavesAttempts.bind (hm : LeavesAttempts m) (hf : ∀ a, LeavesAttempts (f a)) :
    LeavesAttempts (m >>= f) := fun w b w' h => by
  obtain ⟨a, w₁, h₁, h₂⟩ := Tx.run_bind.mp h
  exact (hf a _ _ _ h₂).trans (hm _ _ _ h₁)

theorem RemovesAttempt.bind (hm : LeavesAttempts m) (hf : ∀ a, RemovesAttempt locator (f a)) :
    RemovesAttempt locator (m >>= f) := fun w b w' h => by
  obtain ⟨a, w₁, h₁, h₂⟩ := Tx.run_bind.mp h
  rw [hf a _ _ _ h₂, hm _ _ _ h₁]

/-- A transaction that ends by consuming an attempt. -/
theorem RemovesAttempt.consume {b : β} :
    RemovesAttempt locator (consumeAttempt locator >>= fun _ => pure b) := fun w _ w' h => by
  obtain ⟨_, w₁, h₁, h₂⟩ := Tx.run_bind.mp h
  obtain ⟨-, rfl⟩ := Tx.run_pure.mp h₂
  rw [run_consumeAttempt h₁]

theorem leaves_demand {o : Option α} {e : Failure} : LeavesAttempts (Tx.demand o e) :=
  .of_readOnly .transparent fun _ => .demand

theorem leaves_require {c : Prop} [Decidable c] {e : Failure} : LeavesAttempts (Tx.require c e) :=
  .of_readOnly .transparent fun _ => .require

theorem leaves_ofExcept {r : Except Failure α} : LeavesAttempts (Tx.ofExcept r) :=
  .of_readOnly .transparent fun _ => .ofExcept

theorem leaves_requireUnexpired {attempt : OidcAttempt} : LeavesAttempts (requireUnexpired attempt) :=
  .of_readOnly .transparent fun _ => requireUnexpired_writes

theorem leaves_insertSession {state : AccountState} {replaced : Option SessionId}
    {authentication : SessionAuthentication} {instant : ℤ} {kind : CredentialKind} :
    LeavesAttempts (insertSession env state replaced authentication instant kind) := by
  refine .bind leaves_ofExcept fun columns => .bind (.of_readOnly env fun _ => .randomSecret) fun secret =>
    .bind leaves_demand fun lifetime => .bind ?_ fun _ => .bind (.of_readOnly env fun _ => .newV4) fun id =>
      .bind leaves_ofExcept fun facts => ?_
  · exact .of_writes env [.sessions] (by decide) fun _ => closeReplaced_writes (by decide)
  · intro w a w' h
    simp only [Tx.run_bind, Tx.run_insertInto, Tx.run_pure, Tables.sessions_put,
      advanceRevision_eq_some] at h
    obtain ⟨_, _, ⟨t, _, -, ⟨-, rfl⟩, rfl⟩, -, rfl⟩ := h
    rfl

theorem leaves_setAuthEpoch {state : AccountState} : LeavesAttempts (setAuthEpoch state) := by
  intro w a w' h
  simp only [setAuthEpoch, Tx.run_bind, Tx.run_updateIn, Tx.run_pure, Tables.accounts_put,
    advanceRevision_eq_some] at h
  obtain ⟨n, _, ⟨t, _, -, ⟨-, rfl⟩, -, rfl⟩, -, rfl⟩ := h
  rfl

theorem leaves_advance {id : Uuid} {stage : LinkStage} : LeavesAttempts (advance id stage) := by
  intro w a w' h
  obtain ⟨next, t, -, rfl, -⟩ := run_advance h
  rfl

theorem leaves_checkIntentOrigin {key : AccountKey} {o : Option Origin} :
    LeavesAttempts (checkIntentOrigin env key o) := by
  intro w a w' h
  rw [(run_checkIntentOrigin h).1]

variable {committing : CommittingAttempt env} {claims : UpstreamClaims}

theorem commitStepUp_removes : RemovesAttempt committing.locator (commitStepUp env committing claims) :=
  .bind leaves_demand fun _ => .bind leaves_require fun _ => .bind leaves_demand fun _ =>
    .bind leaves_demand fun _ =>
      .bind (.of_writes env [.grants] (by decide) fun w => issueGrant_writes (by decide) (.refl w)) fun _ =>
        .bind leaves_requireUnexpired fun _ => .consume

theorem commitLink_removes : RemovesAttempt committing.locator (commitLink env committing) :=
  .bind leaves_demand fun _ => .bind (.of_readOnly env fun _ => intent_writes) fun _ =>
    .bind leaves_require fun _ => .bind leaves_ofExcept fun _ => .bind leaves_setAuthEpoch fun _ =>
      .bind leaves_advance fun _ => .bind leaves_checkIntentOrigin fun _ =>
        .bind leaves_ofExcept fun _ => .bind leaves_insertSession fun _ =>
          .bind (.of_writes env [.bindings] (by decide) fun _ => retainBinding_writes (by decide)) fun _ =>
            .bind leaves_requireUnexpired fun _ => .consume

theorem commitLogin_removes : RemovesAttempt committing.locator (commitLogin env committing claims) :=
  .bind leaves_require fun _ =>
    .bind (.of_writes env [.sequence] (by decide) fun _ => profileSequence_writes (by decide)) fun _ =>
      .bind (.of_readOnly env fun _ => collectFacts_writes) fun _ => .bind leaves_insertSession fun _ =>
        .bind leaves_requireUnexpired fun _ =>
          .bind (.of_writes env [.bindings, .profiles] (by decide)
            fun w => accept_writes (by decide) (by decide) (.refl w)) fun _ => .consume

/-- A commit removes its attempt, which passed the checks again. -/
theorem run_commitAttempt_ended {held : ClaimedAttempt env} {outcome : FederatedOutcome}
    (h : (commitAttempt env held claims).run w = .ok (outcome, w')) :
    ∃ row : OidcTransactionRow, row.EndedBy env held.locator held.callback true w w' := by
  obtain ⟨-, committing, w₁, hprepare, hprepared, hof, h⟩ := run_commitAttempt_ways h
  have hsame : w₁.state.oidcTransactions = w.state.oidcTransactions :=
    hprepared.frame Db.oidcTransactions fun _ _ _ ha heffect =>
      heffect.oidcTransactions_eq (by rintro rfl; simp at ha)
  obtain ⟨row, hrow, hpresented, hview⟩ := hof.attempt
  obtain ⟨hcommitted, hended⟩ : w₁.Advances w' ∧ w'.state.oidcTransactions =
      w₁.state.oidcTransactions.deleteWhere
        fun row => decide (row.attempt = committing.locator.id) := by
    rcases h with ⟨-, h⟩ | ⟨-, ⟨-, h⟩ | ⟨-, h⟩⟩
    · exact ⟨Tx.advances _ _ _ _ h, commitStepUp_removes _ _ _ h⟩
    · exact ⟨Tx.advances _ _ _ _ h, commitLink_removes _ _ _ h⟩
    · exact ⟨Tx.advances _ _ _ _ h, commitLogin_removes _ _ _ h⟩
  have hread : w.tick.Advances w₁ := by
    obtain ⟨found, w₀, hattempt, hrest⟩ := Tx.run_bind.mp hprepare
    obtain ⟨rfl, -⟩ := run_oidcAttempt hattempt
    exact Tx.advances _ _ _ _ hrest
  refine ⟨row, ⟨hrow, ⟨w.tick.clock, (World.Advances.tick w).clock, ?_, hpresented⟩,
    committing.view.row, ?_, hof.enabled, ?_⟩, ?_⟩
  · exact hread.clock.trans hcommitted.clock
  · have hid := hof.provider
    rw [hview] at hid
    rw [show row.provider = committing.view.id from hid.symm]
    exact hof.configured
  · have hversion := hof.version
    rw [hview] at hversion
    exact hversion
  · rw [hended, hsame, hof.locator]

end Commit

end IdentityAuthority
