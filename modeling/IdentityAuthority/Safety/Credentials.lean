import IdentityAuthority.Safety.SessionDeath

/-!
# Credential rotation

A session carries the digest of one secret at a time, and every digest is that of a secret drawn
for it. A digest that was drawn before a transaction is not written by it, so whatever holds of all
the sessions under such a digest keeps holding.
-/

namespace IdentityAuthority

open Relational Transition

/-- Every session carries the digest of a secret that was drawn. -/
def CredentialsDrawn (env : Env) (w : Tenant) : Prop :=
  ∀ row ∈ w.state.sessions, ∃ i, row.tokenHash = secretHash env i ∧ i < w.drawn

/-- Whatever session carries the digest of a drawn secret satisfies a condition. -/
def DigestBelongs (env : Env) (i : ℕ) (P : SessionId → Prop) (w : Tenant) : Prop :=
  ∀ row ∈ w.state.sessions, row.tokenHash = secretHash env i → P row.session

variable {env : Env} {areas : List Area} {start w w' : Tenant} {a : Area} {db : Db}
  {row : SessionRow} {i : ℕ} {P : SessionId → Prop}

section Digests

theorem secretHash_injective (env : Env) : Function.Injective (secretHash env) := by
  intro i j h
  have hsecret := env.sha256.secret_injective h
  exact env.entropy.injective (by simpa using hsecret)

theorem Effect.credentialsDrawn (h : Effect env start w a db) (hinv : CredentialsDrawn env w) :
    CredentialsDrawn env { w with state := db } := by
  by_cases ha : a = .sessions
  · subst ha
    intro row hrow
    cases h with
    | sessionInserted hissued ht =>
      rcases (Table.mem_insert ht).mp hrow with rfl | hrow
      · obtain ⟨i, hi, hdrawn⟩ := hissued.fresh
        exact ⟨i, hi, hdrawn.2⟩
      · exact hinv row hrow
    | sessionsClosed ht =>
      obtain ⟨old, hold, rfl | ⟨t, rfl⟩⟩ := ht.exists_before hrow
      · exact hinv _ hold
      · exact hinv old hold
    | sessionsRenewed ht =>
      obtain ⟨old, hold, rfl | hrenews⟩ := ht.exists_before hrow
      · exact hinv _ hold
      · by_cases hkept : row.tokenHash = old.tokenHash
        · rw [hkept]
          exact hinv old hold
        · obtain ⟨i, hi, hdrawn⟩ := hrenews.rotated hkept
          exact ⟨i, hi, hdrawn.2⟩
  · intro row hrow
    by_cases hb : a = .bindings
    · subst hb
      cases h with
      | sessionsBound ht =>
        obtain ⟨old, hold, rfl | hbinds⟩ := ht.exists_before hrow
        · exact hinv _ hold
        · rw [hbinds]
          exact hinv old hold
    · have hsessions : db.sessions = w.state.sessions := h.sessions_eq ha hb
      exact hinv row (by rw [← hsessions]; exact hrow)

/-- A statement gives no session a digest that was drawn before its transaction. -/
theorem Effect.digestBelongs (h : Effect env start w a db) (hi : i < start.drawn)
    (hbelongs : DigestBelongs env i P w) : DigestBelongs env i P { w with state := db } := by
  have hfresh : ∀ {digest : Digest}, digest = secretHash env i →
      ¬ ∃ j, digest = secretHash env j ∧ DrawnIn start w j := by
    rintro digest rfl ⟨j, hj, hdrawn⟩
    have hsame := secretHash_injective env hj
    have hlo := hdrawn.1
    omega
  by_cases ha : a = .sessions
  · subst ha
    intro row hrow hdigest
    cases h with
    | sessionInserted hissued ht =>
      rcases (Table.mem_insert ht).mp hrow with rfl | hrow
      · exact absurd hissued.fresh (hfresh hdigest)
      · exact hbelongs row hrow hdigest
    | sessionsClosed ht =>
      obtain ⟨old, hold, rfl | ⟨t, rfl⟩⟩ := ht.exists_before hrow
      · exact hbelongs _ hold hdigest
      · exact hbelongs old hold hdigest
    | sessionsRenewed ht =>
      obtain ⟨old, hold, rfl | hrenews⟩ := ht.exists_before hrow
      · exact hbelongs _ hold hdigest
      · by_cases hkept : row.tokenHash = old.tokenHash
        · rw [hrenews.session]
          exact hbelongs old hold (by rw [← hkept]; exact hdigest)
        · exact absurd (hrenews.rotated hkept) (hfresh hdigest)
  · intro row hrow hdigest
    by_cases hb : a = .bindings
    · subst hb
      cases h with
      | sessionsBound ht =>
        obtain ⟨old, hold, rfl | hbinds⟩ := ht.exists_before hrow
        · exact hbelongs _ hold hdigest
        · rw [hbinds] at hdigest ⊢
          exact hbelongs old hold hdigest
    · have hsessions : db.sessions = w.state.sessions := h.sessions_eq ha hb
      exact hbelongs row (by rw [← hsessions]; exact hrow) hdigest

theorem DigestBelongs.of_sessions (h : DigestBelongs env i P w)
    (hsessions : w'.state.sessions = w.state.sessions) : DigestBelongs env i P w' := by
  intro row hrow hdigest
  rw [hsessions] at hrow
  exact h row hrow hdigest

theorem Effects.digestBelongs (h : Effects env areas start w w') (hi : i < start.drawn)
    (hbelongs : DigestBelongs env i P w) : DigestBelongs env i P w' := by
  induction h with
  | refl => exact hbelongs
  | tail _ hmove ih =>
    rcases hmove with ⟨hstate, -⟩ | ⟨-, heffect⟩
    · exact ih.of_sessions (by rw [hstate])
    · exact heffect.digestBelongs hi ih

theorem Effects.credentialsDrawn (h : Effects env areas start w w') (hinv : CredentialsDrawn env w) :
    CredentialsDrawn env w' := by
  induction h with
  | refl => exact hinv
  | tail _ hmove ih =>
    rcases hmove with ⟨hstate, hadvances⟩ | ⟨-, heffect⟩
    · intro row hrow
      rw [hstate] at hrow
      obtain ⟨i, hi, hdrawn⟩ := ih row hrow
      exact ⟨i, hi, hdrawn.trans_le hadvances.drawn⟩
    · exact heffect.credentialsDrawn ih

end Digests

/-- A drawn secret belongs to one session, of one kind, for good. -/
structure Carries (env : Env) (i : ℕ) (sid : SessionId) (kind : CredentialKind) (w : Tenant) :
    Prop where
  drawn : i < w.drawn
  belongs : DigestBelongs env i (· = sid) w
  kind : ∃ row, w.state.sessions.find? sid = some row ∧ row.credentialKind = kind

/-- A session was refused in an earlier world. -/
def SessionEnded (env : Env) (sid : SessionId) (w : Tenant) : Prop :=
  ∃ (w₀ : Tenant) (row : SessionRow), Follows w₀ w ∧ row ∈ w₀.state.sessions ∧
    row.session = sid ∧ row.Anchored env w₀ ∧ row.Refused env w₀

/-- A drawn secret is at an end: a session that carries it still was refused. -/
structure SecretEnded (env : Env) (i : ℕ) (w : Tenant) : Prop where
  drawn : i < w.drawn
  belongs : DigestBelongs env i (SessionEnded env · w) w

theorem SessionEnded.mono {sid : SessionId} (h : SessionEnded env sid w) (hfollows : Follows w w') :
    SessionEnded env sid w' := by
  obtain ⟨w₀, row, h₀, hrow⟩ := h
  exact ⟨w₀, row, h₀.trans hfollows, hrow⟩

theorem DigestBelongs.mono {Q : SessionId → Prop} (h : DigestBelongs env i P w)
    (hPQ : ∀ sid, P sid → Q sid) : DigestBelongs env i Q w :=
  fun row hrow hdigest => hPQ _ (h row hrow hdigest)

/-- What a transaction does later leaves a secret with its session. -/
theorem Carries.effects {sid : SessionId} {kind : CredentialKind} (h : Carries env i sid kind start)
    (heffects : Effects env areas start start w') : Carries env i sid kind w' := by
  obtain ⟨row, hrow, hkind⟩ := h.kind
  obtain ⟨next, hnext, hcontinues⟩ := heffects.follows.sessions _ _ hrow
  refine ⟨h.drawn.trans_le heffects.advances.drawn, heffects.digestBelongs h.drawn h.belongs, next,
    hnext, ?_⟩
  rw [hcontinues.fixed]
  exact hkind

/-- What a transaction does leaves a secret at its end. -/
theorem SecretEnded.effects (h : SecretEnded env i start)
    (heffects : Effects env areas start start w') : SecretEnded env i w' :=
  ⟨h.drawn.trans_le heffects.advances.drawn,
    (heffects.digestBelongs h.drawn h.belongs).mono fun _ hended => hended.mono heffects.follows⟩

/-- No session is loaded that carries a secret at its end. -/
theorem SecretEnded.not_loaded {loaded : Loaded} (h : SecretEnded env i w)
    (hof : loaded.Of env w row) : row.tokenHash ≠ secretHash env i := by
  intro hdigest
  have hrow : row ∈ w.state.sessions := Table.mem_of_find? hof.found
  have hview : row.session = loaded.view.id := Table.key_of_find? hof.found
  obtain ⟨w₀, row₀, hfollows, hrow₀, hid, hanchored, hrefused⟩ := h.belongs row hrow hdigest
  exact (hanchored.alive hrow₀ hfollows hof (hview.symm.trans hid.symm)).not_refused hrefused

/-- A secret at its end is not accepted. -/
theorem SecretEnded.rejected {kind : CredentialKind} {checks : Option PlatformVerifier}
    {loaded : Loaded} (h : SecretEnded env i w) :
    (lookup env (secretHash env i) kind checks).run w ≠ .ok (loaded, w') := by
  intro haccepted
  obtain ⟨-, row, hof, hdigest, -⟩ := run_lookup haccepted
  exact h.not_loaded hof hdigest

/-- A secret of a session is accepted for that session alone, as what it was issued as. -/
theorem Carries.accepted {sid : SessionId} {kind kind' : CredentialKind}
    {checks : Option PlatformVerifier} {loaded : Loaded} (h : Carries env i sid kind w)
    (haccepted : (lookup env (secretHash env i) kind' checks).run w = .ok (loaded, w')) :
    loaded.view.id = sid ∧ kind' = kind := by
  obtain ⟨-, row, hof, hdigest, hkind⟩ := run_lookup haccepted
  have hrow : row ∈ w.state.sessions := Table.mem_of_find? hof.found
  have hview : row.session = loaded.view.id := Table.key_of_find? hof.found
  have hsid : row.session = sid := h.belongs row hrow hdigest
  obtain ⟨row', hrow', hkind'⟩ := h.kind
  have hfound := hof.found
  rw [← hview, hsid, hrow'] at hfound
  obtain rfl := Option.some_injective _ hfound
  exact ⟨hview.symm.trans hsid, hkind.symm.trans hkind'⟩

section Issue

/-- Revoking a session leaves it revoked. -/
theorem run_close {id : SessionId} {instant : ℤ} {u : Unit}
    (h : (close id instant).run w = .ok (u, w')) :
    w'.drawn = w.drawn ∧ ∀ row ∈ w'.state.sessions, row.session = id →
      row.revokedAt.isSome = true := by
  simp only [close, Tx.run_bind, Tx.run_updateIn, Tx.run_pure, Tables.sessions_get,
    Tables.sessions_put, advanceRevision_eq_some] at h
  obtain ⟨n, _, ⟨t, db, ht, ⟨-, rfl⟩, -, rfl⟩, -, rfl⟩ := h
  refine ⟨rfl, fun row hrow hid => ?_⟩
  obtain ⟨old, -, rfl⟩ := (Table.mem_updateWhere ht).mp hrow
  by_cases hold : old.session = id
  · simp [hold]
  · simp [hold] at hid

/-- A session is inserted with the next secret drawn, in place of a session that is revoked. -/
theorem run_insertSession {state : AccountState} {replaced : Option SessionId}
    {authentication : SessionAuthentication} {instant : ℤ} {kind : CredentialKind}
    {issued : IssuedSession} (hdrawn : CredentialsDrawn env w)
    (h : (insertSession env state replaced authentication instant kind).run w = .ok (issued, w')) :
    env.sha256.secret issued.secret = secretHash env w.drawn ∧
      issued.view.credentialKind = kind ∧ Carries env w.drawn issued.view.id kind w' ∧
      ∀ id ∈ replaced, (w.state.sessions.find? id).isSome = true →
        ∀ row ∈ w'.state.sessions, row.session = id → row.revokedAt.isSome = true := by
  simp only [insertSession, Tx.run_bind, Tx.run_ofExcept, run_randomSecret, Tx.run_demand] at h
  obtain ⟨columns, _, ⟨-, rfl⟩, _, _, ⟨rfl, rfl⟩, lifetime, _, ⟨-, rfl⟩, _, w₂, hclose, id, w₃, hid, facts, _,
    ⟨-, rfl⟩, _, w₄, hinsert, hpure⟩ := h
  obtain ⟨rfl, rfl⟩ := Tx.run_pure.mp hpure
  obtain ⟨-, rfl⟩ := run_newV4.mp hid
  obtain ⟨t, db, ht, hdb, rfl⟩ := Tx.run_insertInto.mp hinsert
  obtain ⟨-, rfl⟩ := advanceRevision_eq_some.mp hdb
  have hclosed : Effects env [.sessions] { w with drawn := w.drawn + 1 }
      { w with drawn := w.drawn + 1 } w₂ := closeReplaced_writes (by decide) _ _ _ (.refl _) hclose
  -- The secret is drawn before the old session is revoked, and no session carries it by then.
  have hfree : DigestBelongs env w.drawn (fun _ => False) { w with drawn := w.drawn + 1 } := by
    intro row hrow hdigest
    obtain ⟨i, hi, hlt⟩ := hdrawn row hrow
    have hsame := secretHash_injective env (hi.symm.trans hdigest)
    omega
  have hfree' := hclosed.digestBelongs (Nat.lt_succ_self _) hfree
  have hadvanced := hclosed.advances.drawn
  simp only at hadvanced
  refine ⟨rfl, rfl, ⟨?_, ?_, ?_⟩, ?_⟩
  · simp only
    omega
  · intro row hrow hdigest
    rcases (Table.mem_insert ht).mp hrow with rfl | hrow
    · rfl
    · exact (hfree' row hrow hdigest).elim
  · exact ⟨_, Table.find?_of_mem ((Table.mem_insert ht).mpr (.inl rfl)), rfl⟩
  · rintro old hold hexists row hrow hid
    cases hold
    obtain ⟨found, hfound⟩ := Option.isSome_iff_exists.mp hexists
    obtain ⟨kept, hkept, -⟩ := hclosed.follows.sessions _ _ hfound
    rcases (Table.mem_insert ht).mp hrow with rfl | hrow
    · have hnone := Table.find?_key_of_insert ht
      rw [← hid] at hkept
      exact absurd (hkept.symm.trans hnone) (by simp)
    · exact (run_close hclose).2 row hrow hid

end Issue

section End

/-- A session that is revoked is at its end. -/
theorem sessionEnded_of_revoked (hrow : row ∈ w.state.sessions) (hanchored : SessionsAnchored env w)
    (heffects : Effects env areas start w w')
    (hrevoked : ∀ next ∈ w'.state.sessions, next.session = row.session →
      next.revokedAt.isSome = true) : SessionEnded env row.session w' := by
  obtain ⟨next, hnext, -⟩ := heffects.follows.sessions _ _ (Table.find?_of_mem hrow)
  have hmem : next ∈ w'.state.sessions := Table.mem_of_find? hnext
  have hsession : next.session = row.session := Table.key_of_find? hnext
  exact ⟨w', next, .refl w', hmem, hsession, heffects.sessionsAnchored hanchored next hmem,
    .revoked (hrevoked next hmem hsession)⟩

/-- Once the epoch of an account is burnt, its sessions are at their end. -/
theorem sessionEnded_of_burnt {state next : AccountState} (hrow : row ∈ w.state.sessions)
    (hanchored : SessionsAnchored env w) (heffects : Effects env areas start w w')
    (hholds : w.state.Holds state) (hprincipal : row.principal = state.key)
    (hnext : w'.state.Holds next) (hkey : next.key = state.key) (hburnt : state.epoch < next.epoch) :
    SessionEnded env row.session w' := by
  obtain ⟨row', hrow', hcontinues⟩ := heffects.follows.sessions _ _ (Table.find?_of_mem hrow)
  have hmem : row' ∈ w'.state.sessions := Table.mem_of_find? hrow'
  obtain ⟨hprincipal', hauth, -⟩ := hcontinues.epochs
  have hle := (hanchored row hrow).authEpoch_le hrow (by rw [hprincipal]; exact hholds.account)
  refine ⟨w', row', .refl w', hmem, Table.key_of_find? hrow', heffects.sessionsAnchored hanchored row' hmem,
    .authEpoch hnext (by rw [hkey, hprincipal', hprincipal]) ?_⟩
  simp only at hle
  omega

/-- The secret of a session that is at its end is at its end. -/
theorem secretEnded_of_session (hdrawn : CredentialsDrawn env w) (hrow : row ∈ w.state.sessions)
    (heffects : Effects env areas w w w') (hended : SessionEnded env row.session w') :
    ∃ i, row.tokenHash = secretHash env i ∧ SecretEnded env i w' := by
  obtain ⟨i, hi, hlt⟩ := hdrawn row hrow
  have hbelongs : DigestBelongs env i (· = row.session) w := by
    intro row' hrow' hdigest
    rw [Table.eq_of_collide hrow' hrow (hdigest.trans hi.symm)]
  refine ⟨i, hi, hlt.trans_le heffects.advances.drawn, ?_⟩
  refine (heffects.digestBelongs hlt hbelongs).mono ?_
  rintro _ rfl
  exact hended

end End

/-- What a transaction that issues a session says of its secret. -/
def IssuedSession.Carried (env : Env) (issued : IssuedSession) (w : Tenant) : Prop :=
  ∃ i, env.sha256.secret issued.secret = secretHash env i ∧
    Carries env i issued.view.id issued.view.credentialKind w

/-- A digest is that of a secret at its end. -/
def DigestEnded (env : Env) (digest : Digest) (w : Tenant) : Prop :=
  ∃ i, digest = secretHash env i ∧ SecretEnded env i w

section Operations

variable {issued : IssuedSession}

theorem IssuedSession.Carried.effects (h : issued.Carried env start)
    (heffects : Effects env areas start start w') : issued.Carried env w' := by
  obtain ⟨i, hi, hcarries⟩ := h
  exact ⟨i, hi, hcarries.effects heffects⟩

theorem DigestEnded.effects {digest : Digest} (h : DigestEnded env digest start)
    (heffects : Effects env areas start start w') : DigestEnded env digest w' := by
  obtain ⟨i, hi, hended⟩ := h
  exact ⟨i, hi, hended.effects heffects⟩

/-- A transaction that issues a session issues its secret, and ends the session it replaces. -/
theorem Issues.credentials {replaced : Option SessionId} {kind : CredentialKind}
    (hdrawn : CredentialsDrawn env w) (hanchored : SessionsAnchored env w)
    (h : Issues env areas w w w' replaced kind issued) :
    issued.Carried env w' ∧ ∀ row ∈ w.state.sessions, replaced = some row.session →
      SessionEnded env row.session w' := by
  obtain ⟨hbefore, hinsert, hinserted, hafter⟩ := h
  rename_i w₁ w₂ _ _ _
  have hrest : Effects env areas w₂ w₂ w' := hafter w₂ (.refl w₂)
  obtain ⟨hsecret, hkind, hcarries, hclosed⟩ :=
    run_insertSession (hbefore.credentialsDrawn hdrawn) hinsert
  constructor
  · rw [← hkind] at hcarries
    exact ⟨_, hsecret, hcarries.effects hrest⟩
  · intro row hrow hreplaced
    obtain ⟨kept, hkept, -⟩ := hbefore.follows.sessions _ _ (Table.find?_of_mem hrow)
    refine (sessionEnded_of_revoked hrow hanchored (hbefore.trans hinserted) ?_).mono hrest.follows
    exact hclosed row.session hreplaced (Option.isSome_iff_exists.mpr ⟨kept, hkept⟩)

/-- A session that was loaded by its digest is ended with its digest. -/
theorem DigestEnded.of_loaded {loaded : Loaded} {row : SessionRow} {w₁ : Tenant}
    (hdrawn : CredentialsDrawn env w) (heffects : Effects env areas w w w')
    (hof : loaded.Of env w₁ row) (hsessions : w₁.state.sessions = w.state.sessions)
    (hended : row ∈ w.state.sessions → row.session = loaded.view.id →
      SessionEnded env row.session w') : DigestEnded env row.tokenHash w' := by
  have hfound := hof.found
  rw [hsessions] at hfound
  have hrow : row ∈ w.state.sessions := Table.mem_of_find? hfound
  exact secretEnded_of_session hdrawn hrow heffects (hended hrow (Table.key_of_find? hfound))

/-- A login with a password issues a secret, and ends that of the session it replaces. -/
theorem createSessionFor_credentials {candidate : AuthenticationCandidate}
    {replacement : Option AuthenticatedSession} {kind : CredentialKind}
    (hdrawn : CredentialsDrawn env w) (hanchored : SessionsAnchored env w)
    (h : (createSessionFor env candidate replacement kind).run w = .ok (issued, w')) :
    issued.Carried env w' ∧ ∀ proof ∈ replacement, DigestEnded env proof.digest w' := by
  obtain ⟨replaced, w₁, hreplaced, hissues⟩ := createSessionFor_issues
    (show Area.sessions ∈ [.sessions, .bindings, .profiles, .sequence] by simp) (by simp) (by simp)
    (by simp) (.refl w) h
  obtain ⟨hcarried, hended⟩ := hissues.credentials hdrawn hanchored
  refine ⟨hcarried, ?_⟩
  rintro proof hproof
  cases hproof
  simp only [recheckReplacement, Tx.run_bind, Tx.run_pure] at hreplaced
  obtain ⟨loaded, _, hrecheck, rfl, rfl⟩ := hreplaced
  obtain ⟨rfl, -, -, row, hof, hdigest, -⟩ := run_recheck hrecheck
  rw [← hdigest]
  exact .of_loaded hdrawn (hissues.effects (.refl w)) hof rfl fun hrow hid =>
    hended row hrow (by rw [hid])

/-- A platform login issues a secret. -/
theorem completePlatformLogin_credentials {id : Uuid} {nonce : Secret} {browser : String}
    {context : PlatformChallengeContext} {evidence : PlatformEvidence} {login : PlatformLogin}
    (hdrawn : CredentialsDrawn env w) (hanchored : SessionsAnchored env w)
    (h : (completePlatformLogin env id nonce browser context evidence).run w = .ok (login, w')) :
    login.session.Carried env w' := by
  have hissues := completePlatformLogin_issues
    (show Area.challenges ∈ [.challenges, .sessions, .bindings, .profiles, .sequence] by simp)
    (by simp) (by simp) (by simp) (by simp) (.refl w) h
  exact (hissues.credentials hdrawn hanchored).1

/-- The commit of an attempt that replaces a session issues a secret, and ends that of the
session the browser presented. -/
theorem commitAttempt_credentials {held : ClaimedAttempt env} {claims : UpstreamClaims}
    {url : String} {linked : Option Bool} (hdrawn : CredentialsDrawn env w)
    (hanchored : SessionsAnchored env w)
    (h : (commitAttempt env held claims).run w = .ok (.session issued url linked, w')) :
    issued.Carried env w' ∧ ∀ row, w.state.oidcTransactions.find? held.locator.id = some row →
      row.purpose = .link ∨ row.purpose = .login ∧ row.replacementSession.isSome = true →
      ∀ digest ∈ held.callback.session, DigestEnded env digest w' := by
  obtain ⟨committing, w₁, hprepared, hof, ⟨-, ⟨_, _, hresult⟩, -⟩ | ⟨-, row, replaced, _, _, _, hrow,
    hreplaces, hresult, hissues⟩⟩ := run_commitAttempt h
  · cases hresult
  · cases hresult
    obtain ⟨hcarried, hended⟩ := hissues.credentials hdrawn hanchored
    refine ⟨hcarried, ?_⟩
    intro row' hrow' hpurpose digest hdigest
    obtain rfl : row = row' := Option.some_injective _ (hrow.symm.trans hrow')
    obtain ⟨row', hrow', hpresented, hattempt⟩ := hof.attempt
    obtain rfl : row = row' := Option.some_injective _ (hrow.symm.trans hrow')
    obtain ⟨w₂, hactor⟩ := hof.actor
    rw [hattempt] at hactor
    have heffects := hissues.effects (.refl w)
    rcases hpurpose with hlink | ⟨hlogin, hsome⟩
    · simp only [OidcTransactionRow.Replaces, if_pos hlink] at hreplaces
      obtain ⟨id, intent, hid, hintent, rfl⟩ := hreplaces
      obtain ⟨-, found, loaded, session, _, -, ⟨stored, hstored, hrowOf⟩, -, -, hbegun, hsession, hof',
        hdigest', -⟩ := run_checkActor_link (show row.attemptView.link = some id from hid) hactor
      obtain rfl : intent = stored := Option.some_injective _ (hintent.symm.trans hstored)
      rw [Option.mem_def.mp hdigest, Option.some.injEq] at hsession
      rw [hsession, ← hdigest']
      exact .of_loaded hdrawn heffects hof' rfl fun hmem hview => hended session hmem
        (by rw [hview, hbegun.session, hrowOf.session])
    · have hnone : row.linkIntent = none :=
        OidcTransactionRow.Checked.linkIntent (Table.check_of_mem (Table.mem_of_find? hrow)) hlogin
      simp only [OidcTransactionRow.Replaces, hlogin, reduceCtorEq, if_false] at hreplaces
      obtain ⟨expected, hexpected⟩ := Option.isSome_iff_exists.mp hsome
      obtain ⟨-, -, hown⟩ := run_checkActor_own (show row.attemptView.link = none from hnone) hactor
      obtain ⟨loaded, session, -, hview', hof', hsession⟩ := hown expected hexpected
      rw [Option.mem_def.mp hdigest, Option.some.injEq] at hsession
      rw [hsession]
      exact .of_loaded hdrawn heffects hof' rfl fun hmem hview => hended session hmem
        (by rw [hreplaces, hview, hview', hexpected])

/-- An update of sessions that keeps their keys, row by row. -/
theorem run_updateSessions {g : SessionRow → SessionRow} {sid : SessionId} {e : Failure} {n : ℕ}
    (h : (Tx.updateIn Tables.sessionsUntracked (fun row => decide (row.session = sid)) g e).run w =
      .ok (n, w')) (hg : ∀ r, (g r).session = r.session) :
    w'.drawn = w.drawn ∧ ∀ row ∈ w'.state.sessions, ∃ old ∈ w.state.sessions,
      row.session = old.session ∧ row = if old.session = sid then g old else old := by
  simp only [Tx.run_updateIn, Tables.sessionsUntracked_get, Tables.sessionsUntracked_put,
    Option.some.injEq] at h
  obtain ⟨t, db, ht, rfl, -, rfl⟩ := h
  refine ⟨rfl, fun row hrow => ?_⟩
  obtain ⟨old, hold, rfl⟩ := (Table.mem_updateWhere ht).mp hrow
  refine ⟨old, hold, ?_, by simp⟩
  split
  · exact hg old
  · rfl

/-- Touching a session keeps the digests of all. -/
theorem run_touch {loaded touched : Loaded} (h : (touch loaded).run w = .ok (touched, w')) :
    touched.view.id = loaded.view.id ∧ touched.view.credentialKind = loaded.view.credentialKind ∧
      w'.drawn = w.drawn ∧ ∀ row ∈ w'.state.sessions, ∃ old ∈ w.state.sessions,
        row.session = old.session ∧ row.tokenHash = old.tokenHash := by
  simp only [touch, Tx.run_bind, Tx.run_demand, Tx.run_pure] at h
  obtain ⟨lifetime, _, ⟨-, rfl⟩, n, w₁, hupdate, rfl, rfl⟩ := h
  obtain ⟨hdrawn, hrows⟩ := run_updateSessions hupdate fun _ => rfl
  refine ⟨rfl, rfl, hdrawn, fun row hrow => ?_⟩
  obtain ⟨old, hold, hkey, hrow⟩ := hrows row hrow
  refine ⟨old, hold, hkey, ?_⟩
  rw [hrow]
  split <;> rfl

/-- A refresh gives the presented session the next secret drawn, and no other session any. -/
theorem run_refreshSession {old : Secret} (h : (refreshSession env old).run w = .ok (issued, w')) :
    ∃ (loaded : Loaded) (row : SessionRow), loaded.Of env w row ∧
      row.tokenHash = env.sha256.secret old ∧ issued.view.id = loaded.view.id ∧
      issued.view.credentialKind = row.credentialKind ∧ w'.drawn = w.drawn + 1 ∧
      env.sha256.secret issued.secret = secretHash env w.drawn ∧
      ∀ next ∈ w'.state.sessions,
        (next.session = loaded.view.id ∧ next.tokenHash = secretHash env w.drawn) ∨
        ∃ before ∈ w.state.sessions, next.session = before.session ∧
          next.tokenHash = before.tokenHash ∧ before.session ≠ loaded.view.id := by
  simp only [refreshSession, Tx.run_bind, run_randomSecret, Tx.run_pure] at h
  obtain ⟨_, _, ⟨rfl, rfl⟩, loaded, w₁, hlookup, touched, w₂, htouch, n, w₃, hrotate, rfl, rfl⟩ := h
  obtain ⟨rfl, row, hof, hdigest, -⟩ := run_lookup hlookup
  obtain ⟨hid, hkind, hdrawn, htouched⟩ := run_touch htouch
  obtain ⟨hdrawn', hrotated⟩ := run_updateSessions hrotate fun _ => rfl
  have hview : loaded.view.credentialKind = row.credentialKind := by
    rw [hof.view]
    rfl
  refine ⟨loaded, row, ⟨hof.holds, hof.found, hof.current, ?_, hof.lifetime, hof.view, hof.now,
    hof.valid⟩, hdigest, hid, hkind.trans hview, by rw [hdrawn', hdrawn]; rfl, rfl, ?_⟩
  · obtain ⟨o, hhas, hbacked⟩ := hof.backed
    exact ⟨o, hhas, SessionRow.backed_congr hbacked rfl rfl⟩
  · intro next hnext
    obtain ⟨middle, hmiddle, hkey, hnext⟩ := hrotated next hnext
    obtain ⟨before, hbefore, hkey', htoken⟩ := htouched middle hmiddle
    by_cases hmid : middle.session = touched.view.id
    · rw [if_pos hmid] at hnext
      refine .inl ⟨by rw [hkey, hmid, hid], ?_⟩
      rw [hnext]
      rfl
    · rw [if_neg hmid] at hnext
      refine .inr ⟨before, hbefore, hkey.trans hkey', by rw [hnext, htoken], fun h => hmid ?_⟩
      rw [hkey', h, hid]

/-- A refresh issues a secret, and ends the one it was asked with. -/
theorem refreshSession_credentials {old : Secret} (hdrawn : CredentialsDrawn env w)
    (h : (refreshSession env old).run w = .ok (issued, w')) :
    issued.Carried env w' ∧ DigestEnded env (env.sha256.secret old) w' := by
  have hall : Effects env [.sessions] w w w' := refreshSession_effects (by decide) (.refl w) h
  obtain ⟨loaded, row, hof, hdigest, hid, hkind, hnow, hsecret, hcases⟩ := run_refreshSession h
  have hrow : row ∈ w.state.sessions := Table.mem_of_find? hof.found
  have hsession : row.session = loaded.view.id := Table.key_of_find? hof.found
  obtain ⟨i, hi, hlt⟩ := hdrawn row hrow
  refine ⟨⟨w.drawn, hsecret, ⟨by omega, ?_, ?_⟩⟩, i, by rw [← hi, hdigest], by omega, ?_⟩
  · intro next hnext hfresh
    rcases hcases next hnext with ⟨hsame, -⟩ | ⟨before, hbefore, -, htoken, -⟩
    · exact hsame.trans hid.symm
    · obtain ⟨j, hj, hjlt⟩ := hdrawn before hbefore
      have hsame := secretHash_injective env (hj.symm.trans (htoken.symm.trans hfresh))
      omega
  · obtain ⟨next, hnext, hcontinues⟩ := hall.follows.sessions _ _ hof.found
    rw [hid, hkind]
    refine ⟨next, hnext, ?_⟩
    rw [hcontinues.fixed]
  · intro next hnext hold
    rcases hcases next hnext with ⟨-, htoken⟩ | ⟨before, hbefore, -, htoken, hne⟩
    · have hsame := secretHash_injective env (htoken.symm.trans hold)
      omega
    · have hsame : before = row :=
        Table.eq_of_collide hbefore hrow (htoken.symm.trans (hold.trans hi.symm))
      rw [hsame] at hne
      exact absurd hsession hne

/-- Revoking a session, or all of an account, ends the secrets of these sessions. -/
theorem revokeSession_credentials {actor : AuthenticatedSession} {all : Bool} {u : Unit}
    (hdrawn : CredentialsDrawn env w) (hanchored : SessionsAnchored env w)
    (h : (revokeSession env actor all).run w = .ok (u, w')) :
    DigestEnded env actor.digest w' ∧ (all = true → ∀ row ∈ w.state.sessions,
      row.principal = actor.key → DigestEnded env row.tokenHash w') := by
  have hall : Effects env [.sessions, .accounts] w w w' :=
    revokeSession_effects (by decide) (by decide) h
  simp only [revokeSession, Tx.run_bind, Tx.run_ite] at h
  obtain ⟨loaded, _, hrecheck, h⟩ := h
  obtain ⟨rfl, hkey, hid, row, hof, hdigest, -⟩ := run_recheck hrecheck
  have hrow : row ∈ w.state.sessions := Table.mem_of_find? hof.found
  have hsession : row.session = loaded.view.id := Table.key_of_find? hof.found
  have hprincipal : row.principal = actor.key := hof.current.principal.trans hkey
  rcases h with ⟨-, h⟩ | ⟨hone, h⟩
  · simp only [revokeAllOf, Tx.run_bind, Tx.run_ofExcept, Tx.run_pure] at h
    obtain ⟨next, _, ⟨hnext, rfl⟩, n, w₁, hupdate, -, rfl⟩ := h
    have hrevoked := ofRule_eq_ok.mp hnext
    have hsucceeds := (AccountState.revokeSessions_succeeds hrevoked).2.1
    have hset : (setAuthEpoch next).run w.tick = .ok ((), w₁) := by
      simp only [setAuthEpoch, Tx.run_bind, Tx.run_pure, hsucceeds.key]
      exact ⟨n, w₁, hupdate, trivial, rfl⟩
    obtain ⟨-, hheld, -, hsame⟩ : Effects env [.accounts] w _ _ ∧ _ :=
      run_setAuthEpoch (by decide) (show w.tick.state.Holds loaded.state from hof.holds) hrevoked hset
    have hended : ∀ row ∈ w.state.sessions, row.principal = actor.key →
        DigestEnded env row.tokenHash w₁ := by
      intro row hrow hprincipal
      refine secretEnded_of_session hdrawn hrow hall (sessionEnded_of_burnt hrow hanchored hall
        hof.holds (hprincipal.trans hkey.symm) hheld hsame ?_)
      rw [hsucceeds.epoch]
      exact Int.lt_succ _
    refine ⟨?_, fun _ => hended⟩
    rw [← hdigest]
    exact hended row hrow hprincipal
  · refine ⟨?_, fun hall => absurd hall hone⟩
    rw [← hdigest]
    refine secretEnded_of_session hdrawn hrow hall (sessionEnded_of_revoked hrow hanchored hall ?_)
    intro next hnext hnextId
    exact (run_close h).2 next hnext (by rw [hnextId, hsession, hid])

end Operations

namespace Commit

/-- The session a transaction issues, with its secret. -/
def issued : Commit env → Option IssuedSession
  | createSession _ _ _ result | refreshSession _ result
  | completePlatformLogin _ _ _ _ _ ⟨result, _⟩
  | commitAttempt _ _ (.session result _ _) => some result
  | _ => none

/-- The digests a transaction ends: of the secret it refreshes, of the session it replaces, of the
session it revokes, or of all sessions of the actor. -/
inductive Ends (w : Tenant) : Commit env → Digest → Prop
  | refreshed {old result} : Ends w (refreshSession old result) (env.sha256.secret old)
  | replaced {candidate kind result} {proof : AuthenticatedSession} :
      Ends w (createSession candidate (some proof) kind result) proof.digest
  | completed {held claims result url linked digest} {row : OidcTransactionRow} :
      w.state.oidcTransactions.find? held.locator.id = some row →
      row.purpose = .link ∨ row.purpose = .login ∧ row.replacementSession.isSome = true →
      held.callback.session = some digest →
      Ends w (commitAttempt held claims (.session result url linked)) digest
  | revoked {actor all} : Ends w (revokeSession actor all) actor.digest
  | revokedAll {actor} {row : SessionRow} : row ∈ w.state.sessions → row.principal = actor.key →
      Ends w (revokeSession actor true) row.tokenHash

/-- Every transaction issues and ends the secrets it says. -/
theorem credentials {commit : Commit env} (hdrawn : CredentialsDrawn env w)
    (hanchored : SessionsAnchored env w) (h : commit.Runs w w') :
    (∀ result, commit.issued = some result → result.Carried env w') ∧
      ∀ digest, commit.Ends w digest → DigestEnded env digest w' := by
  cases commit with
  | createSession candidate replacement kind result =>
    obtain ⟨hcarried, hended⟩ := createSessionFor_credentials hdrawn hanchored h
    constructor
    · rintro _ ⟨⟩
      exact hcarried
    · rintro _ ⟨⟩
      exact hended _ rfl
  | refreshSession old result =>
    obtain ⟨hcarried, hended⟩ := refreshSession_credentials hdrawn h
    constructor
    · rintro _ ⟨⟩
      exact hcarried
    · rintro _ ⟨⟩
      exact hended
  | completePlatformLogin id nonce browser context evidence result =>
    refine ⟨?_, by rintro _ ⟨⟩⟩
    rintro _ ⟨⟩
    exact completePlatformLogin_credentials hdrawn hanchored h
  | revokeSession actor all =>
    obtain ⟨hone, hall⟩ := revokeSession_credentials hdrawn hanchored h
    refine ⟨by rintro _ ⟨⟩, fun digest hends => ?_⟩
    cases hends with
    | revoked => exact hone
    | revokedAll hrow hprincipal => exact hall rfl _ hrow hprincipal
  | commitAttempt held claims outcome =>
    cases outcome with
    | session result url linked =>
      obtain ⟨hcarried, hended⟩ := commitAttempt_credentials hdrawn hanchored h
      constructor
      · rintro _ ⟨⟩
        exact hcarried
      · rintro digest (_ | _ | ⟨hrow, hpurpose, hdigest⟩)
        exact hended _ hrow hpurpose digest hdigest
    | _ => exact ⟨by rintro _ ⟨⟩, by rintro _ ⟨⟩⟩
  | _ => exact ⟨by rintro _ ⟨⟩, by rintro _ ⟨⟩⟩

end Commit

/-- What holds of the credentials of a run, and of the state it reached: a session is found under
one digest; a secret that was ended is accepted no more; a secret is refreshed once; a session keeps
what it was issued with; a secret is accepted as what it was issued as. -/
structure CredentialsRotate (trace : List (Event (System env) (Label env))) (s : System env) :
    Prop where
  located : ∀ row ∈ s.world.state.sessions, ∃! digest,
    (s.world.state.sessions.filter fun r => decide (r.tokenHash = digest)).head? = some row
  ended : ∀ e ∈ trace, ∀ commit digest, e.label = .commit commit →
    commit.Ends e.before.world digest → ∀ kind checks loaded w,
      (lookup env digest kind checks).run s.world ≠ .ok (loaded, w)
  refreshedOnce : trace.Pairwise fun e f => ∀ old result result',
    e.label = .commit (.refreshSession old result) → f.label ≠ .commit (.refreshSession old result')
  fixed : ∀ e ∈ trace, ∀ row ∈ e.before.world.state.sessions, ∃ next,
    e.after.world.state.sessions.find? row.session = some next ∧ next.issuedAt = row.issuedAt ∧
      next.absoluteExpiresAt = row.absoluteExpiresAt ∧ next.authEpoch = row.authEpoch ∧
      next.membershipEpoch = row.membershipEpoch ∧ next.credentialKind = row.credentialKind
  presented : ∀ e ∈ trace, ∀ commit issued, e.label = .commit commit → commit.issued = some issued →
    ∀ kind checks loaded w, (lookup env (env.sha256.secret issued.secret) kind checks).run s.world =
      .ok (loaded, w) → kind = issued.view.credentialKind

/-- What the steps of a run left of the secrets they issued and ended. -/
structure CredentialHistory (trace : List (Event (System env) (Label env))) (s : System env) :
    Prop where
  drawn : CredentialsDrawn env s.world
  anchored : SessionsAnchored env s.world
  carried : ∀ e ∈ trace, ∀ commit result, e.label = .commit commit → commit.issued = some result →
    result.Carried env s.world
  ended : ∀ e ∈ trace, ∀ commit digest, e.label = .commit commit →
    commit.Ends e.before.world digest → DigestEnded env digest s.world
  refreshedOnce : trace.Pairwise fun e f => ∀ old result result',
    e.label = .commit (.refreshSession old result) → f.label ≠ .commit (.refreshSession old result')

variable {s₀ s s' : System env} {trace : List (Event (System env) (Label env))} {label : Label env}

/-- A secret that was refreshed is not refreshed again. -/
theorem DigestEnded.not_refreshed {old : Secret} {issued : IssuedSession}
    (h : DigestEnded env (env.sha256.secret old) w) :
    (refreshSession env old).run w ≠ .ok (issued, w') := by
  intro hrefresh
  obtain ⟨i, hi, hended⟩ := h
  obtain ⟨loaded, row, hof, hdigest, -⟩ := run_refreshSession hrefresh
  exact hended.not_loaded hof (hdigest.trans hi)

theorem CredentialHistory.step (h : CredentialHistory trace s) (hstep : Step env s label s') :
    CredentialHistory (trace ++ [⟨s, label, s'⟩]) s' := by
  obtain ⟨areas, heffects⟩ := hstep.effects
  refine ⟨heffects.credentialsDrawn h.drawn, heffects.sessionsAnchored h.anchored, ?_, ?_, ?_⟩
  · intro e he commit result hlabel hissued
    rcases List.mem_append.mp he with he | he
    · exact (h.carried e he commit result hlabel hissued).effects heffects
    · obtain rfl := List.mem_singleton.mp he
      cases hstep with
      | elapse => cases hlabel
      | commit _ hruns =>
        cases hlabel
        exact (Commit.credentials h.drawn h.anchored hruns).1 result hissued
  · intro e he commit digest hlabel hends
    rcases List.mem_append.mp he with he | he
    · exact (h.ended e he commit digest hlabel hends).effects heffects
    · obtain rfl := List.mem_singleton.mp he
      cases hstep with
      | elapse => cases hlabel
      | commit _ hruns =>
        cases hlabel
        exact (Commit.credentials h.drawn h.anchored hruns).2 digest hends
  · refine List.pairwise_append.mpr ⟨h.refreshedOnce, List.pairwise_singleton _ _, ?_⟩
    intro e he f hf old result result' hrefreshed hagain
    obtain rfl := List.mem_singleton.mp hf
    have hended := h.ended e he _ _ hrefreshed .refreshed
    cases hstep with
    | elapse => cases hagain
    | commit _ hruns =>
      cases hagain
      exact hended.not_refreshed hruns

theorem credentialHistory_of_run (hstart : s₀.Provisioned) (hrun : Run (Step env) s₀ trace s) :
    CredentialHistory trace s := by
  refine hrun.history ⟨?_, ?_, by simp, by simp, .nil⟩ fun _ _ _ _ _ h hstep => h.step hstep
  · intro row hrow
    rw [hstart.1] at hrow
    exact absurd hrow Table.not_mem_empty
  · intro row hrow
    rw [hstart.1] at hrow
    exact absurd hrow Table.not_mem_empty

/-- A digest finds the one session that carries it. -/
theorem located_iff (hrow : row ∈ w.state.sessions) {digest : Digest} :
    (w.state.sessions.filter fun r => decide (r.tokenHash = digest)).head? = some row ↔
      digest = row.tokenHash := by
  constructor
  · intro hhead
    have hmem := Table.mem_filter.mp (List.mem_of_head? hhead)
    exact (of_decide_eq_true hmem.2).symm
  · rintro rfl
    have hmem : row ∈ w.state.sessions.filter fun r => decide (r.tokenHash = row.tokenHash) :=
      Table.mem_filter.mpr ⟨hrow, by simp⟩
    cases hfound : w.state.sessions.filter fun r => decide (r.tokenHash = row.tokenHash) with
    | nil =>
      rw [hfound] at hmem
      cases hmem
    | cons first rest =>
      have hfirst : first ∈ w.state.sessions.filter fun r => decide (r.tokenHash = row.tokenHash) := by
        rw [hfound]
        exact .head _
      obtain ⟨hin, hsame⟩ := Table.mem_filter.mp hfirst
      rw [List.head?_cons, Table.eq_of_collide hin hrow (of_decide_eq_true hsame)]

/-- Credentials rotate: in every run, each session is reached by one digest at a time; a secret that
was refreshed, or whose session was replaced or revoked, is never accepted again; of the refreshes
of one secret at most one commits; no step changes what a session was issued with; and a secret is
accepted only as the kind it was issued as. -/
theorem credentials_rotate (hstart : s₀.Provisioned) (hrun : Run (Step env) s₀ trace s) :
    CredentialsRotate trace s := by
  have hhistory := credentialHistory_of_run hstart hrun
  refine ⟨?_, ?_, hhistory.refreshedOnce, ?_, ?_⟩
  · intro row hrow
    exact ⟨row.tokenHash, (located_iff hrow).mpr rfl, fun digest h => (located_iff hrow).mp h⟩
  · intro e he commit digest hlabel hends kind checks loaded w haccepted
    obtain ⟨i, rfl, hended⟩ := hhistory.ended e he commit digest hlabel hends
    exact hended.rejected haccepted
  · intro e he row hrow
    obtain ⟨next, hnext, hcontinues⟩ := (hrun.steps e he).follows.sessions _ _ (Table.find?_of_mem hrow)
    refine ⟨next, hnext, ?_⟩
    rw [hcontinues.fixed]
    exact ⟨rfl, rfl, rfl, rfl, rfl⟩
  · intro e he commit issued hlabel hissued kind checks loaded w haccepted
    obtain ⟨i, hi, hcarries⟩ := hhistory.carried e he commit issued hlabel hissued
    rw [hi] at haccepted
    exact (hcarries.accepted haccepted).2

/-- The credentials of the first login rotate. -/
theorem firstLogin_rotates : ∃ trace held,
    CredentialsRotate trace (⟨signedInWorld, held⟩ : System .transparent) ∧
      signedInWorld.state.sessions.rows.length = 1 := by
  obtain ⟨trace, held, hrun⟩ := signedIn_reachable
  exact ⟨trace, held, credentials_rotate ⟨rfl, rfl⟩ hrun, by decide +kernel⟩

end IdentityAuthority
