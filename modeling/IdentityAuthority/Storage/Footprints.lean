import IdentityAuthority.Storage.Effects
import IdentityAuthority.Storage.StepUp
import IdentityAuthority.Storage.LinkIntents
import IdentityAuthority.Storage.Management
import IdentityAuthority.Storage.Profiles

/-!
# Footprints

Which areas a transaction writes to, found along its steps. Steps that read only write
nowhere; a statement on a table without further promises writes to the area of the table.
-/

namespace IdentityAuthority

open Relational

/-- What a transaction does from a world on, inside one that began in another, it does in some
areas. -/
def WritesOnly {α : Type} (env : Env) (areas : List Area) (start since : Tenant) (m : Action α) :
    Prop :=
  ∀ w a w', since.Advances w → m.run w = .ok (a, w') → Effects env areas start w w'

namespace WritesOnly

variable {α β : Type} {env : Env} {areas : List Area} {start since : Tenant} {m m' : Action α}
  {f : α → Action β} {e : Failure}

/-- A step whose result is known to the rest. -/
theorem bind' (h : ∀ w a w₁, since.Advances w → m.run w = .ok (a, w₁) →
      Effects env areas start w w₁ ∧ WritesOnly env areas start w₁ (f a)) :
    WritesOnly env areas start since (m >>= f) := by
  intro w b w' hsince hrun
  obtain ⟨a, w₁, hfirst, hrest⟩ := Tx.run_bind.mp hrun
  obtain ⟨heffects, hf⟩ := h w a w₁ hsince hfirst
  exact heffects.trans (hf w₁ b w' (.refl _) hrest)

theorem later {since' : Tenant} (hm : WritesOnly env areas start since m)
    (h : since.Advances since') : WritesOnly env areas start since' m :=
  fun w a w' hsince hrun => hm w a w' (h.trans hsince) hrun

theorem bind (hm : WritesOnly env areas start since m)
    (hf : ∀ a, WritesOnly env areas start since (f a)) :
    WritesOnly env areas start since (m >>= f) :=
  .bind' fun w a w₁ hsince hrun =>
    ⟨hm w a w₁ hsince hrun, later (hf a) (hsince.trans (m.advances w a w₁ hrun))⟩

theorem of_readOnly (hm : m.ReadOnly) : WritesOnly env areas start since m := fun w a w' _ h =>
  .pass (hm w a w' h) (m.advances w a w' h)

/-- A transaction that writes to no area only reads. -/
theorem readOnly (hm : ∀ w, WritesOnly env [] w w m) : m.ReadOnly := by
  intro w a w' hrun
  exact Effects.frame (fun db => db) (fun _ _ _ ha _ => by cases ha) (hm w w a w' (.refl _) hrun)

theorem pure {a : α} : WritesOnly env areas start since (Pure.pure a) :=
  of_readOnly fun _ _ _ h => by rw [(Tx.run_pure.mp h).2]

theorem throw : WritesOnly env areas start since (Tx.throw e : Action α) := fun _ _ _ _ h =>
  (Tx.run_throw.mp h).elim

theorem query {g : Db → α} : WritesOnly env areas start since (Tx.query g) :=
  of_readOnly fun _ _ _ h => by rw [(Tx.run_query.mp h).2]

theorem world : WritesOnly env areas start since (Tx.world : Action Tenant) :=
  of_readOnly fun _ _ _ h => by rw [(Tx.run_world.mp h).2]

theorem require {c : Prop} [Decidable c] : WritesOnly env areas start since (Tx.require c e) :=
  of_readOnly fun _ _ _ h => by rw [(Tx.run_require.mp h).2]

theorem demand {o : Option α} : WritesOnly env areas start since (Tx.demand o e) :=
  of_readOnly fun _ _ _ h => by rw [(Tx.run_demand.mp h).2]

theorem ofExcept {r : Except Failure α} : WritesOnly env areas start since (Tx.ofExcept r) :=
  of_readOnly fun _ _ _ h => by rw [(Tx.run_ofExcept.mp h).2]

theorem clockTimestamp : WritesOnly env areas start since Tx.clockTimestamp :=
  of_readOnly fun _ _ _ h => by
    rw [(Tx.run_clockTimestamp.mp h).2]
    rfl

theorem now : WritesOnly env areas start since now := of_readOnly fun _ _ _ h => by
  rw [(run_now.mp h).2]
  rfl

theorem random {entropy : Entropy} : WritesOnly env areas start since (Tx.random entropy) :=
  of_readOnly fun _ _ _ h => by rw [(Tx.run_random.mp h).2]

theorem newV4 {env' : Env} : WritesOnly env areas start since (newV4 env') :=
  of_readOnly fun _ _ _ h => by rw [(run_newV4.mp h).2]

theorem randomSecret {env' : Env} : WritesOnly env areas start since (randomSecret env') :=
  of_readOnly fun _ _ _ h => by rw [(run_randomSecret.mp h).2]

theorem ite {c : Prop} [Decidable c] (hm : WritesOnly env areas start since m)
    (hm' : WritesOnly env areas start since m') :
    WritesOnly env areas start since (if c then m else m') := by
  split
  · exact hm
  · exact hm'

section Statements

variable {κ : Type} [Keyed α κ] {R : Relation Db α} {k : κ} {p : α → Bool} {g : α → α} {r : α}

theorem find : WritesOnly env areas start since (Tx.find R k) := query

theorem select : WritesOnly env areas start since (Tx.select R p) := query

theorem exists? : WritesOnly env areas start since (Tx.exists? R p) := query

variable {a : Area} (ha : a ∈ areas)

include ha

theorem insertInto
    (h : ∀ w t db, since.Advances w → (R.get w.state).insert r = some t →
      R.put w.state t 1 = some db → Effect env start w a db) :
    WritesOnly env areas start since (Tx.insertInto R r e) := by
  intro w _ w' hsince hrun
  obtain ⟨t, db, ht, hdb, rfl⟩ := Tx.run_insertInto.mp hrun
  exact .write ha (h w t db hsince ht hdb)

theorem updateIn
    (h : ∀ w t n db, since.Advances w → (R.get w.state).updateWhere p g = some t →
      n = (R.get w.state).count p → R.put w.state t n = some db → Effect env start w a db) :
    WritesOnly env areas start since (Tx.updateIn R p g e) := by
  intro w n w' hsince hrun
  obtain ⟨t, db, ht, hdb, hn, rfl⟩ := Tx.run_updateIn.mp hrun
  exact .write ha (h w t n db hsince ht hn hdb)

theorem deleteFrom
    (h : ∀ (w : Tenant) db n, R.put w.state ((R.get w.state).deleteWhere p) n = some db →
      Effect env start w a db) :
    WritesOnly env areas start since (Tx.deleteFrom R p e) := by
  intro w n w' _ hrun
  obtain ⟨db, hdb, -, rfl⟩ := Tx.run_deleteFrom.mp hrun
  exact .write ha (h w db n hdb)

end Statements

end WritesOnly

variable {env : Env} {areas : List Area} {start since : Tenant}

section Reads

variable {key : AccountKey} {sid : SessionId} {checks : Option PlatformVerifier} {loaded : Loaded}

theorem load_writes : WritesOnly env areas start since (load key) :=
  .of_readOnly fun _ _ _ h => by rw [(run_load h).1]

theorem current_writes {env' : Env} {candidate : AuthenticationCandidate} :
    WritesOnly env areas start since (current env' candidate) :=
  .of_readOnly fun _ _ _ h => by rw [(run_current h).1]

theorem provider_writes {env' : Env} {id : ProviderId} :
    WritesOnly env areas start since (provider env' id) :=
  .of_readOnly fun _ _ _ h => by rw [(run_provider h).1]

theorem origin_writes : WritesOnly env areas start since (origin sid) :=
  .of_readOnly fun _ _ _ h => by rw [(run_origin h).1]

theorem checkOrigin_writes {env' : Env} {o : Origin} :
    WritesOnly env areas start since (checkOrigin env' key o) :=
  .of_readOnly fun _ _ _ h => by rw [(run_checkOrigin.mp h).1]

theorem identity_writes {id : Uuid} : WritesOnly env areas start since (identity id) :=
  .of_readOnly fun _ _ _ h => by rw [(run_identity h).1]

theorem oidcAttempt_writes {env' : Env} {locator : StateLocator} {state browser : String}
    {claimed : Bool} :
    WritesOnly env areas start since (oidcAttempt env' locator state browser claimed) :=
  .of_readOnly fun _ _ _ h => by rw [(run_oidcAttempt h).1, World.tick_state]

theorem lookup_writes {env' : Env} {digest : Digest} {kind : CredentialKind} :
    WritesOnly env areas start since (lookup env' digest kind checks) :=
  .of_readOnly fun _ _ _ h => by rw [(run_lookup h).1, World.tick_state]

theorem recheck_writes {env' : Env} {actor : AuthenticatedSession} :
    WritesOnly env areas start since (recheck env' actor) :=
  .of_readOnly fun _ _ _ h => by rw [(run_recheck h).1, World.tick_state]

theorem authorize_writes {env' : Env} {operation : ManagementOperation}
    {target : Option AccountKey} :
    WritesOnly env areas start since (authorize env' loaded operation target) :=
  .of_readOnly fun _ _ _ h => (run_authorize h).1

theorem recentlyAuthenticated_writes {age : ℤ} :
    WritesOnly env areas start since (recentlyAuthenticated loaded age) :=
  .bind .clockTimestamp fun _ => .pure

theorem external_writes {binding : PlatformBinding} :
    WritesOnly env areas start since (external binding) :=
  .of_readOnly fun _ _ _ h => by rw [run_external h]

theorem intent_writes {id : Uuid} : WritesOnly env areas start since (intent id) :=
  .of_readOnly fun _ _ _ h => by rw [(run_intent h).1]

theorem checkActor_writes {env' : Env} {attempt : OidcAttempt} {session : Option Digest} :
    WritesOnly env areas start since (checkActor env' attempt session) :=
  .of_readOnly fun w _ _ h => by
    cases hlink : attempt.link with
    | none => exact (run_checkActor_own hlink h).1
    | some id =>
      rw [(run_checkActor_link hlink h).1]
      rfl

theorem validateSource_writes {source : GrantSource} :
    WritesOnly env areas start since (validateSource key source) :=
  .bind .query fun _ => .require

end Reads

section Federation

theorem profileSequence_writes (ha : .sequence ∈ areas) :
    WritesOnly env areas start since profileSequence := by
  refine .bind ?_ fun _ => .query
  intro w _ w' _ h
  obtain ⟨db, hdb, rfl⟩ := Tx.run_write.mp h
  split at hdb
  · cases hdb
    exact .write ha .sequenced
  · cases hdb

theorem deleteAttempts_writes (ha : .oidc ∈ areas) {p : OidcTransactionRow → Bool} {e : Failure} :
    WritesOnly env areas start since (Tx.deleteFrom Tables.oidcTransactions p e) :=
  .deleteFrom ha fun w db n hdb => by
    cases hdb
    exact .attemptsDeleted

theorem removeExpiredAttempts_writes (ha : .oidc ∈ areas) {instant : ℤ} :
    WritesOnly env areas start since (removeExpiredAttempts instant) :=
  .bind .select fun _ => .bind (deleteAttempts_writes ha) fun _ => .bind .select fun _ =>
    .bind .select fun _ =>
      .bind (.deleteFrom ha fun w db n hdb => by cases hdb; exact .intentsDeleted) fun _ => .pure

theorem consumeAttempt_writes (ha : .oidc ∈ areas) {locator : StateLocator} :
    WritesOnly env areas start since (consumeAttempt locator) :=
  .bind (deleteAttempts_writes ha) fun _ => .pure

/-- An attempt is inserted under the key its state was drawn with. -/
theorem insertAttempt_writes (ha : .oidc ∈ areas) (hs : .sequence ∈ areas)
    {input : NewAttempt env.parsers} {i : ℕ} (hid : input.locator.id = attemptId env i)
    (hi : DrawnIn start since i) : WritesOnly env areas start since (insertAttempt env input) :=
  .bind provider_writes fun _ => .bind .ofExcept fun _ => .bind .now fun _ =>
    .bind .require fun _ => .bind .require fun _ =>
      .bind (removeExpiredAttempts_writes ha) fun _ => .bind .select fun _ =>
        .bind .require fun _ => .bind (profileSequence_writes hs) fun _ =>
          .insertInto ha fun w t db hsince ht hdb => by
            cases hdb
            exact .attemptInserted ht hid ⟨hi.1, lt_of_lt_of_le hi.2 hsince.drawn⟩ rfl

end Federation

section Sessions

theorem close_writes (ha : .sessions ∈ areas) {id : SessionId} {instant : ℤ} :
    WritesOnly env areas start since (close id instant) :=
  .bind (.updateIn ha fun w t n db _ ht hn hdb => by
    obtain ⟨-, rfl⟩ := advanceRevision_eq_some.mp hdb
    subst hn
    exact .sessionsClosed (Table.rewritten_of_updateWhere ht fun r _ _ => ⟨instant, rfl⟩))
    fun _ => .pure

theorem closeReplaced_writes (ha : .sessions ∈ areas) {replaced : Option SessionId} {instant : ℤ} :
    WritesOnly env areas start since (closeReplaced replaced instant) := by
  cases replaced with
  | none => exact .pure
  | some old => exact close_writes ha

/-- An update of columns that no session is judged by. -/
theorem renewed_of_update {R : Relation Db SessionRow} (hR : R = Tables.sessionsUntracked)
    (ha : .sessions ∈ areas) {p : SessionRow → Bool} {g : SessionRow → SessionRow} {e : Failure}
    (hg : ∀ r w, since.Advances w → SessionRow.Renews env start w r (g r)) :
    WritesOnly env areas start since (Tx.updateIn R p g e) :=
  .updateIn ha fun w t n db hw ht hn hdb => by
    subst hR
    cases hdb
    exact .sessionsRenewed (Table.rewritten_of_updateWhere ht fun r _ _ => hg r w hw)

theorem bindProfile_writes (ha : .bindings ∈ areas) {session : SessionId}
    {source : Option ProfileSource} {snapshot : Option Uuid} :
    WritesOnly env areas start since (bindProfile session source snapshot) :=
  .bind (.updateIn ha fun w t n db _ ht hn hdb => by
    cases hdb
    exact .sessionsBound (Table.rewritten_of_updateWhere ht fun _ _ _ => rfl)) fun _ => .pure

theorem retainBinding_writes (ha : .bindings ∈ areas) {key : AccountKey} {old new : SessionId} :
    WritesOnly env areas start since (retainBinding key old new) :=
  .bind .find fun _ => .bind .demand fun _ => .bind .find fun _ => .bind .demand fun _ =>
    .bind .require fun _ => bindProfile_writes ha

/-- A touched session is live at the reading it was loaded at, which is the last one before the
write. -/
theorem touch_effects (ha : .sessions ∈ areas) {w w' : Tenant} {loaded loaded' : Loaded}
    {row : SessionRow} (hof : loaded.Of env w row)
    (h : (touch loaded).run w.tick = .ok (loaded', w')) : Effects env areas start w.tick w' := by
  simp only [touch, Tx.run_bind, Tx.run_demand, Tx.run_updateIn, Tx.run_pure,
    Tables.sessionsUntracked_get, Tables.sessionsUntracked_put, Option.some.injEq] at h
  obtain ⟨lifetime, _, ⟨hrenew, rfl⟩, n, _, ⟨t, db, ht, rfl, -, rfl⟩, -, rfl⟩ := h
  obtain ⟨hvalid, -, -, -, hidle⟩ := SessionLifetime.renew_eq_some hrenew
  obtain ⟨hissued, hidle', habsolute⟩ := SessionRow.lifetime_eq_some hof.lifetime
  have hlive : row.issuedAt ≤ loaded.now ∧ loaded.now < row.idleExpiresAt ∧
      loaded.now < row.absoluteExpiresAt := by
    simpa only [SessionLifetime.validAt, decide_eq_true_eq, hissued, hidle', habsolute] using hvalid
  refine .write ha (.sessionsRenewed (Table.rewritten_of_updateWhere ht ?_))
  intro r hr hid
  have hkey : key r = key row := by
    rw [Table.key_of_find? hof.found]
    exact of_decide_eq_true hid
  obtain rfl := Table.eq_of_key hr (Table.mem_of_find? hof.found) hkey
  refine ⟨rfl, by rw [← hidle']; exact hidle, fun _ => ?_, fun h => absurd rfl h⟩
  rw [← hof.now]
  exact hlive

/-- An authentication that is good for an account: the origin it came from, if any, is backed. -/
def SessionAuthentication.Good (env : Env) (db : Db) (key : AccountKey) :
    SessionAuthentication → Prop
  | oidc o => o.facts.decodable = true ∧ SessionRow.Backed env db key (some o)
  | _ => True

/-- The columns of a good authentication make a row with a backed origin. -/
theorem SessionAuthentication.Good.hasOrigin {db : Db} {key : AccountKey}
    {authentication : SessionAuthentication} {instant : ℤ} {kind : CredentialKind}
    {columns : AuthenticationColumns} {facts : Option AuthenticationFacts}
    (h : authentication.Good env db key) (hcolumns : authentication.columns instant kind = .ok columns)
    (hfacts : encodedFacts env columns.origin = .ok facts) {state : AccountState}
    {lifetime : SessionLifetime} {secret : Secret} {id : SessionId} :
    ∃ o, (issuedRow env state columns facts lifetime instant kind secret id).HasOrigin o ∧
      SessionRow.Backed env db key o := by
  cases authentication with
  | localPassword time =>
    simp only [SessionAuthentication.columns] at hcolumns
    split at hcolumns <;> cases hcolumns
    exact ⟨none, .own rfl, trivial⟩
  | platform stored =>
    simp only [SessionAuthentication.columns] at hcolumns
    split at hcolumns
    · cases hassurance : stored.assurance with
      | error e => simp [hassurance, bind, Except.bind] at hcolumns
      | ok assurance =>
        simp only [hassurance, bind, Except.bind] at hcolumns
        cases hcolumns
        exact ⟨none, .own rfl, trivial⟩
    · cases hcolumns
  | oidc o =>
    simp only [SessionAuthentication.columns] at hcolumns
    split at hcolumns <;> cases hcolumns
    obtain ⟨hdecodable, identity, provider, hbacks, hsource⟩ := h
    simp only [encodedFacts, bind, Except.bind] at hfacts
    cases hencode : o.facts.encode env.factsSize with
    | error e => simp [hencode] at hfacts
    | ok stored =>
      simp only [hencode, Except.ok.injEq] at hfacts
      subst hfacts
      have hversion := (AuthenticationFacts.encode_eq_ok hencode).1
      refine ⟨some { o with facts := stored }, .upstream rfl rfl rfl rfl
        (AuthenticationFacts.encode_decodable hencode hdecodable), identity, provider, ?_, hsource⟩
      exact ⟨hbacks.bound, hbacks.configured, hbacks.enabled, hbacks.epoch,
        hbacks.version.trans hversion.symm, hbacks.principal⟩

/-- A session is inserted for an active account, by an authentication that is good for it. -/
theorem insertSession_effects (ha : .sessions ∈ areas) {w w' : Tenant} {state : AccountState}
    {replaced : Option SessionId} {authentication : SessionAuthentication} {instant : ℤ}
    {kind : CredentialKind} {issued : IssuedSession} (hholds : w.state.Holds state)
    (hactive : state.active = true) (hgood : authentication.Good env w.state state.key)
    (hinstant : instant ≤ seconds w.clock) (hsince : start.Advances w)
    (h : (insertSession env state replaced authentication instant kind).run w = .ok (issued, w')) :
    Effects env areas start w w' := by
  simp only [insertSession, Tx.run_bind, Tx.run_ofExcept, run_randomSecret, Tx.run_demand] at h
  obtain ⟨columns, _, ⟨hcolumns, rfl⟩, _, _, ⟨rfl, rfl⟩, lifetime, _, ⟨-, rfl⟩, _, w₂, hclose,
    id, w₃, hid, facts, _, ⟨hfacts, rfl⟩, _, w₄, hinsert, hpure⟩ := h
  obtain ⟨-, rfl⟩ := Tx.run_pure.mp hpure
  obtain ⟨-, rfl⟩ := run_newV4.mp hid
  have hclosed : Effects env [.sessions] start { w with drawn := w.drawn + 1 } w₂ :=
    closeReplaced_writes (by decide) _ _ _ (.refl _) hclose
  obtain ⟨t, db, ht, hdb, rfl⟩ := Tx.run_insertInto.mp hinsert
  obtain ⟨-, rfl⟩ := advanceRevision_eq_some.mp hdb
  have haccounts := hclosed.frame (fun db => (db.accounts, db.memberships, db.localCredentials))
    fun w a db ha h => h.accounts_eq (by rintro rfl; simp at ha)
  have hproviders := hclosed.frame (fun db => (db.providers, db.providerCredentials))
    fun w a db ha h => h.providers_eq (by rintro rfl; simp at ha)
  have hidentities := hclosed.frame Db.externalIdentities
    fun w a db ha h => h.externalIdentities_eq (by rintro rfl; simp at ha)
  simp only [Prod.mk.injEq] at haccounts hproviders
  obtain ⟨haccounts, hmemberships, -⟩ := haccounts
  obtain ⟨hproviders, -⟩ := hproviders
  have hareas : ([.sessions] : List Area) ⊆ areas := by simpa using ha
  have hdrew : Effects env areas start w { w with drawn := w.drawn + 1 } := .drew (Nat.le_succ _)
  refine (hdrew.trans (hclosed.mono hareas)).trans ((Effects.drew (Nat.le_succ _)).trans
    (Effects.write ha (.sessionInserted ?_ ht)))
  simp only [AccountState.active, Bool.and_eq_true] at hactive
  obtain ⟨o, horigin, hbacked⟩ := hgood.hasOrigin hcolumns hfacts
  have hdrawn := hclosed.advances.drawn
  refine ⟨?_, ?_, rfl, ⟨rfl, rfl⟩, ?_, ⟨o, horigin, ?_⟩, w.drawn, rfl, hsince.drawn, ?_⟩
  · simpa only [issuedRow, haccounts, hactive.1] using hholds.account
  · simpa only [issuedRow, hmemberships, hactive.2] using hholds.membership
  · exact hinstant.trans (seconds_mono hclosed.advances.clock)
  · cases o with
    | none => trivial
    | some o =>
      obtain ⟨identity, provider, hbacks, hsource⟩ := hbacked
      refine ⟨identity, provider, ⟨?_, ?_, hbacks.enabled, hbacks.epoch, hbacks.version,
        hbacks.principal⟩, hsource⟩
      · simpa only [hidentities] using hbacks.bound
      · simpa only [hproviders] using hbacks.configured
  · simp only at hdrawn ⊢
    omega

/-- A transaction that issues a session, in place of another one perhaps: what it does before the
insert and after it. -/
inductive Issues (env : Env) (areas : List Area) (start w w' : Tenant) (replaced : Option SessionId)
    (kind : CredentialKind) (issued : IssuedSession) : Prop
  | intro {w₁ w₂ : Tenant} {state : AccountState} {authentication : SessionAuthentication}
      {instant : ℤ} : Effects env areas start w w₁ →
      (insertSession env state replaced authentication instant kind).run w₁ = .ok (issued, w₂) →
      Effects env areas start w₁ w₂ →
      (∀ since, since.Advances w₂ → Effects env areas since w₂ w') →
      Issues env areas start w w' replaced kind issued

variable {w w' : Tenant} {replaced : Option SessionId} {kind : CredentialKind}
  {issued : IssuedSession}

theorem Issues.effects (h : Issues env areas start w w' replaced kind issued)
    (hsince : start.Advances w) : Effects env areas start w w' := by
  obtain ⟨hbefore, -, hinserted, hafter⟩ := h
  have hadvances := hbefore.advances.trans hinserted.advances
  exact (hbefore.trans hinserted).trans (hafter start (hsince.trans hadvances))

/-- What comes before a transaction that issues a session is part of it. -/
theorem Issues.after {w₀ : Tenant} (hbefore : Effects env areas start w₀ w)
    (h : Issues env areas start w w' replaced kind issued) :
    Issues env areas start w₀ w' replaced kind issued := by
  obtain ⟨hbefore', hrun, hinserted, hafter⟩ := h
  exact .intro (hbefore.trans hbefore') hrun hinserted hafter

end Sessions

section Profiles

theorem ProfileObservationRow.Fresh.mono {row : ProfileObservationRow} {w w' : Tenant}
    (h : row.Fresh env start w) (hadvances : w.Advances w') : row.Fresh env start w' := by
  obtain ⟨i, hsnapshot, hdrawn⟩ := h.snapshot
  exact ⟨h.accepted.mono (seconds_mono hadvances.clock), i, hsnapshot, hdrawn.1,
    hdrawn.2.trans_le hadvances.drawn⟩

variable (ha : .profiles ∈ areas)

include ha

theorem upsertObservation_writes {next : ProfileObservationRow} (hnext : next.Fresh env start since) :
    WritesOnly env areas start since (upsertObservation next) :=
  .bind .require fun _ => .bind .find fun stored => by
    cases stored with
    | none =>
      refine .bind (.insertInto ha fun w t db hsince ht hdb => ?_) fun _ => .pure
      obtain ⟨-, rfl⟩ := advanceRevision_eq_some.mp hdb
      exact .observationInserted (hnext.mono hsince) ht
    | some row =>
      refine .bind (.updateIn ha fun w t n db hsince ht hn hdb => ?_) fun _ => .pure
      obtain ⟨-, rfl⟩ := advanceRevision_eq_some.mp hdb
      subst hn
      refine .observationsUpdated (Table.rewritten_of_updateWhere ht fun r _ hr => ?_)
      simp only [Bool.and_eq_true, decide_eq_true_eq] at hr
      obtain ⟨hkey, hsupersedes⟩ := hr
      obtain ⟨hprincipal, hsource⟩ := Prod.mk.injEq _ _ _ _ ▸ hkey
      exact ⟨⟨hprincipal.symm, hsource.symm⟩, hsupersedes, hnext.mono hsince⟩

/-- An observation is stored only once its own time has come, and as a snapshot of its own. -/
theorem accept_writes (hs : .bindings ∈ areas) (hstart : start.Advances since) {key : AccountKey}
    {session : SessionId} {absolute : ℤ} {observation : Observation} :
    WritesOnly env areas start since (accept env key session absolute observation) := by
  refine .bind' fun w _ w₁ hw hrun => ⟨WritesOnly.require w _ w₁ hw hrun, ?_⟩
  obtain ⟨hvalid, rfl⟩ := Tx.run_require.mp hrun
  refine .bind' fun w₂ instant w₃ hsince hrun => ⟨?_, ?_⟩
  · exact WritesOnly.now w₂ instant w₃ hsince hrun
  · obtain ⟨rfl, rfl⟩ := run_now.mp hrun
    refine .bind' fun w₄ expiresAt w₅ hsince' hrun => ⟨WritesOnly.demand w₄ _ w₅ hsince' hrun, ?_⟩
    obtain ⟨-, rfl⟩ := Tx.run_demand.mp hrun
    split
    · exact .pure
    · rename_i hpast
      refine .bind' fun w₆ snapshot w₇ hsince'' hrun => ⟨WritesOnly.newV4 w₆ _ w₇ hsince'' hrun, ?_⟩
      obtain ⟨rfl, rfl⟩ := run_newV4.mp hrun
      refine .bind .clockTimestamp fun _ => .bind (upsertObservation_writes ha ⟨⟨?_, ?_⟩, ?_⟩)
        fun _ => .ite (bindProfile_writes hs) .pure
      · have hclock := seconds_mono (hsince'.trans hsince'').clock
        simp only [Observation.row] at hclock ⊢
        omega
      · exact Profile.applyLimits_valid hvalid
      · have hlo := (((hstart.trans hw).trans hsince).trans
          ((World.Advances.tick _).trans (hsince'.trans hsince''))).drawn
        exact ⟨w₆.drawn, rfl, hlo, Nat.lt_succ_self _⟩

end Profiles

section Grants

variable (ha : .grants ∈ areas)

include ha

theorem deleteGrants_writes {p : StepUpGrantRow → Bool} {e : Failure} :
    WritesOnly env areas start since (Tx.deleteFrom Tables.stepUpGrants p e) :=
  .deleteFrom ha fun w db n hdb => by
    cases hdb
    exact .grantsDeleted

theorem removeExpiredGrants_writes {key : AccountKey} {instant : ℤ} :
    WritesOnly env areas start since (removeExpiredGrants key instant) :=
  .bind (deleteGrants_writes ha) fun _ => .bind .select fun _ =>
    .bind (deleteGrants_writes ha) fun _ => .pure

/-- A grant is inserted under the digest of a secret just drawn. -/
theorem issueGrant_writes (hsince : start.Advances since) {loaded : Loaded} {context : StepUpContext}
    {source : GrantSource} {time : ℤ} :
    WritesOnly env areas start since (issueGrant env loaded context source time) := by
  refine .bind .now fun _ => .bind .require fun _ => .bind .require fun _ =>
    .bind (removeExpiredGrants_writes ha) fun _ => .bind .select fun _ => .bind .require fun _ =>
      .bind' fun w secret w₁ hw hrun => ⟨WritesOnly.randomSecret w secret w₁ hw hrun, ?_⟩
  obtain ⟨rfl, rfl⟩ := run_randomSecret.mp hrun
  refine .bind (.insertInto ha fun w' t db hw' ht hdb => ?_) fun _ => .pure
  cases hdb
  have hlo := (hsince.trans hw).drawn
  have hhi := hw'.drawn
  exact .grantInserted ht rfl ⟨hlo, by simpa using hhi⟩

theorem consumeStepUpOn_writes {env' : Env} {actor : AuthenticatedSession} {expected : StepUpContext}
    {handle : Secret} :
    WritesOnly env areas start since (consumeStepUpOn env' actor expected handle) :=
  .bind recheck_writes fun _ => .bind .find fun _ => .bind .demand fun _ => .bind .now fun _ =>
    .bind .require fun _ => .bind validateSource_writes fun _ => .bind recheck_writes fun _ =>
      .bind .now fun _ => .bind .require fun _ => .bind (deleteGrants_writes ha) fun _ => .pure

theorem cancelStepUp_writes {env' : Env} {actor : AuthenticatedSession} {handle : Secret} :
    WritesOnly env areas start since (cancelStepUp env' actor handle) :=
  .bind recheck_writes fun _ => .bind (deleteGrants_writes ha) fun _ => .pure

end Grants

end IdentityAuthority
