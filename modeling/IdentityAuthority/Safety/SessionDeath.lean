import IdentityAuthority.Safety.Continuity

/-!
# Session death is permanent

Every session row goes back to a world in which its account, its membership and its origin were
good. All of these only move forward from there, so a session that is accepted later was never
refused before.
-/

namespace IdentityAuthority

open Relational Transition

/-- Why a session is refused at the time of a world. -/
inductive SessionRow.Refused (env : Env) (w : Tenant) (row : SessionRow) : Prop
  | inactive {state : AccountState} : w.state.Holds state → state.key = row.principal →
      state.active = false → row.Refused env w
  | authEpoch {state : AccountState} : w.state.Holds state → state.key = row.principal →
      row.authEpoch ≠ state.epoch → row.Refused env w
  | membershipEpoch {state : AccountState} : w.state.Holds state → state.key = row.principal →
      row.membershipEpoch ≠ state.membershipEpoch → row.Refused env w
  | revoked : row.revokedAt.isSome = true → row.Refused env w
  | origin {o : Origin} : row.HasOrigin (some o) →
      (∀ source w', (checkOrigin env row.principal o).run w ≠ .ok (source, w')) → row.Refused env w
  | expired {lifetime : SessionLifetime} : row.lifetime = some lifetime →
      lifetime.idleExpiresAt ≤ seconds w.clock ∨ lifetime.absoluteExpiresAt ≤ seconds w.clock →
      row.Refused env w

/-- A session is good in a world: it is stored there, at the epochs of its active account, and
from an origin that the tables back. -/
structure SessionRow.Good (env : Env) (w : Tenant) (row : SessionRow) : Prop where
  stored : w.state.sessions.find? row.session = some row
  account : w.state.accounts.find? row.principal = some ⟨row.principal, true, row.authEpoch⟩
  membership :
    w.state.memberships.find? row.principal = some ⟨row.principal, true, row.membershipEpoch⟩
  origin : ∃ o, row.HasOrigin o ∧ SessionRow.Backed env w.state row.principal o

/-- A session was good in a world that the present one follows. -/
def SessionRow.Anchored (env : Env) (w : Tenant) (row : SessionRow) : Prop :=
  ∃ (w₀ : Tenant) (row₀ : SessionRow), row₀.Good env w₀ ∧ row₀.session = row.session ∧ Follows w₀ w

/-- Every session of a world was good once. -/
def SessionsAnchored (env : Env) (w : Tenant) : Prop :=
  ∀ row ∈ w.state.sessions, row.Anchored env w

variable {env : Env} {start w w' : Tenant} {a : Area} {db : Db} {row : SessionRow}

theorem SessionRow.Anchored.mono (h : row.Anchored env w) (hfollows : Follows w w')
    {next : SessionRow} (hsession : next.session = row.session) : next.Anchored env w' := by
  obtain ⟨w₀, row₀, hgood, hid, h₀⟩ := h
  exact ⟨w₀, row₀, hgood, hid.trans hsession.symm, h₀.trans hfollows⟩

/-- A session just issued is good. -/
theorem SessionRow.Issued.good {t : Table SessionRow} (h : row.Issued env start w)
    (ht : w.state.sessions.insert row = some t) :
    row.Good env { w with state := { w.state with sessions := t }.revised 1 } := by
  obtain ⟨o, hhas, hbacked⟩ := h.origin
  refine ⟨?_, h.account, h.membership, o, hhas, SessionRow.backed_congr hbacked rfl rfl⟩
  exact Table.find?_of_mem ((Table.mem_insert ht).mpr (.inl rfl))

/-- Every statement leaves every session anchored: one that it inserts is good, any other was
there before. -/
theorem Effect.sessionsAnchored (h : Effect env start w a db) (hinv : SessionsAnchored env w) :
    SessionsAnchored env { w with state := db } := by
  have hfollows := h.follows
  by_cases ha : a = .sessions
  · subst ha
    intro row hrow
    cases h with
    | sessionInserted hissued ht =>
      rcases (Table.mem_insert ht).mp hrow with rfl | hrow
      · exact ⟨_, row, hissued.good ht, rfl, .refl _⟩
      · exact (hinv row hrow).mono hfollows rfl
    | sessionsClosed ht =>
      obtain ⟨old, hold, rfl | hcloses⟩ := ht.exists_before hrow
      · exact (hinv _ hold).mono hfollows rfl
      · exact (hinv old hold).mono hfollows hcloses.session
    | sessionsRenewed ht =>
      obtain ⟨old, hold, rfl | hrenews⟩ := ht.exists_before hrow
      · exact (hinv _ hold).mono hfollows rfl
      · exact (hinv old hold).mono hfollows hrenews.session
  · intro row hrow
    by_cases hb : a = .bindings
    · subst hb
      cases h with
      | sessionsBound ht =>
        obtain ⟨old, hold, rfl | hbinds⟩ := ht.exists_before hrow
        · exact (hinv _ hold).mono hfollows rfl
        · exact (hinv old hold).mono hfollows hbinds.session
    · have hsessions : db.sessions = w.state.sessions := h.sessions_eq ha hb
      have hold : row ∈ w.state.sessions := by
        rw [← hsessions]
        exact hrow
      exact (hinv row hold).mono hfollows rfl

theorem Effects.sessionsAnchored {areas : List Area} (h : Effects env areas start w w')
    (hinv : SessionsAnchored env w) : SessionsAnchored env w' := by
  induction h with
  | refl => exact hinv
  | tail _ hmove ih =>
    rcases hmove with ⟨hstate, hadvances⟩ | ⟨-, heffect⟩
    · intro row hrow
      rw [hstate] at hrow
      exact (ih row hrow).mono (.of_directory hadvances (by rw [hstate])) rfl
    · exact heffect.sessionsAnchored ih

/-- The epoch of a session is no later than that of its account. -/
theorem SessionRow.Anchored.authEpoch_le (h : row.Anchored env w) (hrow : row ∈ w.state.sessions)
    {account : AccountRow} (haccount : w.state.accounts.find? row.principal = some account) :
    row.authEpoch ≤ account.authEpoch := by
  obtain ⟨w₀, row₀, hgood, hid, h₀⟩ := h
  obtain ⟨_, hfound, hcontinues⟩ := h₀.sessions _ _ hgood.stored
  have hfind : w.state.sessions.find? row.session = some row := Table.find?_of_mem hrow
  rw [hid, hfind] at hfound
  obtain rfl := Option.some_injective _ hfound
  obtain ⟨hprincipal, hauth, -⟩ := hcontinues.epochs
  obtain ⟨_, haccount', hlater⟩ := h₀.accounts _ _ hgood.account
  rw [← hprincipal, haccount] at haccount'
  obtain rfl := Option.some_injective _ haccount'
  rw [hauth]
  rcases hlater with rfl | hlt
  · exact le_rfl
  · exact hlt.le

/-- In every state reached from provisioning, every session was good once. -/
theorem sessionsAnchored_of_run {s₀ s : System env} {trace : List (Event (System env) (Label env))}
    (hstart : s₀.Provisioned) (hrun : Run (Step env) s₀ trace s) : SessionsAnchored env s.world := by
  refine invariant_of_run (SessionsAnchored env) hstart hrun ?_ ?_ ?_
  · intro w hprovisioned row hrow
    rw [hprovisioned] at hrow
    exact absurd hrow Table.not_mem_empty
  · intro w w' hinv hstate hadvances row hrow
    rw [hstate] at hrow
    exact (hinv row hrow).mono (.of_directory hadvances (by rw [hstate])) rfl
  · intro start w a db _ hinv heffect
    exact heffect.sessionsAnchored hinv

/-- What a session that is accepted later shows of the present: it is good here, not revoked, and
its lifetime is not over. -/
structure SessionRow.Alive (env : Env) (w : Tenant) (row : SessionRow) : Prop where
  good : row.Good env w
  unrevoked : row.revokedAt = none
  unexpired : seconds w.clock < row.idleExpiresAt ∧ seconds w.clock < row.absoluteExpiresAt

/-- A good session was, in between, what it is later: at the same account. -/
theorem SessionRow.Good.account_between {row₀ : SessionRow} {w₀ : Tenant} {state : AccountState}
    (hgood : row₀.Good env w₀) (h₀ : Follows w₀ w) (h : Follows w w') (hholds : w'.state.Holds state)
    (hkey : state.key = row₀.principal) (hepoch : row₀.authEpoch = state.epoch) :
    w.state.accounts.find? row₀.principal = some ⟨row₀.principal, true, row₀.authEpoch⟩ := by
  obtain ⟨account, haccount, hlater⟩ := h₀.accounts _ _ hgood.account
  obtain ⟨account', haccount', hlater'⟩ := h.accounts _ _ haccount
  have hcurrent := hholds.account
  rw [hkey, haccount'] at hcurrent
  obtain rfl := Option.some_injective _ hcurrent
  rw [haccount, hlater.between hlater' hepoch.symm]

/-- A good session was, in between, what it is later: at the same membership. -/
theorem SessionRow.Good.membership_between {row₀ : SessionRow} {w₀ : Tenant} {state : AccountState}
    (hgood : row₀.Good env w₀) (h₀ : Follows w₀ w) (h : Follows w w') (hholds : w'.state.Holds state)
    (hkey : state.key = row₀.principal) (hepoch : row₀.membershipEpoch = state.membershipEpoch) :
    w.state.memberships.find? row₀.principal =
      some ⟨row₀.principal, true, row₀.membershipEpoch⟩ := by
  obtain ⟨membership, hmembership, hlater⟩ := h₀.memberships _ _ hgood.membership
  obtain ⟨membership', hmembership', hlater'⟩ := h.memberships _ _ hmembership
  have hcurrent := hholds.membership
  rw [hkey, hmembership'] at hcurrent
  obtain rfl := Option.some_injective _ hcurrent
  obtain ⟨hactive, hsame⟩ := hlater.between hlater' hepoch.symm
  have hprincipal : membership.principal = row₀.principal := Table.key_of_find? hmembership
  obtain ⟨principal, active, epoch⟩ := membership
  simp only at hactive hsame hprincipal
  rw [hmembership, hactive, hsame, hprincipal]

/-- An origin that was good and is good later was good in between. -/
theorem SessionRow.backed_between {w₀ : Tenant} {key : AccountKey} {o : Option Origin}
    (hbacked : SessionRow.Backed env w₀.state key o) (h₀ : Follows w₀ w) (h : Follows w w')
    (hlater : SessionRow.Backed env w'.state key o) : SessionRow.Backed env w.state key o := by
  cases o with
  | none => trivial
  | some o =>
    obtain ⟨identity, provider, hbacks, hsource⟩ := hbacked
    obtain ⟨identity', provider', hbacks', -⟩ := hlater
    obtain ⟨bound, hbound, rfl⟩ := h₀.externalIdentities _ _ hbacks.bound
    obtain ⟨bound', hbound', rfl⟩ := h.externalIdentities _ _ hbound
    obtain rfl : identity' = bound' := Option.some_injective _ (hbacks'.bound.symm.trans hbound')
    obtain ⟨middle, hmiddle, hmoved⟩ := h₀.providers _ _ hbacks.configured
    obtain ⟨last, hlast, hmoved'⟩ := h.providers _ _ hmiddle
    obtain rfl : provider' = last :=
      Option.some_injective _ (hbacks'.configured.symm.trans hlast)
    obtain rfl := hmoved.between hmoved' (hbacks'.version.trans hbacks.version.symm)
    exact ⟨identity', middle, ⟨hbound, hmiddle, hbacks.enabled, hbacks.epoch, hbacks.version,
      hbacks.principal⟩, hsource⟩

/-- What is left of a session later has its lifetime, but for the idle expiry. -/
theorem SessionRow.Continues.unexpired {now now' : ℤ} {next : SessionRow} {lifetime : SessionLifetime}
    (h : row.Continues now next) (hlifetime : next.lifetime = some lifetime) (hnow : now ≤ now')
    (hvalid : lifetime.validAt now' = true) :
    now < row.idleExpiresAt ∧ now < row.absoluteExpiresAt := by
  obtain ⟨-, hidle, habsolute⟩ := SessionRow.lifetime_eq_some hlifetime
  obtain ⟨-, hlive, hopen⟩ := of_decide_eq_true hvalid
  have hfixed : next.absoluteExpiresAt = row.absoluteExpiresAt := by rw [h.fixed]
  constructor
  · by_cases hmoved : next.idleExpiresAt = row.idleExpiresAt
    · omega
    · exact h.live hmoved
  · omega

/-- A session that is accepted is alive in every world before, as far as it was stored there. -/
theorem SessionRow.Anchored.alive {loaded : Loaded} {next : SessionRow}
    (hanchored : row.Anchored env w) (hrow : row ∈ w.state.sessions) (h : Follows w w')
    (hof : loaded.Of env w' next) (hview : loaded.view.id = row.session) : row.Alive env w := by
  obtain ⟨w₀, row₀, hgood, hid, h₀⟩ := hanchored
  have hfind : w.state.sessions.find? row.session = some row := Table.find?_of_mem hrow
  obtain ⟨_, hrow₀, hcontinues₀⟩ := h₀.sessions _ _ hgood.stored
  rw [hid, hfind] at hrow₀
  obtain rfl := Option.some_injective _ hrow₀
  obtain ⟨_, hnext, hcontinues⟩ := h.sessions _ _ hfind
  have hfound := hof.found
  rw [hview, hnext] at hfound
  obtain rfl := Option.some_injective _ hfound
  obtain ⟨hprincipal₀, hauth₀, hmember₀⟩ := hcontinues₀.epochs
  obtain ⟨hprincipal, hauth, hmember⟩ := hcontinues.epochs
  have hcurrent := hof.current
  have hauthEpoch : row₀.authEpoch = loaded.state.epoch := by
    rw [← hauth₀, ← hauth, hcurrent.authEpoch]
  have hmembershipEpoch : row₀.membershipEpoch = loaded.state.membershipEpoch := by
    rw [← hmember₀, ← hmember, hcurrent.membershipEpoch]
  have hkey₀ : loaded.state.key = row₀.principal := by
    rw [← hprincipal₀, ← hprincipal, hcurrent.principal]
  have haccount := hgood.account_between h₀ h hof.holds hkey₀ hauthEpoch
  have hmembership := hgood.membership_between h₀ h hof.holds hkey₀ hmembershipEpoch
  rw [← hprincipal₀, ← hauth₀] at haccount
  rw [← hprincipal₀, ← hmember₀] at hmembership
  obtain ⟨o, hhas, hbacked⟩ := hgood.origin
  obtain ⟨o', hhas', hbacked'⟩ := hof.backed
  have hsame : o = o' :=
    (hcontinues₀.hasOrigin.mpr hhas).unique (hcontinues.hasOrigin.mp hhas')
  rw [← hsame, hkey₀] at hbacked'
  refine ⟨⟨hfind, haccount, hmembership, o, hcontinues₀.hasOrigin.mpr hhas, ?_⟩, ?_, ?_⟩
  · rw [hprincipal₀]
    exact SessionRow.backed_between hbacked h₀ h hbacked'
  · cases hrevoked : row.revokedAt with
    | none => rfl
    | some t =>
      have hlater := hcontinues.revoked (by simp [hrevoked])
      rw [hcurrent.unrevoked] at hlater
      cases hlater
  · have hnow : seconds w.clock ≤ loaded.now := by
      rw [hof.now]
      exact seconds_mono (h.advances.clock.trans w'.clock_le_tick)
    exact hcontinues.unexpired hof.lifetime hnow hof.valid

/-- A session that is alive is not refused. -/
theorem SessionRow.Alive.not_refused (h : row.Alive env w) : ¬ row.Refused env w := by
  obtain ⟨⟨hstored, haccount, hmembership, o, hhas, hbacked⟩, hunrevoked, hidle, habsolute⟩ := h
  have hstate : ∀ state : AccountState, w.state.Holds state → state.key = row.principal →
      state.active = true ∧ row.authEpoch = state.epoch ∧
        row.membershipEpoch = state.membershipEpoch := by
    intro state hholds hkey
    have haccount' := hholds.account
    have hmembership' := hholds.membership
    rw [hkey, haccount, Option.some.injEq, AccountRow.mk.injEq] at haccount'
    rw [hkey, hmembership, Option.some.injEq, MembershipRow.mk.injEq] at hmembership'
    refine ⟨?_, haccount'.2.2, hmembership'.2.2⟩
    simp [AccountState.active, ← haccount'.2.1, ← hmembership'.2.1]
  intro hrefused
  cases hrefused with
  | inactive hholds hkey hinactive =>
    rw [(hstate _ hholds hkey).1] at hinactive
    cases hinactive
  | authEpoch hholds hkey hne => exact hne (hstate _ hholds hkey).2.1
  | membershipEpoch hholds hkey hne => exact hne (hstate _ hholds hkey).2.2
  | revoked hrevoked =>
    rw [hunrevoked] at hrevoked
    cases hrevoked
  | origin hhas' hfails =>
    obtain rfl := hhas.unique hhas'
    obtain ⟨identity, provider, hbacks, hsource⟩ := hbacked
    obtain ⟨source, hsource⟩ := Option.isSome_iff_exists.mp hsource
    exact hfails source w (run_checkOrigin.mpr ⟨rfl, identity, provider, hbacks, hsource⟩)
  | expired hlifetime hover =>
    obtain ⟨-, hidle', habsolute'⟩ := SessionRow.lifetime_eq_some hlifetime
    omega

variable {s₀ s s' : System env} {trace trace' : List (Event (System env) (Label env))}

/-- Session death is permanent: a session that is refused in a state reached, for its account, an
epoch, a revocation, its origin or its lifetime, is accepted in no state of any run from there. -/
theorem sessionDeath_permanent (hstart : s₀.Provisioned) (hrun : Run (Step env) s₀ trace s)
    (hrow : row ∈ s.world.state.sessions) (hrefused : row.Refused env s.world)
    (hlater : Run (Step env) s trace' s') (checks : Option PlatformVerifier) (loaded : Loaded)
    (w : Tenant) : (byId env row.principal row.session checks).run s'.world ≠ .ok (loaded, w) := by
  intro haccepted
  have hanchored := sessionsAnchored_of_run hstart hrun row hrow
  obtain ⟨-, hview, -, next, hof⟩ := run_byId haccepted
  exact (hanchored.alive hrow (follows_of_run hlater) hof hview).not_refused hrefused

/-- The session of a first login, half an hour later, is over for good. -/
theorem firstSession_over : ∃ row ∈ signedInWorld.state.sessions, ∀ checks loaded w,
    (byId .transparent row.principal row.session checks).run
      { signedInWorld with clock := 2000000000 } ≠ .ok (loaded, w) := by
  have hone : (signedInWorld.state.sessions.rows.map fun row =>
      row.lifetime.map SessionLifetime.idleExpiresAt) = [some 1900] := by decide +kernel
  obtain ⟨row, hrows⟩ := List.map_eq_singleton_iff.mp hone
  have hrow : row ∈ signedInWorld.state.sessions := by
    rw [← Table.mem_rows, hrows.1]
    exact List.mem_singleton_self _
  obtain ⟨lifetime, hlifetime, hidle⟩ := Option.map_eq_some_iff.mp hrows.2
  obtain ⟨trace, held, hrun⟩ := signedIn_reachable
  have hadvances : signedInWorld.Advances { signedInWorld with clock := 2000000000 } :=
    ⟨by decide +kernel, le_rfl⟩
  have hstep : Step .transparent ⟨signedInWorld, held⟩ .elapse
      ⟨{ signedInWorld with clock := 2000000000 }, held⟩ := .elapse rfl hadvances
  refine ⟨row, hrow, fun checks loaded w => ?_⟩
  refine sessionDeath_permanent ⟨rfl, rfl⟩ (hrun.step hstep) hrow
    (.expired hlifetime (.inl ?_)) .start checks loaded w
  rw [hidle]
  show 1900 ≤ seconds 2000000000
  decide

end IdentityAuthority
