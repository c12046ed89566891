import IdentityAuthority.Safety.SessionDeath
import IdentityAuthority.Storage.Deadlines

/-!
# Issued sessions are usable

What a session is issued with passes every check it is loaded under, from its issue to its idle
expiry: the loader asks for nothing that the issuer did not establish. A session fails later only
because its account, its provider or the session itself was changed.
-/

namespace IdentityAuthority

open Relational Transition

variable {env : Env} {w w' : Tenant} {key : AccountKey} {row : SessionRow}

section Loading

/-- An account whose rows are there can be loaded. -/
theorem load_succeeds {enabled active : Bool} {epoch membershipEpoch : ℤ}
    (haccount : w.state.accounts.find? key = some ⟨key, enabled, epoch⟩)
    (hmembership : w.state.memberships.find? key = some ⟨key, active, membershipEpoch⟩) :
    ∃ stored : Stored, (load key).run w = .ok (stored, w) ∧ stored.state.key = key ∧
      stored.state.enabled = enabled ∧ stored.state.memberActive = active ∧
      stored.state.epoch = epoch ∧ stored.state.membershipEpoch = membershipEpoch := by
  have hepoch : 0 < epoch := Table.check_of_mem (Table.mem_of_find? haccount)
  have hmember : 0 < membershipEpoch := Table.check_of_mem (Table.mem_of_find? hmembership)
  have hrestore : (AccountState.restore key enabled active epoch
      (w.state.localCredentials.find? key).isSome membershipEpoch).toOption =
        some ⟨key, enabled, active, epoch, (w.state.localCredentials.find? key).isSome,
          membershipEpoch, hepoch, hmember⟩ := by
    rw [AccountState.restore, dif_pos ⟨hepoch, hmember⟩]
    rfl
  have hhash : ∀ c ∈ w.state.localCredentials.find? key, c.passwordHash.utf8ByteSize ≤ 256 := by
    intro c hc
    exact (Table.check_of_mem (Table.mem_of_find? hc)).2.2
  refine ⟨⟨⟨key, enabled, active, epoch, (w.state.localCredentials.find? key).isSome,
    membershipEpoch, hepoch, hmember⟩, (w.state.localCredentials.find? key).map
      LocalCredentialRow.passwordHash⟩, ?_, rfl, rfl, rfl, rfl, rfl⟩
  simp only [load, Tx.run_bind, Tx.run_find, Tx.run_demand, Tx.run_require, Tx.run_pure]
  exact ⟨_, w, ⟨rfl, rfl⟩, _, w, ⟨haccount, rfl⟩, _, w, ⟨rfl, rfl⟩, _, w, ⟨hmembership, rfl⟩, _, w,
    ⟨rfl, rfl⟩, _, w, ⟨hrestore, rfl⟩, (), w, ⟨hhash, rfl⟩, rfl, rfl⟩

/-- The origin of a stored session can be read. -/
theorem origin_succeeds {o : Option Origin} (hrow : w.state.sessions.find? row.session = some row)
    (hhas : row.HasOrigin o) : (origin row.session).run w = .ok (o, w) := by
  have hchecked : row.Checked := Table.check_of_mem (Table.mem_of_find? hrow)
  simp only [origin, Tx.run_bind, Tx.run_find, Tx.run_demand, Tables.sessions_get]
  refine ⟨_, _, ⟨rfl, rfl⟩, row, _, ⟨hrow, rfl⟩, ?_⟩
  cases hhas with
  | own hnone =>
    have hsource := hchecked.source
    simp only [SessionRow.Source, hnone] at hsource
    simp only [hnone, Tx.run_bind, Tx.run_require]
    exact ⟨(), _, ⟨⟨hsource.1, hsource.2.1⟩, rfl⟩, Tx.run_pure.mpr ⟨rfl, rfl⟩⟩
  | @upstream o hidentity hepoch hfacts hsequence hdecodable =>
    simp only [hidentity, hepoch, hfacts, hsequence, Tx.run_bind, Tx.run_demand, Tx.run_ofExcept,
      Tx.run_pure]
    exact ⟨_, _, ⟨rfl, rfl⟩, _, _, ⟨rfl, rfl⟩, _, _, ⟨rfl, rfl⟩, _, _,
      ⟨AuthenticationFacts.decode_eq_ok.mpr ⟨hdecodable, rfl⟩, rfl⟩, rfl, rfl⟩

/-- The origin of a good session passes its check. -/
theorem checkedOrigin_succeeds {o : Option Origin}
    (hrow : w.state.sessions.find? row.session = some row) (hhas : row.HasOrigin o)
    (hbacked : SessionRow.Backed env w.state key o) :
    ∃ source, (checkedOrigin env key row.session).run w = .ok ((o, source), w) ∧
      source.isSome = o.isSome := by
  have horigin := origin_succeeds hrow hhas
  cases o with
  | none =>
    refine ⟨none, ?_, rfl⟩
    simp only [checkedOrigin, Tx.run_bind]
    exact ⟨_, _, horigin, Tx.run_pure.mpr ⟨rfl, rfl⟩⟩
  | some o =>
    obtain ⟨identity, provider, hbacks, hsource⟩ := hbacked
    obtain ⟨source, hsource⟩ := Option.isSome_iff_exists.mp hsource
    have hcheck : (checkOrigin env key o).run w = .ok (source, w) :=
      run_checkOrigin.mpr ⟨rfl, identity, provider, hbacks, hsource⟩
    refine ⟨some source, ?_, rfl⟩
    simp only [checkedOrigin, Tx.run_bind]
    refine ⟨_, _, horigin, ?_⟩
    simp only [Tx.run_bind, Tx.run_pure]
    exact ⟨source, _, hcheck, rfl, rfl⟩

/-- A session that may be loaded: it is good and not revoked, its facts were in time when it was
issued, and the reading that follows lies in its lifetime. -/
structure SessionRow.Loadable (env : Env) (w : Tenant) (row : SessionRow) : Prop where
  good : row.Good env w
  unrevoked : row.revokedAt = none
  source : row.authenticationSource ≠ .platform
  timely : ∀ facts ∈ row.authFacts, facts.Timely row.issuedAt
  bounded : row.absoluteTimeout ≤ 1000000000000
  clock : isI64 w.tick.clock = true
  issued : row.issuedAt ≤ seconds w.tick.clock
  unexpired : seconds w.tick.clock < row.idleExpiresAt

theorem SessionRow.Loadable.checked (h : row.Loadable env w) : row.Checked :=
  Table.check_of_mem (Table.mem_of_find? h.good.stored)

/-- What is known of the times of a session and the reading it is judged at. -/
theorem SessionRow.Loadable.times (h : row.Loadable env w) :
    0 < row.issuedAt ∧ 0 < w.tick.clock ∧ seconds w.tick.clock < row.absoluteExpiresAt ∧
      row.idleExpiresAt ≤ seconds w.tick.clock + 1000000000000 ∧
      seconds w.tick.clock ≤ 9223372036854 := by
  have hchecked := h.checked
  have hpos := hchecked.issuedAt_pos
  have hlifetime := hchecked.lifetime
  have hduration := hchecked.duration
  have hbounded := h.bounded
  have hissued := h.issued
  have hunexpired := h.unexpired
  have hclock := of_decide_eq_true h.clock
  unfold i64Min i64Max at hclock
  unfold seconds at *
  omega

/-- A good session is admitted at a reading in its lifetime. -/
theorem SessionRow.Good.admitted (h : row.Good env w) (hunrevoked : row.revokedAt = none)
    (hissued : row.issuedAt ≤ seconds w.tick.clock)
    (hunexpired : seconds w.tick.clock < row.idleExpiresAt)
    (habsolute : seconds w.tick.clock < row.absoluteExpiresAt) :
    ∃ admitted : Admitted, (admitSession env row.principal row.session).run w =
        .ok (admitted, w.tick) ∧ admitted.row = row ∧ row.HasOrigin admitted.origin ∧
      admitted.factSource.isSome = admitted.origin.isSome ∧
      row.lifetime = some admitted.lifetime ∧ admitted.micros = w.tick.clock := by
  have hchecked : row.Checked := Table.check_of_mem (Table.mem_of_find? h.stored)
  have hclock : 0 < w.tick.clock := by
    have hpos := hchecked.issuedAt_pos
    unfold seconds at hissued
    omega
  obtain ⟨stored, hload, hkey, henabled, hactive, hepoch, hmembership⟩ :=
    load_succeeds h.account h.membership
  obtain ⟨o, hhas, hbacked⟩ := h.origin
  obtain ⟨source, horigin, hsame⟩ := checkedOrigin_succeeds h.stored hhas hbacked
  obtain ⟨lifetime, hlifetime⟩ := hchecked.lifetime_isSome
  obtain ⟨hissuedAt, hidle, hexpires⟩ := SessionRow.lifetime_eq_some hlifetime
  have hcurrent : row.Current row.principal stored.state := by
    refine ⟨rfl, ?_, hepoch.symm, hmembership.symm, hunrevoked⟩
    simp only [AccountState.active, henabled, hactive, Bool.and_self]
  have hvalid : lifetime.validAt (seconds w.tick.clock) = true := by
    apply decide_eq_true
    rw [hissuedAt, hidle, hexpires]
    exact ⟨hissued, hunexpired, habsolute⟩
  refine ⟨⟨stored.state, row, o, source, lifetime, w.tick.clock⟩, ?_, rfl, hhas, hsame, hlifetime, rfl⟩
  simp only [admitSession, Tx.run_bind, Tx.run_find, Tx.run_demand, Tx.run_require,
    Tx.run_clockTimestamp, Tx.run_pure, Tables.sessions_get]
  exact ⟨_, w, hload, _, w, ⟨rfl, rfl⟩, _, w, ⟨h.stored, rfl⟩, (), w, ⟨hcurrent, rfl⟩, _, w,
    horigin, _, w, ⟨hlifetime, rfl⟩, _, w.tick, ⟨rfl, rfl⟩, (), w.tick, ⟨hclock, rfl⟩, (), w.tick,
    ⟨hvalid, rfl⟩, rfl, rfl⟩

/-- A session that may be loaded is admitted. -/
theorem SessionRow.Loadable.admitted (h : row.Loadable env w) :
    ∃ admitted : Admitted, (admitSession env row.principal row.session).run w =
        .ok (admitted, w.tick) ∧ admitted.row = row ∧ row.HasOrigin admitted.origin ∧
      admitted.factSource.isSome = admitted.origin.isSome ∧
      row.lifetime = some admitted.lifetime ∧ admitted.micros = w.tick.clock := by
  obtain ⟨-, -, habsolute, -, -⟩ := h.times
  exact h.good.admitted h.unrevoked h.issued h.unexpired habsolute

/-- The facts an admitted session may show, and the assurance it was issued with, pass every check
of the loader; so do the deadlines of the facts. -/
theorem SessionRow.Loadable.facts (h : row.Loadable env w) {admitted : Admitted}
    (hrow : admitted.row = row) (hhas : row.HasOrigin admitted.origin)
    (hsource : admitted.factSource.isSome = admitted.origin.isSome)
    (hmicros : admitted.micros = w.tick.clock) {sample : TimeSample}
    (hsample : sample.micros = w.tick.clock) (hroom : sample.started.HasRoom)
    (checks : Option PlatformVerifier) :
    (∃ department, admitted.department = .ok department ∧
      ∃ instant, department.deadline sample = .ok instant) ∧
    ∃ assurance groups, (assuranceAndGroups env row.principal checks admitted).run w.tick =
        .ok ((assurance, groups), w.tick) ∧
      assurance.accepted .login row.issuedAt admitted.now = true ∧
      groups.structurallyValidAt admitted.now = true ∧
      ∃ instant, groups.deadline sample = .ok instant := by
  obtain ⟨hissued, hclock, -, -, hmax⟩ := h.times
  have hnow : admitted.now = seconds w.tick.clock := by rw [Admitted.now, hmicros]
  have hafter := h.issued
  have hkind := h.checked.kind
  rw [← hnow] at hafter hmax
  have hpos : 0 < admitted.now := hissued.trans_le hafter
  have hi64 : admitted.now ≤ i64Max := hmax.trans (by decide)
  have hseconds : sample.seconds = admitted.now := by rw [hnow, TimeSample.seconds, hsample]
  obtain ⟨state, row', o, source, lifetime, micros⟩ := admitted
  simp only at hrow hhas hsource
  subst hrow
  cases hhas with
  | own hnone =>
    obtain rfl : source = none := by simpa using hsource
    refine ⟨⟨_, rfl, none, rfl⟩, ?_⟩
    unfold SessionRow.AuthenticationKind at hkind
    cases hauthentication : row'.authenticationSource with
    | platform => exact absurd hauthentication h.source
    | oidc =>
      rw [hauthentication] at hkind
      simp [hnone] at hkind
    | localPassword =>
      rw [hauthentication] at hkind
      obtain ⟨⟨time, htime, htimePos, htimeLe⟩, -⟩ := hkind
      have hassurance : (Assurance.password time).toOption =
          some ⟨some time, .unspecified, [.pwd], by simpa using htimePos, by simp, by decide⟩ := by
        rw [Assurance.password, Assurance.new, dif_pos ⟨by simpa using htimePos, by simp, by decide⟩]
        rfl
      refine ⟨⟨some time, .unspecified, [.pwd], by simpa using htimePos, by simp, by decide⟩,
        .unavailable .localIdentity, ?_, ?_, rfl, _, rfl⟩
      · simp only [assuranceAndGroups, hauthentication, Tx.run_bind, Tx.run_demand, Tx.run_pure]
        exact ⟨_, w.tick, ⟨htime, rfl⟩, _, w.tick, ⟨hassurance, rfl⟩, rfl, rfl⟩
      · apply decide_eq_true
        refine ⟨hissued, hafter, ?_, by simp, by simp⟩
        intro t ht
        obtain rfl : time = t := by simpa using ht
        unfold saturatingAdd i64Max
        omega
  | @upstream o hidentity hepoch hfacts hsequence hdecodable =>
    obtain ⟨source, rfl⟩ := Option.isSome_iff_exists.mp (hsource.trans rfl)
    have htimely := (h.timely o.facts hfacts).mono hafter
    obtain ⟨department, hdepartment, hdepartmentEnds⟩ :=
      AuthenticationFacts.department_succeeds hdecodable htimely hpos hi64 hroom hseconds source
        o.facts.providerConfigVersion
    obtain ⟨groups, hproject, hgroups, hgroupsEnd⟩ :=
      AuthenticationFacts.project_succeeds hdecodable htimely hpos hi64 hroom hseconds source
    refine ⟨⟨department, hdepartment, hdepartmentEnds⟩, o.facts.assurance, groups, ?_, ?_, hgroups,
      hgroupsEnd⟩
    · unfold SessionRow.AuthenticationKind at hkind
      cases hauthentication : row'.authenticationSource with
      | platform => exact absurd hauthentication h.source
      | localPassword =>
        rw [hauthentication] at hkind
        rw [hkind.2.2] at hidentity
        cases hidentity
      | oidc =>
        simp only [assuranceAndGroups, hauthentication, Tx.run_bind, Tx.run_ofExcept, Tx.run_pure]
        exact ⟨_, w.tick, ⟨hproject, rfl⟩, rfl, rfl⟩
    · apply AuthenticationFacts.login_accepted htimely hissued hafter
      unfold i64Max maxFutureSkewSeconds
      omega

/-- The session is loaded, with all its deadlines, at the reading that follows, and renewed there. -/
def SessionRow.Usable (env : Env) (w : Tenant) (row : SessionRow) : Prop :=
  ∀ (checks : Option PlatformVerifier) (started : Instant), started.HasRoom →
    ∃ loaded deadlines, (timedById env row.principal row.session checks started).run w =
        .ok ((loaded, deadlines), w.tick) ∧
      ∃ touched w', (timedTouch loaded started).run w.tick = .ok (touched, w')

/-- A renewal of a session that may be loaded succeeds. -/
theorem SessionRow.Loadable.renewed (h : row.Loadable env w) {lifetime : SessionLifetime}
    (hlifetime : row.lifetime = some lifetime) :
    ∃ next, lifetime.renew (seconds w.tick.clock) = some next ∧
      row.issuedAt < next.idleExpiresAt ∧ next.idleExpiresAt ≤ row.absoluteExpiresAt := by
  obtain ⟨hissued, -, habsolute, -, hmax⟩ := h.times
  have hlifetime' := hlifetime
  simp only [SessionRow.lifetime, Option.bind_eq_bind, Option.bind_eq_some_iff] at hlifetime'
  obtain ⟨policy, hpolicy, hrestore⟩ := hlifetime'
  obtain ⟨-, hsame, hissuedAt, hidle, hexpires⟩ := SessionLifetime.restore_eq_some.mp hrestore
  have hle := h.checked.idle_le
  have hpos := h.checked.idleTimeout_pos
  have hbounded := h.bounded
  rw [SessionPolicy.new, dif_pos ⟨hpos, hle⟩, Option.some.injEq] at hpolicy
  have hpolicyIdle : lifetime.policy.idle = row.idleTimeout := by rw [hsame, ← hpolicy]
  have hvalid : lifetime.validAt (seconds w.tick.clock) = true := by
    apply decide_eq_true
    rw [hissuedAt, hidle, hexpires]
    exact ⟨h.issued, h.unexpired, habsolute⟩
  have hfits : isI64 (seconds w.tick.clock + lifetime.policy.idle) = true := by
    have hissuedLe := h.issued
    apply decide_eq_true
    unfold i64Min i64Max
    omega
  refine ⟨_, by rw [SessionLifetime.renew, if_pos (by rw [hvalid, hfits]; rfl)], ?_, ?_⟩
  · rw [← hissuedAt]
    exact lt_of_lt_of_le lifetime.issuedAt_lt (le_max_left _ _)
  · rw [← hexpires]
    exact max_le lifetime.idle_le_absolute (min_le_right _ _)

/-- The renewed row can be stored. -/
theorem SessionRow.Loadable.renewal_stored (h : row.Loadable env w) {idle : ℤ}
    (hstart : row.issuedAt < idle) (hend : idle ≤ row.absoluteExpiresAt) :
    ∃ t, w.tick.state.sessions.updateWhere (fun r => decide (r.session = row.session))
      (fun r => { r with idleExpiresAt := idle }) = some t := by
  apply Table.updateWhere_succeeds
  · exact fun _ => rfl
  · intro r s hcollide
    have hsame : ∀ r : SessionRow, (if decide (r.session = row.session) = true then
        { r with idleExpiresAt := idle } else r).tokenHash = r.tokenHash := by
      intro r
      split <;> rfl
    exact (hsame r).symm.trans (Eq.trans hcollide (hsame s))
  · intro r hr hp
    have hfind : w.state.sessions.find? r.session = some r := Table.find?_of_mem hr
    rw [of_decide_eq_true hp, h.good.stored] at hfind
    obtain rfl := Option.some_injective _ hfind
    exact { h.checked with lifetime := ⟨hstart, hend⟩ }

/-- A session that may be loaded is loaded, with every deadline. -/
theorem SessionRow.Loadable.loaded (h : row.Loadable env w) (checks : Option PlatformVerifier)
    {started : Instant} (hroom : started.HasRoom) :
    ∃ loaded deadlines, (timedById env row.principal row.session checks started).run w =
        .ok ((loaded, deadlines), w.tick) ∧ row.lifetime = some loaded.lifetime ∧
      loaded.view.id = row.session ∧ loaded.micros = w.tick.clock ∧
      loaded.now = seconds w.tick.clock := by
  obtain ⟨hissued, -, -, hahead, -⟩ := h.times
  obtain ⟨admitted, hadmitted, hrow, hhas, hsource, hlifetime, hmicros⟩ := h.admitted
  obtain ⟨⟨department, hdepartment, departmentEnds, hends⟩, assurance, groups, hgroups, haccepted,
    hvalid, groupsEnd, hgroupsEnds⟩ :=
      h.facts hrow hhas hsource hmicros (show (⟨started, _⟩ : TimeSample).micros = w.tick.clock from rfl)
        hroom checks
  obtain ⟨hissuedAt, hidle, -⟩ := SessionRow.lifetime_eq_some hlifetime
  rw [← hissuedAt] at haccepted
  obtain ⟨expires, hexpires⟩ : ∃ expires,
      (⟨started, w.tick.clock⟩ : TimeSample).deadline admitted.lifetime.idleExpiresAt =
        .ok expires := by
    apply TimeSample.deadline_succeeds hroom
    · rw [hidle]
      exact hissued.trans h.checked.lifetime.1
    · rw [hidle]
      exact hahead
  obtain ⟨loaded, hloaded, hsame, hid, hreading, hnow, hgroupsOf, hdepartmentOf⟩ : ∃ loaded,
      (byId env row.principal row.session checks).run w = .ok (loaded, w.tick) ∧
      loaded.lifetime = admitted.lifetime ∧ loaded.view.id = row.session ∧
      loaded.micros = admitted.micros ∧ loaded.now = admitted.now ∧ loaded.groups = groups ∧
      loaded.departmentSnapshot = department := by
    refine ⟨{ source := admitted.row.authenticationSource
              assurance
              groups
              departmentSnapshot := department
              micros := admitted.micros
              state := admitted.state
              view := .new row.session admitted.lifetime admitted.row.credentialKind
              lifetime := admitted.lifetime
              now := admitted.now }, ?_, rfl, rfl, rfl, rfl, rfl, rfl⟩
    simp only [byId, Tx.run_bind, Tx.run_ofExcept, Tx.run_require, Tx.run_pure]
    exact ⟨_, _, hadmitted, _, w.tick, ⟨hdepartment, rfl⟩, _, _, hgroups, (), w.tick,
      ⟨haccepted, rfl⟩, (), w.tick, ⟨hvalid, rfl⟩, rfl, rfl⟩
  refine ⟨loaded, ⟨departmentEnds, groupsEnd, expires⟩, ?_, by rw [hsame, hlifetime], hid,
    hreading.trans hmicros, by rw [hnow, Admitted.now, hmicros]⟩
  simp only [timedById, Tx.run_bind, Tx.run_ofExcept, Tx.run_pure]
  refine ⟨_, _, hloaded, _, w.tick, ⟨?_, rfl⟩, rfl, rfl⟩
  simp only [Loaded.deadlines, hreading, hmicros, hgroupsOf, hdepartmentOf, hsame, hends, hgroupsEnds,
    hexpires, bind, Except.bind]

/-- What may be loaded is usable. -/
theorem SessionRow.Loadable.usable (h : row.Loadable env w) : row.Usable env w := by
  intro checks started hroom
  obtain ⟨loaded, deadlines, hrun, hlifetime, hid, hmicros, hnow⟩ := h.loaded checks hroom
  obtain ⟨hissued, -, -, -, -⟩ := h.times
  obtain ⟨next, hrenew, hstart, hend⟩ := h.renewed hlifetime
  obtain ⟨t, ht⟩ := h.renewal_stored hstart hend
  obtain ⟨ends, hendsAt⟩ : ∃ ends,
      (⟨started, w.tick.clock⟩ : TimeSample).deadline next.idleExpiresAt = .ok ends := by
    have hduration := h.checked.duration
    have hbounded := h.bounded
    have hafter := h.issued
    apply TimeSample.deadline_succeeds hroom
    · exact hissued.trans hstart
    · unfold TimeSample.seconds
      simp only
      omega
  refine ⟨loaded, deadlines, hrun, ({ loaded with
      lifetime := next
      view := .new loaded.view.id next loaded.view.credentialKind }, ends),
    { w.tick with state := { w.tick.state with sessions := t } }, ?_⟩
  simp only [timedTouch, touch, Tx.run_bind, Tx.run_demand, Tx.run_updateIn, Tx.run_ofExcept,
    Tx.run_pure, Tables.sessionsUntracked_get, Tables.sessionsUntracked_put]
  rw [hnow, hmicros, hid]
  exact ⟨_, _, ⟨next, w.tick, ⟨hrenew, rfl⟩, _, _, ⟨t, _, ht, rfl, rfl, rfl⟩, rfl, rfl⟩, ends, _,
    ⟨hendsAt, rfl⟩, rfl, rfl⟩

end Loading

section Intents

variable {areas : List Area} {start : Tenant}

/-- The facts that a reauthentication left with an intent were in time then. -/
def LinkIntentRow.Timely (row : LinkIntentRow) (now : ℤ) : Prop :=
  row.stage = LinkStage.reauthenticationRequired.code ∨ ∀ facts ∈ row.sourceFacts, facts.Timely now

/-- Every intent past its first stage has facts that were in time. -/
def IntentsTimely (w : Tenant) : Prop :=
  ∀ row ∈ w.state.linkIntents, row.Timely (seconds w.clock)

theorem LinkIntentRow.Timely.mono {row : LinkIntentRow} {now now' : ℤ} (h : row.Timely now)
    (hnow : now ≤ now') : row.Timely now' := by
  rcases h with hstage | htimely
  · exact .inl hstage
  · exact .inr fun facts hfacts => (htimely facts hfacts).mono hnow

theorem IntentsTimely.of_subset (h : IntentsTimely w) (hclock : w.clock ≤ w'.clock)
    (hsubset : ∀ row ∈ w'.state.linkIntents, row ∈ w.state.linkIntents) : IntentsTimely w' :=
  fun row hrow => (h row (hsubset row hrow)).mono (seconds_mono hclock)

/-- Intents are in time as long as none is inserted and none is proved. -/
theorem Effects.intentsTimely (hi : .intents ∉ areas) (hp : .proofs ∉ areas)
    (h : Effects env areas start w w') (hinv : IntentsTimely w) : IntentsTimely w' := by
  induction h with
  | refl => exact hinv
  | @tail w₁ w₂ _ hmove ih =>
    cases hmove with
    | pass hstate hadvances =>
      exact ih.of_subset hadvances.clock fun row hrow => by rwa [hstate] at hrow
    | @write a db ha heffect =>
      by_cases hcompletion : a = .completion
      · subst hcompletion
        cases heffect with
        | intentsCompleted ht =>
          intro row hrow
          obtain ⟨old, hold, rfl | ⟨hstage, hcompletes⟩⟩ := ht.exists_before hrow
          · exact ih _ hold
          · rcases ih old hold with hfirst | htimely
            · rw [hstage] at hfirst
              cases hfirst
            · right
              rw [hcompletes]
              exact htimely
      · by_cases hoidc : a = .oidc
        · subst hoidc
          cases heffect with
          | intentsDeleted => exact ih.of_subset le_rfl fun row hrow => (Table.mem_deleteWhere.mp hrow).1
          | _ => exact ih.of_subset le_rfl fun _ hrow => hrow
        · have hsame : db.linkIntents = w₁.state.linkIntents :=
            heffect.linkIntents_eq hoidc (fun heq => hi (heq ▸ ha)) (fun heq => hp (heq ▸ ha))
              hcompletion
          exact ih.of_subset le_rfl fun row hrow => by
            simp only at hrow
            rwa [hsame] at hrow

/-- A link begins with a proof by password, which leaves no facts, or waits for its
reauthentication. -/
theorem beginLink_intentsTimely {request : LinkRequest env} {locator : StateLocator}
    (h : (beginLink env request).run w = .ok (locator, w')) (hinv : IntentsTimely w) :
    IntentsTimely w' := by
  simp only [beginLink, Tx.run_bind, Tx.run_require, Tx.run_ofExcept, run_now, run_newV4,
    Tx.run_insertInto, Tables.linkIntents_put, Tables.linkIntents_get, Tx.run_pure,
    Option.some.injEq] at h
  obtain ⟨-, _, ⟨-, rfl⟩, ⟨locator, material⟩, w₁, hmaterial, loaded, w₂, hrecheck, h⟩ := h
  obtain ⟨-, _, ⟨-, rfl⟩, target, w₃, hprovider, -, _, ⟨-, rfl⟩, _, w₄, hread', h⟩ := h
  obtain ⟨instant, _, ⟨-, rfl⟩, id, _, ⟨-, rfl⟩, facts, _, ⟨hfacts, rfl⟩, h⟩ := h
  obtain ⟨-, _, ⟨t, db, ht, rfl, rfl⟩, _, w₅, hattempt, rfl, rfl⟩ := h
  have hread : Effects env [] w w w₄.tick :=
    (((newMaterial_writes _ _ _ (.refl _) hmaterial).trans
      (recheck_writes _ _ _ (.refl _) hrecheck)).trans
      ((provider_writes _ _ _ (.refl _) hprovider).trans
        (recheckCandidate_writes _ _ _ (.refl _) hread'))).trans Effects.tick
  have hbefore : IntentsTimely w₄.tick := hread.intentsTimely (by simp) (by simp) hinv
  have hdrawn : w₁.drawn = w.drawn + 3 := by rw [(run_newMaterial hmaterial).1]
  have hlocator : locator = ⟨attemptId env w.drawn, request.purpose⟩ := (run_newMaterial hmaterial).2.1
  have hadvances : w₁.Advances w₄ :=
    ((recheck env _).advances _ _ _ hrecheck).trans (((provider env _).advances _ _ _ hprovider).trans
      ((recheckCandidate env _).advances _ _ _ hread'))
  have hlater := hadvances.drawn
  have hdrew : DrawnIn w { w₄.tick with
      state := { w₄.tick.state with linkIntents := t }
      drawn := w₄.tick.drawn + 1 } w.drawn := by
    refine ⟨le_rfl, ?_⟩
    simp only [World.tick_drawn]
    omega
  have hattempted : Effects env [.oidc, .sequence] w _ w₅ :=
    insertAttempt_writes (by simp) (by simp) (by rw [hlocator]) hdrew _ _ _ (.refl _) hattempt
  refine hattempted.intentsTimely (by simp) (by simp) fun row hrow => ?_
  rcases (Table.mem_insert ht).mp hrow with rfl | hold
  · cases hcandidate : request.candidate with
    | none =>
      left
      simp only [LinkRequest.row, LinkRequest.stage, LinkRequest.purpose, hcandidate]
      rfl
    | some candidate =>
      right
      simp only [LinkRequest.keptOrigin, hcandidate, Option.isSome_some, if_true, encodedFacts,
        Except.ok.injEq] at hfacts
      subst hfacts
      simp [LinkRequest.row]
  · exact hbefore row hold

/-- The facts set with an intent are in time, and so are those of the others. -/
theorem setSourceFacts_timely {id : Uuid} {facts : AuthenticationFacts} {sequence : ℤ} {a : Unit}
    (h : (setSourceFacts id facts sequence).run w = .ok (a, w'))
    (htimely : facts.Timely (seconds w.clock)) (hinv : IntentsTimely w) :
    IntentsTimely w' ∧ ∀ row ∈ w'.state.linkIntents, row.intent = id →
      ∀ facts ∈ row.sourceFacts, facts.Timely (seconds w'.clock) := by
  simp only [setSourceFacts, Tx.run_bind, Tx.run_updateIn, Tables.linkIntents_put,
    Tables.linkIntents_get, Tx.run_pure, Option.some.injEq] at h
  obtain ⟨n, _, ⟨t, db, ht, rfl, -, rfl⟩, -, rfl⟩ := h
  constructor
  · intro row hrow
    obtain ⟨old, hold, rfl⟩ := (Table.mem_updateWhere ht).mp hrow
    split
    · right
      intro other hother
      obtain rfl : facts = other := by simpa using hother
      exact htimely
    · exact hinv old hold
  · intro row hrow hid other hother
    obtain ⟨old, hold, rfl⟩ := (Table.mem_updateWhere ht).mp hrow
    by_cases hmatch : old.intent = id
    · simp only [hmatch, decide_true, if_true] at hother
      obtain rfl : facts = other := by simpa using hother
      exact htimely
    · simp only [hmatch, decide_false, Bool.false_eq_true, if_false] at hid

/-- An intent whose facts are in time may leave its first stage. -/
theorem advance_timely {id : Uuid} {stage : LinkStage} {a : Unit}
    (h : (advance id stage).run w = .ok (a, w')) (hinv : IntentsTimely w)
    (htimely : ∀ row ∈ w.state.linkIntents, row.intent = id →
      ∀ facts ∈ row.sourceFacts, facts.Timely (seconds w.clock)) : IntentsTimely w' := by
  simp only [advance, Tx.run_bind, Tx.run_demand, Tx.run_require, Tx.run_updateIn,
    Tables.linkIntents_put, Tables.linkIntents_get, Option.some.injEq] at h
  obtain ⟨next, _, ⟨-, rfl⟩, n, _, ⟨t, db, ht, rfl, -, rfl⟩, -, rfl⟩ := h
  intro row hrow
  obtain ⟨old, hold, rfl⟩ := (Table.mem_updateWhere ht).mp hrow
  by_cases hmatch : old.intent = id ∧ old.stage = stage.code
  · right
    simp only [decide_eq_true hmatch, if_true]
    exact htimely old hold hmatch.1
  · simp only [decide_eq_false hmatch, Bool.false_eq_true, if_false]
    exact hinv old hold

/-- Facts that are collected and encoded at a clock reading are in time there. -/
theorem run_collectFacts_timely {claims : UpstreamClaims} {view : ProviderView env.parsers}
    {mode : AuthenticationMode} {started instant : ℤ} {facts : AuthenticationFacts}
    (haccepted : claims.assurance.accepted mode started instant = true)
    (h : (collectFacts env claims view instant).run w = .ok (facts, w')) : facts.Timely instant := by
  simp only [collectFacts, Tx.run_bind, run_newV4, Tx.run_ofExcept, ofFederation_eq_ok] at h
  obtain ⟨_, _, ⟨-, rfl⟩, _, _, ⟨-, rfl⟩, hcollect, rfl⟩ := h
  exact AuthenticationFacts.collect_timely haccepted hcollect

/-- A reauthentication leaves facts that were in time when it was judged. -/
theorem finishReauthentication_intentsTimely {held : ClaimedAttempt env} {claims : UpstreamClaims}
    {target : ProviderView env.parsers} {outcome : FederatedOutcome}
    (h : (finishReauthentication env held claims target).run w = .ok (outcome, w'))
    (hinv : IntentsTimely w) : IntentsTimely w' := by
  simp only [finishReauthentication, Tx.run_bind, Tx.run_require, Tx.run_demand, Tx.run_ofExcept,
    run_now, Tx.run_pure] at h
  obtain ⟨-, _, ⟨-, rfl⟩, -, _, ⟨-, rfl⟩, -, _, ⟨-, rfl⟩, id, _, ⟨-, rfl⟩, ⟨locator, material⟩, w₁,
    hmaterial, h⟩ := h
  obtain ⟨attempt, w₂, hread, source, w₃, hprovider, -, _, ⟨-, rfl⟩, actor, w₄, hactor, h⟩ := h
  obtain ⟨found, w₅, hintent, o, _, ⟨-, rfl⟩, checked, w₆, horigin, named, w₇, hidentity, h⟩ := h
  obtain ⟨instant, _, ⟨rfl, rfl⟩, -, _, ⟨hproves, rfl⟩, collected, w₈, hcollect, h⟩ := h
  obtain ⟨facts, _, ⟨hencode, rfl⟩, sequence, w₉, hsequence, _, w₁₀, hset, _, w₁₁, hadvance, h⟩ := h
  obtain ⟨_, w₁₂, hconsume, _, w₁₃, hattempt, -, rfl⟩ := h
  have hmade : Effects env [.sequence] w w w₁ := newMaterial_writes _ _ _ (.refl _) hmaterial
  have hchecked : Effects env [.sequence] w w₁ w₇.tick :=
    ((oidcAttempt_writes _ _ _ (.refl _) hread).trans
      (provider_writes _ _ _ (.refl _) hprovider)).trans
      (((checkActor_writes _ _ _ (.refl _) hactor).trans (intent_writes _ _ _ (.refl _) hintent)).trans
        (((checkOrigin_writes _ _ _ (.refl _) horigin).trans
          (identity_writes _ _ _ (.refl _) hidentity)).trans Effects.tick))
  have hcollected : Effects env [.sequence] w w₁ w₉ := hchecked.trans
    ((collectFacts_writes _ _ _ (.refl _) hcollect).trans
      (profileSequence_writes (by simp) _ _ _ (.refl _) hsequence))
  have hlater : seconds w₇.tick.clock ≤ seconds w₉.clock :=
    seconds_mono (((collectFacts env _ _ _).advances _ _ _ hcollect).trans
      (profileSequence.advances _ _ _ hsequence)).clock
  have htimely : facts.Timely (seconds w₉.clock) :=
    ((run_collectFacts_timely hproves.assurance hcollect).encode hencode).mono hlater
  obtain ⟨hset', hfacts⟩ := setSourceFacts_timely hset htimely
    (hcollected.intentsTimely (by simp) (by simp) (hmade.intentsTimely (by simp) (by simp) hinv))
  have hadvanced := advance_timely hadvance hset' hfacts
  have hlocator : locator = ⟨attemptId env w.drawn, .link⟩ := (run_newMaterial hmaterial).2.1
  have hdrawn : w₁.drawn = w.drawn + 3 := by rw [(run_newMaterial hmaterial).1]
  have hrest : w₁.Advances w₁₂ := (hcollected.advances.trans
    ((setSourceFacts _ _ _).advances _ _ _ hset)).trans
      (((advance _ _).advances _ _ _ hadvance).trans ((consumeAttempt _).advances _ _ _ hconsume))
  have hdrew : DrawnIn w w₁₂ w.drawn := by
    have hle := hrest.drawn
    exact ⟨le_rfl, by omega⟩
  have hattempted : Effects env [.oidc, .sequence] w w₁₁ w₁₃ :=
    (consumeAttempt_writes (by simp) _ _ _ (.refl _) hconsume).trans
      (insertAttempt_writes (by simp) (by simp) (by rw [hlocator]) hdrew _ _ _ (.refl _) hattempt)
  exact hattempted.intentsTimely (by simp) (by simp) hadvanced

theorem Commit.intentsTimely {commit : Commit env} (h : commit.Runs w w') (hinv : IntentsTimely w) :
    IntentsTimely w' := by
  have heffects := Commit.effects h
  cases commit with
  | beginLink request result => exact beginLink_intentsTimely h hinv
  | finishReauthentication held claims target result =>
    exact finishReauthentication_intentsTimely h hinv
  | _ => exact heffects.intentsTimely (by simp [areas, commitAreas]) (by simp [areas, commitAreas]) hinv

theorem Step.intentsTimely {s s' : System env} {label : Label env} (h : Step env s label s')
    (hinv : IntentsTimely s.world) : IntentsTimely s'.world := by
  cases h with
  | elapse hstate hadvances =>
    exact hinv.of_subset hadvances.clock fun row hrow => by rwa [hstate] at hrow
  | commit _ hruns => exact Commit.intentsTimely hruns hinv

/-- In every state reached from provisioning, every intent past its first stage has facts that were
in time. -/
theorem intentsTimely_of_run {s₀ s : System env} {trace : List (Event (System env) (Label env))}
    (hstart : s₀.Provisioned) (hrun : Run (Step env) s₀ trace s) : IntentsTimely s.world := by
  refine hrun.history (H := fun _ s => IntentsTimely s.world) ?_ fun _ _ _ _ _ h hstep =>
    hstep.intentsTimely h
  intro row hrow
  rw [hstart.1] at hrow
  exact absurd hrow Table.not_mem_empty

end Intents

section Issuing

/-- An authentication by a password, or one upstream whose facts are in time. -/
def SessionAuthentication.Timely (now : ℤ) : SessionAuthentication → Prop
  | localPassword _ => True
  | oidc o => o.facts.Timely now
  | platform _ => False

/-- What a transaction still writes to once its session is inserted. -/
def settledAreas : List Area := [.bindings, .profiles, .sequence, .oidc]

/-- A transaction inserts a session for an active account, by an authentication that is good and in
time, and leaves the account, the session and the provider as they are from there on. -/
inductive Lands (env : Env) (w' : Tenant) (issued : IssuedSession) : Prop
  | intro {w₁ w₂ : Tenant} {state : AccountState} {replaced : Option SessionId}
      {authentication : SessionAuthentication} {instant : ℤ} {kind : CredentialKind} :
      w₁.state.Holds state → state.active = true → authentication.Good env w₁.state state.key →
      authentication.Timely instant → instant ≤ seconds w₁.clock →
      (insertSession env state replaced authentication instant kind).run w₁ = .ok (issued, w₂) →
      Effects env settledAreas w₂ w₂ w' → Lands env w' issued

theorem createSessionFor_lands {candidate : AuthenticationCandidate}
    {replacement : Option AuthenticatedSession} {kind : CredentialKind} {issued : IssuedSession}
    (h : (createSessionFor env candidate replacement kind).run w = .ok (issued, w')) :
    Lands env w' issued := by
  simp only [createSessionFor, Tx.run_bind, Tx.run_require, run_now, Tx.run_pure] at h
  obtain ⟨-, _, ⟨-, rfl⟩, state, _, hcurrent, replaced, w₁, hreplaced, instant, _, ⟨rfl, rfl⟩,
    issued, w₂, hinsert, observation, w₃, hobservation, _, w₄, haccept, rfl, rfl⟩ := h
  obtain ⟨rfl, hholds, hmatches, -⟩ := run_current hcurrent
  have hstate := recheckReplacement_readOnly _ _ _ hreplaced
  have hobserved : Effects env settledAreas w₂ w₂ w₃ :=
    localObservation_writes (by decide) _ _ _ (.refl _) hobservation
  have haccepted : Effects env settledAreas w₂ w₃ w₄ :=
    accept_writes (by decide) (by decide) hobserved.advances _ _ _ (.refl _) haccept
  have hheld : w₁.tick.state.Holds state := by
    rw [World.tick_state, hstate]
    exact hholds
  exact .intro hheld (matchesVerification_active hmatches)
    (show SessionAuthentication.Good env _ _ (.localPassword candidate.authenticatedAt) from trivial)
    (show SessionAuthentication.Timely _ (.localPassword candidate.authenticatedAt) from trivial)
    le_rfl hinsert (hobserved.trans haccepted)

variable {held : ClaimedAttempt env} {claims : UpstreamClaims} {committing : CommittingAttempt env}

theorem commitLogin_lands {w₀ : Tenant} {outcome : FederatedOutcome}
    (haccepted : exchangeAccepted env held claims = true) (hof : committing.Of held claims w₀ w)
    (h : (commitLogin env committing claims).run w = .ok (outcome, w')) :
    ∃ issued url linked, outcome = .session issued url linked ∧ Lands env w' issued := by
  simp only [commitLogin, Tx.run_bind, Tx.run_require, Tx.run_pure] at h
  obtain ⟨-, _, ⟨-, rfl⟩, sequence, w₁, hsequence, facts, w₂, hfacts, issued, w₃, hinsert, _, w₄,
    hunexpired, _, w₅, haccept, _, w₆, hconsume, rfl, rfl⟩ := h
  have hsequenced : Effects env [.sequence] w w w₁ :=
    profileSequence_writes (by decide) _ _ _ (.refl _) hsequence
  have htimely := run_collectFacts_timely hof.assurance hfacts
  obtain ⟨rfl, hdecodable, hversion, -⟩ := run_collectFacts hfacts
  have hframe : w₁.state.directory = w.state.directory := hsequenced.directory_eq (by decide)
  have hgood := hof.authentication_good haccepted hdecodable hversion sequence
  have hnow : committing.now ≤ seconds w₁.clock := by
    rw [hof.now]
    exact seconds_mono hsequenced.advances.clock
  have hjudged : Effects env settledAreas w₃ w₃ w₄ :=
    requireUnexpired_writes _ _ _ (.refl _) hunexpired
  have haccepted' : Effects env settledAreas w₃ w₄ w₅ :=
    accept_writes (by decide) (by decide) hjudged.advances _ _ _ (.refl _) haccept
  have hconsumed : Effects env settledAreas w₃ w₅ w₆ :=
    consumeAttempt_writes (by decide) _ _ _ (.refl _) hconsume
  have hheld : ({ w₁ with drawn := w₁.drawn + 2 } : Tenant).state.Holds committing.state :=
    hof.holds.of_directory hframe
  exact ⟨issued, _, _, rfl, .intro hheld hof.active
    (show SessionAuthentication.Good env _ _ (.oidc _) from
      ⟨hdecodable, SessionRow.backed_of_directory hgood.2 hframe⟩)
    (show SessionAuthentication.Timely _ (.oidc _) from htimely) hnow hinsert
    ((hjudged.trans haccepted').trans hconsumed)⟩

/-- The authentication of a completed link is in time where the intents are. -/
theorem Intent.authentication_timely {found : Intent} {row : LinkIntentRow} {now : ℤ}
    {authentication : SessionAuthentication} (hrow : found.RowOf row) (hstage : found.stage = .targetReady)
    (htimely : row.Timely now) (h : found.authentication = .ok authentication) :
    authentication.Timely now := by
  have hfacts : ∀ facts ∈ row.sourceFacts, facts.Timely now := by
    rcases htimely with hfirst | hfacts
    · rw [hrow.stage, hstage] at hfirst
      cases hfirst
    · exact hfacts
  unfold Intent.authentication at h
  cases horigin : found.origin with
  | some o =>
    rw [horigin] at h
    cases h
    exact hfacts o.facts (hrow.sourceFacts o horigin).1
  | none =>
    rw [horigin] at h
    cases htime : found.localAuthenticatedAt with
    | none => simp [htime] at h
    | some time =>
      simp only [htime] at h
      cases h
      trivial

theorem commitLink_lands {outcome : FederatedOutcome} (hinv : IntentsTimely w)
    (hholds : w.state.Holds committing.state) (hnow : committing.now = seconds w.clock)
    (h : (commitLink env committing).run w = .ok (outcome, w')) :
    ∃ issued url linked, outcome = .session issued url linked ∧ Lands env w' issued := by
  simp only [commitLink, Tx.run_bind, Tx.run_demand, Tx.run_require, Tx.run_ofExcept,
    ofRule_eq_ok, Tx.run_pure] at h
  obtain ⟨id, _, ⟨-, rfl⟩, found, w₀, hintent, -, _, ⟨⟨hstage, -⟩, rfl⟩, next, _, ⟨hnext, rfl⟩, _, w₁,
    hepoch, _, w₂, hadvance, _, w₃, horigin, authentication, _, ⟨hauthentication, rfl⟩, issued, w₄,
    hinsert, _, w₅, hretain, _, w₆, hunexpired, _, w₇, hconsume, rfl, rfl⟩ := h
  obtain ⟨rfl, -, row, hrow, hrowOf⟩ := run_intent hintent
  obtain ⟨hburned, hheld, hactive, -⟩ : Effects env commitAreas w₀ w₀ w₁ ∧ _ :=
    run_setAuthEpoch (by decide) hholds hnext hepoch
  obtain ⟨hcompleted, hdirectory⟩ : Effects env commitAreas w₀ w₁ w₂ ∧ _ :=
    advance_completes (by decide) hadvance
  obtain ⟨rfl, hbacked⟩ := run_checkIntentOrigin horigin
  have htimely : row.Timely committing.now := by
    rw [hnow]
    exact hinv row (Table.mem_of_find? hrow)
  have hlater : committing.now ≤ seconds w₃.clock := by
    rw [hnow]
    exact seconds_mono (hburned.advances.clock.trans hcompleted.advances.clock)
  have hretained : Effects env settledAreas w₄ w₄ w₅ :=
    retainBinding_writes (by decide) _ _ _ (.refl _) hretain
  have hjudged : Effects env settledAreas w₄ w₅ w₆ :=
    requireUnexpired_writes _ _ _ (.refl _) hunexpired
  have hconsumed : Effects env settledAreas w₄ w₆ w₇ :=
    consumeAttempt_writes (by decide) _ _ _ (.refl _) hconsume
  exact ⟨issued, _, _, rfl, .intro (hheld.of_directory hdirectory) hactive
    (Intent.authentication_good hrowOf hbacked hauthentication)
    (Intent.authentication_timely hrowOf hstage htimely hauthentication) hlater hinsert
    ((hretained.trans hjudged).trans hconsumed)⟩

/-- The commit of an attempt issues a session that lands, if it issues one. -/
theorem commitAttempt_lands {issued : IssuedSession} {url : String} {linked : Option Bool}
    (hinv : IntentsTimely w)
    (h : (commitAttempt env held claims).run w = .ok (.session issued url linked, w')) :
    Lands env w' issued := by
  obtain ⟨haccepted, committing, w₁, -, hprepared, hof, h⟩ := run_commitAttempt_ways h
  rcases h with ⟨-, h⟩ | ⟨-, ⟨-, h⟩ | ⟨-, h⟩⟩
  · obtain ⟨_, _, heq⟩ := run_commitStepUp_grants h
    cases heq
  · obtain ⟨_, _, _, heq, hlands⟩ := commitLink_lands
      (hprepared.intentsTimely (by decide) (by decide) hinv) hof.holds hof.now h
    cases heq
    exact hlands
  · obtain ⟨_, _, _, heq, hlands⟩ := commitLogin_lands haccepted hof h
    cases heq
    exact hlands

/-- A row just issued: what it is authenticated by, and that its facts were in time. -/
theorem SessionAuthentication.Timely.columns {authentication : SessionAuthentication} {instant : ℤ}
    {kind : CredentialKind} {columns : AuthenticationColumns} {facts : Option AuthenticationFacts}
    (h : authentication.Timely instant) (hcolumns : authentication.columns instant kind = .ok columns)
    (hfacts : encodedFacts env columns.origin = .ok facts) :
    columns.source ≠ .platform ∧ ∀ stored ∈ facts, stored.Timely instant := by
  cases authentication with
  | platform stored => exact h.elim
  | localPassword time =>
    simp only [SessionAuthentication.columns] at hcolumns
    split at hcolumns <;> cases hcolumns
    simp only [encodedFacts, Except.ok.injEq] at hfacts
    subst hfacts
    simp
  | oidc o =>
    simp only [SessionAuthentication.columns] at hcolumns
    split at hcolumns <;> cases hcolumns
    simp only [encodedFacts, bind, Except.bind] at hfacts
    cases hencode : o.facts.encode env.factsSize with
    | error e => simp [hencode] at hfacts
    | ok stored =>
      simp only [hencode, Except.ok.injEq] at hfacts
      subst hfacts
      refine ⟨by simp, fun other hother => ?_⟩
      obtain rfl : stored = other := by simpa using hother
      exact AuthenticationFacts.Timely.encode h hencode

/-- What a session that landed is in the world after its transaction. -/
structure SessionRow.Landed (env : Env) (w : Tenant) (row : SessionRow) : Prop where
  good : row.Good env w
  source : row.authenticationSource ≠ .platform
  timely : ∀ facts ∈ row.authFacts, facts.Timely row.issuedAt
  absolute : row.absoluteTimeout = env.sessionPolicy.absolute

/-- Nothing a session is judged by was changed between two worlds, the session apart. -/
structure SessionRow.Untouched (row : SessionRow) (w w' : Tenant) : Prop where
  account : w'.state.accounts.find? row.principal = w.state.accounts.find? row.principal
  membership : w'.state.memberships.find? row.principal = w.state.memberships.find? row.principal
  provider : ∀ id ∈ row.externalIdentity, ∀ identity,
    w.state.externalIdentities.find? id = some identity →
      w'.state.providers.find? identity.provider = w.state.providers.find? identity.provider

theorem Effects.untouched {areas : List Area} {start : Tenant} (h : Effects env areas start w w')
    (ha : .accounts ∉ areas) (hp : .providers ∉ areas) (row : SessionRow) : row.Untouched w w' := by
  have haccounts := h.frame (fun db => (db.accounts, db.memberships, db.localCredentials))
    fun w a db hmem heffect => heffect.accounts_eq fun heq => ha (heq ▸ hmem)
  have hproviders := h.frame (fun db => (db.providers, db.providerCredentials))
    fun w a db hmem heffect => heffect.providers_eq fun heq => hp (heq ▸ hmem)
  simp only [Prod.mk.injEq] at haccounts hproviders
  refine ⟨by rw [haccounts.1], by rw [haccounts.2.1], fun _ _ _ _ => by rw [hproviders.1]⟩

/-- A session that landed stays as good as it was, as long as nothing it is judged by changes. -/
theorem SessionRow.Landed.continues {next : SessionRow} {now : ℤ} (h : row.Landed env w)
    (hfollows : Follows w w') (huntouched : row.Untouched w w')
    (hstored : w'.state.sessions.find? row.session = some next) (hcontinues : row.Continues now next) :
    next.Landed env w' := by
  obtain ⟨hprincipal, hauth, hmember⟩ := hcontinues.epochs
  have hsession : next.session = row.session := by rw [hcontinues.fixed]
  have hsource : next.authenticationSource = row.authenticationSource := by rw [hcontinues.fixed]
  have hfacts : next.authFacts = row.authFacts := by rw [hcontinues.fixed]
  have hissued : next.issuedAt = row.issuedAt := by rw [hcontinues.fixed]
  have habsolute : next.absoluteTimeout = row.absoluteTimeout := by rw [hcontinues.fixed]
  obtain ⟨o, hhas, hbacked⟩ := h.good.origin
  have hbacked' : SessionRow.Backed env w'.state row.principal o := by
    cases o with
    | none => trivial
    | some o =>
      obtain ⟨identity, provider, hbacks, hfactSource⟩ := hbacked
      obtain ⟨_, hbound, rfl⟩ := hfollows.externalIdentities _ _ hbacks.bound
      cases hhas with
      | upstream hidentity =>
        have hconfigured := hbacks.configured
        rw [← huntouched.provider _ hidentity _ hbacks.bound] at hconfigured
        exact ⟨_, provider, ⟨hbound, hconfigured, hbacks.enabled, hbacks.epoch, hbacks.version,
          hbacks.principal⟩, hfactSource⟩
  refine ⟨⟨?_, ?_, ?_, o, hcontinues.hasOrigin.mpr hhas, ?_⟩, ?_, ?_, ?_⟩
  · rw [hsession]
    exact hstored
  · rw [hprincipal, hauth, huntouched.account]
    exact h.good.account
  · rw [hprincipal, hmember, huntouched.membership]
    exact h.good.membership
  · rw [hprincipal]
    exact hbacked'
  · rw [hsource]
    exact h.source
  · rw [hfacts, hissued]
    exact h.timely
  · rw [habsolute]
    exact h.absolute

/-- A session lands with all that it will be loaded by. -/
theorem Lands.landed {issued : IssuedSession} (h : Lands env w' issued) :
    ∃ row : SessionRow, row.session = issued.view.id ∧ row.Landed env w' := by
  obtain @⟨w₁, w₂, state, replaced, authentication, instant, kind, hholds, hactive, hgood, htimely,
    hnow, hinsert, hafter⟩ := h
  have hinserted : Effects env [.sessions] w₁ w₁ w₂ :=
    insertSession_effects (by decide) hholds hactive hgood hnow (.refl _) hinsert
  obtain ⟨-, columns, facts, lifetime, hcolumns, hfacts, -, hstored⟩ := run_insertSession_row hinsert
  obtain ⟨hsource, hstoredTimely⟩ := htimely.columns hcolumns hfacts
  obtain ⟨o, hhas, hbacked⟩ := @SessionAuthentication.Good.hasOrigin env _ _ _ _ _ _ _ hgood
    hcolumns hfacts state lifetime issued.secret issued.view.id
  have haccounts := hinserted.frame (fun db => (db.accounts, db.memberships, db.localCredentials))
    fun w a db ha h => h.accounts_eq (by rintro rfl; simp at ha)
  have hproviders := hinserted.frame (fun db => (db.providers, db.providerCredentials))
    fun w a db ha h => h.providers_eq (by rintro rfl; simp at ha)
  have hidentities := hinserted.frame Db.externalIdentities
    fun w a db ha h => h.externalIdentities_eq (by rintro rfl; simp at ha)
  simp only [Prod.mk.injEq] at haccounts hproviders
  simp only [AccountState.active, Bool.and_eq_true] at hactive
  have hlanded : (issuedRow env state columns facts lifetime instant kind issued.secret
      issued.view.id).Landed env w₂ := by
    refine ⟨⟨hstored, ?_, ?_, o, hhas, SessionRow.backed_congr hbacked hidentities hproviders.1⟩,
      hsource, hstoredTimely, rfl⟩
    · rw [haccounts.1]
      simpa only [issuedRow, hactive.1] using hholds.account
    · rw [haccounts.2.1]
      simpa only [issuedRow, hactive.2] using hholds.membership
  obtain ⟨next, hnext, hcontinues⟩ := hafter.follows.sessions _ _ hstored
  have hsession : next.session = issued.view.id := Table.key_of_find? hnext
  exact ⟨next, hsession, hlanded.continues hafter.follows (hafter.untouched (by decide) (by decide) _)
    hnext hcontinues⟩

/-- The session that a transaction issues, by a password, upstream or by a link. -/
def Commit.issues : Commit env → Option SessionId
  | createSession _ _ _ issued => some issued.view.id
  | commitAttempt _ _ (.session issued _ _) => some issued.view.id
  | _ => none

/-- A session lands in the world after the transaction that issues it. -/
theorem Commit.landed {commit : Commit env} {id : SessionId} (h : commit.Runs w w')
    (hinv : IntentsTimely w) (hissues : commit.issues = some id) :
    ∃ row : SessionRow, row.session = id ∧ row.Landed env w' := by
  unfold issues at hissues
  split at hissues <;> cases hissues
  · exact (createSessionFor_lands h).landed
  · exact (commitAttempt_lands hinv h).landed

/-- A session that landed is usable in any later world where it is neither over nor revoked, if
nothing that it is judged by was changed. -/
theorem SessionRow.Landed.usable (h : row.Landed env w) (hfollows : Follows w w')
    (hpolicy : env.sessionPolicy.absolute ≤ 1000000000000) {next : SessionRow}
    (hstored : w'.state.sessions.find? row.session = some next)
    (huntouched : row.Untouched w w') (hunrevoked : next.revokedAt = none)
    (hclock : isI64 w'.tick.clock = true) (hissued : next.issuedAt ≤ seconds w'.tick.clock)
    (hunexpired : seconds w'.tick.clock < next.idleExpiresAt) : next.Usable env w' := by
  obtain ⟨_, hnext, hcontinues⟩ := hfollows.sessions _ _ h.good.stored
  rw [hstored] at hnext
  obtain rfl := Option.some_injective _ hnext
  have hlanded := h.continues hfollows huntouched hstored hcontinues
  have hbounded : next.absoluteTimeout ≤ 1000000000000 := by
    rw [hlanded.absolute]
    exact hpolicy
  have hloadable : next.Loadable env w' :=
    ⟨hlanded.good, hunrevoked, hlanded.source, hlanded.timely, hbounded, hclock, hissued, hunexpired⟩
  exact hloadable.usable

end Issuing

section Runs

variable {s₀ s : System env} {trace : List (Event (System env) (Label env))}

theorem Step.runs {s' : System env} {label : Label env} {commit : Commit env}
    (h : Step env s label s') (hlabel : label = .commit commit) :
    commit.Runs s.world s'.world := by
  subst hlabel
  cases h with
  | commit _ hruns => exact hruns

/-- Every session issued in a run by a password, upstream or by a link is usable in the state
reached: stored as it was issued, and loaded and renewed at any reading of its lifetime, if since
its issue no operation changed its account or its provider, and none revoked it. -/
def SessionsUsable (env : Env) (trace : List (Event (System env) (Label env))) (s : System env) :
    Prop :=
  ∀ earlier e later commit id, trace = earlier ++ e :: later → e.label = .commit commit →
    commit.issues = some id → ∃ row next : SessionRow,
      e.after.world.state.sessions.find? id = some row ∧
      s.world.state.sessions.find? id = some next ∧ next.issuedAt = row.issuedAt ∧
      (row.Untouched e.after.world s.world → next.revokedAt = none →
        isI64 s.world.tick.clock = true → row.issuedAt ≤ seconds s.world.tick.clock →
        seconds s.world.tick.clock < next.idleExpiresAt → next.Usable env s.world)

/-- Issued sessions are usable until they end: under every policy of at most `10^12` seconds, no
check of the loader is stricter than what a session was issued by. -/
theorem sessions_usable (hstart : s₀.Provisioned) (hrun : Run (Step env) s₀ trace s)
    (hpolicy : env.sessionPolicy.absolute ≤ 1000000000000) : SessionsUsable env trace s := by
  intro earlier e later commit id htrace hlabel hissues
  rw [htrace] at hrun
  obtain ⟨hbefore, hstep, hafter⟩ := hrun.split
  have hinv := intentsTimely_of_run hstart hbefore
  obtain ⟨row, rfl, hlanded⟩ := Commit.landed (hstep.runs hlabel) hinv hissues
  have hfollows := follows_of_run hafter
  obtain ⟨next, hnext, hcontinues⟩ := hfollows.sessions _ _ hlanded.good.stored
  have hissued : next.issuedAt = row.issuedAt := by rw [hcontinues.fixed]
  refine ⟨row, next, hlanded.good.stored, hnext, hissued, ?_⟩
  intro huntouched hunrevoked hclock hnow hunexpired
  rw [← hissued] at hnow
  exact hlanded.usable hfollows hpolicy hnext huntouched hunrevoked hclock hnow hunexpired

/-- A world whose sessions are all within their lifetime, and not revoked. -/
def Tenant.sessionsOpen (w : Tenant) : Bool :=
  isI64 w.tick.clock && w.state.sessions.rows.all fun row =>
    row.revokedAt.isNone && decide (row.issuedAt ≤ seconds w.tick.clock) &&
      decide (seconds w.tick.clock < row.idleExpiresAt)

/-- A completion that signs in. -/
def FederatedOutcome.signsIn : FederatedOutcome → Bool
  | .session .. => true
  | _ => false

/-- The session that the login of `bob` issued is usable right after it. -/
theorem federated_usable : ∃ w, (∃ issued url linked,
    federated = .ok (.session issued url linked, w)) ∧
      ∃ row ∈ w.state.sessions, row.Usable .transparent w := by
  have hok : federated.toOption.any (fun found => found.2.sessionsOpen && found.1.signsIn) =
      true := by decide +kernel
  obtain ⟨⟨outcome, w⟩, hsome, hopen⟩ := (Option.any_eq_true _ _).mp hok
  have hrun := eq_ok_of_toOption hsome
  cases outcome with
  | stepUp grant url => simp [FederatedOutcome.signsIn] at hopen
  | redirect locator => simp [FederatedOutcome.signsIn] at hopen
  | session issued url linked =>
    simp only [Tenant.sessionsOpen, FederatedOutcome.signsIn, Bool.and_true, Bool.and_eq_true, List.all_eq_true,
      decide_eq_true_eq] at hopen
    obtain ⟨hclock, hrows⟩ := hopen
    refine ⟨w, ⟨issued, url, linked, hrun⟩, ?_⟩
    unfold federated at hrun
    obtain ⟨trace, held, hrun, -, earlier, e, claimed, htrace, hlabel⟩ := run_partnerLogin hrun
    have hafter : e.after.world = w := by
      rw [htrace] at hrun
      obtain ⟨-, -, hrest⟩ := hrun.split
      rw [← hrest.eq_start rfl]
    obtain ⟨row, next, hrow, hnext, hsame, husable⟩ := sessions_usable ⟨rfl, rfl⟩ hrun
      (by decide +kernel) earlier e [] _ issued.view.id htrace hlabel rfl
    obtain ⟨⟨hunrevoked, hissued⟩, hunexpired⟩ := hrows next (Table.mem_of_find? hnext)
    refine ⟨next, Table.mem_of_find? hnext, husable ?_ (by simpa using hunrevoked) hclock ?_ hunexpired⟩
    · rw [hafter]
      exact ⟨rfl, rfl, fun _ _ _ _ => rfl⟩
    · rw [← hsame]
      exact hissued

end Runs

end IdentityAuthority
