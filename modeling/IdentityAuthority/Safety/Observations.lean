import IdentityAuthority.Operations.ProfileReads
import IdentityAuthority.System

/-!
# Observations of profiles

A login that is accepted replaces the stored observation of its account at its source, and binds
its session to the snapshot it stored. Only a link copies a binding, from the session it takes
over. What a session is bound to is therefore the observation of the login its chain of links
began with, or of none that is still stored.
-/

namespace IdentityAuthority

open Relational Transition

/-- Who a session is of, and the snapshot it is bound to. -/
structure Binding where
  principal : PrincipalId
  source : Option ProfileSource
  snapshot : Option Uuid

/-- The binding of a session that is bound to nothing. -/
def Binding.unbound (principal : PrincipalId) : Binding := ⟨principal, none, none⟩

/-- The binding that a session row holds. -/
def SessionRow.binding (row : SessionRow) : Binding :=
  ⟨row.principal, row.profileSource, row.profileSnapshot⟩

/-- The stored observations, and what sessions are bound to. -/
structure Ledger where
  bindings : SessionId → Option Binding
  observations : Table ProfileObservationRow

/-- The ledger of a database. -/
def Db.ledger (db : Db) : Ledger where
  bindings sid := (db.sessions.find? sid).map SessionRow.binding
  observations := db.profileObservations

/-- An observation is stored over one that it supersedes, or as the first one of its source. -/
structure Records (o : ProfileObservationRow) (t t' : Table ProfileObservationRow) : Prop where
  stored : t'.find? (o.principal, o.source) = some o
  supersedes : ∀ row, t.find? (o.principal, o.source) = some row → o.supersedes row = true
  others : ∀ k ≠ (o.principal, o.source), t'.find? k = t.find? k

namespace Ledger

/-- Sessions may be added that are bound to nothing; all else stays. -/
structure Quiet (l l' : Ledger) : Prop where
  bindings : ∀ sid, l'.bindings sid = l.bindings sid ∨
    l.bindings sid = none ∧ ∃ principal, l'.bindings sid = some (.unbound principal)
  observations : l'.observations = l.observations

/-- A session is bound to an observation that was just stored. -/
structure Accepts (sid : SessionId) (o : ProfileObservationRow) (l l' : Ledger) : Prop where
  records : Records o l.observations l'.observations
  bound : l'.bindings sid =
    (l.bindings sid).map fun b => ⟨b.principal, some o.source, some o.snapshot⟩
  kept : ∀ other ≠ sid, l'.bindings other = l.bindings other

/-- A session is bound to what another one of its account is bound to. -/
structure Copies (old new : SessionId) (l l' : Ledger) : Prop where
  copied : ∃ b b', l.bindings old = some b ∧ l.bindings new = some b' ∧
    b.principal = b'.principal ∧ l'.bindings new = some b
  kept : ∀ other ≠ new, l'.bindings other = l.bindings other
  observations : l'.observations = l.observations

/-- A session is opened for an account, bound to nothing. -/
structure Opens (sid : SessionId) (principal : PrincipalId) (l l' : Ledger) : Prop where
  quiet : l.Quiet l'
  absent : l.bindings sid = none
  opened : l'.bindings sid = some (.unbound principal)

variable {l l' l'' : Ledger}

theorem Quiet.refl (l : Ledger) : l.Quiet l := ⟨fun _ => .inl rfl, rfl⟩

theorem Quiet.trans (h : l.Quiet l') (h' : l'.Quiet l'') : l.Quiet l'' := by
  refine ⟨fun sid => ?_, h'.observations.trans h.observations⟩
  rcases h'.bindings sid with hsame' | ⟨hnone', hadded'⟩
  · rw [hsame']
    exact h.bindings sid
  · rcases h.bindings sid with hsame | ⟨-, principal, hadded⟩
    · exact .inr ⟨hsame.symm.trans hnone', hadded'⟩
    · rw [hadded] at hnone'
      cases hnone'

theorem Quiet.of_some (h : l.Quiet l') {sid : SessionId} {b : Binding} (hb : l.bindings sid = some b) :
    l'.bindings sid = some b := by
  rcases h.bindings sid with hsame | ⟨hnone, -⟩
  · exact hsame.trans hb
  · rw [hb] at hnone
    cases hnone

/-- What comes before a session is opened may be quiet, as long as the session is not there. -/
theorem Opens.after {sid : SessionId} {principal : PrincipalId} (hquiet : l.Quiet l')
    (h : l'.Opens sid principal l'') : l.Opens sid principal l'' := by
  refine ⟨hquiet.trans h.quiet, ?_, h.opened⟩
  rcases hquiet.bindings sid with hsame | ⟨hnone, -⟩
  · exact hsame.symm.trans h.absent
  · exact hnone

end Ledger

variable {env : Env} {areas : List Area} {start w w' : Tenant}

section Quiet

/-- Rewriting sessions in place without their bindings keeps every binding. -/
theorem bindings_of_rewritten {S : SessionRow → SessionRow → Prop} {n : ℕ} {t t' : Table SessionRow}
    (h : t.Rewritten S n t')
    (hS : ∀ r r', S r r' → r'.session = r.session ∧ r'.binding = r.binding) (sid : SessionId) :
    (t'.find? sid).map SessionRow.binding = (t.find? sid).map SessionRow.binding := by
  cases hfind : t.find? sid with
  | none =>
    rw [(h.find?_eq_none fun r r' hr => (hS r r' hr).1).mpr hfind]
  | some row =>
    obtain ⟨row', hrow', rfl | hrewritten⟩ := h.find?_after (fun r r' hr => (hS r r' hr).1) hfind
    · rw [hrow']
    · rw [hrow', Option.map_some, Option.map_some, (hS row row' hrewritten).2]

theorem SessionRow.Closes.binding {row next : SessionRow} (h : row.Closes next) :
    next.session = row.session ∧ next.binding = row.binding := by
  obtain ⟨t, rfl⟩ := h
  exact ⟨rfl, rfl⟩

theorem SessionRow.Renews.binding {row next : SessionRow} (h : row.Renews env start w next) :
    next.session = row.session ∧ next.binding = row.binding := by
  rw [h.tracked]
  exact ⟨rfl, rfl⟩

/-- Inserting a session that is bound to nothing is quiet. -/
theorem quiet_of_insert {row : SessionRow} {t : Table SessionRow} {db : Db}
    (hrow : row.profileSource = none ∧ row.profileSnapshot = none)
    (ht : db.sessions.insert row = some t) :
    db.ledger.Quiet { db.ledger with bindings := fun sid => (t.find? sid).map SessionRow.binding } := by
  refine ⟨fun sid => ?_, rfl⟩
  simp only [Db.ledger]
  rw [Table.find?_insert ht]
  by_cases hkey : key row = sid
  · subst hkey
    right
    rw [if_pos rfl, Table.find?_key_of_insert ht]
    obtain ⟨hsource, hsnapshot⟩ := hrow
    refine ⟨rfl, row.principal, ?_⟩
    simp only [Option.map_some, SessionRow.binding, hsource, hsnapshot, Binding.unbound]
  · left
    rw [if_neg hkey]

/-- Only the statements that store or bind observations touch the ledger otherwise than by adding
sessions. -/
theorem Effect.quiet {a : Area} {db : Db} (h : Effect env start w a db) (hb : a ≠ .bindings)
    (hp : a ≠ .profiles) : w.state.ledger.Quiet db.ledger := by
  have hsame : ∀ db' : Db, db'.ledger = w.state.ledger → w.state.ledger.Quiet db'.ledger := by
    intro db' heq
    rw [heq]
    exact .refl _
  have hrewritten : ∀ {S : SessionRow → SessionRow → Prop} {n : ℕ} {t : Table SessionRow} (db' : Db),
      w.state.sessions.Rewritten S n t →
      (∀ r r', S r r' → r'.session = r.session ∧ r'.binding = r.binding) →
      db'.sessions = t → db'.profileObservations = w.state.profileObservations →
      w.state.ledger.Quiet db'.ledger := by
    intro S n t db' ht hS hsessions hobservations
    refine hsame db' ?_
    simp only [Db.ledger, hsessions, hobservations, bindings_of_rewritten ht hS]
  cases h with
  | sessionInserted hissued ht => exact quiet_of_insert hissued.unbound ht
  | sessionsClosed ht => exact hrewritten _ ht (fun _ _ hr => hr.binding) rfl rfl
  | sessionsRenewed ht => exact hrewritten _ ht (fun _ _ hr => hr.binding) rfl rfl
  | sessionsBound => exact absurd rfl hb
  | observationInserted => exact absurd rfl hp
  | observationsUpdated => exact absurd rfl hp
  | _ => exact hsame _ rfl

/-- A transaction that writes to neither bindings nor observations is quiet. -/
theorem Effects.quiet (h : Effects env areas start w w') (hb : .bindings ∉ areas)
    (hp : .profiles ∉ areas) : w.state.ledger.Quiet w'.state.ledger := by
  induction h with
  | refl => exact .refl _
  | tail _ hmove ih =>
    refine ih.trans ?_
    rcases hmove with ⟨hstate, -⟩ | ⟨ha, heffect⟩
    · rw [hstate]
      exact .refl _
    · exact heffect.quiet (fun heq => hb (heq ▸ ha)) fun heq => hp (heq ▸ ha)

end Quiet

section Writes

variable {sid : SessionId} {key : AccountKey} {o : ProfileObservationRow}

theorem run_bindProfile {source : Option ProfileSource} {snapshot : Option Uuid} {u : Unit}
    (h : (bindProfile sid source snapshot).run w = .ok (u, w')) :
    w'.state.ledger.observations = w.state.ledger.observations ∧
      (w'.state.ledger.bindings sid =
        (w.state.ledger.bindings sid).map fun b => ⟨b.principal, source, snapshot⟩) ∧
      ∀ other ≠ sid, w'.state.ledger.bindings other = w.state.ledger.bindings other := by
  simp only [bindProfile, Tx.run_bind, Tx.run_updateIn, Tx.run_pure, Tables.sessionsUntracked_put,
    Tables.sessionsUntracked_get, Option.some.injEq] at h
  obtain ⟨n, _, ⟨t, db, ht, rfl, -, rfl⟩, -, rfl⟩ := h
  have hfind := Table.find?_updateWhere ht fun _ => rfl
  refine ⟨rfl, ?_, ?_⟩
  · simp only [Db.ledger]
    rw [hfind sid]
    cases hrow : w.state.sessions.find? sid with
    | none => rfl
    | some row =>
      have hsession : row.session = sid := Table.key_of_find? hrow
      simp only [Option.map_some, hsession, decide_true, if_true, SessionRow.binding]
  · intro other hother
    simp only [Db.ledger]
    rw [hfind other]
    cases hrow : w.state.sessions.find? other with
    | none => rfl
    | some row =>
      have hsession : row.session = other := Table.key_of_find? hrow
      simp only [Option.map_some, hsession, hother, decide_false, Bool.false_eq_true, if_false]

/-- An observation is stored over one that it supersedes, or not at all. -/
theorem run_upsertObservation {accepted : Bool}
    (h : (upsertObservation o).run w = .ok (accepted, w')) :
    w'.state.sessions = w.state.sessions ∧
      (accepted = false → w'.state.profileObservations = w.state.profileObservations) ∧
      (accepted = true →
        Records o w.state.profileObservations w'.state.profileObservations) := by
  simp only [upsertObservation, Tx.run_bind, Tx.run_require, Tx.run_find,
    Tables.profileObservations_get] at h
  obtain ⟨-, _, ⟨-, rfl⟩, stored, _, ⟨hstored, rfl⟩, h⟩ := h
  cases stored with
  | none =>
    simp only [Tx.run_bind, Tx.run_insertInto, Tx.run_pure, Tables.profileObservations_put,
      Tables.profileObservations_get, advanceRevision_eq_some] at h
    obtain ⟨-, _, ⟨t, _, ht, ⟨-, rfl⟩, rfl⟩, rfl, rfl⟩ := h
    have hfind := Table.find?_insert ht
    refine ⟨rfl, by simp, fun _ => ⟨(hfind _).trans (if_pos rfl), ?_, ?_⟩⟩
    · intro row hrow
      rw [← hstored] at hrow
      cases hrow
    · intro k hk
      exact (hfind k).trans (if_neg (Ne.symm hk))
  | some row =>
    simp only [Tx.run_bind, Tx.run_updateIn, Tx.run_pure, Tables.profileObservations_put,
      Tables.profileObservations_get, advanceRevision_eq_some] at h
    obtain ⟨n, _, ⟨t, _, ht, ⟨-, rfl⟩, hn, rfl⟩, rfl, rfl⟩ := h
    have hkeyed : ∀ r ∈ w.state.profileObservations,
        (decide (Keyed.key r = (o.principal, o.source)) && o.supersedes r) = true →
          Keyed.key o = Keyed.key r := by
      intro r _ hr
      rw [Bool.and_eq_true, decide_eq_true_eq] at hr
      exact hr.1.symm
    have hfind := Table.find?_updateWhere_of ht hkeyed
    refine ⟨rfl, ?_, ?_⟩
    · intro hnone
      have hzero : n = 0 := by simpa using hnone
      refine (Table.rewritten_of_updateWhere (S := fun _ _ => True) ht fun _ _ _ => trivial).untouched ?_
      rw [← hn, hzero]
    · intro hsome
      have hpos : n ≠ 0 := of_decide_eq_true hsome
      have hkey : Keyed.key row = (o.principal, o.source) := Table.key_of_find? hstored.symm
      have hsupersedes : o.supersedes row = true := by
        rw [hn] at hpos
        obtain ⟨r, hr, hmatch⟩ := List.countP_pos_iff.mp (Nat.pos_of_ne_zero hpos)
        rw [Bool.and_eq_true, decide_eq_true_eq] at hmatch
        obtain rfl := Table.eq_of_key hr (Table.mem_of_find? hstored.symm) (hmatch.1.trans hkey.symm)
        exact hmatch.2
      refine ⟨?_, ?_, ?_⟩
      · refine (hfind _).trans ?_
        rw [← hstored, Option.map_some, hkey, hsupersedes]
        simp
      · intro row' hrow'
        rw [← hstored, Option.some.injEq] at hrow'
        rw [← hrow']
        exact hsupersedes
      · intro k hk
        refine (hfind k).trans ?_
        cases hother : w.state.profileObservations.find? k with
        | none => rfl
        | some r =>
          have hr : Keyed.key r = k := Table.key_of_find? hother
          simp only [Option.map_some, hr, hk, decide_false, Bool.false_and, Bool.false_eq_true,
            if_false]

/-- A snapshot was drawn at random by the transaction between two worlds. -/
def SnapshotDrawn (env : Env) (w w' : Tenant) (snapshot : Uuid) : Prop :=
  ∃ i, snapshot = freshUuid env i ∧ DrawnIn w w' i

theorem SnapshotDrawn.mono {w₀ w₁ : Tenant} {snapshot : Uuid} (h : SnapshotDrawn env w w' snapshot)
    (hbefore : w₀.Advances w) (hafter : w'.Advances w₁) : SnapshotDrawn env w₀ w₁ snapshot := by
  obtain ⟨i, hsnapshot, hlo, hhi⟩ := h
  have hlo' := hbefore.drawn
  have hhi' := hafter.drawn
  exact ⟨i, hsnapshot, by omega, by omega⟩

/-- Accepting an observation stores it under a fresh snapshot and binds the session, or leaves the
ledger as it is. -/
theorem run_accept {absolute : ℤ} {observation : Observation} {u : Unit}
    (h : (accept env key sid absolute observation).run w = .ok (u, w')) :
    w'.state.ledger = w.state.ledger ∨ ∃ o : ProfileObservationRow, o.principal = key ∧
      SnapshotDrawn env w w' o.snapshot ∧ w.state.ledger.Accepts sid o w'.state.ledger := by
  simp only [accept, Tx.run_bind, Tx.run_require, run_now, Tx.run_demand, Tx.run_ite] at h
  obtain ⟨-, _, ⟨-, rfl⟩, instant, _, ⟨-, rfl⟩, expiresAt, _, ⟨-, rfl⟩, ⟨-, h⟩ | ⟨-, h⟩⟩ := h
  · obtain ⟨-, rfl⟩ := Tx.run_pure.mp h
    exact .inl rfl
  · simp only [storeObservation, Tx.run_bind, run_newV4, Tx.run_clockTimestamp, Tx.run_ite] at h
    obtain ⟨snapshot, _, ⟨hsnapshot, rfl⟩, collectedAt, _, ⟨-, rfl⟩, accepted, w₁, hupsert, h⟩ := h
    obtain ⟨hsessions, hrefused, haccepted⟩ := run_upsertObservation hupsert
    have hupserted := (upsertObservation _).advances _ _ _ hupsert
    rcases h with ⟨htrue, hbind⟩ | ⟨hfalse, hpure⟩
    · obtain ⟨hobservations, hbound, hkept⟩ := run_bindProfile hbind
      have hbindings : ∀ other, w₁.state.ledger.bindings other = w.state.ledger.bindings other := by
        intro other
        simp only [Db.ledger, hsessions]
        rfl
      have hlater := (bindProfile _ _ _).advances _ _ _ hbind
      refine .inr ⟨observation.row env.profileLimits key snapshot collectedAt expiresAt, rfl,
        ⟨w.tick.drawn, hsnapshot, ?_, ?_⟩, ?_, ?_, ?_⟩
      · exact (World.Advances.tick w).drawn
      · have hdrawn := (hupserted.trans hlater).drawn
        have htick := (World.Advances.tick { w.tick with drawn := w.tick.drawn + 1 }).drawn
        simp only at htick
        omega
      · rw [hobservations]
        exact haccepted htrue
      · rw [hbound, hbindings]
        rfl
      · intro other hother
        rw [hkept other hother, hbindings]
    · obtain ⟨-, rfl⟩ := Tx.run_pure.mp hpure
      left
      simp only [Db.ledger, hsessions, hrefused (by simpa using hfalse)]
      rfl

/-- A retained binding is copied between two sessions of one account. -/
theorem run_retainBinding {old new : SessionId} {u : Unit}
    (h : (retainBinding key old new).run w = .ok (u, w')) :
    w.state.ledger.Copies old new w'.state.ledger := by
  simp only [retainBinding, Tx.run_bind, Tx.run_find, Tx.run_demand, Tx.run_require,
    Tables.sessions_get] at h
  obtain ⟨_, _, ⟨rfl, rfl⟩, previous, _, ⟨hprevious, rfl⟩, _, _, ⟨rfl, rfl⟩, next, _, ⟨hnext, rfl⟩, -, _,
    ⟨⟨hkey, hkey'⟩, rfl⟩, hbind⟩ := h
  obtain ⟨hobservations, hbound, hkept⟩ := run_bindProfile hbind
  have hold : w.state.ledger.bindings old = some previous.binding := by
    simp only [Db.ledger, hprevious, Option.map_some]
  have hnew : w.state.ledger.bindings new = some next.binding := by
    simp only [Db.ledger, hnext, Option.map_some]
  refine ⟨⟨previous.binding, next.binding, hold, hnew, hkey.trans hkey'.symm, ?_⟩, hkept,
    hobservations⟩
  rw [hbound, hnew, Option.map_some]
  simp only [SessionRow.binding, hkey, hkey']

/-- A step that writes to neither sessions nor observations keeps the ledger. -/
theorem WritesOnly.keeps_ledger {α : Type} {m : Action α} (env : Env) (areas : List Area)
    (hm : ∀ w, WritesOnly env areas w w m) (hs : .sessions ∉ areas) (hb : .bindings ∉ areas)
    (hp : .profiles ∉ areas) : m.Keeps Db.ledger := by
  intro w a w' h
  refine (hm w w a w' (.refl w) h).frame Db.ledger fun w₁ a db ha heffect => ?_
  have hsessions := heffect.sessions_eq (fun heq => hs (heq ▸ ha)) fun heq => hb (heq ▸ ha)
  have hobservations := heffect.profileObservations_eq fun heq => hp (heq ▸ ha)
  simp only [Db.ledger, hsessions, hobservations]

/-- Inserting a session opens it. -/
theorem insertSession_opens {state : AccountState} {replaced : Option SessionId}
    {authentication : SessionAuthentication} {instant : ℤ} {kind : CredentialKind}
    {issued : IssuedSession}
    (h : (insertSession env state replaced authentication instant kind).run w = .ok (issued, w')) :
    w.state.ledger.Opens issued.view.id state.key w'.state.ledger := by
  simp only [insertSession, Tx.run_bind, Tx.run_ofExcept, run_randomSecret, Tx.run_demand,
    run_newV4, Tx.run_pure, Tx.run_insertInto, Tables.sessions_get, Tables.sessions_put,
    advanceRevision_eq_some] at h
  obtain ⟨columns, _, ⟨-, rfl⟩, secret, _, ⟨-, rfl⟩, lifetime, _, ⟨-, rfl⟩, _, w₁, hclose, id, _,
    ⟨-, rfl⟩, facts, _, ⟨-, rfl⟩, _, _, ⟨t, _, ht, ⟨-, rfl⟩, rfl⟩, rfl, rfl⟩ := h
  have hclosed : Effects env [.sessions] { w with drawn := w.drawn + 1 }
      { w with drawn := w.drawn + 1 } w₁ := closeReplaced_writes (by decide) _ _ _ (.refl _) hclose
  have hquiet : w.state.ledger.Quiet w₁.state.ledger := hclosed.quiet (by decide) (by decide)
  refine Ledger.Opens.after hquiet ⟨quiet_of_insert ⟨rfl, rfl⟩ ht, ?_, ?_⟩
  · simp only [Db.ledger, Option.map_eq_none_iff]
    exact Table.find?_key_of_insert ht
  · simp only [Db.ledger, Db.revised]
    refine (congrArg (Option.map SessionRow.binding) (Table.find?_insert ht _)).trans ?_
    exact congrArg (Option.map SessionRow.binding) (if_pos rfl)

end Writes

section Commits

variable {sid : SessionId}

/-- A login opens a session, and binds it where its observation is accepted. -/
inductive LogsIn (env : Env) (w w' : Tenant) (sid : SessionId) : Prop
  | refused {principal : PrincipalId} :
      w.state.ledger.Opens sid principal w'.state.ledger → LogsIn env w w' sid
  | accepted {o : ProfileObservationRow} {l : Ledger} :
      w.state.ledger.Opens sid o.principal l → l.Accepts sid o w'.state.ledger →
      SnapshotDrawn env w w' o.snapshot → LogsIn env w w' sid

/-- A link opens a session, and binds it to what the session it takes over is bound to. -/
def TakesOver (w w' : Tenant) (old new : SessionId) : Prop :=
  ∃ principal l, w.state.ledger.Opens new principal l ∧ l.Copies old new w'.state.ledger

/-- A login is made of the insert of its session and the observation it accepts for it. -/
theorem logsIn_of_accept {w₁ w₂ w₃ w₄ : Tenant} {key : AccountKey} {absolute : ℤ}
    {observation : Observation} {u : Unit} (hquiet : w.state.ledger.Quiet w₁.state.ledger)
    (hopens : w₁.state.ledger.Opens sid key w₂.state.ledger)
    (hbetween : w₃.state.ledger = w₂.state.ledger)
    (haccept : (accept env key sid absolute observation).run w₃ = .ok (u, w₄))
    (hafter : w'.state.ledger = w₄.state.ledger) (hbefore : w.Advances w₃)
    (hlater : w₄.Advances w') : LogsIn env w w' sid := by
  have hopened := Ledger.Opens.after hquiet hopens
  rcases run_accept haccept with hsame | ⟨o, rfl, hdrawn, haccepts⟩
  · have hstays : w.state.ledger.Opens sid key w'.state.ledger := by
      rw [hafter, hsame, hbetween]
      exact hopened
    exact .refused hstays
  · rw [hbetween, ← hafter] at haccepts
    exact .accepted hopened haccepts (hdrawn.mono hbefore hlater)

theorem createSessionFor_logsIn {candidate : AuthenticationCandidate}
    {replacement : Option AuthenticatedSession} {kind : CredentialKind} {issued : IssuedSession}
    (h : (createSessionFor env candidate replacement kind).run w = .ok (issued, w')) :
    LogsIn env w w' issued.view.id := by
  simp only [createSessionFor, Tx.run_bind, Tx.run_require, run_now, Tx.run_pure] at h
  obtain ⟨-, _, ⟨-, rfl⟩, state, _, hcurrent, replaced, w₁, hreplaced, instant, _, ⟨-, rfl⟩,
    issued, w₂, hinsert, observation, w₃, hobservation, _, w₄, haccept, rfl, rfl⟩ := h
  obtain ⟨rfl, hholds, hmatches, -⟩ := run_current hcurrent
  have hread := recheckReplacement_readOnly _ _ _ hreplaced
  have hopens := insertSession_opens hinsert
  have hkey : state.key = candidate.state.key := by
    simp only [AccountState.matchesVerification, Bool.and_eq_true, decide_eq_true_eq] at hmatches
    exact hmatches.1.1.1.2
  rw [hkey] at hopens
  have hobserved : w₃.state.ledger = w₂.state.ledger :=
    WritesOnly.keeps_ledger env [.sequence] (fun _ => localObservation_writes (by decide))
      (by decide) (by decide) (by decide) _ _ _ hobservation
  have hadvances := ((recheckReplacement env replacement).advances _ _ _ hreplaced).trans
    ((World.Advances.tick w₁).trans (((insertSession _ _ _ _ _ _).advances _ _ _ hinsert).trans
      ((localObservation _ _).advances _ _ _ hobservation)))
  refine logsIn_of_accept ?_ hopens hobserved haccept rfl hadvances (.refl _)
  rw [World.tick_state, hread]
  exact .refl _

theorem completePlatformLogin_logsIn {id : Uuid} {nonce : Secret} {browser : String}
    {context : PlatformChallengeContext} {evidence : PlatformEvidence} {login : PlatformLogin}
    (h : (completePlatformLogin env id nonce browser context evidence).run w = .ok (login, w')) :
    LogsIn env w w' login.session.view.id := by
  simp only [completePlatformLogin, readChallenge, Tx.run_bind, Tx.run_require, Tx.run_demand,
    Tx.run_find, Tx.run_world, Tx.run_ofExcept, run_now, Tx.run_pure, and_assoc, exists_and_left,
    exists_eq_left', exists_eq_left, exists_const] at h
  obtain ⟨-, verifier, -, -, row, _, ⟨_, -, -, -, -, -, rfl, rfl⟩, -, -, stored, _, hload, -, -, -,
    _, _, hrecheck, -, -, target, -, -, -, observation, w₁, hobserve, issued, w₂, hinsert, assertion,
    w₃, hissue, _, w₄, haccept, -, n, w₅, hdelete, rfl, rfl⟩ := h
  obtain ⟨rfl, hkey, -⟩ := run_load hload
  obtain rfl := run_recheckPlatform hrecheck
  have hobserved : w₁.state.ledger = w.tick.tick.state.ledger :=
    WritesOnly.keeps_ledger env [.sequence] (fun _ => platformObservation_writes (by decide))
      (by decide) (by decide) (by decide) _ _ _ hobserve
  have hopens := insertSession_opens hinsert
  rw [hkey] at hopens
  have hquiet : w.state.ledger.Quiet w₁.state.ledger := by
    rw [hobserved]
    exact .refl _
  have hissued : w₃.state.ledger = w₂.state.ledger :=
    WritesOnly.keeps_ledger env [] (fun _ => issueFor_writes) (by decide) (by decide) (by decide)
      _ _ _ hissue
  have hdeleted : w₅.state.ledger = w₄.tick.state.ledger :=
    WritesOnly.keeps_ledger env [.challenges] (fun _ => deleteChallenges_writes (by decide))
      (by decide) (by decide) (by decide) _ _ _ hdelete
  have hbefore : w.Advances w₃ :=
    ((World.Advances.tick w).trans (.tick _)).trans
      (((platformObservation _ _ _ _ _).advances _ _ _ hobserve).trans
        (((insertSession _ _ _ _ _ _).advances _ _ _ hinsert).trans
          ((issueFor _ _ _ _ _ _).advances _ _ _ hissue)))
  have hlater : w₄.Advances w₅ := (World.Advances.tick w₄).trans (Tx.advances _ _ _ _ hdelete)
  cases observation with
  | none =>
    obtain ⟨-, rfl⟩ := Tx.run_pure.mp haccept
    have hstays : w.state.ledger.Opens issued.view.id row.binding.account w₅.state.ledger := by
      rw [hdeleted, World.tick_state, hissued]
      exact .after hquiet hopens
    exact .refused hstays
  | some observation =>
    exact logsIn_of_accept hquiet hopens hissued haccept hdeleted hbefore hlater

variable {held : ClaimedAttempt env} {claims : UpstreamClaims} {committing : CommittingAttempt env}

theorem commitLogin_logsIn {outcome : FederatedOutcome}
    (h : (commitLogin env committing claims).run w = .ok (outcome, w')) :
    ∃ issued url, outcome = .session issued url none ∧ LogsIn env w w' issued.view.id := by
  simp only [commitLogin, Tx.run_bind, Tx.run_require, Tx.run_pure] at h
  obtain ⟨-, _, ⟨-, rfl⟩, sequence, w₁, hsequence, facts, w₂, hfacts, issued, w₃, hinsert, _, w₄,
    hunexpired, _, w₅, haccept, _, w₆, hconsume, rfl, rfl⟩ := h
  have hsequenced : w₁.state.ledger = w.state.ledger :=
    WritesOnly.keeps_ledger env [.sequence] (fun _ => profileSequence_writes (by decide)) (by decide)
      (by decide) (by decide) _ _ _ hsequence
  have hcollected : w₂.state.ledger = w₁.state.ledger := by
    rw [(run_collectFacts hfacts).1]
  have hjudged : w₄.state.ledger = w₃.state.ledger :=
    WritesOnly.keeps_ledger env [] (fun _ => requireUnexpired_writes) (by decide) (by decide)
      (by decide) _ _ _ hunexpired
  have hconsumed : w₆.state.ledger = w₅.state.ledger :=
    WritesOnly.keeps_ledger env [.oidc] (fun _ => consumeAttempt_writes (by decide)) (by decide)
      (by decide) (by decide) _ _ _ hconsume
  have hquiet : w.state.ledger.Quiet w₂.state.ledger := by
    rw [hcollected, hsequenced]
    exact .refl _
  have hbefore : w.Advances w₄ := (profileSequence.advances _ _ _ hsequence).trans
    (((collectFacts _ _ _ _).advances _ _ _ hfacts).trans
      (((insertSession _ _ _ _ _ _).advances _ _ _ hinsert).trans
        ((requireUnexpired _).advances _ _ _ hunexpired)))
  exact ⟨issued, _, rfl, logsIn_of_accept hquiet (insertSession_opens hinsert) hjudged haccept
    hconsumed hbefore (Tx.advances _ _ _ _ hconsume)⟩

theorem commitLink_takesOver {outcome : FederatedOutcome} (hholds : w.state.Holds committing.state)
    (h : (commitLink env committing).run w = .ok (outcome, w')) :
    ∃ id row issued url linked, committing.attempt.link = some id ∧
      w.state.linkIntents.find? id = some row ∧ outcome = .session issued url (some linked) ∧
      TakesOver w w' row.session issued.view.id := by
  simp only [commitLink, Tx.run_bind, Tx.run_demand, Tx.run_require, Tx.run_ofExcept,
    ofRule_eq_ok, Tx.run_pure] at h
  obtain ⟨id, _, ⟨hlink, rfl⟩, found, w₀, hintent, -, _, ⟨-, rfl⟩, next, _, ⟨hnext, rfl⟩, _, w₁, hepoch,
    _, w₂, hadvance, _, w₃, horigin, authentication, _, ⟨-, rfl⟩, issued, w₄, hinsert,
    _, w₅, hretain, _, w₆, hunexpired, _, w₇, hconsume, rfl, rfl⟩ := h
  obtain ⟨rfl, -, row, hrow, hrowOf⟩ := run_intent hintent
  obtain ⟨hburned, -⟩ : Effects env [.accounts] w₀ _ w₁ ∧ _ :=
    run_setAuthEpoch (by decide) hholds hnext hepoch
  obtain ⟨hcompleted, -⟩ : Effects env [.completion] w₀ w₁ w₂ ∧ _ :=
    advance_completes (by decide) hadvance
  obtain ⟨rfl, -⟩ := run_checkIntentOrigin horigin
  have hquiet : w₀.state.ledger.Quiet w₃.state.ledger :=
    (hburned.quiet (by decide) (by decide)).trans (hcompleted.quiet (by decide) (by decide))
  have hjudged : w₆.state.ledger = w₅.state.ledger :=
    WritesOnly.keeps_ledger env [] (fun _ => requireUnexpired_writes) (by decide) (by decide)
      (by decide) _ _ _ hunexpired
  have hconsumed : w₇.state.ledger = w₆.state.ledger :=
    WritesOnly.keeps_ledger env [.oidc] (fun _ => consumeAttempt_writes (by decide)) (by decide)
      (by decide) (by decide) _ _ _ hconsume
  have hcopies := run_retainBinding hretain
  rw [← hjudged, ← hconsumed, ← hrowOf.session] at hcopies
  exact ⟨id, row, issued, _, _, hlink, hrow, rfl, next.key, _,
    .after hquiet (insertSession_opens hinsert), hcopies⟩

/-- The session that a link takes over: the one its intent names. -/
def ClaimedAttempt.TakenOver (held : ClaimedAttempt env) (w : Tenant) (old : SessionId) : Prop :=
  ∃ row id intent, w.state.oidcTransactions.find? held.locator.id = some row ∧
    row.linkIntent = some id ∧ w.state.linkIntents.find? id = some intent ∧ intent.session = old

/-- The commit of an attempt logs in, links, or leaves the ledger quiet. -/
theorem commitAttempt_ledger {outcome : FederatedOutcome}
    (h : (commitAttempt env held claims).run w = .ok (outcome, w')) :
    (∃ grant url, outcome = .stepUp grant url ∧ w.state.ledger.Quiet w'.state.ledger) ∨
      (∃ issued url, outcome = .session issued url none ∧ LogsIn env w w' issued.view.id) ∨
      ∃ issued url linked old, outcome = .session issued url (some linked) ∧
        held.TakenOver w old ∧ TakesOver w w' old issued.view.id := by
  obtain ⟨-, committing, w₁, -, hprepared, hof, h⟩ := run_commitAttempt_ways h
  have hquiet : w.state.ledger.Quiet w₁.state.ledger := hprepared.quiet (by decide) (by decide)
  have hadvances := hprepared.advances
  obtain ⟨row, hrow, -, hattempt⟩ := hof.attempt
  rcases h with ⟨-, h⟩ | ⟨-, ⟨-, h⟩ | ⟨-, h⟩⟩
  · have hgranted : Effects env [.grants, .oidc] w w₁ w' :=
      commitStepUp_writes (by decide) (by decide) hadvances _ _ _ (.refl _) h
    obtain ⟨grant, url, rfl⟩ := run_commitStepUp_grants h
    exact .inl ⟨grant, url, rfl, hquiet.trans (hgranted.quiet (by decide) (by decide))⟩
  · obtain ⟨id, intent, issued, url, linked, hid, hintent, rfl, principal, l, hopens, hcopies⟩ :=
      commitLink_takesOver hof.holds h
    rw [hprepared.linkIntents_eq (by decide)] at hintent
    rw [hattempt] at hid
    exact .inr (.inr ⟨issued, url, linked, intent.session, rfl, ⟨row, id, intent, hrow, hid, hintent, rfl⟩,
      principal, l, .after hquiet hopens, hcopies⟩)
  · obtain ⟨issued, url, rfl, hlogs⟩ := commitLogin_logsIn h
    refine .inr (.inl ⟨issued, url, rfl, ?_⟩)
    cases hlogs with
    | refused hopens => exact .refused (.after hquiet hopens)
    | accepted hopens haccepts hdrawn =>
      exact .accepted (.after hquiet hopens) haccepts (hdrawn.mono hadvances (.refl _))

namespace Commit

/-- The session that a transaction issues by a login. -/
def login : Commit env → Option SessionId
  | createSession _ _ _ issued => some issued.view.id
  | commitAttempt _ _ (.session issued _ none) => some issued.view.id
  | completePlatformLogin _ _ _ _ _ login => some login.session.view.id
  | _ => none

/-- A transaction issues a session by a link, which takes over from another one. -/
def Links (w : Tenant) (commit : Commit env) (old new : SessionId) : Prop :=
  ∃ held claims issued url linked,
    commit = commitAttempt held claims (.session issued url (some linked)) ∧
    held.TakenOver w old ∧ issued.view.id = new

/-- What a transaction does to the ledger: nothing but open sessions, or a login, or a link. -/
theorem ledger {commit : Commit env} (h : commit.Runs w w') :
    (commit.login = none ∧ (∀ old new, ¬ commit.Links w old new) ∧
        w.state.ledger.Quiet w'.state.ledger) ∨
      (∃ sid, commit.login = some sid ∧ LogsIn env w w' sid) ∨
      commit.login = none ∧ ∃ old new, commit.Links w old new ∧ TakesOver w w' old new := by
  have heffects := Commit.effects h
  cases commit with
  | createSession candidate replacement kind issued =>
    exact .inr (.inl ⟨_, rfl, createSessionFor_logsIn h⟩)
  | completePlatformLogin id nonce browser context evidence login =>
    exact .inr (.inl ⟨_, rfl, completePlatformLogin_logsIn h⟩)
  | commitAttempt held claims outcome =>
    obtain ⟨grant, url, rfl, hquiet⟩ | ⟨issued, url, rfl, hlogs⟩ |
      ⟨issued, url, linked, old, rfl, htaken, htakes⟩ := commitAttempt_ledger h
    · refine .inl ⟨rfl, ?_, hquiet⟩
      rintro old new ⟨_, _, _, _, _, heq, -⟩
      cases heq
    · exact .inr (.inl ⟨_, rfl, hlogs⟩)
    · exact .inr (.inr ⟨rfl, old, _, ⟨held, claims, issued, url, linked, rfl, htaken, rfl⟩, htakes⟩)
  | _ =>
    refine .inl ⟨rfl, ?_, heffects.quiet (by simp [areas]) (by simp [areas])⟩
    rintro old new ⟨_, _, _, _, _, heq, -⟩
    cases heq

end Commit

end Commits

section Observations

variable {s₀ s s' : System env} {label : Label env}
  {trace : List (Event (System env) (Label env))} {e : Event (System env) (Label env)}
  {o o' : ProfileObservationRow} {t t' : Table ProfileObservationRow}

/-- One stored observation is followed by another. -/
def ProfileObservationRow.Forward (old new : ProfileObservationRow) : Prop :=
  new = old ∨ old.sequence < new.sequence ∧
    (new.configVersion = old.configVersion → old.observedAt ≤ new.observedAt)

theorem ProfileObservationRow.forward_of_supersedes (h : o'.supersedes o = true) :
    o.Forward o' := by
  obtain ⟨hsequence, hobserved⟩ := of_decide_eq_true h
  refine .inr ⟨hsequence, fun hconfig => ?_⟩
  rcases hobserved with hne | hle
  · exact absurd hconfig.symm hne
  · exact hle

theorem Records.evolves (h : Records o t t') : t.Evolves ProfileObservationRow.Forward t' := by
  intro k row hrow
  by_cases hk : k = (o.principal, o.source)
  · subst hk
    exact ⟨o, h.stored, ProfileObservationRow.forward_of_supersedes (h.supersedes row hrow)⟩
  · exact ⟨row, (h.others k hk).trans hrow, .inl rfl⟩

theorem Records.mem (h : Records o t t') {row : ProfileObservationRow} (hrow : row ∈ t') :
    row = o ∨ row ∈ t ∧ Keyed.key row ≠ (o.principal, o.source) := by
  have hfind := Table.find?_of_mem hrow
  by_cases hkey : Keyed.key row = (o.principal, o.source)
  · rw [hkey, h.stored, Option.some.injEq] at hfind
    exact .inl hfind.symm
  · rw [h.others _ hkey] at hfind
    exact .inr ⟨Table.mem_of_find? hfind, hkey⟩

/-- What an event stores: an observation that was not there before it. -/
def Stores (e : Event (System env) (Label env)) (o : ProfileObservationRow) : Prop :=
  e.after.world.state.profileObservations.find? (o.principal, o.source) = some o ∧
    e.before.world.state.profileObservations.find? (o.principal, o.source) ≠ some o

/-- A step stores one observation, under a snapshot it drew, or none. -/
theorem Step.observations (h : Step env s label s') :
    s'.world.state.profileObservations = s.world.state.profileObservations ∨
      ∃ o, SnapshotDrawn env s.world s'.world o.snapshot ∧
        Records o s.world.state.profileObservations s'.world.state.profileObservations := by
  cases h with
  | elapse hstate _ => exact .inl (by rw [hstate])
  | @commit commit w' _ hruns =>
    rcases Commit.ledger hruns with ⟨-, -, hquiet⟩ | ⟨sid, -, hlogs⟩ |
      ⟨-, old, new, -, principal, l, hopens, hcopies⟩
    · exact .inl hquiet.observations
    · cases hlogs with
      | refused hopens => exact .inl hopens.quiet.observations
      | @accepted o l hopens haccepts hdrawn =>
        have hrecords := haccepts.records
        rw [hopens.quiet.observations] at hrecords
        exact .inr ⟨o, hdrawn, hrecords⟩
    · exact .inl (hcopies.observations.trans hopens.quiet.observations)

theorem Step.observations_evolve (h : Step env s label s') :
    s.world.state.profileObservations.Evolves ProfileObservationRow.Forward
      s'.world.state.profileObservations := by
  rcases h.observations with hsame | ⟨o, -, hrecords⟩
  · rw [hsame]
    exact .refl fun _ => .inl rfl
  · exact hrecords.evolves

/-- What is stored of an observation is what the step recorded. -/
theorem Records.eq_of_stores
    (h : Records o e.before.world.state.profileObservations e.after.world.state.profileObservations)
    (hstores : Stores e o') : o' = o := by
  by_cases hkey : (o'.principal, o'.source) = (o.principal, o.source)
  · have hstored := hstores.1
    rw [hkey, h.stored, Option.some.injEq] at hstored
    exact hstored.symm
  · exact absurd ((h.others _ hkey).symm.trans hstores.1) hstores.2

/-- An observation's snapshot was drawn before a certain draw. -/
def ProfileObservationRow.DrawnBefore (env : Env) (row : ProfileObservationRow) (n : ℕ) : Prop :=
  ∃ i < n, row.snapshot = freshUuid env i

theorem ProfileObservationRow.DrawnBefore.ne {w w' : Tenant} (h : o.DrawnBefore env w.drawn)
    (hdrawn : SnapshotDrawn env w w' o'.snapshot) : o'.snapshot ≠ o.snapshot := by
  obtain ⟨i, hi, hsnapshot⟩ := h
  obtain ⟨j, hsnapshot', hlo, -⟩ := hdrawn
  intro heq
  have hsame := freshUuid_injective env (hsnapshot'.symm.trans (heq.trans hsnapshot))
  omega

theorem ProfileObservationRow.DrawnBefore.mono {m n : ℕ} (h : o.DrawnBefore env m) (hmn : m ≤ n) :
    o.DrawnBefore env n := by
  obtain ⟨i, hi, hsnapshot⟩ := h
  exact ⟨i, by omega, hsnapshot⟩

theorem SnapshotDrawn.before {w w' : Tenant} (h : SnapshotDrawn env w w' o.snapshot) :
    o.DrawnBefore env w'.drawn := by
  obtain ⟨i, hsnapshot, -, hi⟩ := h
  exact ⟨i, hi, hsnapshot⟩

/-- An event replaces an observation that was stored before it. -/
def ReplacesObservation (e : Event (System env) (Label env)) (old : ProfileObservationRow) : Prop :=
  ∃ k, e.before.world.state.profileObservations.find? k = some old ∧
    e.after.world.state.profileObservations.find? k ≠ some old

/-- What a run knows of snapshots: each was drawn for one observation, and is gone for good once
that was replaced. -/
structure ObservationHistory (trace : List (Event (System env) (Label env))) (s : System env) :
    Prop where
  drawn : ∀ row ∈ s.world.state.profileObservations, row.DrawnBefore env s.world.drawn
  separate : ∀ row ∈ s.world.state.profileObservations,
    ∀ row' ∈ s.world.state.profileObservations, row.snapshot = row'.snapshot → row = row'
  stored : ∀ e ∈ trace, ∀ o, Stores e o → o.DrawnBefore env s.world.drawn ∧
    ∀ row ∈ s.world.state.profileObservations, row.snapshot = o.snapshot → row = o
  distinct : trace.Pairwise fun e f => ∀ o o', Stores e o → Stores f o' → o.snapshot ≠ o'.snapshot
  replaced : ∀ e ∈ trace, ∀ old, ReplacesObservation e old → old.DrawnBefore env s.world.drawn ∧
    ∀ row ∈ s.world.state.profileObservations, row.snapshot ≠ old.snapshot

theorem ObservationHistory.keep (h : ObservationHistory trace s)
    (hsame : s'.world.state.profileObservations = s.world.state.profileObservations)
    (hdrawn : s.world.drawn ≤ s'.world.drawn) :
    ObservationHistory (trace ++ [⟨s, label, s'⟩]) s' := by
  have hstores : ∀ o, ¬ Stores ⟨s, label, s'⟩ o := by
    rintro o ⟨hafter, hbefore⟩
    exact hbefore (hsame ▸ hafter)
  have hreplaces : ∀ old, ¬ ReplacesObservation ⟨s, label, s'⟩ old := by
    rintro old ⟨k, hbefore, hafter⟩
    exact hafter (hsame.symm ▸ hbefore)
  refine ⟨?_, ?_, ?_, ?_, ?_⟩
  · intro row hrow
    rw [hsame] at hrow
    exact (h.drawn row hrow).mono hdrawn
  · rw [hsame]
    exact h.separate
  · intro e he o ho
    rw [hsame]
    rcases List.mem_append.mp he with he | he
    · exact ⟨(h.stored e he o ho).1.mono hdrawn, (h.stored e he o ho).2⟩
    · obtain rfl := List.mem_singleton.mp he
      exact absurd ho (hstores o)
  · refine List.pairwise_append.mpr ⟨h.distinct, List.pairwise_singleton _ _, ?_⟩
    intro e _ f hf o o' _ ho'
    obtain rfl := List.mem_singleton.mp hf
    exact absurd ho' (hstores o')
  · intro e he old hold
    rw [hsame]
    rcases List.mem_append.mp he with he | he
    · exact ⟨(h.replaced e he old hold).1.mono hdrawn, (h.replaced e he old hold).2⟩
    · obtain rfl := List.mem_singleton.mp he
      exact absurd hold (hreplaces old)

theorem ObservationHistory.record (h : ObservationHistory trace s)
    (hdrawn : SnapshotDrawn env s.world s'.world o.snapshot)
    (hrecords : Records o s.world.state.profileObservations s'.world.state.profileObservations)
    (hlater : s.world.drawn ≤ s'.world.drawn) :
    ObservationHistory (trace ++ [⟨s, label, s'⟩]) s' := by
  have hfresh : ∀ row : ProfileObservationRow, row.DrawnBefore env s.world.drawn →
      o.snapshot ≠ row.snapshot := fun row hrow => hrow.ne hdrawn
  refine ⟨?_, ?_, ?_, ?_, ?_⟩
  · intro row hrow
    rcases hrecords.mem hrow with rfl | ⟨hold, -⟩
    · exact hdrawn.before
    · exact (h.drawn row hold).mono hlater
  · intro row hrow row' hrow' hsame
    rcases hrecords.mem hrow with rfl | ⟨hold, -⟩ <;>
      rcases hrecords.mem hrow' with rfl | ⟨hold', -⟩
    · rfl
    · exact absurd hsame (hfresh row' (h.drawn row' hold'))
    · exact absurd hsame.symm (hfresh row (h.drawn row hold))
    · exact h.separate row hold row' hold' hsame
  · intro e he o' ho'
    rcases List.mem_append.mp he with he | he
    · obtain ⟨hbefore, hkept⟩ := h.stored e he o' ho'
      refine ⟨hbefore.mono hlater, fun row hrow hsame => ?_⟩
      rcases hrecords.mem hrow with rfl | ⟨hold, -⟩
      · exact absurd hsame (hfresh o' hbefore)
      · exact hkept row hold hsame
    · obtain rfl := List.mem_singleton.mp he
      rw [Records.eq_of_stores (e := ⟨s, label, s'⟩) hrecords ho']
      refine ⟨hdrawn.before, fun row hrow hsame => ?_⟩
      rcases hrecords.mem hrow with rfl | ⟨hold, -⟩
      · rfl
      · exact absurd hsame.symm (hfresh row (h.drawn row hold))
  · refine List.pairwise_append.mpr ⟨h.distinct, List.pairwise_singleton _ _, ?_⟩
    intro e he f hf o₁ o₂ ho₁ ho₂
    obtain rfl := List.mem_singleton.mp hf
    rw [Records.eq_of_stores (e := ⟨s, label, s'⟩) hrecords ho₂]
    exact (hfresh o₁ (h.stored e he o₁ ho₁).1).symm
  · intro e he old hold
    rcases List.mem_append.mp he with he | he
    · obtain ⟨hbefore, hgone⟩ := h.replaced e he old hold
      refine ⟨hbefore.mono hlater, fun row hrow => ?_⟩
      rcases hrecords.mem hrow with rfl | ⟨hrow, -⟩
      · exact hfresh old hbefore
      · exact hgone row hrow
    · obtain rfl := List.mem_singleton.mp he
      obtain ⟨k, hbefore, hafter⟩ := hold
      have hmem := Table.mem_of_find? hbefore
      refine ⟨(h.drawn old hmem).mono hlater, fun row hrow => ?_⟩
      rcases hrecords.mem hrow with rfl | ⟨hrow', hkey⟩
      · exact hfresh old (h.drawn old hmem)
      · intro hsame
        obtain rfl := h.separate row hrow' old hmem hsame
        rw [Table.key_of_find? hbefore] at hkey
        exact hafter ((hrecords.others k hkey).trans hbefore)

theorem observationHistory_of_run (hstart : s₀.Provisioned) (hrun : Run (Step env) s₀ trace s) :
    ObservationHistory trace s := by
  refine hrun.history (H := ObservationHistory) ?_ fun trace s label s' _ h hstep => ?_
  · have hnone : ∀ row, row ∉ s₀.world.state.profileObservations := by
      intro row hrow
      rw [hstart.1] at hrow
      exact Table.not_mem_empty hrow
    exact ⟨fun row hrow => absurd hrow (hnone row), fun row hrow => absurd hrow (hnone row), by simp,
      .nil, by simp⟩
  · have hdrawn := hstep.advances.drawn
    rcases hstep.observations with hsame | ⟨o, hsnapshot, hrecords⟩
    · exact h.keep hsame hdrawn
    · exact h.record hsnapshot hrecords hdrawn

end Observations

section Bindings

variable {s₀ s s' : System env} {label : Label env}
  {trace : List (Event (System env) (Label env))} {e : Event (System env) (Label env)}
  {o o' : ProfileObservationRow} {sid : SessionId}

/-- An event is the login of a session. -/
def IsLogin (e : Event (System env) (Label env)) (sid : SessionId) : Prop :=
  ∃ commit, e.label = .commit commit ∧ commit.login = some sid

/-- An event is a link, which issues a session in place of another one. -/
def IsLink (e : Event (System env) (Label env)) (old new : SessionId) : Prop :=
  ∃ commit, e.label = .commit commit ∧ commit.Links e.before.world old new

/-- The observation that a session's own login stored, or the login of the session it was linked
from, through any chain of links. -/
inductive LoginObservation : List (Event (System env) (Label env)) → SessionId →
    ProfileObservationRow → Prop
  | own {earlier later : List (Event (System env) (Label env))} {e : Event (System env) (Label env)}
      {sid : SessionId} {o : ProfileObservationRow} : IsLogin e sid → Stores e o →
      LoginObservation (earlier ++ e :: later) sid o
  | linked {earlier later : List (Event (System env) (Label env))}
      {e : Event (System env) (Label env)} {old new : SessionId} {o : ProfileObservationRow} :
      IsLink e old new → LoginObservation earlier old o →
      LoginObservation (earlier ++ e :: later) new o

theorem LoginObservation.extend (h : LoginObservation trace sid o) :
    LoginObservation (trace ++ [e]) sid o := by
  cases h with
  | own hlogin hstores =>
    rw [List.append_assoc, List.cons_append]
    exact .own hlogin hstores
  | linked hlink hold =>
    rw [List.append_assoc, List.cons_append]
    exact .linked hlink hold

/-- The last event of a run is the login or the link of the session, or it changes nothing. -/
theorem LoginObservation.of_concat (h : LoginObservation (trace ++ [e]) sid o) :
    LoginObservation trace sid o ∨ (IsLogin e sid ∧ Stores e o) ∨
      ∃ old, IsLink e old sid ∧ LoginObservation trace old o := by
  generalize hall : trace ++ [e] = all at h
  cases h with
  | @own earlier later f _ _ hlogin hstores =>
    rcases List.eq_nil_or_concat later with rfl | ⟨later, last, rfl⟩
    · obtain ⟨rfl, hlast⟩ := List.append_inj' hall rfl
      cases hlast
      exact .inr (.inl ⟨hlogin, hstores⟩)
    · rw [List.concat_eq_append, ← List.cons_append, ← List.append_assoc] at hall
      obtain ⟨rfl, -⟩ := List.append_inj' hall rfl
      exact .inl (.own hlogin hstores)
  | @linked earlier later f old _ _ hlink hold =>
    rcases List.eq_nil_or_concat later with rfl | ⟨later, last, rfl⟩
    · obtain ⟨rfl, hlast⟩ := List.append_inj' hall rfl
      cases hlast
      exact .inr (.inr ⟨old, hlink, hold⟩)
    · rw [List.concat_eq_append, ← List.cons_append, ← List.append_assoc] at hall
      obtain ⟨rfl, -⟩ := List.append_inj' hall rfl
      exact .inl (.linked hlink hold)

/-- A link takes over one session. -/
theorem IsLink.unique {old old' : SessionId} (h : IsLink e old sid) (h' : IsLink e old' sid) :
    old = old' := by
  obtain ⟨commit, hlabel, held, claims, issued, url, linked, rfl, htaken, -⟩ := h
  obtain ⟨commit', hlabel', held', claims', issued', url', linked', rfl, htaken', -⟩ := h'
  rw [hlabel, Label.commit.injEq, Commit.commitAttempt.injEq] at hlabel'
  obtain ⟨rfl, -, -⟩ := hlabel'
  obtain ⟨row, id, intent, hrow, hid, hintent, rfl⟩ := htaken
  obtain ⟨row', id', intent', hrow', hid', hintent', rfl⟩ := htaken'
  obtain rfl := Option.some_injective _ (hrow.symm.trans hrow')
  obtain rfl := Option.some_injective _ (hid.symm.trans hid')
  obtain rfl := Option.some_injective _ (hintent.symm.trans hintent')
  rfl

/-- A login is no link. -/
theorem IsLogin.not_link {old new : SessionId} (h : IsLogin e sid) : ¬ IsLink e old new := by
  rintro ⟨commit', hlabel', held, claims, issued, url, linked, rfl, -⟩
  obtain ⟨commit, hlabel, hlogin⟩ := h
  rw [hlabel', Label.commit.injEq] at hlabel
  rw [← hlabel] at hlogin
  cases hlogin

/-- An event issues one session. -/
theorem IsLogin.unique {sid' : SessionId} (h : IsLogin e sid) (h' : IsLogin e sid') : sid = sid' := by
  obtain ⟨commit, hlabel, hlogin⟩ := h
  obtain ⟨commit', hlabel', hlogin'⟩ := h'
  rw [hlabel, Label.commit.injEq] at hlabel'
  rw [← hlabel', hlogin, Option.some.injEq] at hlogin'
  exact hlogin'

theorem IsLink.unique_new {old old' new new' : SessionId} (h : IsLink e old new)
    (h' : IsLink e old' new') : new = new' := by
  obtain ⟨commit, hlabel, held, claims, issued, url, linked, rfl, -, rfl⟩ := h
  obtain ⟨commit', hlabel', held', claims', issued', url', linked', rfl, -, rfl⟩ := h'
  rw [hlabel, Label.commit.injEq, Commit.commitAttempt.injEq] at hlabel'
  obtain ⟨-, -, houtcome⟩ := hlabel'
  cases houtcome
  rfl

/-- What a run knows of bindings: a session is bound to the observation of its login, or to
none; each session has one login. -/
structure BindingHistory (trace : List (Event (System env) (Label env))) (s : System env) : Prop where
  bound : ∀ sid b, s.world.state.ledger.bindings sid = some b → b = .unbound b.principal ∨
    ∃ o, LoginObservation trace sid o ∧ b = ⟨o.principal, some o.source, some o.snapshot⟩
  issued : ∀ sid o, LoginObservation trace sid o →
    (s.world.state.ledger.bindings sid).isSome = true ∧ ∃ e ∈ trace, Stores e o
  single : ∀ sid o o', LoginObservation trace sid o → LoginObservation trace sid o' → o = o'

/-- A run goes on by an event that neither logs in nor links. -/
theorem BindingHistory.quiet (h : BindingHistory trace s)
    (hquiet : s.world.state.ledger.Quiet s'.world.state.ledger)
    (hlogin : ∀ sid, ¬ IsLogin ⟨s, label, s'⟩ sid) (hlink : ∀ old new, ¬ IsLink ⟨s, label, s'⟩ old new) :
    BindingHistory (trace ++ [⟨s, label, s'⟩]) s' := by
  have hback : ∀ sid o, LoginObservation (trace ++ [⟨s, label, s'⟩]) sid o →
      LoginObservation trace sid o := by
    intro sid o hobservation
    rcases hobservation.of_concat with hold | ⟨hnew, -⟩ | ⟨old, hnew, -⟩
    · exact hold
    · exact absurd hnew (hlogin sid)
    · exact absurd hnew (hlink old sid)
  refine ⟨?_, ?_, fun sid o o' ho ho' => h.single sid o o' (hback sid o ho) (hback sid o' ho')⟩
  · intro sid b hb
    rcases hquiet.bindings sid with hsame | ⟨-, principal, hadded⟩
    · rw [hsame] at hb
      rcases h.bound sid b hb with hunbound | ⟨o, hobservation, hbound⟩
      · exact .inl hunbound
      · exact .inr ⟨o, hobservation.extend, hbound⟩
    · rw [hadded, Option.some.injEq] at hb
      rw [← hb]
      exact .inl rfl
  · intro sid o hobservation
    obtain ⟨hsome, f, hf, hstores⟩ := h.issued sid o (hback sid o hobservation)
    obtain ⟨b, hb⟩ := Option.isSome_iff_exists.mp hsome
    exact ⟨by rw [hquiet.of_some hb]; rfl, f, List.mem_append_left _ hf, hstores⟩

/-- A run goes on by an event that opens a session, and may bind it. -/
theorem BindingHistory.issue (h : BindingHistory trace s) {sid : SessionId} {principal : PrincipalId}
    {l : Ledger} (hopens : s.world.state.ledger.Opens sid principal l)
    (hkept : ∀ other ≠ sid, s'.world.state.ledger.bindings other = l.bindings other)
    (hsome : (s'.world.state.ledger.bindings sid).isSome = true)
    (hevent : ∀ other, IsLogin ⟨s, label, s'⟩ other ∨ (∃ old, IsLink ⟨s, label, s'⟩ old other) →
      other = sid)
    (hbound : ∀ b, s'.world.state.ledger.bindings sid = some b → b = .unbound b.principal ∨
      ∃ o, LoginObservation (trace ++ [⟨s, label, s'⟩]) sid o ∧
        b = ⟨o.principal, some o.source, some o.snapshot⟩)
    (hsingle : ∀ o o', Stores ⟨s, label, s'⟩ o → Stores ⟨s, label, s'⟩ o' → o = o') :
    BindingHistory (trace ++ [⟨s, label, s'⟩]) s' := by
  have hfresh : ∀ o, ¬ LoginObservation trace sid o := by
    intro o hobservation
    have hissued := (h.issued sid o hobservation).1
    rw [hopens.absent] at hissued
    cases hissued
  have hback : ∀ other ≠ sid, ∀ o, LoginObservation (trace ++ [⟨s, label, s'⟩]) other o →
      LoginObservation trace other o := by
    intro other hother o hobservation
    rcases hobservation.of_concat with hold | ⟨hnew, -⟩ | ⟨old, hnew, -⟩
    · exact hold
    · exact absurd (hevent other (.inl hnew)) hother
    · exact absurd (hevent other (.inr ⟨old, hnew⟩)) hother
  refine ⟨?_, ?_, ?_⟩
  · intro other b hb
    by_cases hother : other = sid
    · subst hother
      exact hbound b hb
    · rw [hkept other hother] at hb
      rcases hopens.quiet.bindings other with hsame | ⟨-, owner, hadded⟩
      · rw [hsame] at hb
        rcases h.bound other b hb with hunbound | ⟨o, hobservation, hb⟩
        · exact .inl hunbound
        · exact .inr ⟨o, hobservation.extend, hb⟩
      · rw [hadded, Option.some.injEq] at hb
        rw [← hb]
        exact .inl rfl
  · intro other o hobservation
    by_cases hother : other = sid
    · subst hother
      refine ⟨hsome, ?_⟩
      rcases hobservation.of_concat with hold | ⟨-, hstores⟩ | ⟨old, -, hold⟩
      · exact absurd hold (hfresh o)
      · exact ⟨_, by simp, hstores⟩
      · obtain ⟨-, f, hf, hstores⟩ := h.issued old o hold
        exact ⟨f, List.mem_append_left _ hf, hstores⟩
    · obtain ⟨hissued, f, hf, hstores⟩ := h.issued other o (hback other hother o hobservation)
      obtain ⟨b, hb⟩ := Option.isSome_iff_exists.mp hissued
      refine ⟨?_, f, List.mem_append_left _ hf, hstores⟩
      rw [hkept other hother, hopens.quiet.of_some hb]
      rfl
  · intro other o o' ho ho'
    by_cases hother : other = sid
    · subst hother
      rcases ho.of_concat with hold | ⟨hlogin, hstores⟩ | ⟨old, hlink, hold⟩
      · exact absurd hold (hfresh o)
      · rcases ho'.of_concat with hold' | ⟨-, hstores'⟩ | ⟨old', hlink', -⟩
        · exact absurd hold' (hfresh o')
        · exact hsingle o o' hstores hstores'
        · exact absurd hlink' hlogin.not_link
      · rcases ho'.of_concat with hold' | ⟨hlogin', -⟩ | ⟨old', hlink', hold'⟩
        · exact absurd hold' (hfresh o')
        · exact absurd hlink hlogin'.not_link
        · rw [hlink.unique hlink'] at hold
          exact h.single old' o o' hold hold'
    · exact h.single other o o' (hback other hother o ho) (hback other hother o' ho')

theorem BindingHistory.step (h : BindingHistory trace s) (hobservations : ObservationHistory trace s)
    (hstep : Step env s label s') : BindingHistory (trace ++ [⟨s, label, s'⟩]) s' := by
  have hstores : ∀ o o', Stores ⟨s, label, s'⟩ o → Stores ⟨s, label, s'⟩ o' → o = o' := by
    intro o o' ho ho'
    rcases hstep.observations with hsame | ⟨o₁, -, hrecords⟩
    · exact absurd (hsame ▸ ho.1) ho.2
    · have heq := Records.eq_of_stores (e := ⟨s, label, s'⟩) hrecords ho
      exact heq.trans (Records.eq_of_stores (e := ⟨s, label, s'⟩) hrecords ho').symm
  cases hstep with
  | elapse hstate hadvances =>
    refine h.quiet ?_ ?_ ?_
    · rw [hstate]
      exact .refl _
    · rintro sid ⟨commit, hlabel, -⟩
      cases hlabel
    · rintro old new ⟨commit, hlabel, -⟩
      cases hlabel
  | @commit commit w' _ hruns =>
    rcases Commit.ledger hruns with ⟨hnone, hunlinked, hquiet⟩ | ⟨sid, hsome, hlogs⟩ |
      ⟨hnone, old, new, hlinks, principal, l, hopens, hcopies⟩
    · refine h.quiet hquiet ?_ ?_
      · rintro sid ⟨commit', hlabel, hlogin⟩
        rw [Label.commit.injEq] at hlabel
        rw [← hlabel, hnone] at hlogin
        cases hlogin
      · rintro old new ⟨commit', hlabel, hlinks⟩
        rw [Label.commit.injEq] at hlabel
        rw [← hlabel] at hlinks
        exact hunlinked old new hlinks
    · have hlogin : IsLogin ⟨s, .commit commit, ⟨w', commit.gives ++ s.held⟩⟩ sid :=
        ⟨commit, rfl, hsome⟩
      have hevent : ∀ other,
          IsLogin ⟨s, .commit commit, ⟨w', commit.gives ++ s.held⟩⟩ other ∨
            (∃ old, IsLink ⟨s, .commit commit, ⟨w', commit.gives ++ s.held⟩⟩ old other) →
          other = sid := by
        rintro other (hother | ⟨old, hother⟩)
        · exact hother.unique hlogin
        · exact absurd hother hlogin.not_link
      cases hlogs with
      | refused hopens =>
        refine h.issue hopens (fun _ _ => rfl) (by rw [hopens.opened]; rfl) hevent ?_ hstores
        intro b hb
        rw [hopens.opened, Option.some.injEq] at hb
        rw [← hb]
        exact .inl rfl
      | @accepted o l hopens haccepts hdrawn =>
        have hbound := haccepts.bound
        rw [hopens.opened, Option.map_some] at hbound
        refine h.issue hopens haccepts.kept (by rw [hbound]; rfl) hevent ?_ hstores
        intro b hb
        rw [hbound, Option.some.injEq] at hb
        refine .inr ⟨o, .own hlogin ⟨haccepts.records.stored, ?_⟩, hb.symm⟩
        intro hbefore
        exact (hobservations.drawn o (Table.mem_of_find? hbefore)).ne hdrawn rfl
    · have hlink : IsLink ⟨s, .commit commit, ⟨w', commit.gives ++ s.held⟩⟩ old new :=
        ⟨commit, rfl, hlinks⟩
      have hevent : ∀ other,
          IsLogin ⟨s, .commit commit, ⟨w', commit.gives ++ s.held⟩⟩ other ∨
            (∃ old, IsLink ⟨s, .commit commit, ⟨w', commit.gives ++ s.held⟩⟩ old other) →
          other = new := by
        rintro other (hother | ⟨old', hother⟩)
        · exact absurd hlink hother.not_link
        · exact hother.unique_new hlink
      obtain ⟨⟨b, b', hold, hnew, hprincipal, hcopied⟩, hkept, -⟩ := hcopies
      refine h.issue hopens hkept (by rw [hcopied]; rfl) hevent ?_ hstores
      intro b₁ hb₁
      rw [hcopied, Option.some.injEq] at hb₁
      subst hb₁
      rcases hopens.quiet.bindings old with hsame | ⟨-, owner, hadded⟩
      · rw [hsame] at hold
        rcases h.bound old b hold with hunbound | ⟨o, hobservation, hb⟩
        · exact .inl hunbound
        · exact .inr ⟨o, .linked hlink hobservation, hb⟩
      · rw [hadded, Option.some.injEq] at hold
        rw [← hold]
        exact .inl rfl

theorem bindingHistory_of_run (hstart : s₀.Provisioned) (hrun : Run (Step env) s₀ trace s) :
    BindingHistory trace s := by
  refine hrun.history (H := BindingHistory) ?_ fun trace s label s' hrun h hstep =>
    h.step (observationHistory_of_run hstart hrun) hstep
  have hnil : ∀ sid o, ¬ LoginObservation ([] : List (Event (System env) (Label env))) sid o := by
    intro sid o hobservation
    generalize hall : ([] : List (Event (System env) (Label env))) = all at hobservation
    cases hobservation with
    | own => simp at hall
    | linked => simp at hall
  refine ⟨?_, fun sid o ho => absurd ho (hnil sid o), fun sid o _ ho => absurd ho (hnil sid o)⟩
  intro sid b hb
  rw [hstart.1] at hb
  cases hb

end Bindings

section Main

variable {s₀ s s' : System env} {trace : List (Event (System env) (Label env))}

/-- Along a run the sequence of a stored observation moves forward, and stays only with the
observation itself. -/
theorem sequence_of_run (hrun : Run (Step env) s trace s') :
    s.world.state.profileObservations.Evolves
      (fun old now => now = old ∨ old.sequence < now.sequence)
      s'.world.state.profileObservations := by
  induction hrun with
  | start => exact .refl fun _ => .inl rfl
  | step _ hstep ih =>
    refine ih.trans (fun a b c hab hbc => ?_) hstep.observations_evolve
    rcases hbc with rfl | ⟨hbc, -⟩
    · exact hab
    · rcases hab with rfl | hab
      · exact .inr hbc
      · exact .inr (hab.trans hbc)

/-- Along a run in which the configuration of a stored observation stays the same, its time at the
source never goes back. -/
theorem observedAt_of_run (hrun : Run (Step env) s trace s') {k : PrincipalId × ProfileSource}
    {old : ProfileObservationRow}
    (hold : s.world.state.profileObservations.find? k = some old)
    (hsame : ∀ f ∈ trace, ∀ row, f.after.world.state.profileObservations.find? k = some row →
      row.configVersion = old.configVersion) :
    ∃ now, s'.world.state.profileObservations.find? k = some now ∧
      now.configVersion = old.configVersion ∧ old.observedAt ≤ now.observedAt := by
  induction hrun with
  | start => exact ⟨old, hold, rfl, le_rfl⟩
  | step _ hstep ih =>
    obtain ⟨now, hnow, hconfig, hle⟩ := ih fun f hf => hsame f (List.mem_append_left _ hf)
    obtain ⟨next, hnext, hforward⟩ := hstep.observations_evolve k now hnow
    have hconfig' := hsame _ (List.mem_append_right _ (List.mem_singleton.mpr rfl)) next hnext
    refine ⟨next, hnext, hconfig', ?_⟩
    rcases hforward with rfl | ⟨-, hobserved⟩
    · exact hle
    · exact hle.trans (hobserved (hconfig'.trans hconfig.symm))

/-- What holds of the observations of a run, and of what sessions are shown of them in the state
reached. -/
structure ObservationsForward (trace : List (Event (System env) (Label env))) (s : System env) :
    Prop where
  /-- Every accepted write is over an observation of a smaller sequence, and one that is not newer
  at the source under the same configuration. -/
  forward : ∀ e ∈ trace, e.before.world.state.profileObservations.Evolves
    ProfileObservationRow.Forward e.after.world.state.profileObservations
  /-- The sequence of what is stored under a key strictly increases along the run. -/
  sequence : ∀ e ∈ trace, e.before.world.state.profileObservations.Evolves
    (fun old now => now = old ∨ old.sequence < now.sequence) s.world.state.profileObservations
  /-- While the configuration is unchanged, the time at the source never decreases. -/
  observed : ∀ earlier e later, trace = earlier ++ e :: later → ∀ k old,
    e.before.world.state.profileObservations.find? k = some old →
    (∀ f ∈ e :: later, ∀ row, f.after.world.state.profileObservations.find? k = some row →
      row.configVersion = old.configVersion) →
    ∃ now, s.world.state.profileObservations.find? k = some now ∧ old.observedAt ≤ now.observedAt
  /-- A snapshot that was replaced is not stored again, under any key. -/
  replaced : ∀ e ∈ trace, ∀ old, ReplacesObservation e old →
    ∀ row ∈ s.world.state.profileObservations, row.snapshot ≠ old.snapshot
  /-- No two events store an observation under one snapshot. -/
  distinct : trace.Pairwise fun e f => ∀ o o', Stores e o → Stores f o' → o.snapshot ≠ o'.snapshot
  /-- A session has one login observation at most. -/
  single : ∀ sid o o', LoginObservation trace sid o → LoginObservation trace sid o' → o = o'
  /-- A session is shown a value only of the observation of its login, which is stored still. -/
  exact : ∀ actor view w', (currentProfile env actor).run s.world = .ok (view, w') →
    ∀ profile, view.profile = some profile →
    ∃ o, LoginObservation trace actor.view.id o ∧
      s.world.state.profileObservations.find? (actor.key, o.source) = some o ∧
      view.snapshot = some o.snapshot ∧ view.source = some o.source ∧
      profile = o.value.applyLimits env.profileLimits

/-- Observations move forward and bind exactly: in every run, in whatever order logins complete. -/
theorem observations_forward (hstart : s₀.Provisioned) (hrun : Run (Step env) s₀ trace s) :
    ObservationsForward trace s := by
  have hobservations := observationHistory_of_run hstart hrun
  have hbindings := bindingHistory_of_run hstart hrun
  have hfrom : ∀ earlier e later, trace = earlier ++ e :: later →
      Run (Step env) e.before (e :: later) s := by
    intro earlier e later htrace
    obtain ⟨-, hstep, hlater⟩ := Run.split (htrace ▸ hrun)
    exact (Run.step .start hstep).append hlater
  refine ⟨?_, ?_, ?_, fun e he old hold => (hobservations.replaced e he old hold).2,
    hobservations.distinct, hbindings.single, ?_⟩
  · exact fun e he => (hrun.steps e he).observations_evolve
  · intro e he
    obtain ⟨earlier, later, htrace⟩ := List.append_of_mem he
    exact sequence_of_run (hfrom earlier e later htrace)
  · intro earlier e later htrace k old hold hsame
    obtain ⟨now, hnow, -, hle⟩ := observedAt_of_run (hfrom earlier e later htrace) hold hsame
    exact ⟨now, hnow, hle⟩
  · intro actor view w' hread profile hprofile
    obtain ⟨session, row, hsession, hprincipal, hsnapshot, hrow, hview, hsource, hvalue⟩ :=
      run_currentProfile hread hprofile
    have hbinding : s.world.state.ledger.bindings actor.view.id = some session.binding := by
      simp only [Db.ledger, hsession, Option.map_some]
    rcases hbindings.bound _ _ hbinding with hunbound | ⟨o, hobservation, hbound⟩
    · simp only [SessionRow.binding, Binding.unbound, hsnapshot, Binding.mk.injEq, reduceCtorEq,
        and_false] at hunbound
    · simp only [SessionRow.binding, Binding.mk.injEq, hsnapshot, Option.some.injEq] at hbound
      obtain ⟨-, hbound, hsame⟩ := hbound
      rw [hbound, Option.getD_some] at hrow hsource
      obtain ⟨-, f, hf, hstores⟩ := hbindings.issued _ _ hobservation
      have hexact := (hobservations.stored f hf o hstores).2 row (Table.mem_of_find? hrow) hsame
      subst hexact
      exact ⟨row, hobservation, hrow, hview, hsource, hvalue⟩

/-- The observations of the first login of a tenant: its session is shown the one it stored. -/
theorem firstLogin_observed : ∃ trace held,
    ObservationsForward trace (⟨signedInWorld, held⟩ : System .transparent) ∧
      signedInWorld.state.profileObservations.rows.length = 1 := by
  obtain ⟨trace, held, hrun⟩ := signedIn_reachable
  exact ⟨trace, held, observations_forward ⟨rfl, rfl⟩ hrun, by decide +kernel⟩

end Main

end IdentityAuthority
