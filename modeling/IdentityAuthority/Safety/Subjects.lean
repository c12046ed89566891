import IdentityAuthority.Safety.Continuity

/-!
# External subjects

Who there is, and which external subject is bound to whom. A transaction adds an account with a
password, or binds a subject: to the account of a link, or to an account that is made for it. No
transaction takes a binding away.
-/

namespace IdentityAuthority

open Relational Transition

/-- A subject of a provider, under the key it is stored by. -/
structure Subject where
  provider : ProviderId
  issuer : String
  name : String
deriving DecidableEq

/-- The subject an identity is bound for. -/
def ExternalIdentityRow.of (row : ExternalIdentityRow) : Subject where
  provider := row.provider
  issuer := row.issuer
  name := row.subject

/-- Who has an account, a membership and a password, and the bound subjects. -/
structure Roster where
  accounts : AccountKey → Bool
  members : AccountKey → Bool
  passwords : AccountKey → Bool
  subjects : Table ExternalIdentityRow

/-- The roster of a database. -/
def Db.roster (db : Db) : Roster where
  accounts key := (db.accounts.find? key).isSome
  members key := (db.memberships.find? key).isSome
  passwords key := (db.localCredentials.find? key).isSome
  subjects := db.externalIdentities

namespace Roster

/-- The roster with one more account. -/
def joined (r : Roster) (key : AccountKey) : Roster :=
  { r with
    accounts := Function.update r.accounts key true
    members := Function.update r.members key true }

/-- What the authentication of a subject makes of the roster, and whom it is for: a bound subject
is for its principal; another is bound to the account of a link, or to a new account. -/
inductive Authenticates (r : Roster) (linking : Prop) (subject : Subject) (key : AccountKey) :
    Roster → Prop
  | known {row} : row ∈ r.subjects → row.of = subject → row.principal = key →
      Authenticates r linking subject key r
  | created {row t} : ¬ linking → (∀ other ∈ r.subjects, other.of ≠ subject) →
      r.accounts key = false → row.of = subject → row.principal = key →
      r.subjects.insert row = some t →
      Authenticates r linking subject key { r.joined key with subjects := t }
  | linked {row t} : linking → (∀ other ∈ r.subjects, other.of ≠ subject) →
      r.accounts key = true → r.members key = true → row.of = subject → row.principal = key →
      r.subjects.insert row = some t →
      Authenticates r linking subject key { r with subjects := t }

/-- What a transaction makes of the roster. -/
inductive Admits (r : Roster) : Roster → Prop
  | same : Admits r r
  | registered {key} : r.accounts key = false →
      Admits r { r.joined key with passwords := Function.update r.passwords key true }
  | authenticated {linking subject key r'} : r.Authenticates linking subject key r' → Admits r r'

/-- Each identity is of an account with a membership, and each account has a membership, and a
password or an identity. -/
structure Sound (r : Roster) : Prop where
  owned : ∀ row ∈ r.subjects, r.accounts row.principal = true ∧ r.members row.principal = true
  reached : ∀ key, r.accounts key = true → r.members key = true ∧
    (r.passwords key = true ∨ ∃ row ∈ r.subjects, row.principal = key)

variable {r r' : Roster} {linking : Prop} {subject : Subject} {key : AccountKey}

@[simp] theorem joined_subjects : (r.joined key).subjects = r.subjects := rfl

theorem joined_accounts {other : AccountKey} :
    (r.joined key).accounts other = true ↔ other = key ∨ r.accounts other = true := by
  simp only [joined, Function.update_apply]
  split <;> simp [*]

theorem joined_members {other : AccountKey} :
    (r.joined key).members other = true ↔ other = key ∨ r.members other = true := by
  simp only [joined, Function.update_apply]
  split <;> simp [*]

/-- No authentication takes a binding away. -/
theorem Authenticates.subjects (h : r.Authenticates linking subject key r')
    {row : ExternalIdentityRow} (hrow : row ∈ r.subjects) : row ∈ r'.subjects := by
  cases h with
  | known => exact hrow
  | created _ _ _ _ _ hinsert => exact (Table.mem_insert hinsert).mpr (.inr hrow)
  | linked _ _ _ _ _ _ hinsert => exact (Table.mem_insert hinsert).mpr (.inr hrow)

/-- After its authentication a subject is bound to the account it was for. -/
theorem Authenticates.bound (h : r.Authenticates linking subject key r') :
    ∃ row ∈ r'.subjects, row.of = subject ∧ row.principal = key := by
  cases h with
  | known hrow hof hkey => exact ⟨_, hrow, hof, hkey⟩
  | created _ _ _ hof hkey hinsert =>
    exact ⟨_, (Table.mem_insert hinsert).mpr (.inl rfl), hof, hkey⟩
  | linked _ _ _ _ hof hkey hinsert =>
    exact ⟨_, (Table.mem_insert hinsert).mpr (.inl rfl), hof, hkey⟩

theorem Authenticates.sound (h : r.Authenticates linking subject key r') (hsound : r.Sound) :
    r'.Sound := by
  cases h with
  | known => exact hsound
  | @created row t _ _ _ _ hprincipal hinsert =>
    refine ⟨?_, ?_⟩
    · intro other hother
      rcases (Table.mem_insert hinsert).mp hother with rfl | hother
      · exact ⟨joined_accounts.mpr (.inl hprincipal), joined_members.mpr (.inl hprincipal)⟩
      · obtain ⟨haccount, hmember⟩ := hsound.owned other hother
        exact ⟨joined_accounts.mpr (.inr haccount), joined_members.mpr (.inr hmember)⟩
    · intro other hother
      rcases joined_accounts.mp hother with rfl | hother
      · exact ⟨joined_members.mpr (.inl rfl), .inr ⟨row, (Table.mem_insert hinsert).mpr (.inl rfl),
          hprincipal⟩⟩
      · obtain ⟨hmember, hpassword | ⟨found, hfound, hkey⟩⟩ := hsound.reached other hother
        · exact ⟨joined_members.mpr (.inr hmember), .inl hpassword⟩
        · exact ⟨joined_members.mpr (.inr hmember),
            .inr ⟨found, (Table.mem_insert hinsert).mpr (.inr hfound), hkey⟩⟩
  | linked _ _ haccount hmember _ hprincipal hinsert =>
    refine ⟨?_, ?_⟩
    · intro other hother
      rcases (Table.mem_insert hinsert).mp hother with rfl | hother
      · rw [hprincipal]
        exact ⟨haccount, hmember⟩
      · exact hsound.owned other hother
    · intro other hother
      obtain ⟨hmember', hpassword | ⟨found, hfound, hkey⟩⟩ := hsound.reached other hother
      · exact ⟨hmember', .inl hpassword⟩
      · exact ⟨hmember', .inr ⟨found, (Table.mem_insert hinsert).mpr (.inr hfound), hkey⟩⟩

/-- Whatever a transaction admits, the roster stays sound. -/
theorem Admits.sound (h : r.Admits r') (hsound : r.Sound) : r'.Sound := by
  cases h with
  | same => exact hsound
  | authenticated h => exact h.sound hsound
  | @registered key hfree =>
    refine ⟨?_, ?_⟩
    · intro other hother
      obtain ⟨haccount, hmember⟩ := hsound.owned other hother
      exact ⟨joined_accounts.mpr (.inr haccount), joined_members.mpr (.inr hmember)⟩
    · intro other hother
      rcases joined_accounts.mp hother with rfl | hother
      · exact ⟨joined_members.mpr (.inl rfl), .inl (by simp)⟩
      · obtain ⟨hmember, hpassword | hfound⟩ := hsound.reached other hother
        · refine ⟨joined_members.mpr (.inr hmember), .inl ?_⟩
          simp only [Function.update_apply, hpassword, ite_self]
        · exact ⟨joined_members.mpr (.inr hmember), .inr hfound⟩

theorem Admits.subjects (h : r.Admits r') {row : ExternalIdentityRow} (hrow : row ∈ r.subjects) :
    row ∈ r'.subjects := by
  cases h with
  | same => exact hrow
  | registered => exact hrow
  | authenticated h => exact h.subjects hrow

end Roster

variable {env : Env} {areas : List Area} {start w w' : Tenant}

theorem Effect.roster_eq {a : Area} {db : Db} (h : Effect env start w a db) (ha : a ≠ .accounts)
    (hi : a ≠ .identities) : db.roster = w.state.roster := by
  have haccounts := h.accounts_eq ha
  have hidentities := h.externalIdentities_eq hi
  simp only [Prod.mk.injEq] at haccounts
  simp only [Db.roster, haccounts, hidentities]

/-- A transaction that writes to neither accounts nor identities keeps the roster. -/
theorem Effects.roster_eq (h : Effects env areas start w w') (ha : .accounts ∉ areas)
    (hi : .identities ∉ areas) : w'.state.roster = w.state.roster :=
  h.frame Db.roster fun _ _ _ hmem heffect =>
    heffect.roster_eq (fun heq => ha (heq ▸ hmem)) fun heq => hi (heq ▸ hmem)

section Updates

variable {e : Failure}

theorem updateAccounts_keeps {p : AccountRow → Bool} {f : AccountRow → AccountRow}
    (hf : ∀ r, (f r).principal = r.principal) :
    (Tx.updateIn Tables.accounts p f e : Action ℕ).Keeps Db.roster := by
  intro w n w' h
  obtain ⟨t, db, ht, hdb, -, rfl⟩ := Tx.run_updateIn.mp h
  obtain ⟨-, rfl⟩ := advanceRevision_eq_some.mp hdb
  have hkeys : (fun key => (t.find? key).isSome) = fun key => (w.state.accounts.find? key).isSome := by
    funext key
    rw [Table.find?_updateWhere ht hf, Option.isSome_map]
    rfl
  simp only [Db.roster, Db.revised, hkeys]

theorem updateMemberships_keeps {p : MembershipRow → Bool} {f : MembershipRow → MembershipRow}
    (hf : ∀ r, (f r).principal = r.principal) :
    (Tx.updateIn Tables.memberships p f e : Action ℕ).Keeps Db.roster := by
  intro w n w' h
  obtain ⟨t, db, ht, hdb, -, rfl⟩ := Tx.run_updateIn.mp h
  obtain ⟨-, rfl⟩ := advanceRevision_eq_some.mp hdb
  have hkeys : (fun key => (t.find? key).isSome) =
      fun key => (w.state.memberships.find? key).isSome := by
    funext key
    rw [Table.find?_updateWhere ht hf, Option.isSome_map]
    rfl
  simp only [Db.roster, Db.revised, hkeys]

theorem updateCredentials_keeps {p : LocalCredentialRow → Bool}
    {f : LocalCredentialRow → LocalCredentialRow} (hf : ∀ r, (f r).principal = r.principal) :
    (Tx.updateIn Tables.localCredentials p f e : Action ℕ).Keeps Db.roster := by
  intro w n w' h
  obtain ⟨t, db, ht, hdb, -, rfl⟩ := Tx.run_updateIn.mp h
  obtain ⟨-, rfl⟩ := advanceRevision_eq_some.mp hdb
  have hkeys : (fun key => (t.find? key).isSome) =
      fun key => (w.state.localCredentials.find? key).isSome := by
    funext key
    rw [Table.find?_updateWhere ht hf, Option.isSome_map]
    rfl
  simp only [Db.roster, Db.revised, hkeys]

theorem setPassword_keeps {target : AccountKey} {hash : String} :
    (setPassword env target hash).Keeps Db.roster := by
  refine .bind (updateCredentials_keeps fun _ => rfl) fun _ w _ w' h => ?_
  obtain ⟨q, hstate⟩ := run_clearAttempts h
  rw [hstate]
  rfl

theorem setAuthEpoch_keeps {state : AccountState} : (setAuthEpoch state).Keeps Db.roster :=
  .bind (updateAccounts_keeps fun _ => rfl) fun _ => .pure

theorem applyAccountChange_keeps {actor : AuthenticatedSession} {target : AccountKey}
    {change : AccountChange} {proof : Option AuthenticationCandidate} :
    (applyAccountChange env actor target change proof).Keeps Db.roster := by
  have hrecheck : (recheck env actor).ReadOnly := @WritesOnly.readOnly _ env _ fun _ => recheck_writes
  have hproof : (recheckReauthentication env actor target proof).ReadOnly :=
    @WritesOnly.readOnly _ env _ fun _ => recheckReauthentication_writes
  have hload : (load target).ReadOnly := @WritesOnly.readOnly _ env _ fun _ => load_writes
  refine .bind hrecheck.keeps fun loaded => .bind hproof.keeps fun _ => ?_
  have hauthorize : (authorize env loaded (change.operation proof.isSome) (some target)).ReadOnly :=
    @WritesOnly.readOnly _ env _ fun _ => authorize_writes
  refine .bind hauthorize.keeps fun _ => .bind hload.keeps fun old => .bind .ofExcept fun next => ?_
  refine .bind (.bind (updateAccounts_keeps fun _ => rfl) fun _ => .pure) fun _ => ?_
  refine .bind ?_ fun _ => .bind (.bind (updateMemberships_keeps fun _ => rfl) fun _ => .pure)
    fun _ => .pure
  cases change with
  | password hash => exact setPassword_keeps
  | enabled => exact .pure
  | membership => exact .pure

theorem recoverLocalPassword_keeps {key : AccountKey} {hash : String} :
    (recoverLocalPassword env key hash).Keeps Db.roster := by
  have hload : (load key).ReadOnly := @WritesOnly.readOnly _ env _ fun _ => load_writes
  exact .bind hload.keeps fun old => .bind .ofExcept fun next =>
    .bind (updateAccounts_keeps fun _ => rfl) fun _ => .bind setPassword_keeps fun _ => .pure

theorem revokeSession_keeps {actor : AuthenticatedSession} {all : Bool} :
    (revokeSession env actor all).Keeps Db.roster := by
  have hrecheck : (recheck env actor).ReadOnly := @WritesOnly.readOnly _ env _ fun _ => recheck_writes
  refine .bind hrecheck.keeps fun loaded => ?_
  have hall : (revokeAllOf loaded).Keeps Db.roster :=
    .bind .ofExcept fun next => .bind (updateAccounts_keeps fun _ => rfl) fun _ => .pure
  have hone : (close actor.view.id loaded.now).Keeps Db.roster := by
    intro w u w' h
    have heffects : Effects env [.sessions] w w w' := close_writes (by decide) _ _ _ (.refl _) h
    exact heffects.roster_eq (by decide) (by decide)
  split
  · exact hall
  · exact hone

end Updates

section Admissions

/-- Inserting an account with a password registers one that was not there. -/
theorem run_insertAccount {key : AccountKey} {login hash : String} {u : Unit}
    (h : (insertAccount key login hash).run w = .ok (u, w')) :
    w.state.roster.accounts key = false ∧ w'.state.roster =
      { w.state.roster.joined key with
        passwords := Function.update w.state.roster.passwords key true } := by
  simp only [insertAccount, Tx.run_bind, Tx.run_exists, Tx.run_require, Tx.run_insertInto] at h
  obtain ⟨_, _, ⟨accounts, _, haccount, hdb, rfl⟩, _, _, ⟨-, rfl⟩, -, _, ⟨-, rfl⟩, -, _,
    ⟨credentials, _, hcredential, hdb', rfl⟩, members, _, hmember, hdb'', rfl⟩ := h
  obtain ⟨-, rfl⟩ := advanceRevision_eq_some.mp hdb
  obtain ⟨-, rfl⟩ := advanceRevision_eq_some.mp hdb'
  obtain ⟨-, rfl⟩ := advanceRevision_eq_some.mp hdb''
  constructor
  · have hnone := Table.find?_key_of_insert haccount
    simp only [Db.roster]
    rw [show w.state.accounts.find? key = none from hnone]
    rfl
  · simp only [Db.roster, Db.revised, Roster.joined]
    rw [Table.isSome_find?_insert haccount, Table.isSome_find?_insert hcredential,
      Table.isSome_find?_insert hmember]
    rfl

/-- Inserting an account without a password joins one that was not there. -/
theorem run_insertFederatedAccount {key : AccountKey} {u : Unit}
    (h : (insertFederatedAccount key).run w = .ok (u, w')) :
    w.state.roster.accounts key = false ∧ w'.state.roster = w.state.roster.joined key := by
  simp only [insertFederatedAccount, Tx.run_bind, Tx.run_insertInto] at h
  obtain ⟨_, _, ⟨accounts, _, haccount, hdb, rfl⟩, members, _, hmember, hdb', rfl⟩ := h
  obtain ⟨-, rfl⟩ := advanceRevision_eq_some.mp hdb
  obtain ⟨-, rfl⟩ := advanceRevision_eq_some.mp hdb'
  constructor
  · have hnone := Table.find?_key_of_insert haccount
    simp only [Db.roster]
    rw [show w.state.accounts.find? key = none from hnone]
    rfl
  · simp only [Db.roster, Db.revised, Roster.joined]
    rw [Table.isSome_find?_insert haccount, Table.isSome_find?_insert hmember]
    rfl

/-- Binding a subject adds its identity, and nothing else. -/
theorem run_insertIdentity {row : ExternalIdentityRow} {e : Failure} {u : Unit}
    (h : (Tx.insertInto Tables.externalIdentities row e).run w = .ok (u, w')) :
    ∃ t, w.state.roster.subjects.insert row = some t ∧
      w'.state.roster = { w.state.roster with subjects := t } := by
  obtain ⟨t, db, ht, hdb, rfl⟩ := Tx.run_insertInto.mp h
  obtain ⟨-, rfl⟩ := advanceRevision_eq_some.mp hdb
  exact ⟨t, ht, rfl⟩

theorem Db.Holds.roster {state : AccountState} {db : Db} (h : db.Holds state) :
    db.roster.accounts state.key = true ∧ db.roster.members state.key = true := by
  simp only [Db.roster, h.account, h.membership, Option.isSome_some, and_self]

variable {held : ClaimedAttempt env} {claims : UpstreamClaims} {committing : CommittingAttempt env}

/-- The subject the upstream's claims are about, as the provider's subjects are stored. -/
def UpstreamClaims.subjectAt (claims : UpstreamClaims) (env : Env) (provider : ProviderId) : Subject where
  provider
  issuer := claims.issuer
  name := claims.subject.storageKey env.parsers

/-- The commit of an attempt authenticates the subject of the claims. -/
theorem run_prepareCommit_roster
    (h : (prepareCommit env held claims).run w = .ok (committing, w')) :
    w.state.roster.Authenticates (committing.attempt.purpose = .link)
      (claims.subjectAt env committing.view.id) committing.state.key w'.state.roster := by
  simp only [prepareCommit, Tx.run_bind, Tx.run_ofExcept, Tx.run_require, run_now, Tx.run_pure,
    boundIdentity, Tx.run_select, attemptAccount, Tx.run_ite, Tx.run_demand] at h
  obtain ⟨⟨attempt, secrets⟩, w₁, hattempt, view, w₂, hprovider, _, _, ⟨-, rfl⟩, actor, w₃, hactor,
    _, w₄, hstepUp, bound, w₅, ⟨rows, _, ⟨hrows, rfl⟩, hbound, rfl⟩, key, w₆, hkey, identity, w₇,
    hidentity, stored, _, hload, -, _, ⟨-, rfl⟩, _, _, ⟨-, rfl⟩, -, _, ⟨-, rfl⟩, rfl, rfl⟩ := h
  obtain ⟨rfl, -⟩ := run_oidcAttempt hattempt
  obtain ⟨rfl, -⟩ := run_provider hprovider
  have hchecked : w₃.state = w.tick.state :=
    @WritesOnly.readOnly _ env _ (fun _ => checkActor_writes) _ _ _ hactor
  have hrechecked : w₄.state = w₃.state :=
    @WritesOnly.readOnly _ env _ (fun _ => recheckStepUp_writes) _ _ _ hstepUp
  have hread : w₄.state.roster = w.state.roster := by rw [hrechecked, hchecked, World.tick_state]
  obtain ⟨rfl, hstored, hholds⟩ := run_load hload
  obtain ⟨haccount, hmember⟩ := hholds.roster
  simp only [World.tick_state]
  rw [hstored] at haccount hmember ⊢
  cases bound with
  | some row =>
    have hmem := Table.mem_filter.mp (hrows ▸ List.mem_of_head? hbound.symm)
    have hof : row.of = claims.subjectAt env view.id := by
      obtain ⟨hprovider, hissuer, hsubject⟩ := of_decide_eq_true hmem.2
      simp only [ExternalIdentityRow.of, UpstreamClaims.subjectAt, hprovider, hissuer, hsubject]
    simp only [bindIdentity, Tx.run_bind, Tx.run_require, Tx.run_pure] at hidentity
    obtain ⟨-, _, ⟨hprincipal, rfl⟩, -, rfl⟩ := hidentity
    have hkept : w₆.state.roster = w₄.state.roster := by
      rcases hkey with ⟨-, _, _, ⟨-, rfl⟩, -, rfl⟩ | ⟨-, -, rfl⟩ <;> rfl
    rw [hkept, ← hread]
    exact .known hmem.1 hof hprincipal
  | none =>
    have hempty : rows = [] := List.head?_eq_none_iff.mp hbound.symm
    have hunbound : ∀ other ∈ w.state.roster.subjects, other.of ≠ claims.subjectAt env view.id := by
      rintro other hother hof
      rw [← hread] at hother
      have hmem : other ∈ rows := by
        rw [hrows]
        simp only [ExternalIdentityRow.of, UpstreamClaims.subjectAt, Subject.mk.injEq] at hof
        exact Table.mem_filter.mpr ⟨hother, decide_eq_true hof⟩
      rw [hempty] at hmem
      cases hmem
    simp only [bindIdentity, Tx.run_bind, run_newV4, Tx.run_pure] at hidentity
    obtain ⟨id, _, ⟨-, rfl⟩, _, _, hinsert, -, rfl⟩ := hidentity
    obtain ⟨t, ht, hroster⟩ := run_insertIdentity hinsert
    rcases hkey with ⟨hlink, loaded, _, ⟨-, rfl⟩, rfl, rfl⟩ | ⟨hlink, hkey⟩
    · simp only [hroster, hread] at haccount hmember ht ⊢
      exact .linked hlink hunbound haccount hmember rfl rfl ht
    · simp only [Tx.run_bind, Tx.run_require, run_newV4, Tx.run_pure] at hkey
      obtain ⟨-, _, ⟨-, rfl⟩, principal, _, ⟨-, rfl⟩, _, _, hfederated, rfl, rfl⟩ := hkey
      obtain ⟨hfree, hjoined⟩ := run_insertFederatedAccount hfederated
      simp only [hroster, hjoined, hread, Roster.joined_subjects] at hfree ht ⊢
      exact .created hlink hunbound hfree rfl rfl ht

/-- A step that writes to neither accounts nor identities keeps the roster. -/
theorem WritesOnly.keeps_roster {α : Type} {m : Action α} (env : Env) (areas : List Area)
    (hm : ∀ w, WritesOnly env areas w w m)
    (ha : .accounts ∉ areas) (hi : .identities ∉ areas) : m.Keeps Db.roster :=
  fun w a w' h => (hm w w a w' (.refl w) h).roster_eq ha hi

theorem insertSession_keeps {state : AccountState} {replaced : Option SessionId}
    {authentication : SessionAuthentication} {instant : ℤ} {kind : CredentialKind} :
    (insertSession env state replaced authentication instant kind).Keeps Db.roster := by
  have hclose : (closeReplaced replaced instant).Keeps Db.roster :=
    WritesOnly.keeps_roster env [.sessions]
      (fun _ => closeReplaced_writes (by decide)) (by decide) (by decide)
  refine .bind .ofExcept fun columns => .bind (.bind .random fun _ => .pure) fun secret =>
    .bind .demand fun lifetime => .bind hclose fun _ => .bind (.bind .random fun _ => .pure) fun id =>
      .bind .ofExcept fun facts => .bind ?_ fun _ => .pure
  intro w u w' h
  obtain ⟨t, db, -, hdb, rfl⟩ := Tx.run_insertInto.mp h
  obtain ⟨-, rfl⟩ := advanceRevision_eq_some.mp hdb
  rfl

theorem advance_keeps {id : Uuid} {stage : LinkStage} : (advance id stage).Keeps Db.roster := by
  intro w u w' h
  simp only [advance, Tx.run_bind, Tx.run_demand, Tx.run_updateIn, Tx.run_require,
    Tables.linkIntents_put, Option.some.injEq] at h
  obtain ⟨next, _, ⟨-, rfl⟩, n, _, ⟨t, db, -, rfl, -, rfl⟩, -, rfl⟩ := h
  rfl

theorem commitLink_keeps : (commitLink env committing).Keeps Db.roster := by
  refine .bind .demand fun id => .bind ?_ fun found => .bind .require fun _ =>
    .bind .ofExcept fun state => .bind setAuthEpoch_keeps fun _ => .bind advance_keeps fun _ =>
      .bind ?_ fun _ => .bind .ofExcept fun authentication => .bind insertSession_keeps fun issued =>
        .bind ?_ fun _ => .bind ?_ fun _ => .bind ?_ fun _ => .pure
  · have hintent : (intent id).ReadOnly := @WritesOnly.readOnly _ env _ fun _ => intent_writes
    exact hintent.keeps
  · have horigin : (checkIntentOrigin env state.key found.origin).ReadOnly := fun w a w' h => by
      rw [(run_checkIntentOrigin h).1]
    exact horigin.keeps
  · exact WritesOnly.keeps_roster env [.bindings]
      (fun _ => retainBinding_writes (by decide)) (by decide) (by decide)
  · exact WritesOnly.keeps_roster env []
      (fun _ => requireUnexpired_writes) (by decide) (by decide)
  · exact WritesOnly.keeps_roster env [.oidc]
      (fun _ => consumeAttempt_writes (by decide)) (by decide) (by decide)

/-- Whom an outcome is for, as the session or the grant it is stored as says. -/
def FederatedOutcome.IsFor (env : Env) (db : Db) (key : AccountKey) : FederatedOutcome → Prop
  | stepUp grant _ => ∃ row ∈ db.stepUpGrants, row.tokenHash = env.sha256.secret grant.secret ∧
      row.principal = key
  | redirect _ => False
  | session issued _ _ => issued.state.key = key ∧
      ∃ row, db.sessions.find? issued.view.id = some row ∧ row.principal = key

/-- The session of an outcome is still there after what a transaction does. -/
theorem FederatedOutcome.isFor_session {issued : IssuedSession} {url : String} {linked : Option Bool}
    {key : AccountKey} {row : SessionRow} (hkey : issued.state.key = key)
    (hrow : w.state.sessions.find? issued.view.id = some row) (hprincipal : row.principal = key)
    (heffects : Effects env areas start w w') :
    (FederatedOutcome.session issued url linked).IsFor env w'.state key := by
  obtain ⟨next, hnext, hcontinues⟩ := heffects.follows.sessions _ _ hrow
  exact ⟨hkey, next, hnext, hcontinues.epochs.1.trans hprincipal⟩

/-- A step-up is for the account of its attempt. -/
theorem commitStepUp_isFor {outcome : FederatedOutcome}
    (h : (commitStepUp env committing claims).run w = .ok (outcome, w')) :
    w'.state.roster = w.state.roster ∧ outcome.IsFor env w'.state committing.state.key := by
  have hwrites : Effects env [.grants, .oidc] w w w' :=
    commitStepUp_writes (by decide) (by decide) (.refl w) _ _ _ (.refl w) h
  refine ⟨hwrites.roster_eq (by decide) (by decide), ?_⟩
  simp only [commitStepUp, Tx.run_bind, Tx.run_demand, Tx.run_require, Tx.run_pure] at h
  obtain ⟨actor, _, ⟨-, rfl⟩, -, _, ⟨hkey, rfl⟩, context, _, ⟨-, rfl⟩, authenticatedAt, _, ⟨-, rfl⟩,
    grant, w₁, hissue, _, w₂, hunexpired, _, w₃, hconsume, rfl, rfl⟩ := h
  obtain ⟨-, -, -, -, hrow⟩ := run_issueGrant hissue
  have hrest : Effects env [.oidc] w₂ w₂ _ := consumeAttempt_writes (by decide) _ _ _ (.refl _) hconsume
  have hread : w₂.state = w₁.state :=
    @WritesOnly.readOnly _ env _ (fun _ => requireUnexpired_writes) _ _ _ hunexpired
  have hgrants := hrest.frame Db.stepUpGrants fun _ _ _ ha heffect =>
    heffect.stepUpGrants_eq (by rintro rfl; simp at ha)
  rw [← hread, ← hgrants] at hrow
  exact ⟨_, Table.mem_of_find? hrow, rfl, hkey⟩

/-- A login is for the account of its attempt. -/
theorem commitLogin_isFor {outcome : FederatedOutcome}
    (h : (commitLogin env committing claims).run w = .ok (outcome, w')) :
    outcome.IsFor env w'.state committing.state.key := by
  simp only [commitLogin, Tx.run_bind, Tx.run_require, Tx.run_pure] at h
  obtain ⟨-, _, ⟨-, rfl⟩, sequence, w₁, -, facts, w₂, -, issued, w₃, hinsert, _, w₄, hunexpired, _, w₅,
    haccept, _, w₆, hconsume, rfl, rfl⟩ := h
  obtain ⟨hstate, columns, facts', lifetime, -, -, -, hrow⟩ := run_insertSession_row hinsert
  have hjudged : Effects env [.profiles, .bindings, .oidc] w₃ w₃ w₄ :=
    requireUnexpired_writes _ _ _ (.refl _) hunexpired
  have haccepted : Effects env [.profiles, .bindings, .oidc] w₃ w₄ w₅ :=
    accept_writes (by decide) (by decide) hjudged.advances _ _ _ (.refl _) haccept
  have hconsumed : Effects env [.profiles, .bindings, .oidc] w₃ w₅ _ :=
    consumeAttempt_writes (by decide) _ _ _ (.refl _) hconsume
  exact FederatedOutcome.isFor_session (by rw [hstate]) hrow rfl
    (hjudged.trans (haccepted.trans hconsumed))

/-- A completed link is for the account of its attempt. -/
theorem commitLink_isFor {outcome : FederatedOutcome}
    (h : (commitLink env committing).run w = .ok (outcome, w')) :
    outcome.IsFor env w'.state committing.state.key := by
  simp only [commitLink, Tx.run_bind, Tx.run_demand, Tx.run_require, Tx.run_ofExcept,
    ofRule_eq_ok, Tx.run_pure] at h
  obtain ⟨id, _, ⟨-, rfl⟩, found, w₁, -, -, _, ⟨-, rfl⟩, next, _, ⟨hnext, rfl⟩, _, w₂, -, _, w₃, -, _,
    w₄, -, authentication, _, ⟨-, rfl⟩, issued, w₅, hinsert, _, w₆, hretain, _, w₇, hunexpired, _, w₈,
    hconsume, rfl, rfl⟩ := h
  obtain ⟨hstate, columns, facts, lifetime, -, -, -, hrow⟩ := run_insertSession_row hinsert
  have hkey : next.key = committing.state.key :=
    (AccountState.revokeSessions_succeeds hnext).2.1.key
  have hretained : Effects env [.bindings, .oidc] w₅ w₅ w₆ :=
    retainBinding_writes (by decide) _ _ _ (.refl _) hretain
  have hjudged : Effects env [.bindings, .oidc] w₅ w₆ w₇ :=
    requireUnexpired_writes _ _ _ (.refl _) hunexpired
  have hconsumed : Effects env [.bindings, .oidc] w₅ w₇ _ :=
    consumeAttempt_writes (by decide) _ _ _ (.refl _) hconsume
  exact FederatedOutcome.isFor_session (by rw [hstate, hkey]) hrow hkey
    (hretained.trans (hjudged.trans hconsumed))

theorem commitLogin_roster {outcome : FederatedOutcome} {w₀ : Tenant}
    (haccepted : exchangeAccepted env held claims = true) (hof : committing.Of held claims w₀ w)
    (h : (commitLogin env committing claims).run w = .ok (outcome, w')) :
    w'.state.roster = w.state.roster := by
  obtain ⟨issued, url, linked, -, hissues⟩ :=
    commitLogin_issues (show .sessions ∈ [Area.sessions, .bindings, .profiles, .sequence, .oidc]
      by decide) (by decide) (by decide) (by decide) (by decide) haccepted hof (.refl w) h
  exact (hissues.effects (.refl w)).roster_eq (by decide) (by decide)

/-- The commit of an attempt authenticates the subject of the claims, and its outcome is for the
account this subject is bound to. -/
theorem commitAttempt_authenticates {outcome : FederatedOutcome}
    (h : (commitAttempt env held claims).run w = .ok (outcome, w')) :
    ∃ row key, w.state.oidcTransactions.find? held.locator.id = some row ∧
      w.state.roster.Authenticates (row.purpose = .link) (claims.subjectAt env row.provider) key
        w'.state.roster ∧ outcome.IsFor env w'.state key := by
  obtain ⟨haccepted, committing, w₁, hprepare, -, hof, h⟩ := run_commitAttempt_ways h
  obtain ⟨row, hrow, -, hattempt⟩ := hof.attempt
  have hroster := run_prepareCommit_roster hprepare
  rw [hof.provider, hattempt] at hroster
  refine ⟨row, committing.state.key, hrow, ?_⟩
  rcases h with ⟨-, h⟩ | ⟨-, ⟨-, h⟩ | ⟨-, h⟩⟩
  · obtain ⟨hkept, hfor⟩ := commitStepUp_isFor h
    rw [hkept]
    exact ⟨hroster, hfor⟩
  · rw [commitLink_keeps _ _ _ h]
    exact ⟨hroster, commitLink_isFor h⟩
  · rw [commitLogin_roster haccepted hof h]
    exact ⟨hroster, commitLogin_isFor h⟩

/-- A verified subject is resolved to the account it is bound to. -/
theorem resolveEntra_authenticates {verified : VerifiedExternalSubject} {state : AccountState}
    (h : (resolveEntra env verified).run w = .ok (state, w')) :
    ∃ row, w.state.providers.find? verified.provider = some row ∧
      w.state.roster.Authenticates False
        ⟨verified.provider, row.settings.issuer, verified.subject.storageKey env.parsers⟩ state.key
        w'.state.roster := by
  simp only [resolveEntra, entraAccount, Tx.run_bind, Tx.run_require, Tx.run_ofExcept, Tx.run_select,
    Tx.run_pure] at h
  obtain ⟨view, _, hprovider, _, _, ⟨-, rfl⟩, key, w₁, ⟨rows, _, ⟨hrows, rfl⟩, hkey⟩, stored, _, hload, -,
    _, ⟨-, rfl⟩, rfl, rfl⟩ := h
  obtain ⟨rfl, hid, hfound⟩ := run_provider hprovider
  obtain ⟨rfl, hstored, hholds⟩ := run_load hload
  refine ⟨view.row, hfound, ?_⟩
  rw [hstored, ← hid]
  cases hbound : rows.head? with
  | some row =>
    simp only [hbound, Tx.run_pure] at hkey
    obtain ⟨rfl, rfl⟩ := hkey
    have hmem := Table.mem_filter.mp (hrows ▸ List.mem_of_head? hbound)
    obtain ⟨hprovider, hissuer, hsubject⟩ := of_decide_eq_true hmem.2
    refine .known hmem.1 ?_ rfl
    simp only [ExternalIdentityRow.of, ProviderView.row, hprovider, hissuer, hsubject]
  | none =>
    have hempty : rows = [] := List.head?_eq_none_iff.mp hbound
    simp only [hbound, Tx.run_bind, Tx.run_require, run_newV4, Tx.run_pure] at hkey
    obtain ⟨-, _, ⟨-, rfl⟩, principal, _, ⟨-, rfl⟩, _, w₂, hfederated, identity, _, ⟨-, rfl⟩, _, _,
      hinsert, rfl, rfl⟩ := hkey
    obtain ⟨hfree, hjoined⟩ := run_insertFederatedAccount hfederated
    obtain ⟨t, ht, hroster⟩ := run_insertIdentity hinsert
    simp only [hroster, hjoined, Roster.joined_subjects] at hfree ht ⊢
    refine .created id ?_ hfree rfl rfl ht
    rintro other hother hof
    have hmem : other ∈ rows := by
      rw [hrows]
      simp only [ExternalIdentityRow.of, Subject.mk.injEq] at hof
      exact Table.mem_filter.mpr ⟨hother, decide_eq_true hof⟩
    rw [hempty] at hmem
    cases hmem

end Admissions

/-- An outcome is for one account. -/
theorem FederatedOutcome.IsFor.unique {db : Db} {outcome : FederatedOutcome} {key key' : AccountKey}
    (h : outcome.IsFor env db key) (h' : outcome.IsFor env db key') : key' = key := by
  cases outcome with
  | redirect => exact h.elim
  | session => exact h'.1.symm.trans h.1
  | stepUp grant url =>
    obtain ⟨row, hrow, hdigest, rfl⟩ := h
    obtain ⟨row', hrow', hdigest', rfl⟩ := h'
    rw [Table.eq_of_key hrow' hrow (hdigest'.trans hdigest.symm)]

/-- Every transaction admits to the roster what it may. -/
theorem Commit.admits {commit : Commit env} (h : commit.Runs w w') :
    w.state.roster.Admits w'.state.roster := by
  have hkept : w'.state.roster = w.state.roster → w.state.roster.Admits w'.state.roster := by
    intro heq
    rw [heq]
    exact .same
  have hinserted : ∀ {w₁ w₂ : Tenant} {key login hash u},
      (insertAccount key login hash).run w₁ = .ok (u, w₂) → w₁.state = w.state →
      w'.state = w₂.state → w.state.roster.Admits w'.state.roster := by
    intro w₁ w₂ key login hash u hinsert hbefore hafter
    obtain ⟨hfree, hroster⟩ := run_insertAccount hinsert
    rw [hafter, hroster, hbefore]
    exact .registered (by rw [← hbefore]; exact hfree)
  cases commit with
  | initializeTenant key login hash =>
    simp only [Runs, IdentityAuthority.initializeTenant, Tx.run_bind, Tx.run_pure] at h
    obtain ⟨_, w₁, hinsert, stored, _, hload, -, rfl⟩ := h
    exact hinserted hinsert rfl (by rw [(run_load hload).1])
  | createLocalAccount actor login hash =>
    simp only [Runs, IdentityAuthority.createLocalAccount, Tx.run_bind, run_newV4, Tx.run_pure] at h
    obtain ⟨principal, _, ⟨-, rfl⟩, loaded, w₁, hrecheck, _, w₂, hauthorize, _, w₃, hinsert, stored, _,
      hload, -, rfl⟩ := h
    have hread := @WritesOnly.readOnly _ env _ (fun _ => recheck_writes) _ _ _ hrecheck
    have hread' := @WritesOnly.readOnly _ env _ (fun _ => authorize_writes) _ _ _ hauthorize
    exact hinserted hinsert (hread'.trans hread) (by rw [(run_load hload).1])
  | createLocalAccountIn login hash =>
    simp only [Runs, IdentityAuthority.createLocalAccountIn, Tx.run_bind, run_newV4, Tx.run_pure] at h
    obtain ⟨principal, _, ⟨-, rfl⟩, _, w₁, hinsert, stored, _, hload, -, rfl⟩ := h
    exact hinserted hinsert rfl (by rw [(run_load hload).1])
  | applyAccountChange => exact hkept (applyAccountChange_keeps _ _ _ h)
  | recoverLocalPassword => exact hkept (recoverLocalPassword_keeps _ _ _ h)
  | revokeSession => exact hkept (revokeSession_keeps _ _ _ h)
  | resolveEntra =>
    obtain ⟨row, -, hauthenticates⟩ := resolveEntra_authenticates h
    exact .authenticated hauthenticates
  | commitAttempt =>
    obtain ⟨row, key, -, hauthenticates, -⟩ := commitAttempt_authenticates h
    exact .authenticated hauthenticates
  | _ => exact hkept ((Commit.effects h).roster_eq (by simp [areas]) (by simp [areas]))

/-- A transaction authenticates a subject, for a link or not, and acts for an account. -/
inductive Commit.Authenticates (w w' : Tenant) :
    Commit env → Prop → Subject → AccountKey → Prop
  | attempt {held claims outcome row key} :
      w.state.oidcTransactions.find? held.locator.id = some row →
      outcome.IsFor env w'.state key →
      Authenticates w w' (.commitAttempt held claims outcome) (row.purpose = .link)
        (claims.subjectAt env row.provider) key
  | native {verified state row} : w.state.providers.find? verified.provider = some row →
      Authenticates w w' (.resolveEntra verified state) False
        ⟨verified.provider, row.settings.issuer, verified.subject.storageKey env.parsers⟩ state.key

/-- Whatever authenticates a subject makes of the roster what it may, for the account it acts for. -/
theorem Commit.authenticates {commit : Commit env} {linking : Prop} {subject : Subject}
    {key : AccountKey} (h : commit.Runs w w')
    (hauthenticates : commit.Authenticates w w' linking subject key) :
    w.state.roster.Authenticates linking subject key w'.state.roster := by
  cases hauthenticates with
  | @attempt _ _ _ row key hrow hfor =>
    obtain ⟨row', key', hrow', hroster, hfor'⟩ := commitAttempt_authenticates h
    rw [hrow, Option.some.injEq] at hrow'
    rw [hrow', hfor'.unique hfor]
    exact hroster
  | @native _ _ row hrow =>
    obtain ⟨row', hrow', hroster⟩ := resolveEntra_authenticates h
    rw [hrow, Option.some.injEq] at hrow'
    rw [hrow']
    exact hroster

section Conflict

/-- A claimed attempt passes what its commit checks before it looks for the subject. -/
structure ClaimedAttempt.Rechecked (held : ClaimedAttempt env) (claims : UpstreamClaims)
    (w w' : Tenant) (attempt : OidcAttempt) (view : ProviderView env.parsers)
    (actor : Option Loaded) : Prop where
  accepted : exchangeAccepted env held claims = true
  purpose : held.attempt.purpose ≠ .reauthenticate
  passes : ∃ secrets w₁ w₂, (oidcAttempt env held.locator held.callback.state held.callback.browser
      true).run w = .ok ((attempt, secrets), w₁) ∧
    (provider env attempt.provider).run w₁ = .ok (view, w₁) ∧
    exact view attempt.version = .ok () ∧
    (checkActor env attempt held.callback.session).run w₁ = .ok (actor, w₂) ∧
    (recheckStepUp env attempt actor view).run w₂ = .ok ((), w')

variable {attempt : OidcAttempt} {view : ProviderView env.parsers} {actor : Loaded}
  {row : ExternalIdentityRow}

/-- The subject of the claims is looked up under its provider, issuer and key. -/
theorem run_boundIdentity_of_mem (hrow : row ∈ w.state.externalIdentities)
    (hof : row.of = claims.subjectAt env view.id) :
    (boundIdentity env view claims).run w = .ok (some row, w) := by
  simp only [boundIdentity, Tx.run_bind, Tx.run_select, Tx.run_pure]
  refine ⟨_, w, ⟨rfl, rfl⟩, ?_, rfl⟩
  simp only [ExternalIdentityRow.of, UpstreamClaims.subjectAt, Subject.mk.injEq] at hof
  have hrows := fun other => Table.mem_filter (t := w.state.externalIdentities) (r := other)
    (p := fun other => decide (other.provider = view.id ∧ other.issuer = claims.issuer ∧
      other.subject = claims.subject.storageKey env.parsers))
  have hmem := (hrows row).mpr ⟨hrow, decide_eq_true hof⟩
  simp only [Tables.externalIdentities_get]
  cases hfound : w.state.externalIdentities.filter _ with
  | nil =>
    rw [hfound] at hmem
    cases hmem
  | cons first rest =>
    obtain ⟨hfirst, hmatch⟩ := (hrows first).mp (by rw [hfound]; exact .head _)
    obtain ⟨hprovider, hissuer, hsubject⟩ := of_decide_eq_true hmatch
    rw [List.head?_cons, Table.eq_of_collide hrow hfirst
      ⟨hof.1.trans hprovider.symm, hof.2.1.trans hissuer.symm, hof.2.2.trans hsubject.symm⟩]

/-- Linking a subject of another principal fails with a conflict. -/
theorem commitAttempt_conflict (h : held.Rechecked claims w w' attempt view (some actor))
    (hlink : attempt.purpose = .link) (hrow : row ∈ w.state.externalIdentities)
    (hof : row.of = claims.subjectAt env view.id) (hforeign : row.principal ≠ actor.state.key) :
    (commitAttempt env held claims).run w = .error (.federation .conflict) := by
  obtain ⟨secrets, w₁, w₂, hattempt, hprovider, hexact, hactor, hstepUp⟩ := h.passes
  have hread : w₁.state = w.state := by rw [(run_oidcAttempt hattempt).1, World.tick_state]
  have hchecked : w₂.state = w₁.state :=
    @WritesOnly.readOnly _ env _ (fun _ => checkActor_writes) _ _ _ hactor
  have hrechecked : w'.state = w₂.state :=
    @WritesOnly.readOnly _ env _ (fun _ => recheckStepUp_writes) _ _ _ hstepUp
  have hbound : (boundIdentity env view claims).run w' = .ok (some row, w') :=
    run_boundIdentity_of_mem (by rw [hrechecked, hchecked, hread]; exact hrow) hof
  have haccount : (attemptAccount env attempt view (some actor) (some row)).run w' =
      .ok (actor.state.key, w') := by
    refine Tx.run_ite.mpr (.inl ⟨hlink, ?_⟩)
    simp only [Tx.run_bind, Tx.run_demand, Tx.run_pure]
    exact ⟨actor, w', ⟨rfl, rfl⟩, rfl, rfl⟩
  have hconflict : (bindIdentity env actor.state.key view claims (some row)).run w' =
      .error (.federation .conflict) :=
    Tx.run_bind_error.mpr (.inl (Tx.run_require_error.mpr ⟨hforeign, rfl⟩))
  refine Tx.run_bind_error_of_ok (a := ()) (Tx.run_require.mpr ⟨h.accepted, rfl⟩) ?_
  refine Tx.run_bind_error_of_ok (a := ()) (Tx.run_require.mpr ⟨h.purpose, rfl⟩) ?_
  refine Tx.run_bind_error.mpr (.inl ?_)
  refine Tx.run_bind_error_of_ok hattempt ?_
  refine Tx.run_bind_error_of_ok hprovider ?_
  refine Tx.run_bind_error_of_ok (a := ()) (Tx.run_ofExcept.mpr ⟨ofFederation_eq_ok.mpr hexact, rfl⟩) ?_
  refine Tx.run_bind_error_of_ok hactor ?_
  refine Tx.run_bind_error_of_ok hstepUp ?_
  refine Tx.run_bind_error_of_ok hbound ?_
  exact Tx.run_bind_error_of_ok haccount (Tx.run_bind_error.mpr (.inl hconflict))

end Conflict

/-- What holds of the subjects of a run, and of the state it reached. -/
structure SubjectsBound (trace : List (Event (System env) (Label env))) (s : System env) :
    Prop where
  stored : Function.Injective (ExternalSubject.storageKey env.parsers)
  unique : ∀ row ∈ s.world.state.externalIdentities, ∀ other ∈ s.world.state.externalIdentities,
    other.of = row.of → other = row
  kept : ∀ e ∈ trace, ∀ row ∈ e.after.world.state.externalIdentities,
    row ∈ s.world.state.externalIdentities
  sound : s.world.state.roster.Sound
  authenticates : ∀ e ∈ trace, ∀ commit linking subject key, e.label = .commit commit →
    commit.Authenticates e.before.world e.after.world linking subject key →
    e.before.world.state.roster.Authenticates linking subject key e.after.world.state.roster ∧
      ∃ row ∈ s.world.state.externalIdentities, row.of = subject ∧ row.principal = key
  once : trace.Pairwise fun e f => ∀ commit commit' linking linking' subject key key',
    e.label = .commit commit → f.label = .commit commit' →
    commit.Authenticates e.before.world e.after.world linking subject key →
    commit'.Authenticates f.before.world f.after.world linking' subject key' →
    key' = key ∧ f.after.world.state.roster = f.before.world.state.roster
  conflict : ∀ (held : ClaimedAttempt env) claims w' attempt view actor row,
    held.Rechecked claims s.world w' attempt view (some actor) → attempt.purpose = .link →
    row ∈ s.world.state.externalIdentities → row.of = claims.subjectAt env view.id →
    row.principal ≠ actor.state.key →
    (commitAttempt env held claims).run s.world = .error (.federation .conflict) ∧
      ((commitAttempt env held claims).settle s.world).state = s.world.state

variable {s₀ s s' : System env} {trace : List (Event (System env) (Label env))} {label : Label env}

theorem Step.admits (h : Step env s label s') :
    s.world.state.roster.Admits s'.world.state.roster := by
  cases h with
  | commit _ hruns => exact Commit.admits hruns
  | elapse hstate =>
    simp only [hstate]
    exact .same

theorem Step.authenticates {commit : Commit env} {linking : Prop} {subject : Subject}
    {key : AccountKey} (h : Step env s (.commit commit) s')
    (hauthenticates : commit.Authenticates s.world s'.world linking subject key) :
    s.world.state.roster.Authenticates linking subject key s'.world.state.roster := by
  cases h with
  | commit _ hruns => exact Commit.authenticates hruns hauthenticates

/-- A bound subject is authenticated for its principal, and nothing is admitted. -/
theorem Roster.Authenticates.of_bound {r r' : Roster} {linking : Prop} {subject : Subject}
    {key : AccountKey} {row : ExternalIdentityRow} (h : r.Authenticates linking subject key r')
    (hrow : row ∈ r.subjects) (hof : row.of = subject) : row.principal = key ∧ r' = r := by
  cases h with
  | @known other hother hother_of hkey =>
    have hsame := hof.trans hother_of.symm
    simp only [ExternalIdentityRow.of, Subject.mk.injEq] at hsame
    rw [Table.eq_of_collide hrow hother hsame]
    exact ⟨hkey, rfl⟩
  | created _ hunbound => exact absurd hof (hunbound row hrow)
  | linked _ hunbound => exact absurd hof (hunbound row hrow)

/-- What the steps of a run left of the subjects they authenticated. -/
structure SubjectHistory (trace : List (Event (System env) (Label env))) (s : System env) :
    Prop where
  sound : s.world.state.roster.Sound
  kept : ∀ e ∈ trace, ∀ row ∈ e.after.world.state.externalIdentities,
    row ∈ s.world.state.externalIdentities
  once : trace.Pairwise fun e f => ∀ commit commit' linking linking' subject key key',
    e.label = .commit commit → f.label = .commit commit' →
    commit.Authenticates e.before.world e.after.world linking subject key →
    commit'.Authenticates f.before.world f.after.world linking' subject key' →
    key' = key ∧ f.after.world.state.roster = f.before.world.state.roster

theorem SubjectHistory.step (h : SubjectHistory trace s)
    (hsteps : ∀ e ∈ trace, Step env e.before e.label e.after) (hstep : Step env s label s') :
    SubjectHistory (trace ++ [⟨s, label, s'⟩]) s' := by
  refine ⟨hstep.admits.sound h.sound, ?_, ?_⟩
  · intro e he row hrow
    rcases List.mem_append.mp he with he | he
    · exact hstep.admits.subjects (h.kept e he row hrow)
    · obtain rfl := List.mem_singleton.mp he
      exact hrow
  · refine List.pairwise_append.mpr ⟨h.once, List.pairwise_singleton _ _, ?_⟩
    intro e he f hf commit commit' linking linking' subject key key' hlabel hlabel' hfirst hagain
    obtain rfl := List.mem_singleton.mp hf
    obtain rfl : label = .commit commit' := hlabel'
    have hearlier := hsteps e he
    rw [hlabel] at hearlier
    obtain ⟨row, hrow, hof, hkey⟩ := (hearlier.authenticates hfirst).bound
    obtain ⟨hkey', hsame⟩ := (hstep.authenticates hagain).of_bound (h.kept e he row hrow) hof
    exact ⟨hkey'.symm.trans hkey, hsame⟩

theorem subjectHistory_of_run (hstart : s₀.Provisioned) (hrun : Run (Step env) s₀ trace s) :
    SubjectHistory trace s := by
  refine hrun.history ⟨⟨?_, ?_⟩, by simp, .nil⟩ fun _ _ _ _ hrun h hstep => h.step hrun.steps hstep
  · rw [hstart.1]
    intro row hrow
    exact absurd hrow Table.not_mem_empty
  · rw [hstart.1]
    intro key hkey
    cases hkey

/-- External subjects are bound once: in every run, a subject stays bound to the principal it was
first authenticated for; only its first authentication admits anyone, and it admits one account with
its membership and its identity; and a subject of another principal is never linked. -/
theorem subjects_bound (hparsers : env.parsers.PlainUuids) (hstart : s₀.Provisioned)
    (hrun : Run (Step env) s₀ trace s) : SubjectsBound trace s := by
  have hhistory := subjectHistory_of_run hstart hrun
  refine ⟨ExternalSubject.storageKey_injective hparsers, ?_, hhistory.kept, hhistory.sound, ?_,
    hhistory.once, ?_⟩
  · intro row hrow other hother hof
    simp only [ExternalIdentityRow.of, Subject.mk.injEq] at hof
    exact Table.eq_of_collide hother hrow hof
  · intro e he commit linking subject key hlabel hcommit
    have hstep := hrun.steps e he
    rw [hlabel] at hstep
    have hroster := hstep.authenticates hcommit
    obtain ⟨row, hrow, hof, hkey⟩ := hroster.bound
    exact ⟨hroster, row, hhistory.kept e he row hrow, hof, hkey⟩
  · intro held claims w' attempt view actor row hrechecked hlink hrow hof hforeign
    have hconflict := commitAttempt_conflict hrechecked hlink hrow hof hforeign
    exact ⟨hconflict, by rw [Tx.settle_of_error hconflict]⟩

/-- Decimal numerals stand for UUIDs in the transparent deployment. -/
theorem Env.transparent_plainUuids : Env.transparent.parsers.PlainUuids := by
  refine ⟨fun a b h => ?_, fun id hcolon => ?_⟩
  · have hdigits : Nat.toDigits 10 a.value = Nat.toDigits 10 b.value := String.ofList_injective h
    have hvalues := congrArg (Nat.ofDigitChars 10 · 0) hdigits
    simp only [Nat.ofDigitChars_ten_toDigits] at hvalues
    cases a
    cases b
    cases hvalues
    rfl
  · have hmem : ':' ∈ Nat.toDigits 10 id.value := by
      rwa [← String.toList_ofList (l := Nat.toDigits 10 id.value)]
    exact absurd (Nat.isDigit_of_mem_toDigits (by decide) (by decide) hmem) (by decide)

/-- The first subject of the partner is bound, and stays so. -/
theorem partner_bound : ∃ trace held,
    SubjectsBound trace (⟨federatedWorld, held⟩ : System .transparent) ∧
      federatedWorld.state.externalIdentities.rows.length = 1 := by
  obtain ⟨trace, held, hrun, -⟩ := federated_reachable
  exact ⟨trace, held, subjects_bound Env.transparent_plainUuids ⟨rfl, rfl⟩ hrun,
    by decide +kernel⟩

end IdentityAuthority
