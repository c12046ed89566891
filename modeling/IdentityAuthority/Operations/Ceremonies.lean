import IdentityAuthority.Operations.ProtocolFootprints

/-!
# What authenticator ceremonies find and store

For each operation on ceremonies and credentials: what it found in the tables, and what it left in
them.
-/

namespace IdentityAuthority

open Relational

variable {env : Env} {w w₁ w₂ w' : Tenant} {this : WebauthnAuthority} {actor : AuthenticatedSession}
  {key : AccountKey} {loaded : Loaded} {id : Uuid}

section Sessions

/-- A loaded session is live in a database at a time. -/
structure Loaded.LiveIn (loaded : Loaded) (env : Env) (db : Db) (row : SessionRow) (now : ℤ) :
    Prop where
  holds : db.Holds loaded.state
  found : db.sessions.find? loaded.view.id = some row
  current : row.Current loaded.state.key loaded.state
  backed : ∃ o, row.HasOrigin o ∧ SessionRow.Backed env db loaded.state.key o
  view : loaded.view = .new row.session loaded.lifetime row.credentialKind
  valid : loaded.lifetime.validAt now = true

theorem Loaded.Of.liveIn {row : SessionRow} (h : loaded.Of env w row) :
    loaded.LiveIn env w.state row (seconds w.tick.clock) where
  holds := h.holds
  found := h.found
  current := h.current
  backed := h.backed
  view := h.view
  valid := by
    rw [← h.now]
    exact h.valid

theorem Loaded.LiveIn.of_directory {db db' : Db} {row : SessionRow} {now : ℤ}
    (h : loaded.LiveIn env db row now) (hd : db'.directory = db.directory) :
    loaded.LiveIn env db' row now where
  holds := h.holds.of_directory hd
  found := by
    have hsessions : db'.sessions = db.sessions := congrArg Directory.sessions hd
    rw [hsessions]
    exact h.found
  current := h.current
  backed := by
    obtain ⟨o, hhas, hbacked⟩ := h.backed
    exact ⟨o, hhas, SessionRow.backed_of_directory hbacked hd⟩
  view := h.view
  valid := h.valid

/-- An actor's proof was rechecked inside a transaction: the session it names was live. -/
structure AuthenticatedSession.RecheckedAs (actor : AuthenticatedSession) (env : Env)
    (loaded : Loaded) (w w' : Tenant) : Prop where
  key : loaded.state.key = actor.key
  session : loaded.view.id = actor.view.id
  live : ∃ row t, w.clock ≤ t ∧ t ≤ w'.clock ∧ loaded.LiveIn env w.state row (seconds t) ∧
    row.tokenHash = actor.digest ∧ row.credentialKind = actor.view.credentialKind

theorem run_recheck_as (h : (recheck env actor).run w = .ok (loaded, w')) :
    w' = w.tick ∧ actor.RecheckedAs env loaded w w' := by
  obtain ⟨rfl, hkey, hsession, row, hof, hdigest, hkind⟩ := run_recheck h
  exact ⟨rfl, hkey, hsession, row, _, w.clock_le_tick, le_rfl, hof.liveIn, hdigest, hkind⟩

theorem AuthenticatedSession.RecheckedAs.within (h : actor.RecheckedAs env loaded w₁ w₂)
    (hd : w.state.directory = w₁.state.directory) (hbefore : w.Advances w₁) (hafter : w₂.Advances w') :
    actor.RecheckedAs env loaded w w' := by
  obtain ⟨row, t, hlo, hhi, hlive, hcarries⟩ := h.live
  exact ⟨h.key, h.session, row, t, hbefore.clock.trans hlo, hhi.trans hafter.clock,
    hlive.of_directory hd, hcarries⟩

end Sessions

section Accounts

/-- The configuration of a connected relying party is the active one, at its generation. -/
def Db.Configured (db : Db) (env : Env) (this : WebauthnAuthority) : Prop :=
  ∃ row, db.webauthnRp.find? this.party.rp = some row ∧ row.fingerprint = this.config env ∧
    row.generation = this.generation

theorem run_checkConfiguration {u : Unit}
    (h : (checkConfiguration env this).run w = .ok (u, w')) : w' = w ∧ w.state.Configured env this := by
  simp only [checkConfiguration, Tx.run_bind, Tx.run_find, Tx.run_demand, Tx.run_require,
    Tables.webauthnRp_get] at h
  obtain ⟨_, _, ⟨rfl, rfl⟩, row, _, ⟨hrow, rfl⟩, ⟨hfingerprint, hgeneration⟩, rfl⟩ := h
  exact ⟨rfl, row, hrow, hfingerprint, hgeneration⟩

/-- The row of an account was read, or inserted at its first use. -/
structure AccountRead (key : AccountKey) (row : WebauthnAccountRow)
    (t t' : Table WebauthnAccountRow) : Prop where
  found : t'.find? key = some row
  others : ∀ k, k ≠ key → t'.find? k = t.find? k
  kept : ∀ r, t.find? key = some r → r = row
  first : t.find? key = none → row.enrolled = false

theorem run_webauthnAccount {row : WebauthnAccountRow}
    (h : (webauthnAccount env key).run w = .ok (row, w')) :
    ∃ t, w'.state = { w.state with webauthnAccounts := t } ∧
      AccountRead key row w.state.webauthnAccounts t := by
  obtain ⟨stored, w₁, hfind, h⟩ := Tx.run_bind.mp h
  obtain ⟨rfl, rfl⟩ := Tx.run_find.mp hfind
  cases hfound : w.state.webauthnAccounts.find? key with
  | some r =>
    simp only [Tables.webauthnAccounts_get, hfound, Tx.run_pure] at h
    obtain ⟨rfl, rfl⟩ := h
    refine ⟨_, rfl, hfound, fun _ _ => rfl, fun r hr => ?_, fun hnone => ?_⟩
    · exact Option.some_injective _ (hr.symm.trans hfound)
    · rw [hfound] at hnone
      cases hnone
  | none =>
    simp only [Tables.webauthnAccounts_get, hfound, Tx.run_bind, run_newV4, Tx.run_insertInto,
      Tables.webauthnAccounts_put, Option.some.injEq, Tx.run_pure] at h
    obtain ⟨handle, _, ⟨-, rfl⟩, _, _, ⟨t, _, ht, rfl, rfl⟩, rfl, rfl⟩ := h
    refine ⟨t, rfl, ?_, fun k hk => ?_, fun r hr => ?_, fun _ => rfl⟩
    · exact (Table.find?_insert ht _).trans (if_pos rfl)
    · exact (Table.find?_insert ht _).trans (if_neg (Ne.symm hk))
    · rw [hfound] at hr
      cases hr

/-- An account moved on to its next credential epoch, and is enrolled where it was to be. -/
structure AccountAdvanced (key : AccountKey) (enrols : Bool) (t t' : Table WebauthnAccountRow) :
    Prop where
  moved : ∀ row, t.find? key = some row →
    t'.find? key = some { row with enrolled := row.enrolled || enrols, epoch := row.epoch + 1 }
  others : ∀ k, k ≠ key → t'.find? k = t.find? k

theorem run_advanceCredentialEpoch {f : WebauthnAccountRow → WebauthnAccountRow} (enrols : Bool)
    (hf : ∀ row, f row = { row with enrolled := row.enrolled || enrols }) {u : Unit}
    (h : (advanceCredentialEpoch key f).run w = .ok (u, w')) :
    ∃ t, w' = { w with state := { w.state with webauthnAccounts := t } } ∧
      AccountAdvanced key enrols w.state.webauthnAccounts t := by
  simp only [advanceCredentialEpoch, hf, Tx.run_bind, Tx.run_updateIn, Tx.run_pure,
    Tables.webauthnAccounts_get, Tables.webauthnAccounts_put, Option.some.injEq] at h
  obtain ⟨n, _, ⟨t, _, ht, rfl, -, rfl⟩, -, rfl⟩ := h
  have hfind := Table.find?_updateWhere ht fun _ => rfl
  refine ⟨t, rfl, ?_, ?_⟩
  · intro row hrow
    have hkey : row.principal = key := Table.key_of_find? hrow
    simp [hfind, hrow, hkey]
  · intro k hk
    rw [hfind]
    cases hrow : w.state.webauthnAccounts.find? k with
    | none => rfl
    | some row =>
      have hkey : row.principal = k := Table.key_of_find? hrow
      have hother : ¬ row.principal = key := hkey ▸ hk
      simp [hother]

end Accounts

section Credentials

/-- The number of credentials an account can use with a configuration. -/
def Db.usableCount (db : Db) (key : AccountKey) (rp : String) (config : Digest) : ℕ :=
  db.webauthnCredentials.count fun row => row.usable key rp config

/-- A credential keeps what it was registered with; its version and its epoch only grow, and it is
never usable again once it was revoked. -/
structure WebauthnCredentialRow.Later (row next : WebauthnCredentialRow) : Prop where
  kept : next = { row with
    value := next.value, epoch := next.epoch, version := next.version, revoked := next.revoked }
  epoch : row.epoch ≤ next.epoch
  version : row.version ≤ next.version
  revoked : row.revoked = true → next = row

theorem WebauthnCredentialRow.Later.refl (row : WebauthnCredentialRow) : row.Later row :=
  ⟨rfl, le_rfl, le_rfl, fun _ => rfl⟩

theorem WebauthnCredentialRow.Later.trans {a b c : WebauthnCredentialRow} (h : a.Later b)
    (h' : b.Later c) : a.Later c := by
  refine ⟨?_, h.epoch.trans h'.epoch, h.version.trans h'.version, fun ha => ?_⟩
  · have hkept := h'.kept
    rw [h.kept] at hkept
    exact hkept
  · obtain rfl := h.revoked ha
    exact h'.revoked ha

/-- A statement revoked credentials, each moving to its next epoch. -/
structure CredentialsRevoked (p : WebauthnCredentialRow → Bool) (t t' : Table WebauthnCredentialRow) :
    Prop where
  find : ∀ k, t'.find? k = (t.find? k).map fun row =>
    if (p row && !row.revoked) = true then { row with revoked := true, epoch := row.epoch + 1 } else row
  rows : t'.rows = t.rows.map fun row =>
    if (p row && !row.revoked) = true then { row with revoked := true, epoch := row.epoch + 1 } else row

theorem run_revokeCredentials {p : WebauthnCredentialRow → Bool} {n : ℕ}
    (h : (revokeCredentials p).run w = .ok (n, w')) :
    ∃ t, w' = { w with state := { w.state with webauthnCredentials := t } } ∧
      CredentialsRevoked p w.state.webauthnCredentials t ∧
      n = w.state.webauthnCredentials.count fun row => p row && !row.revoked := by
  simp only [revokeCredentials, Tx.run_updateIn, Tables.webauthnCredentials_get,
    Tables.webauthnCredentials_put, Option.some.injEq] at h
  obtain ⟨t, _, ht, rfl, hn, rfl⟩ := h
  exact ⟨t, rfl, ⟨Table.find?_updateWhere ht fun _ => rfl, Table.updateWhere_eq_some.mp ht⟩, hn⟩

theorem CredentialsRevoked.evolves {p : WebauthnCredentialRow → Bool}
    {t t' : Table WebauthnCredentialRow} (h : CredentialsRevoked p t t') :
    t.Evolves WebauthnCredentialRow.Later t' := by
  intro k row hrow
  refine ⟨_, by rw [h.find, hrow, Option.map_some], ?_⟩
  split
  · rename_i hrevoked
    simp only [Bool.and_eq_true, Bool.not_eq_true'] at hrevoked
    refine ⟨rfl, by simp only; omega, le_rfl, fun htrue => ?_⟩
    rw [hrevoked.2] at htrue
    cases htrue
  · exact .refl row

/-- Revoking credentials makes no more of them usable. -/
theorem CredentialsRevoked.count_le {p : WebauthnCredentialRow → Bool}
    {t t' : Table WebauthnCredentialRow} (h : CredentialsRevoked p t t') (key : AccountKey)
    (rp : String) (config : Digest) :
    t'.count (fun row => row.usable key rp config) ≤ t.count fun row => row.usable key rp config := by
  rw [Table.count, h.rows, List.countP_map, Table.count]
  refine List.countP_mono_left fun row _ husable => ?_
  simp only [Function.comp_apply] at husable
  split at husable
  · simp [WebauthnCredentialRow.usable] at husable
  · exact husable

/-- Once every credential of an account was revoked, it can use none. -/
theorem CredentialsRevoked.count_eq_zero {t t' : Table WebauthnCredentialRow}
    (h : CredentialsRevoked (fun row => decide (row.principal = key)) t t') (rp : String)
    (config : Digest) : (t'.count fun row => row.usable key rp config) = 0 := by
  rw [Table.count, h.rows, List.countP_map, List.countP_eq_zero]
  intro row _ husable
  simp only [Function.comp_apply] at husable
  split at husable
  · simp [WebauthnCredentialRow.usable] at husable
  · rename_i hkept
    simp only [WebauthnCredentialRow.usable, decide_eq_true_eq] at husable
    simp [husable.1, husable.2.2.2] at hkept

/-- The credentials of other accounts stay as they are. -/
theorem CredentialsRevoked.count_of_ne {t t' : Table WebauthnCredentialRow} {other : AccountKey}
    (h : CredentialsRevoked (fun row => decide (row.principal = key)) t t') (hne : other ≠ key)
    (rp : String) (config : Digest) :
    (t'.count fun row => row.usable other rp config) =
      t.count fun row => row.usable other rp config := by
  rw [Table.count, h.rows, List.countP_map, Table.count]
  refine List.countP_congr fun row _ => ?_
  simp only [Function.comp_apply]
  split
  · rename_i hrevoked
    simp only [Bool.and_eq_true, decide_eq_true_eq] at hrevoked
    simp [WebauthnCredentialRow.usable, hrevoked.1, hne.symm]
  · exact Iff.rfl

/-- The credentials a ceremony is about are those usable when it begins, 17 at most. -/
theorem run_usableCredentials {rp : String} {config : Digest} {keys : List CredentialSnapshot}
    (h : (usableCredentials key rp config).run w = .ok (keys, w')) :
    w' = w ∧ (keys.length < 16 → w.state.usableCount key rp config < 16) ∧
      ∀ snapshot ∈ keys, ∃ row, w.state.webauthnCredentials.find? snapshot.id = some row ∧
        row.usable key rp config = true ∧ snapshot = ⟨row.id, row.version, row.epoch, row.value⟩ := by
  simp only [usableCredentials, Tx.run_bind, Tx.run_select, Tx.run_pure,
    Tables.webauthnCredentials_get] at h
  obtain ⟨_, _, ⟨rfl, rfl⟩, rfl, rfl⟩ := h
  refine ⟨rfl, fun hshort => ?_, fun snapshot hsnapshot => ?_⟩
  · rw [List.length_map, List.length_take, List.length_insertionSort, Table.filter,
      ← List.countP_eq_length_filter] at hshort
    rw [Db.usableCount, Table.count]
    omega
  · obtain ⟨row, hrow, rfl⟩ := List.mem_map.mp hsnapshot
    obtain ⟨hmem, husable⟩ := Table.mem_filter.mp
      ((List.mem_insertionSort _).mp (List.mem_of_mem_take hrow))
    exact ⟨row, Table.find?_of_mem hmem, husable, rfl⟩

/-- A new credential is one whose authenticator no one registered at the relying party. -/
structure CredentialInserted (env : Env) (this : WebauthnAuthority) (key : AccountKey) (id : Uuid)
    (w w' : Tenant) (row : WebauthnCredentialRow) : Prop where
  id : row.id = id
  owner : row.principal = key ∧ row.rp = this.party.rp ∧ row.rpConfig = this.config env
  unrevoked : row.revoked = false
  inserted : w.state.webauthnCredentials.insert row = some w'.state.webauthnCredentials
  rest : w'.state = { w.state with webauthnCredentials := w'.state.webauthnCredentials }
  clock : w'.clock = w.clock

theorem run_insertCredential {passkey : Passkey} {label : String}
    (h : (insertCredential env this key passkey label).run w = .ok (id, w')) :
    ∃ row, CredentialInserted env this key id w w' row := by
  simp only [insertCredential, Tx.run_bind, run_newV4, Tx.run_exists, Tx.run_require,
    Tx.run_insertInto, Tx.run_pure, Tables.webauthnCredentials_get, Tables.webauthnCredentials_put,
    Option.some.injEq] at h
  obtain ⟨credential, _, ⟨-, rfl⟩, taken, _, ⟨-, rfl⟩, -, _, ⟨-, rfl⟩, -, _, ⟨t, _, ht, rfl, rfl⟩, rfl,
    rfl⟩ := h
  exact ⟨_, rfl, ⟨rfl, rfl, rfl⟩, rfl, ht, rfl, rfl⟩

/-- The authenticator state of one usable credential was stored, at its next version. -/
structure AuthenticatorUpdated (key : AccountKey) (selected : CredentialSnapshot)
    (t t' : Table WebauthnCredentialRow) : Prop where
  found : ∃ row, t.find? selected.id = some row ∧ row.principal = key ∧
    row.version = selected.version ∧ row.epoch = selected.epoch ∧ row.revoked = false ∧
    t'.find? selected.id = some { row with value := selected.passkey, version := row.version + 1 }
  others : ∀ k, k ≠ selected.id → t'.find? k = t.find? k
  count : ∀ owner rp config, (t'.count fun row => row.usable owner rp config) =
    t.count fun row => row.usable owner rp config

theorem run_updateAuthenticator {selected : CredentialSnapshot} {u : Unit}
    (h : (updateAuthenticator key selected).run w = .ok (u, w')) :
    ∃ t, w' = { w with state := { w.state with webauthnCredentials := t } } ∧
      AuthenticatorUpdated key selected w.state.webauthnCredentials t := by
  simp only [updateAuthenticator, Tx.run_bind, Tx.run_updateIn, Tx.run_require,
    Tables.webauthnCredentials_get, Tables.webauthnCredentials_put, Option.some.injEq] at h
  obtain ⟨n, _, ⟨t, _, ht, rfl, hn, rfl⟩, hone, rfl⟩ := h
  have hfind := Table.find?_updateWhere ht fun _ => rfl
  obtain ⟨row, hrow, hmatch⟩ : ∃ row ∈ w.state.webauthnCredentials.rows,
      decide (row.principal = key ∧ row.id = selected.id ∧ row.version = selected.version ∧
        row.epoch = selected.epoch ∧ row.revoked = false) = true := by
    apply List.countP_pos_iff.mp
    rw [Table.count] at hn
    omega
  obtain ⟨hkey, hid, hversion, hepoch, hunrevoked⟩ := of_decide_eq_true hmatch
  have hfound : w.state.webauthnCredentials.find? selected.id = some row :=
    Table.find?_eq_some.mpr ⟨hrow, hid⟩
  refine ⟨t, rfl, ⟨row, hfound, hkey, hversion, hepoch, hunrevoked, ?_⟩, ?_, ?_⟩
  · rw [hfind, hfound, Option.map_some, if_pos hmatch]
  · intro k hk
    rw [hfind]
    cases hother : w.state.webauthnCredentials.find? k with
    | none => rfl
    | some other =>
      have hotherId : other.id = k := Table.key_of_find? hother
      have hno : ¬ other.id = selected.id := hotherId ▸ hk
      simp [hno]
  · intro owner rp config
    rw [Table.count, Table.updateWhere_eq_some.mp ht, List.countP_map, Table.count]
    refine List.countP_congr fun other _ => ?_
    simp only [Function.comp_apply]
    split <;> exact Iff.rfl

end Credentials

section Ceremonies

/-- Ceremonies were only removed. -/
def CeremoniesRemoved (t t' : Table WebauthnCeremonyRow) : Prop :=
  ∀ k row, t'.find? k = some row → t.find? k = some row

/-- A ceremony was stored under an identifier just drawn; others were only removed. -/
structure CeremonyStored (env : Env) (w w' : Tenant) (row : WebauthnCeremonyRow) : Prop where
  stored : w'.state.webauthnCeremonies.find? row.id = some row
  others : ∀ k r, w'.state.webauthnCeremonies.find? k = some r →
    r = row ∨ w.state.webauthnCeremonies.find? k = some r
  fresh : ∃ i, row.id = freshUuid env i ∧ DrawnIn w w' i
  rest : w'.state = { w.state with webauthnCeremonies := w'.state.webauthnCeremonies }

theorem run_removeExpiredCeremonies {instant : ℤ} {u : Unit}
    (h : (removeExpiredCeremonies key instant).run w = .ok (u, w')) :
    ∃ t, w' = { w with state := { w.state with webauthnCeremonies := t } } ∧
      CeremoniesRemoved w.state.webauthnCeremonies t := by
  simp only [removeExpiredCeremonies, Tx.run_bind, Tx.run_deleteFrom, Tx.run_select, Tx.run_pure,
    Tables.webauthnCeremonies_get, Tables.webauthnCeremonies_put, Option.some.injEq] at h
  obtain ⟨_, _, ⟨_, rfl, -, rfl⟩, _, _, ⟨-, rfl⟩, _, _, ⟨_, rfl, -, rfl⟩, -, rfl⟩ := h
  refine ⟨_, rfl, fun k row hrow => ?_⟩
  exact Table.find?_of_find?_deleteWhere (Table.find?_of_find?_deleteWhere hrow)

/-- A ceremony is stored with the session and the epochs it was begun with, and the row of it says
when it ends. -/
theorem run_storeCeremony {epoch : ℤ} {config : Digest} {ceremony : Ceremony}
    {challenge : WebauthnChallenge}
    (h : (storeCeremony env loaded epoch config ceremony).run w = .ok (challenge, w')) :
    ∃ row, CeremonyStored env w w' row ∧ row.id = challenge.id ∧ row.principal = loaded.state.key ∧
      row.session = loaded.view.id ∧ row.authEpoch = loaded.state.epoch ∧
      row.membershipEpoch = loaded.state.membershipEpoch ∧ row.credentialEpoch = epoch ∧
      row.rpConfig = config ∧ row.state = ceremony ∧
      row.expiresAt = ceremonyExpiry loaded row.createdAt := by
  simp only [storeCeremony, Tx.run_bind, run_now, Tx.run_select, Tx.run_require, run_newV4,
    Tx.run_insertInto, Tx.run_pure, Tables.webauthnCeremonies_get, Tables.webauthnCeremonies_put,
    Option.some.injEq] at h
  obtain ⟨_, _, ⟨rfl, rfl⟩, _, _, hremove, _, _, ⟨-, rfl⟩, -, _, ⟨-, rfl⟩, id, _, ⟨rfl, rfl⟩, _, _,
    ⟨t, _, ht, rfl, rfl⟩, rfl, rfl⟩ := h
  obtain ⟨removed, rfl, hremoved⟩ := run_removeExpiredCeremonies hremove
  refine ⟨_, ⟨(Table.find?_insert ht _).trans (if_pos rfl), fun k r hr => ?_, ?_, rfl⟩, rfl, rfl, rfl,
    rfl, rfl, rfl, rfl, rfl, rfl⟩
  · rw [Table.find?_insert ht] at hr
    split at hr
    · exact .inl (Option.some_injective _ hr).symm
    · exact .inr (hremoved k r hr)
  · exact ⟨w.drawn, rfl, le_rfl, Nat.lt_succ_self _⟩

/-- A ceremony that is read belongs to the session, at the account's credential epoch. -/
structure CeremonyRead (loaded : Loaded) (id : Uuid) (config : Digest) (snapshot : CeremonySnapshot)
    (row : WebauthnCeremonyRow) (account : WebauthnAccountRow) (w w' : Tenant) : Prop where
  found : w.state.webauthnCeremonies.find? id = some row
  belongs : row.BelongsTo loaded account.epoch config snapshot.observedAt
  observed : snapshot.observedAt = seconds w'.clock
  epoch : snapshot.epoch = account.epoch
  ceremony : snapshot.ceremony = row.state
  expires : snapshot.expiresAt = row.expiresAt
  account : ∃ t, w'.state = { w.state with webauthnAccounts := t } ∧
    AccountRead loaded.state.key account w.state.webauthnAccounts t

theorem run_readLoaded {config : Digest} {snapshot : CeremonySnapshot}
    (h : (readLoaded env loaded id config).run w = .ok (snapshot, w')) :
    ∃ row account, CeremonyRead loaded id config snapshot row account w w' := by
  simp only [readLoaded, Tx.run_bind, Tx.run_find, Tx.run_demand, run_now, Tx.run_require,
    Tx.run_pure, Tables.webauthnCeremonies_get] at h
  obtain ⟨_, _, ⟨rfl, rfl⟩, row, _, ⟨hrow, rfl⟩, account, w₁, haccount, _, _, ⟨rfl, rfl⟩, -, _,
    ⟨hbelongs, rfl⟩, rfl, rfl⟩ := h
  obtain ⟨t, ht, hread⟩ := run_webauthnAccount haccount
  exact ⟨row, account, hrow, hbelongs, rfl, rfl, rfl, rfl, t, ht, hread⟩

theorem run_readCeremony {config : Digest} {snapshot : CeremonySnapshot}
    (h : (readCeremony env actor id config).run w = .ok (snapshot, w')) :
    ∃ loaded row account, actor.RecheckedAs env loaded w w' ∧
      CeremonyRead loaded id config snapshot row account w w' := by
  obtain ⟨loaded, w₁, hrecheck, hread⟩ := Tx.run_bind.mp h
  obtain ⟨rfl, hrechecked⟩ := run_recheck_as hrecheck
  obtain ⟨row, account, hrow⟩ := run_readLoaded hread
  refine ⟨loaded, row, account, hrechecked.within rfl (.refl w) (Tx.advances _ _ _ _ hread), ?_⟩
  exact ⟨hrow.found, hrow.belongs, hrow.observed, hrow.epoch, hrow.ceremony, hrow.expires,
    hrow.account⟩

/-- A ceremony is consumed where it is still there, and no other is. -/
theorem run_consumeCeremony {u : Unit} (h : (consumeCeremony key id).run w = .ok (u, w')) :
    ∃ t, w' = { w with state := { w.state with webauthnCeremonies := t } } ∧
      CeremoniesRemoved w.state.webauthnCeremonies t ∧
      ∀ row, t.find? id = some row → row.principal ≠ key := by
  simp only [consumeCeremony, Tx.run_bind, Tx.run_deleteFrom, Tx.run_require,
    Tables.webauthnCeremonies_get, Tables.webauthnCeremonies_put, Option.some.injEq] at h
  obtain ⟨_, _, ⟨_, rfl, -, rfl⟩, -, rfl⟩ := h
  refine ⟨_, rfl, fun k row hrow => Table.find?_of_find?_deleteWhere hrow, fun row hrow hkey => ?_⟩
  obtain ⟨hfound, hkept⟩ := Table.find?_deleteWhere_eq_some.mp hrow
  have hid : row.id = id := Table.key_of_find? hfound
  simp [hkey, hid] at hkept

end Ceremonies

section Grants

/-- A grant was consumed: it answered a request of the live session it was issued to, its source was
still good, and it is gone. -/
structure StepUpGrantRow.ConsumedBy (row : StepUpGrantRow) (env : Env) (actor : AuthenticatedSession)
    (expected : StepUpContext) (handle : Secret) (w w' : Tenant) : Prop where
  found : w.state.stepUpGrants.find? (env.sha256.secret handle) = some row
  answers : ∃ loaded t, actor.RecheckedAs env loaded w w' ∧ w.clock ≤ t ∧ t ≤ w'.clock ∧
    row.Answers actor loaded expected (seconds t)
  backed : w.state.BacksGrant actor.key row.source
  gone : w'.state.stepUpGrants.find? (env.sha256.secret handle) = none
  others : ∀ k r, w'.state.stepUpGrants.find? k = some r → w.state.stepUpGrants.find? k = some r

theorem run_consumeStepUpOn {expected : StepUpContext} {handle : Secret} {taken : ConsumedStepUp}
    (h : (consumeStepUpOn env actor expected handle).run w = .ok (taken, w')) :
    ∃ (row : StepUpGrantRow) (t : Table StepUpGrantRow), row.ConsumedBy env actor expected handle w w' ∧
      taken = ⟨row.authenticatedAt, row.source⟩ ∧
      w'.state = { w.state with stepUpGrants := t } := by
  simp only [consumeStepUpOn, Tx.run_bind, Tx.run_find, Tx.run_demand, run_now, Tx.run_require,
    validateSource, Tx.run_query, Tx.run_deleteFrom, Tx.run_pure, Tables.stepUpGrants_get,
    Tables.stepUpGrants_put, Option.some.injEq] at h
  obtain ⟨loaded, _, hrecheck, _, _, ⟨rfl, rfl⟩, row, _, ⟨hrow, rfl⟩, _, _, ⟨rfl, rfl⟩, -, _,
    ⟨hanswers, rfl⟩, -, _, ⟨_, _, ⟨rfl, rfl⟩, hbacked, rfl⟩, again, _, hagain, _, _, ⟨rfl, rfl⟩, -, _,
    ⟨-, rfl⟩, _, _, ⟨_, rfl, -, rfl⟩, rfl, rfl⟩ := h
  obtain ⟨rfl, hrechecked⟩ := run_recheck_as hrecheck
  obtain ⟨rfl, -⟩ := run_recheck_as hagain
  have hfirst := w.clock_le_tick
  have hsecond := w.tick.clock_le_tick
  have hthird := w.tick.tick.clock_le_tick
  have hlast := w.tick.tick.tick.clock_le_tick
  refine ⟨row, _, ⟨hrow, ⟨loaded, w.tick.tick.clock, hrechecked.within rfl (.refl w) ⟨?_, le_rfl⟩,
    hfirst.trans hsecond, hthird.trans hlast, hanswers⟩, of_decide_eq_true hbacked, ?_, ?_⟩, rfl, rfl⟩
  · exact (hsecond.trans hthird).trans hlast
  · refine Table.find?_eq_none.mpr fun r hr hkey => ?_
    have hkept := (Table.mem_deleteWhere.mp hr).2
    rw [decide_eq_false_iff_not] at hkept
    exact hkept hkey
  · intro k r hr
    exact Table.find?_of_find?_deleteWhere hr

/-- A grant was issued to a loaded session: it ends with the session, and within five minutes of the
authentication it is for. -/
structure StepUpGrantRow.IssuedIn (row : StepUpGrantRow) (env : Env) (loaded : Loaded)
    (context : StepUpContext) (source : GrantSource) (w w' : Tenant) : Prop where
  made : row = grantRow loaded context source row.authenticatedAt row.tokenHash
  fresh : ∃ i, row.tokenHash = secretHash env i ∧ DrawnIn w w' i
  window : ∃ t, w.clock ≤ t ∧ t ≤ w'.clock ∧ 0 < row.authenticatedAt ∧
    row.authenticatedAt ≤ seconds t ∧ seconds t < row.expiresAt
  stored : w'.state.stepUpGrants.find? row.tokenHash = some row
  others : ∀ k r, w'.state.stepUpGrants.find? k = some r →
    r = row ∨ w.state.stepUpGrants.find? k = some r

theorem run_removeExpiredGrants {instant : ℤ} {u : Unit}
    (h : (removeExpiredGrants key instant).run w = .ok (u, w')) :
    ∃ t, w' = { w with state := { w.state with stepUpGrants := t } } ∧
      ∀ k r, t.find? k = some r → w.state.stepUpGrants.find? k = some r := by
  simp only [removeExpiredGrants, Tx.run_bind, Tx.run_deleteFrom, Tx.run_select, Tx.run_pure,
    Tables.stepUpGrants_get, Tables.stepUpGrants_put, Option.some.injEq] at h
  obtain ⟨_, _, ⟨_, rfl, -, rfl⟩, _, _, ⟨-, rfl⟩, _, _, ⟨_, rfl, -, rfl⟩, -, rfl⟩ := h
  refine ⟨_, rfl, fun k r hr => ?_⟩
  exact Table.find?_of_find?_deleteWhere (Table.find?_of_find?_deleteWhere hr)

theorem run_issueGrant_row {context : StepUpContext} {source : GrantSource} {authenticatedAt : ℤ}
    {grant : StepUpGrant}
    (h : (issueGrant env loaded context source authenticatedAt).run w = .ok (grant, w')) :
    ∃ (row : StepUpGrantRow) (t : Table StepUpGrantRow), row.IssuedIn env loaded context source w w' ∧
      row.tokenHash = env.sha256.secret grant.secret ∧ row.authenticatedAt = authenticatedAt ∧
      w'.state = { w.state with stepUpGrants := t } := by
  simp only [issueGrant, Tx.run_bind, run_now, Tx.run_require, Tx.run_select, run_randomSecret,
    Tx.run_insertInto, Tx.run_pure, Tables.stepUpGrants_get, Tables.stepUpGrants_put,
    Option.some.injEq] at h
  obtain ⟨_, _, ⟨rfl, rfl⟩, -, _, ⟨⟨hpos, hstarted, -⟩, rfl⟩, -, _, ⟨hexpiry, rfl⟩, _, _, hremove, _, _,
    ⟨-, rfl⟩, -, _, ⟨-, rfl⟩, secret, _, ⟨rfl, rfl⟩, _, _, ⟨t, _, ht, rfl, rfl⟩, rfl, rfl⟩ := h
  obtain ⟨kept, rfl, hkept⟩ := run_removeExpiredGrants hremove
  refine ⟨_, t, ⟨rfl, ⟨w.drawn, rfl, le_rfl, Nat.lt_succ_self _⟩, ⟨w.tick.clock, w.clock_le_tick, le_rfl,
    hpos, hstarted, hexpiry⟩, (Table.find?_insert ht _).trans (if_pos rfl), fun k r hr => ?_⟩, rfl, rfl,
    rfl⟩
  rw [Table.find?_insert ht] at hr
  split at hr
  · exact .inl (Option.some_injective _ hr).symm
  · exact .inr (hkept k r hr)

theorem StepUpGrantRow.ConsumedBy.within {row : StepUpGrantRow} {expected : StepUpContext}
    {handle : Secret} (h : row.ConsumedBy env actor expected handle w₁ w₂)
    (hd : w.state.directory = w₁.state.directory)
    (hgrants : w.state.stepUpGrants = w₁.state.stepUpGrants)
    (hbacks : w₁.state.BacksGrant actor.key row.source → w.state.BacksGrant actor.key row.source)
    (hgranted : w'.state.stepUpGrants = w₂.state.stepUpGrants)
    (hbefore : w.Advances w₁) (hafter : w₂.Advances w') :
    row.ConsumedBy env actor expected handle w w' := by
  obtain ⟨loaded, t, hrechecked, hlo, hhi, hanswers⟩ := h.answers
  refine ⟨?_, ⟨loaded, t, hrechecked.within hd hbefore hafter, hbefore.clock.trans hlo,
    hhi.trans hafter.clock, hanswers⟩, hbacks h.backed, ?_, ?_⟩
  · rw [hgrants]
    exact h.found
  · rw [hgranted]
    exact h.gone
  · rw [hgrants, hgranted]
    exact h.others

end Grants

section Begun

/-- What a ceremony is about, as it is begun: a registration that adds to the credentials has room
for one more, and an authentication lists credentials as they are stored. -/
def Ceremony.FitsAt (ceremony : Ceremony) (db : Db) (key : AccountKey) (rp : String)
    (config : Digest) : Prop :=
  match ceremony with
  | .register _ _ recover _ _ _ => recover = false → db.usableCount key rp config < 16
  | .authenticate _ _ credentials => ∀ snapshot ∈ credentials,
      ∃ row, db.webauthnCredentials.find? snapshot.id = some row ∧
        row.usable key rp config = true ∧ snapshot = ⟨row.id, row.version, row.epoch, row.value⟩

/-- A ceremony was begun for a live session, at the credential epoch of its account and under the
active configuration. -/
structure CeremonyBegun (env : Env) (this : WebauthnAuthority) (actor : AuthenticatedSession)
    (row : WebauthnCeremonyRow) (account : WebauthnAccountRow) (w w' : Tenant) : Prop where
  rechecked : ∃ loaded, actor.RecheckedAs env loaded w w' ∧ row.session = loaded.view.id ∧
    row.authEpoch = loaded.state.epoch ∧ row.membershipEpoch = loaded.state.membershipEpoch ∧
    row.expiresAt = ceremonyExpiry loaded row.createdAt
  principal : row.principal = actor.key
  configured : w.state.Configured env this
  config : row.rpConfig = this.config env
  epoch : row.credentialEpoch = account.epoch
  account : AccountRead actor.key account w.state.webauthnAccounts w'.state.webauthnAccounts
  stored : w'.state.webauthnCeremonies.find? row.id = some row
  others : ∀ k r, w'.state.webauthnCeremonies.find? k = some r →
    r = row ∨ w.state.webauthnCeremonies.find? k = some r
  fresh : ∃ i, row.id = freshUuid env i ∧ DrawnIn w w' i
  fits : row.state.FitsAt w.state actor.key this.party.rp (this.config env)
  credentials : w'.state.webauthnCredentials = w.state.webauthnCredentials
  rp : w'.state.webauthnRp = w.state.webauthnRp

theorem Effect.webauthn_eq {a : Area} {start : Tenant} {db : Db}
    (h : Effect env start w a db) (ha : a ≠ .webauthn) :
    (db.webauthnRp, db.webauthnAccounts, db.webauthnCredentials, db.webauthnCeremonies) =
      (w.state.webauthnRp, w.state.webauthnAccounts, w.state.webauthnCredentials,
        w.state.webauthnCeremonies) := by
  cases h <;> first | rfl | exact absurd rfl ha

/-- What stores a ceremony after an account was read has begun one. -/
theorem ceremonyBegun {account : WebauthnAccountRow} {t : Table WebauthnAccountRow}
    {ceremony : Ceremony} {challenge : WebauthnChallenge}
    (hrechecked : actor.RecheckedAs env loaded w w.tick)
    (hconfigured : w.state.Configured env this)
    (haccount : AccountRead actor.key account w.state.webauthnAccounts t)
    (hsame : (w₁.state.webauthnRp, w₁.state.webauthnAccounts, w₁.state.webauthnCredentials,
      w₁.state.webauthnCeremonies) = (w.state.webauthnRp, t, w.state.webauthnCredentials,
        w.state.webauthnCeremonies))
    (hlater : w.tick.Advances w₁)
    (hfits : ceremony.FitsAt w.state actor.key this.party.rp (this.config env))
    (h : (storeCeremony env loaded account.epoch (this.config env) ceremony).run w₁ =
      .ok (challenge, w')) :
    ∃ row, CeremonyBegun env this actor row account w w' ∧ row.id = challenge.id ∧
      row.state = ceremony := by
  simp only [Prod.mk.injEq] at hsame
  obtain ⟨hrp, haccounts, hcredentials, hceremonies⟩ := hsame
  have hafter := Tx.advances _ _ _ _ h
  obtain ⟨row, hstored, hid, hprincipal, hsession, hauth, hmembership, hepoch, hconfig, hstate,
    hexpires⟩ := run_storeCeremony h
  have hrest := hstored.rest
  refine ⟨row, ⟨⟨loaded, hrechecked.within rfl (.refl w) (hlater.trans hafter), hsession, hauth,
    hmembership, hexpires⟩, hprincipal.trans hrechecked.key, hconfigured, hconfig, hepoch, ?_,
    hstored.stored, ?_, ?_, ?_, ?_, ?_⟩, hid, hstate⟩
  · rw [hrest, haccounts]
    exact haccount
  · intro k r hr
    rw [← hceremonies]
    exact hstored.others k r hr
  · obtain ⟨i, hi, hlo, hhi⟩ := hstored.fresh
    have hdrawn := hlater.drawn
    rw [World.tick_drawn] at hdrawn
    exact ⟨i, hi, hdrawn.trans hlo, hhi⟩
  · rw [hstate]
    exact hfits
  · rw [hrest, hcredentials]
  · rw [hrest, hrp]

/-- A registration is authorized by a recent authentication where the account never enrolled, by a
grant that is consumed with it, or as a recovery by the host. -/
theorem run_authorizeRegistration {enrolled recover : Bool} {authorization : RegistrationAuthorization}
    {consumed : Option ConsumedStepUp}
    (h : (authorizeRegistration env actor loaded enrolled recover authorization).run w =
      .ok (consumed, w')) :
    (authorization = .first ∧ consumed = none ∧ enrolled = false ∧ w'.state = w.state) ∨
    (authorization = .hostRecovery ∧ consumed = none ∧ w'.state = w.state) ∨
    ∃ token taken, authorization = .stepUp token ∧ consumed = some taken ∧
      (consumeStepUpOn env actor (webauthnManagementContext env actor.key
        (if recover then "recover" else "register") none) token).run w = .ok (taken, w') := by
  cases authorization with
  | first =>
    simp only [authorizeRegistration, Tx.run_bind, Tx.run_require, Tx.run_pure] at h
    obtain ⟨-, _, ⟨⟨henrolled, -⟩, rfl⟩, recent, w₁, hrecent, -, _, ⟨-, rfl⟩, rfl, rfl⟩ := h
    have hread : w₁.state = w.state :=
      @WritesOnly.readOnly _ env _ (fun _ => recentlyAuthenticated_writes) _ _ _ hrecent
    exact .inl ⟨rfl, rfl, henrolled, hread⟩
  | stepUp token =>
    simp only [authorizeRegistration, Tx.run_bind, Tx.run_pure] at h
    obtain ⟨taken, _, hconsume, rfl, rfl⟩ := h
    exact .inr (.inr ⟨token, taken, rfl, rfl, hconsume⟩)
  | hostRecovery =>
    simp only [authorizeRegistration, Tx.run_bind, Tx.run_require, Tx.run_pure] at h
    obtain ⟨-, _, ⟨-, rfl⟩, rfl, rfl⟩ := h
    exact .inr (.inl ⟨rfl, rfl, rfl⟩)

theorem run_authenticate_begun {context : StepUpContext} {challenge : WebauthnChallenge}
    (h : (beginAuthentication env this actor context).run w = .ok (challenge, w')) :
    ∃ row account, CeremonyBegun env this actor row account w w' ∧ row.id = challenge.id ∧
      ∃ state keys, row.state = .authenticate state context keys := by
  simp only [beginAuthentication, Tx.run_bind, Tx.run_require, Tx.run_random, Tx.run_demand] at h
  obtain ⟨loaded, _, hrecheck, _, _, hcheck, account, _, haccount, keys, w₁, hkeys, -, _, ⟨-, rfl⟩, draw,
    _, ⟨-, rfl⟩, state, _, ⟨-, rfl⟩, hstore⟩ := h
  obtain ⟨rfl, hrechecked⟩ := run_recheck_as hrecheck
  obtain ⟨rfl, hconfigured⟩ := run_checkConfiguration hcheck
  obtain ⟨t, ht, hread⟩ := run_webauthnAccount haccount
  obtain ⟨rfl, -, hlisted⟩ := run_usableCredentials hkeys
  have hlater := Tx.advances _ _ _ _ haccount
  have hfits : (Ceremony.authenticate state context keys).FitsAt w.state actor.key this.party.rp
      (this.config env) := by
    intro snapshot hsnapshot
    have hcredentials : w₁.state.webauthnCredentials = w.state.webauthnCredentials := by
      rw [ht]
      rfl
    rw [← hcredentials]
    exact hlisted snapshot hsnapshot
  have hdrew : w.tick.Advances { w₁ with drawn := w₁.drawn + 1 } := hlater.trans ⟨le_rfl, Nat.le_succ _⟩
  obtain ⟨row, hbegun, hid, hstate⟩ := ceremonyBegun hrechecked hconfigured hread
    (by simp only [ht, World.tick_state]) hdrew hfits hstore
  exact ⟨row, account, hbegun, hid, state, keys, hstate⟩

/-- What a registration that is begun rests on. -/
inductive RegistrationGranted (env : Env) (actor : AuthenticatedSession)
    (account : WebauthnAccountRow) (recover : Bool) (w w' : Tenant) : RegistrationAuthorization →
    Option GrantSource → Bool → Prop
  | first : account.enrolled = false → w'.state.stepUpGrants = w.state.stepUpGrants →
      RegistrationGranted env actor account recover w w' .first none false
  | hostRecovery : w'.state.stepUpGrants = w.state.stepUpGrants →
      RegistrationGranted env actor account recover w w' .hostRecovery none true
  | stepUp {token} {row : StepUpGrantRow} :
      row.ConsumedBy env actor (webauthnManagementContext env actor.key
        (if recover then "recover" else "register") none) token w w' →
      RegistrationGranted env actor account recover w w' (.stepUp token) (some row.source) false

theorem run_beginRegistration {label : String} {recover : Bool}
    {authorization : RegistrationAuthorization} {challenge : WebauthnChallenge}
    (h : (beginRegistration env this actor label recover authorization).run w =
      .ok (challenge, w')) :
    ∃ row account, CeremonyBegun env this actor row account w w' ∧ row.id = challenge.id ∧
      ∃ state source hostRecovery time,
        row.state = .register state label recover source hostRecovery time ∧
        RegistrationGranted env actor account recover w w' authorization source hostRecovery := by
  simp only [beginRegistration, Tx.run_bind, Tx.run_require, Tx.run_random, Tx.run_demand] at h
  obtain ⟨-, _, ⟨-, rfl⟩, loaded, _, hrecheck, _, _, hcheck, account, w₁, haccount, _, w₂, hauthorize,
    consumed, _, hgranted, keys, w₃, hkeys, -, _, ⟨hroom, rfl⟩, draw, _, ⟨-, rfl⟩, state, _, ⟨-, rfl⟩,
    hstore⟩ := h
  obtain ⟨rfl, hrechecked⟩ := run_recheck_as hrecheck
  obtain ⟨rfl, hconfigured⟩ := run_checkConfiguration hcheck
  obtain ⟨t, ht, hread⟩ := run_webauthnAccount haccount
  obtain ⟨rfl, hcount, -⟩ := run_usableCredentials hkeys
  have hauthorized : w₂.state = w₁.state :=
    @WritesOnly.readOnly _ env _ (fun _ => authorize_writes) _ _ _ hauthorize
  have hbefore : w.tick.Advances w₂ :=
    (Tx.advances _ _ _ _ haccount).trans (Tx.advances _ _ _ _ hauthorize)
  have hdrew : w₂.Advances { w₃ with drawn := w₃.drawn + 1 } :=
    (Tx.advances _ _ _ _ hgranted).trans ⟨le_rfl, Nat.le_succ _⟩
  obtain ⟨grants, hstate⟩ : ∃ grants, w₃.state = { w₂.state with stepUpGrants := grants } := by
    rcases run_authorizeRegistration hgranted with ⟨-, -, -, hsame⟩ | ⟨-, -, hsame⟩ |
      ⟨token, taken, -, -, hconsume⟩
    · exact ⟨w₂.state.stepUpGrants, hsame⟩
    · exact ⟨w₂.state.stepUpGrants, hsame⟩
    · obtain ⟨row, grants, -, -, hconsumed⟩ := run_consumeStepUpOn hconsume
      exact ⟨grants, hconsumed⟩
  have hfits : (Ceremony.register state label recover (consumed.map ConsumedStepUp.source)
      (decide (authorization = .hostRecovery)) (consumed.map ConsumedStepUp.authenticatedAt)).FitsAt
        w.state actor.key this.party.rp (this.config env) := by
    intro hadds
    have hcredentials : w₃.state.webauthnCredentials = w.state.webauthnCredentials := by
      rw [hstate, hauthorized, ht]
      rfl
    have hfew := hcount (hroom hadds)
    rw [Db.usableCount, hcredentials] at hfew
    exact hfew
  obtain ⟨row, hbegun, hid, hceremony⟩ := ceremonyBegun hrechecked hconfigured hread
    (by simp only [hstate, hauthorized, ht, World.tick_state]) (hbefore.trans hdrew) hfits hstore
  refine ⟨row, account, hbegun, hid, state, _, _, _, hceremony, ?_⟩
  obtain ⟨row', hstored, -⟩ := run_storeCeremony hstore
  rcases run_authorizeRegistration hgranted with ⟨rfl, rfl, henrolled, hsame⟩ | ⟨rfl, rfl, hsame⟩ |
    ⟨token, taken, rfl, rfl, hconsume⟩
  · refine .first henrolled ?_
    rw [hstored.rest, hsame, hauthorized, ht]
    rfl
  · refine .hostRecovery ?_
    rw [hstored.rest, hsame, hauthorized, ht]
    rfl
  · obtain ⟨grant, grants', hconsumed, rfl, hrest⟩ := run_consumeStepUpOn hconsume
    have hdrawn : w₃.Advances { w₃ with drawn := w₃.drawn + 1 } := ⟨le_rfl, Nat.le_succ _⟩
    refine .stepUp (hconsumed.within ?_ ?_ ?_ ?_ ((World.Advances.tick w).trans hbefore)
      (hdrawn.trans (Tx.advances _ _ _ _ hstore)))
    · rw [hauthorized, ht]
      rfl
    · rw [hauthorized, ht]
      rfl
    · rw [hauthorized, ht]
      cases grant.source <;> exact fun h => h
    · rw [hstored.rest]

end Begun

section Settled

/-- A ceremony was settled: it was still there, it belongs to the live session of the actor and to the
account's credential epoch under the active configuration, and it is gone. -/
structure CeremonySettled (env : Env) (this : WebauthnAuthority) (actor : AuthenticatedSession)
    (id : Uuid) (row : WebauthnCeremonyRow) (account : WebauthnAccountRow) (w w' : Tenant) :
    Prop where
  belongs : ∃ loaded t, actor.RecheckedAs env loaded w w' ∧ w.clock ≤ t ∧ t ≤ w'.clock ∧
    row.BelongsTo loaded account.epoch (this.config env) (seconds t)
  configured : w.state.Configured env this
  found : w.state.webauthnCeremonies.find? id = some row
  gone : w'.state.webauthnCeremonies.find? id = none
  others : CeremoniesRemoved w.state.webauthnCeremonies w'.state.webauthnCeremonies
  rp : w'.state.webauthnRp = w.state.webauthnRp
  read : ∃ t, AccountRead actor.key account w.state.webauthnAccounts t

/-- What reads a ceremony and later consumes it has settled it. -/
theorem ceremonySettled {snapshot : CeremonySnapshot} {row : WebauthnCeremonyRow}
    {account : WebauthnAccountRow} {u : Unit} (hrechecked : actor.RecheckedAs env loaded w w₁)
    (hread : CeremonyRead loaded id (this.config env) snapshot row account w w₁)
    (hconfigured : w.state.Configured env this) (hlater : w₁.Advances w₂)
    (hsame : (w₂.state.webauthnRp, w₂.state.webauthnCeremonies) =
      (w₁.state.webauthnRp, w₁.state.webauthnCeremonies))
    (hclock : w.Advances w₁) (h : (consumeCeremony actor.key id).run w₂ = .ok (u, w')) :
    CeremonySettled env this actor id row account w w' := by
  obtain ⟨t, rfl, hremoved, hgone⟩ := run_consumeCeremony h
  obtain ⟨accounts, hstate, haccount⟩ := hread.account
  rw [hrechecked.key] at haccount
  simp only [Prod.mk.injEq, hstate] at hsame
  obtain ⟨hrp, hceremonies⟩ := hsame
  rw [hceremonies] at hremoved
  have hbelongs := hread.belongs
  rw [hread.observed] at hbelongs
  refine ⟨⟨loaded, w₁.clock, hrechecked.within rfl (.refl w) (hlater.trans ⟨le_rfl, le_rfl⟩),
    hclock.clock, hlater.clock, hbelongs⟩, hconfigured, hread.found, ?_, hremoved, hrp, accounts, haccount⟩
  cases hfind : t.find? id with
  | none => rfl
  | some other =>
    obtain rfl := Option.some_injective _ ((hremoved _ _ hfind).symm.trans hread.found)
    exact absurd (hbelongs.principal.trans hrechecked.key) (hgone other hfind)

theorem CeremonySettled.of_tick {row : WebauthnCeremonyRow} {account : WebauthnAccountRow}
    (h : CeremonySettled env this actor id row account w.tick w') :
    CeremonySettled env this actor id row account w w' := by
  obtain ⟨loaded, t, hrechecked, hlo, hhi, hbelongs⟩ := h.belongs
  have htick := World.Advances.tick w
  exact ⟨⟨loaded, t, hrechecked.within rfl htick (.refl w'), htick.clock.trans hlo, hhi, hbelongs⟩,
    h.configured, h.found, h.gone, h.others, h.rp, h.read⟩

/-- A registration was settled: where it recovers, every earlier credential of the account was revoked;
one credential was added, and the account moved on to its next epoch. -/
structure RegistrationFinished (env : Env) (this : WebauthnAuthority) (actor : AuthenticatedSession)
    (id : Uuid) (snapshot : CeremonySnapshot) (recover : Bool) (credential : Uuid)
    (row : WebauthnCeremonyRow) (account : WebauthnAccountRow) (w w' : Tenant) : Prop where
  settled : CeremonySettled env this actor id row account w w'
  asked : ∃ state label source hostRecovery time,
    snapshot.ceremony = .register state label recover source hostRecovery time
  register : row.state.isRegister = true
  epoch : snapshot.epoch = account.epoch
  credentials : ∃ t new,
    (recover = true → CredentialsRevoked (fun row => decide (row.principal = actor.key))
      w.state.webauthnCredentials t) ∧
    (recover = false → t = w.state.webauthnCredentials) ∧
    t.insert new = some w'.state.webauthnCredentials ∧ new.id = credential ∧
    new.principal = actor.key ∧ new.rp = this.party.rp ∧ new.rpConfig = this.config env ∧
    new.revoked = false
  account : ∃ t, AccountRead actor.key account w.state.webauthnAccounts t ∧
    AccountAdvanced actor.key true t w'.state.webauthnAccounts

theorem run_revokePrevious {recover : Bool} {u : Unit}
    (h : (revokePrevious key recover).run w = .ok (u, w')) :
    ∃ t, w' = { w with state := { w.state with webauthnCredentials := t } } ∧
      (recover = true → CredentialsRevoked (fun row => decide (row.principal = key))
        w.state.webauthnCredentials t) ∧
      (recover = false → t = w.state.webauthnCredentials) := by
  cases recover with
  | true =>
    simp only [revokePrevious, if_true, Tx.run_bind, Tx.run_pure] at h
    obtain ⟨n, _, hrevoke, -, rfl⟩ := h
    obtain ⟨t, rfl, hrevoked, -⟩ := run_revokeCredentials hrevoke
    refine ⟨t, rfl, fun _ => hrevoked, fun hfalse => ?_⟩
    cases hfalse
  | false =>
    simp only [revokePrevious, Bool.false_eq_true, if_false, Tx.run_pure] at h
    obtain ⟨-, rfl⟩ := h
    refine ⟨_, rfl, fun htrue => ?_, fun _ => rfl⟩
    cases htrue

theorem recheckAuthorization_writes {areas : List Area} {start since : Tenant}
    {authorization : Option GrantSource} {hostRecovery : Bool} {time : Option ℤ} :
    WritesOnly env areas start since
      (recheckAuthorization actor loaded authorization hostRecovery time) := by
  cases authorization with
  | some source => exact .bind .now fun _ => .bind .require fun _ => validateSource_writes
  | none => exact .ite .pure (.bind recentlyAuthenticated_writes fun _ => .require)

theorem run_finishRegistration {snapshot : CeremonySnapshot} {response : ℕ} {credential : Uuid}
    (h : (finishRegistration env this actor id snapshot response).run w = .ok (credential, w')) :
    ∃ recover row account,
      RegistrationFinished env this actor id snapshot recover credential row account w w' := by
  unfold finishRegistration at h
  cases hceremony : snapshot.ceremony with
  | authenticate state context credentials =>
    simp only [hceremony] at h
    exact (Tx.run_throw.mp h).elim
  | register state label recover source hostRecovery time =>
    simp only [hceremony, Tx.run_bind, Tx.run_demand, Tx.run_require, run_now, Tx.run_pure] at h
    obtain ⟨passkey, _, ⟨-, rfl⟩, loaded, _, hrecheck, _, _, hcheck, current, w₁, hread, -, _,
      ⟨⟨hepoch, hregister⟩, rfl⟩, _, w₂, hauthorize, _, w₃, hagain, _, w₄, hprevious, _, w₅, hinsert, _,
      w₆, hadvance, _, _, ⟨rfl, rfl⟩, -, _, ⟨-, rfl⟩, _, _, hconsume, rfl, rfl⟩ := h
    obtain ⟨rfl, -⟩ := run_recheck_as hrecheck
    obtain ⟨rfl, hconfigured⟩ := run_checkConfiguration hcheck
    have hafterRead := Tx.advances _ _ _ _ hread
    obtain ⟨reloaded, row, account, hrechecked, hfound⟩ := run_readCeremony hread
    have hauthorized : w₂.state = w₁.state :=
      @WritesOnly.readOnly _ env _ (fun _ => authorize_writes) _ _ _ hauthorize
    have hreauthorized : w₃.state = w₂.state :=
      @WritesOnly.readOnly _ env _ (fun _ => recheckAuthorization_writes) _ _ _ hagain
    have hlater : w₁.Advances w₆.tick :=
      (Tx.advances _ _ _ _ hauthorize).trans ((Tx.advances _ _ _ _ hagain).trans
        ((Tx.advances _ _ _ _ hprevious).trans ((Tx.advances _ _ _ _ hinsert).trans
          ((Tx.advances _ _ _ _ hadvance).trans (.tick _)))))
    obtain ⟨revoked, rfl, hrevoked, hkept⟩ := run_revokePrevious hprevious
    obtain ⟨new, hnew⟩ := run_insertCredential hinsert
    obtain ⟨accounts, rfl, hadvanced⟩ := run_advanceCredentialEpoch true (fun row => by simp) hadvance
    obtain ⟨read, hstate, haccount⟩ := hfound.account
    have hrest := hnew.rest
    have hinserted := hnew.inserted
    rw [hrechecked.key] at haccount
    obtain ⟨t, rfl, -, -⟩ := run_consumeCeremony hconsume
    simp only [hreauthorized, hauthorized, hstate, World.tick_state] at hrevoked hkept hinserted hrest
    have haccounts : w₅.state.webauthnAccounts = read := by rw [hrest]
    have hsame : (w₅.state.webauthnRp, w₅.state.webauthnCeremonies) =
        (w₁.state.webauthnRp, w₁.state.webauthnCeremonies) := by rw [hrest, hstate]; rfl
    rw [haccounts] at hadvanced
    refine ⟨recover, row, account, (ceremonySettled hrechecked hfound hconfigured ?_ ?_ ?_ hconsume).of_tick,
      ⟨state, label, source, hostRecovery, time, hceremony⟩, ?_, ?_, ⟨revoked, new, hrevoked, hkept,
        hinserted, hnew.id, hnew.owner.1, hnew.owner.2.1, hnew.owner.2.2, hnew.unrevoked⟩,
      ⟨read, haccount, hadvanced⟩⟩
    · exact hlater
    · exact hsame
    · exact hafterRead
    · rw [← hfound.ceremony]
      exact hregister
    · rw [← hepoch]
      exact hfound.epoch

/-- An authentication was settled: the authenticator state of the credential it was made with moved on
from the version it was begun with, and a grant was issued. -/
structure AuthenticationFinished (env : Env) (this : WebauthnAuthority) (actor : AuthenticatedSession)
    (id : Uuid) (snapshot : CeremonySnapshot) (selected : CredentialSnapshot) (grant : StepUpGrantRow)
    (row : WebauthnCeremonyRow) (account : WebauthnAccountRow) (w w' : Tenant) : Prop where
  settled : CeremonySettled env this actor id row account w w'
  authenticate : row.state.isRegister = false
  epoch : snapshot.epoch = account.epoch
  asked : ∃ state context keys, snapshot.ceremony = .authenticate state context keys ∧
    (∃ key ∈ keys, key.id = selected.id ∧ key.version = selected.version ∧ key.epoch = selected.epoch) ∧
    ∃ loaded, actor.RecheckedAs env loaded w w' ∧ grant.IssuedIn env loaded context
      (.webauthn selected.id selected.epoch this.party.rp this.generation) w w' ∧
      grant.authenticatedAt = snapshot.observedAt
  updated : AuthenticatorUpdated actor.key selected w.state.webauthnCredentials
    w'.state.webauthnCredentials
  account : AccountRead actor.key account w.state.webauthnAccounts w'.state.webauthnAccounts

theorem StepUpGrantRow.IssuedIn.within {row : StepUpGrantRow} {context : StepUpContext}
    {source : GrantSource} (h : row.IssuedIn env loaded context source w₁ w₂)
    (hgrants : w.state.stepUpGrants = w₁.state.stepUpGrants)
    (hgranted : w'.state.stepUpGrants = w₂.state.stepUpGrants)
    (hbefore : w.Advances w₁) (hafter : w₂.Advances w') :
    row.IssuedIn env loaded context source w w' := by
  obtain ⟨i, hi, hlo, hhi⟩ := h.fresh
  obtain ⟨t, hfrom, hto, hwindow⟩ := h.window
  refine ⟨h.made, ⟨i, hi, hbefore.drawn.trans hlo, lt_of_lt_of_le hhi hafter.drawn⟩,
    ⟨t, hbefore.clock.trans hfrom, hto.trans hafter.clock, hwindow⟩, ?_, ?_⟩
  · rw [hgranted]
    exact h.stored
  · rw [hgrants, hgranted]
    exact h.others

/-- The credential selected for a response is one of the ceremony, its authenticator state moved on. -/
theorem selectCredential_eq_some {credentials : List CredentialSnapshot} {result : AuthenticationResult}
    {selected : CredentialSnapshot} (h : selectCredential env credentials result = some selected) :
    ∃ key ∈ credentials, key.id = selected.id ∧ key.version = selected.version ∧
      key.epoch = selected.epoch := by
  simp only [selectCredential, Option.bind_eq_bind, Option.bind_eq_some_iff, Option.some.injEq] at h
  obtain ⟨key, hkey, passkey, -, rfl⟩ := h
  exact ⟨key, List.mem_of_find?_eq_some hkey, rfl, rfl, rfl⟩

theorem run_finishAuthentication {snapshot : CeremonySnapshot} {response : ℕ} {grant : StepUpGrant}
    (h : (finishAuthentication env this actor id snapshot response).run w = .ok (grant, w')) :
    ∃ selected issued row account,
      AuthenticationFinished env this actor id snapshot selected issued row account w w' ∧
      issued.tokenHash = env.sha256.secret grant.secret := by
  unfold finishAuthentication at h
  cases hceremony : snapshot.ceremony with
  | register state label recover source hostRecovery time =>
    simp only [hceremony] at h
    exact (Tx.run_throw.mp h).elim
  | authenticate state context credentials =>
    simp only [hceremony, Tx.run_bind, Tx.run_demand, Tx.run_require, run_now, Tx.run_pure] at h
    obtain ⟨result, _, ⟨-, rfl⟩, -, _, ⟨-, rfl⟩, selected, _, ⟨hselect, rfl⟩, loaded, _, hrecheck, _, _,
      hcheck, current, w₁, hread, -, _, ⟨⟨hepoch, hregister⟩, rfl⟩, _, w₂, hupdate, issued, w₃, hissue, _, _,
      ⟨rfl, rfl⟩, -, _, ⟨-, rfl⟩, _, _, hconsume, rfl, rfl⟩ := h
    obtain ⟨rfl, hchecked⟩ := run_recheck_as hrecheck
    obtain ⟨rfl, hconfigured⟩ := run_checkConfiguration hcheck
    have hbefore := Tx.advances _ _ _ _ hread
    have hupdating := Tx.advances _ _ _ _ hupdate
    have hissuing := Tx.advances _ _ _ _ hissue
    have hconsuming := Tx.advances _ _ _ _ hconsume
    obtain ⟨reloaded, row, account, hrechecked, hfound⟩ := run_readCeremony hread
    obtain ⟨read, hstate, haccount⟩ := hfound.account
    obtain ⟨credentials', rfl, hupdated⟩ := run_updateAuthenticator hupdate
    obtain ⟨granted, grants, hgranted, hhash, htime, hrest⟩ := run_issueGrant_row hissue
    rw [hrechecked.key] at haccount
    have hsettled := (ceremonySettled hrechecked hfound hconfigured
      (hupdating.trans (hissuing.trans (.tick _))) (by simp only [World.tick_state, hrest]) hbefore
      hconsume).of_tick
    obtain ⟨t, rfl, -, -⟩ := run_consumeCeremony hconsume
    simp only [hstate, World.tick_state] at hupdated hrest
    have htick := World.Advances.tick w
    refine ⟨selected, granted, row, account, ⟨hsettled, ?_, ?_, ⟨state, context, credentials, hceremony,
      selectCredential_eq_some hselect, loaded, ?_, ?_, htime⟩, ?_, ?_⟩, hhash⟩
    · rw [← hfound.ceremony]
      exact hregister
    · rw [← hepoch]
      exact hfound.epoch
    · exact hchecked.within rfl (.refl w)
        (hbefore.trans (hupdating.trans (hissuing.trans ((World.Advances.tick _).trans hconsuming))))
    · refine hgranted.within ?_ ?_ (htick.trans (hbefore.trans hupdating))
        ((World.Advances.tick _).trans hconsuming)
      · simp only [hstate, World.tick_state]
      · rfl
    · simp only [World.tick_state, hrest]
      exact hupdated
    · simp only [World.tick_state, hrest]
      exact haccount

theorem run_cancelCeremony {u : Unit} (h : (cancelCeremony env this actor id).run w = .ok (u, w')) :
    ∃ row account, CeremonySettled env this actor id row account w w' ∧
      w'.state.webauthnCredentials = w.state.webauthnCredentials ∧
      AccountRead actor.key account w.state.webauthnAccounts w'.state.webauthnAccounts := by
  simp only [cancelCeremony, Tx.run_bind] at h
  obtain ⟨snapshot, w₁, hread, _, w₂, hcheck, hconsume⟩ := h
  have hbefore := Tx.advances _ _ _ _ hread
  obtain ⟨loaded, row, account, hrechecked, hfound⟩ := run_readCeremony hread
  obtain ⟨rfl, hconfigured⟩ := run_checkConfiguration hcheck
  obtain ⟨read, hstate, haccount⟩ := hfound.account
  rw [hrechecked.key] at haccount
  have hconfigured' : w.state.Configured env this := by
    rw [Db.Configured, hstate] at hconfigured
    exact hconfigured
  refine ⟨row, account, ceremonySettled hrechecked hfound hconfigured' (.refl _) rfl hbefore hconsume, ?_⟩
  obtain ⟨t, rfl, -, -⟩ := run_consumeCeremony hconsume
  simp only [hstate]
  exact ⟨trivial, haccount⟩

/-- A ceremony is read for its verification outside by the session it belongs to. -/
theorem run_snapshotCeremony {snapshot : CeremonySnapshot}
    (h : (snapshotCeremony env this actor id).run w = .ok (snapshot, w')) :
    ∃ row t, w.state.webauthnCeremonies.find? id = some row ∧ row.principal = actor.key ∧
      row.rpConfig = this.config env ∧ snapshot.ceremony = row.state ∧
      snapshot.epoch = row.credentialEpoch ∧
      w'.state = { w.state with webauthnAccounts := t } ∧
      ∃ account, AccountRead actor.key account w.state.webauthnAccounts t := by
  simp only [snapshotCeremony, Tx.run_bind, Tx.run_require] at h
  obtain ⟨-, _, ⟨-, rfl⟩, loaded, _, hlookup, -, _, ⟨⟨-, hkey⟩, rfl⟩, _, _, hcheck, hread⟩ := h
  obtain ⟨rfl, -⟩ := run_lookup hlookup
  obtain ⟨rfl, -⟩ := run_checkConfiguration hcheck
  obtain ⟨row, account, hfound⟩ := run_readLoaded hread
  obtain ⟨t, hstate, haccount⟩ := hfound.account
  rw [hkey] at haccount
  refine ⟨row, t, hfound.found, hfound.belongs.principal.trans hkey, hfound.belongs.rpConfig,
    hfound.ceremony, ?_, hstate, account, haccount⟩
  rw [hfound.epoch, hfound.belongs.credentialEpoch]

end Settled

section Managed

/-- A credential was removed by a grant: it is revoked, and the account moved on to its next epoch. -/
structure CredentialRemoved (env : Env) (actor : AuthenticatedSession) (id : Uuid) (handle : Secret)
    (w w' : Tenant) : Prop where
  grant : ∃ row : StepUpGrantRow, row.ConsumedBy env actor
    (webauthnManagementContext env actor.key "remove" (some id)) handle w w'
  credentials : CredentialsRevoked (fun row => decide (row.principal = actor.key ∧ row.id = id))
    w.state.webauthnCredentials w'.state.webauthnCredentials
  account : AccountAdvanced actor.key false w.state.webauthnAccounts w'.state.webauthnAccounts
  kept : w'.state.webauthnCeremonies = w.state.webauthnCeremonies ∧
    w'.state.webauthnRp = w.state.webauthnRp

theorem run_removeCredential {handle : Secret} {u : Unit}
    (h : (removeCredential env this actor id handle).run w = .ok (u, w')) :
    CredentialRemoved env actor id handle w w' := by
  simp only [removeCredential, Tx.run_bind, Tx.run_require] at h
  obtain ⟨loaded, _, hrecheck, _, _, hcheck, _, w₁, hauthorize, taken, w₂, hconsume, n, w₃, hrevoke, -, _,
    ⟨-, rfl⟩, hadvance⟩ := h
  obtain ⟨rfl, -⟩ := run_recheck_as hrecheck
  obtain ⟨rfl, -⟩ := run_checkConfiguration hcheck
  have hauthorized : w₁.state = w.tick.state :=
    @WritesOnly.readOnly _ env _ (fun _ => authorize_writes) _ _ _ hauthorize
  have hbefore := (World.Advances.tick w).trans (Tx.advances _ _ _ _ hauthorize)
  have hrevoking := Tx.advances _ _ _ _ hrevoke
  have hadvancing := Tx.advances _ _ _ _ hadvance
  obtain ⟨row, grants, hconsumed, -, hstate⟩ := run_consumeStepUpOn hconsume
  obtain ⟨credentials, rfl, hrevoked, -⟩ := run_revokeCredentials hrevoke
  obtain ⟨accounts, rfl, hadvanced⟩ := run_advanceCredentialEpoch false (fun row => by simp) hadvance
  simp only [hstate, hauthorized, World.tick_state] at hrevoked hadvanced
  refine ⟨⟨row, hconsumed.within ?_ ?_ ?_ rfl hbefore (hrevoking.trans hadvancing)⟩, hrevoked, hadvanced,
    ?_, ?_⟩
  · rw [hauthorized, World.tick_state]
  · rw [hauthorized, World.tick_state]
  · rw [hauthorized, World.tick_state]
    exact fun h => h
  · simp only [hstate, hauthorized, World.tick_state]
  · simp only [hstate, hauthorized, World.tick_state]

/-- A configuration was activated in the next generation: what the previous one began is gone, and the
credentials of the relying party are revoked. -/
structure RpActivated (env : Env) (party : RelyingParty) (previous : WebauthnRpRow) (w w' : Tenant) :
    Prop where
  found : w.state.webauthnRp.find? party.rp = some previous
  activated : w'.state.webauthnRp.find? party.rp =
    some { previous with fingerprint := party.fingerprint env, generation := previous.generation + 1 }
  ceremonies : CeremoniesRemoved w.state.webauthnCeremonies w'.state.webauthnCeremonies
  gone : ∀ k row, w'.state.webauthnCeremonies.find? k = some row → row.rpConfig ≠ previous.fingerprint
  credentials : CredentialsRevoked (fun row => decide (row.rp = party.rp))
    w.state.webauthnCredentials w'.state.webauthnCredentials
  kept : w'.state.webauthnAccounts = w.state.webauthnAccounts

theorem run_activateWebauthnRp {party : RelyingParty} {expected next : ℤ}
    (h : (activateWebauthnRp env party expected).run w = .ok (next, w')) :
    ∃ previous, RpActivated env party previous w w' := by
  simp only [activateWebauthnRp, Tx.run_bind, Tx.run_require, Tx.run_find, Tx.run_demand,
    Tx.run_updateIn, Tx.run_deleteFrom, Tx.run_pure, Tables.webauthnRp_get, Tables.webauthnRp_put,
    Tables.webauthnCeremonies_get, Tables.webauthnCeremonies_put, Option.some.injEq] at h
  obtain ⟨-, _, ⟨-, rfl⟩, _, _, ⟨rfl, rfl⟩, previous, _, ⟨hfound, rfl⟩, changed, _,
    ⟨t, _, ht, rfl, hchanged, rfl⟩, -, _, ⟨hone, rfl⟩, _, _, ⟨_, rfl, -, rfl⟩, n, _, hrevoke, rfl, rfl⟩ := h
  obtain ⟨credentials, rfl, hrevoked, -⟩ := run_revokeCredentials hrevoke
  have hfind := Table.find?_updateWhere ht fun _ => rfl
  obtain ⟨row, hrow, hmatch⟩ : ∃ row ∈ w.state.webauthnRp.rows,
      decide (row.rp = party.rp ∧ row.generation = expected) = true := by
    apply List.countP_pos_iff.mp
    rw [Table.count] at hchanged
    omega
  have hnamed : w.state.webauthnRp.find? party.rp = some row :=
    Table.find?_eq_some.mpr ⟨hrow, (of_decide_eq_true hmatch).1⟩
  obtain rfl := Option.some_injective _ (hnamed.symm.trans hfound)
  refine ⟨row, hfound, ?_, fun k r hr => Table.find?_of_find?_deleteWhere hr, fun k r hr => ?_, hrevoked,
    rfl⟩
  · simp only [hfind, hfound, Option.map_some, if_pos hmatch]
  · exact of_decide_eq_false (Table.find?_deleteWhere_eq_some.mp hr).2

/-- Connecting a relying party stores its configuration at most. -/
theorem run_connectWebauthn {party : RelyingParty} {connected : WebauthnAuthority}
    (h : (connectWebauthn env party).run w = .ok (connected, w')) :
    ∃ t, w'.state = { w.state with webauthnRp := t } := by
  obtain ⟨stored, _, hfind, h⟩ := Tx.run_bind.mp h
  obtain ⟨-, rfl⟩ := Tx.run_find.mp hfind
  cases stored with
  | some row =>
    simp only [Tx.run_bind, Tx.run_require, Tx.run_pure] at h
    obtain ⟨-, _, ⟨-, rfl⟩, -, rfl⟩ := h
    exact ⟨_, rfl⟩
  | none =>
    simp only [Tx.run_bind, Tx.run_insertInto, Tables.webauthnRp_put, Option.some.injEq,
      Tx.run_pure] at h
    obtain ⟨_, _, ⟨t, _, -, rfl, rfl⟩, -, rfl⟩ := h
    exact ⟨t, rfl⟩

end Managed

end IdentityAuthority
