import IdentityAuthority.Safety.CredentialStorage

/-!
# Rotation of the sealing key

A rotation goes through the credentials of a tenant once. A value under the active key is
authenticated and kept; any other value is opened and sealed again. After a rotation that
succeeds the active key alone opens every value, and nothing is left for another rotation
to do.
-/

namespace IdentityAuthority

open Json Encoding Relational

variable {TenantId : Type} {env : CredentialEnv TenantId} {keys keys' : CredentialKeys}
  {coordinates : Coordinates TenantId} {authority : Uuid} {tenant : TenantId}
  {value : ProviderCredentials} {draw : ℕ → Option {nonce : List UInt8 // nonce.length = 12}}

section Values

/-- Opening asks a keyring for one key. -/
theorem openCredentials_congr {sealedValue : Sealed}
    (h : keys'.find? sealedValue.keyId = keys.find? sealedValue.keyId) :
    openCredentials env keys' coordinates sealedValue =
      openCredentials env keys coordinates sealedValue := by
  unfold openCredentials
  rw [h]

/-- What is opened belongs to a version of at least one. -/
theorem version_of_openCredentials {sealedValue : Sealed}
    (h : openCredentials env keys coordinates sealedValue = .ok value) :
    1 ≤ coordinates.version := by
  unfold openCredentials at h
  split at h
  · cases h
  · cases hdata : aad env.texts coordinates with
    | error e =>
      rw [hdata] at h
      cases h
    | ok data => exact (aad_eq_ok.mp hdata).1

/-- A value under a key that is missing, or that does not authenticate, is not opened. -/
theorem openCredentials_fails {sealedValue : Sealed}
    (h : ∀ key, keys.find? sealedValue.keyId = some key →
      env.aead.decrypt key sealedValue.nonce (contextBytes env coordinates) sealedValue.ciphertext =
        none) :
    openCredentials env keys coordinates sealedValue ≠ .ok value := by
  intro hopen
  unfold openCredentials at hopen
  split at hopen
  · cases hopen
  · cases hdata : aad env.texts coordinates with
    | error e =>
      rw [hdata] at hopen
      cases hopen
    | ok data =>
      obtain ⟨-, rfl⟩ := aad_eq_ok.mp hdata
      rw [hdata] at hopen
      simp only [bind, Except.bind] at hopen
      cases hkey : keys.find? sealedValue.keyId with
      | none => simp [hkey] at hopen
      | some key => simp [hkey, h key hkey] at hopen

/-- What a rotation makes of a stored document. -/
structure DocumentCarried (env : CredentialEnv TenantId) (keys : CredentialKeys)
    (coordinates : Coordinates TenantId) (document document' : Value) : Prop where
  /-- The value opens as before, wherever the active key is. -/
  opens : ∃ value, openStored env keys coordinates document = .ok value ∧
    ∀ keys', keys'.find? keys.active = some keys.activeKey →
      openStored env keys' coordinates document' = .ok value
  /-- It is under the active key. -/
  active : ∃ sealedValue, Sealed.ofJson document' = some sealedValue ∧
    sealedValue.keyId = keys.active
  /-- If it was so before, the document is the one that was stored. -/
  kept : ∀ sealedValue, Sealed.ofJson document = some sealedValue →
    sealedValue.keyId = keys.active → document' = document

/-- A document is rewritten only if it opens. -/
theorem openStored_of_reencryptValue {document document' : Value}
    {random : Option {nonce : List UInt8 // nonce.length = 12}}
    (h : reencryptValue env keys coordinates document random = .ok document') :
    ∃ value, openStored env keys coordinates document = .ok value := by
  unfold reencryptValue at h
  unfold openStored
  cases hread : Sealed.ofJson document with
  | none =>
    rw [hread] at h
    cases h
  | some sealedValue =>
    rw [hread] at h
    cases hopen : openCredentials env keys coordinates sealedValue with
    | error e =>
      simp only [hopen, bind, Except.bind] at h
      cases h
    | ok value => exact ⟨value, hopen⟩

/-- A rewritten document carries its value, if the value is inside the bound of a ciphertext. -/
theorem documentCarried {document document' : Value}
    {random : Option {nonce : List UInt8 // nonce.length = 12}}
    (hsize : ∀ value, openStored env keys coordinates document = .ok value →
      plainSize value + 16 ≤ 32768)
    (h : reencryptValue env keys coordinates document random = .ok document') :
    DocumentCarried env keys coordinates document document' := by
  obtain ⟨value, hvalue⟩ := openStored_of_reencryptValue h
  have hfits := hsize value hvalue
  unfold reencryptValue at h
  have hopen := hvalue
  unfold openStored at hopen
  cases hread : Sealed.ofJson document with
  | none =>
    rw [hread] at h
    cases h
  | some sealedValue =>
    rw [hread] at h hopen
    simp only at h hopen
    simp only [hopen, bind, Except.bind] at h
    split at h
    case isTrue hactive =>
      obtain rfl : sealedValue.toJson = document' := Except.ok.inj h
      refine ⟨⟨value, hvalue, fun keys' hkey => ?_⟩, ⟨sealedValue, Sealed.ofJson_toJson _, hactive⟩,
        fun _ _ _ => (Sealed.toJson_of_ofJson hread).symm⟩
      have hsame : keys'.find? sealedValue.keyId = keys.find? sealedValue.keyId := by
        rw [hactive, hkey, keys.find?_active]
      rw [openStored_toJson, openCredentials_congr hsame, hopen]
    case isFalse hinactive =>
      have hversion := version_of_openCredentials hopen
      cases random with
      | none =>
        have hnone : sealCredentials env keys coordinates value none = .error .unavailable := by
          unfold sealCredentials
          rw [aad_eq_ok.mpr ⟨hversion, rfl⟩]
          rfl
        rw [hnone] at h
        cases h
      | some nonce =>
        obtain ⟨resealed, hseal⟩ :
            ∃ resealed, sealCredentials env keys coordinates value (some nonce) = .ok resealed :=
          ⟨_, sealCredentials_eq_ok hversion⟩
        have hkeyId : resealed.keyId = keys.active := by
          have hfields := hseal
          rw [sealCredentials_eq_ok hversion, Except.ok.injEq] at hfields
          rw [← hfields]
        rw [hseal] at h
        obtain rfl : resealed.toJson = document' := Except.ok.inj h
        refine ⟨⟨value, hvalue, fun keys' hkey => ?_⟩, ⟨resealed, Sealed.ofJson_toJson _, hkeyId⟩,
          fun other hother hactive => ?_⟩
        · rw [openStored_toJson, openCredentials_sealed hversion hkey hseal, if_neg (by omega)]
        · rw [hread, Option.some.injEq] at hother
          rw [← hother] at hactive
          exact absurd hactive hinactive

/-- A document under the active key that opens is not rewritten. -/
theorem reencryptValue_active {document : Value} {sealedValue : Sealed}
    {random : Option {nonce : List UInt8 // nonce.length = 12}}
    (hread : Sealed.ofJson document = some sealedValue) (hactive : sealedValue.keyId = keys.active)
    (hopen : openStored env keys coordinates document = .ok value) :
    reencryptValue env keys coordinates document random = .ok document := by
  unfold openStored at hopen
  unfold reencryptValue
  rw [hread] at hopen ⊢
  simp only at hopen ⊢
  rw [hopen]
  simp only [bind, Except.bind]
  rw [if_pos hactive, Sealed.toJson_of_ofJson hread]

end Values

section Rows

variable {t t' : Table StoredCredential} {rows : List StoredCredential} {n : ℕ}

/-- One step of the loop rewrites one row. -/
theorem reencryptRows_cons {row : StoredCredential} :
    reencryptRows env keys authority tenant draw n (row :: rows) t = .ok t' ↔
      ∃ document t₁,
        reencryptValue env keys (row.coordinates authority tenant) row.sealedValue (draw n) =
          .ok document ∧
        t.updateWhere (fun stored => decide (stored.provider = row.provider))
          (fun stored => { stored with sealedValue := document }) = some t₁ ∧
        reencryptRows env keys authority tenant draw (n + 1) rows t₁ = .ok t' := by
  rw [reencryptRows]
  cases hvalue : reencryptValue env keys (row.coordinates authority tenant) row.sealedValue (draw n)
    with
  | error e => simp [bind, Except.bind]
  | ok document =>
    simp only [bind, Except.bind, Except.ok.injEq, exists_and_left, exists_eq_left']
    cases hupdate : t.updateWhere (fun stored => decide (stored.provider = row.provider))
        (fun stored => { stored with sealedValue := document }) with
    | none => simp
    | some t₁ => simp

/-- The loop rewrites each of its rows and no other. -/
theorem find?_reencryptRows : ∀ {rows : List StoredCredential} {n : ℕ} {t : Table StoredCredential},
    reencryptRows env keys authority tenant draw n rows t = .ok t' →
      (rows.map StoredCredential.provider).Nodup →
      (∀ row ∈ rows, t.find? row.provider = some row) →
      (∀ row ∈ rows, ∃ document random,
        reencryptValue env keys (row.coordinates authority tenant) row.sealedValue random =
            .ok document ∧
          t'.find? row.provider = some { row with sealedValue := document }) ∧
      ∀ k, (∀ row ∈ rows, row.provider ≠ k) → t'.find? k = t.find? k := by
  intro rows
  induction rows with
  | nil =>
    intro n t h _ _
    obtain rfl : t = t' := Except.ok.inj h
    exact ⟨by simp, fun _ _ => rfl⟩
  | cons row rows ih =>
    intro n t h hnodup hfound
    obtain ⟨document, t₁, hvalue, hupdate, hrest⟩ := reencryptRows_cons.mp h
    rw [List.map_cons, List.nodup_cons] at hnodup
    have hdifferent : ∀ other ∈ rows, other.provider ≠ row.provider := by
      intro other hother heq
      exact hnodup.1 (heq ▸ List.mem_map_of_mem hother)
    have hfirst : ∀ k, t₁.find? k = (t.find? k).map fun stored =>
        if decide (stored.provider = row.provider) then { stored with sealedValue := document }
        else stored :=
      Table.find?_updateWhere hupdate fun _ => rfl
    have hothers : ∀ k, k ≠ row.provider → t₁.find? k = t.find? k := by
      intro k hk
      rw [hfirst]
      cases hfind : t.find? k with
      | none => rfl
      | some stored =>
        have hkey : stored.provider = k := Table.key_of_find? hfind
        rw [Option.map_some, if_neg (by simpa [hkey] using hk)]
    obtain ⟨hrewritten, hkept⟩ := ih hrest hnodup.2 fun other hother => by
      rw [hothers _ (hdifferent other hother)]
      exact hfound other (List.mem_cons_of_mem row hother)
    constructor
    · intro other hother
      rcases List.mem_cons.mp hother with rfl | hother
      · refine ⟨document, draw n, hvalue, ?_⟩
        rw [hkept _ hdifferent, hfirst, hfound _ List.mem_cons_self, Option.map_some,
          if_pos (decide_eq_true rfl)]
      · exact hrewritten other hother
    · intro k hk
      rw [hkept k fun other hother => hk other (List.mem_cons_of_mem row hother),
        hothers k (hk row List.mem_cons_self).symm]

/-- The loop neither adds nor removes rows. -/
theorem length_reencryptRows : ∀ {rows : List StoredCredential} {n : ℕ}
    {t : Table StoredCredential}, reencryptRows env keys authority tenant draw n rows t = .ok t' →
      t'.rows.length = t.rows.length := by
  intro rows
  induction rows with
  | nil =>
    intro n t h
    obtain rfl : t = t' := Except.ok.inj h
    rfl
  | cons row rows ih =>
    intro n t h
    obtain ⟨document, t₁, -, hupdate, hrest⟩ := reencryptRows_cons.mp h
    rw [ih hrest, Table.length_updateWhere hupdate]

/-- The loop changes nothing where no document is rewritten. -/
theorem reencryptRows_same : ∀ {rows : List StoredCredential} {n : ℕ},
    (∀ row ∈ rows, t.find? row.provider = some row ∧ ∀ random,
      reencryptValue env keys (row.coordinates authority tenant) row.sealedValue random =
        .ok row.sealedValue) →
      reencryptRows env keys authority tenant draw n rows t = .ok t := by
  intro rows
  induction rows with
  | nil => exact fun _ => rfl
  | cons row rows ih =>
    intro n h
    obtain ⟨hfound, hvalue⟩ := h row List.mem_cons_self
    refine reencryptRows_cons.mpr ⟨_, t, hvalue _, ?_, ih fun other hother =>
      h other (List.mem_cons_of_mem row hother)⟩
    rw [Table.updateWhere_eq_some]
    have hsame : ∀ stored ∈ t.rows, (if decide (stored.provider = row.provider) = true then
        { stored with sealedValue := row.sealedValue } else stored) = stored := by
      intro stored hstored
      split
      · rename_i hprovider
        obtain rfl : stored = row := by
          have hself := Table.find?_of_mem (Table.mem_rows.mp hstored)
          have hkey : key stored = row.provider := of_decide_eq_true hprovider
          rw [hkey, hfound] at hself
          exact (Option.some.inj hself).symm
        rfl
      · rfl
    rw [List.map_congr_left hsame, List.map_id']

/-- The rows of a table that is small enough are all gone through, each once. -/
theorem orderedCredentials_perm (h : ¬ 100 < (orderedCredentials t).length) :
    (orderedCredentials t).Perm t.rows := by
  unfold orderedCredentials at h ⊢
  have hsorted := List.perm_insertionSort
    (fun row row' : StoredCredential => row.provider.uuid.value ≤ row'.provider.uuid.value) t.rows
  have hlength := hsorted.length_eq
  rw [List.length_take] at h
  rw [List.take_of_length_le (by omega)]
  exact hsorted

theorem nodup_providers (t : Table StoredCredential) :
    (t.rows.map StoredCredential.provider).Nodup :=
  List.pairwise_map.mpr (t.compatible.imp fun h => h.1)

/-- All rows are opened exactly where each one is. -/
theorem openRows_eq_ok : ∀ {rows : List StoredCredential},
    openRows env keys authority tenant rows = .ok () ↔ ∀ row ∈ rows, ∃ value,
      openStored env keys (row.coordinates authority tenant) row.sealedValue = .ok value := by
  intro rows
  induction rows with
  | nil => simp [openRows]
  | cons row rows ih =>
    rw [List.forall_mem_cons, ← ih]
    rw [openRows]
    cases hopen : openStored env keys (row.coordinates authority tenant) row.sealedValue with
    | error e => simp [bind, Except.bind]
    | ok value => simp [bind, Except.bind]

end Rows

section Tenants

variable {t t' : Table StoredCredential} {owner : Bool} {instanceId : Uuid}

/-- The credentials of a table, and what a rotation that succeeded made of each. -/
structure Rotated (env : CredentialEnv TenantId) (keys : CredentialKeys) (authority : Uuid)
    (tenant : TenantId) (t t' : Table StoredCredential) : Prop where
  /-- Under every provider there is what was there, under its version, and its value opens as
  before with the active key alone. -/
  carried : ∀ k row, t.find? k = some row → ∃ row', t'.find? k = some row' ∧
    row'.credentialVersion = row.credentialVersion ∧
    (∃ value, openStored env keys (row.coordinates authority tenant) row.sealedValue = .ok value ∧
      openStored env keys.onlyActive (row'.coordinates authority tenant) row'.sealedValue =
        .ok value) ∧
    ∀ sealedValue, Sealed.ofJson row.sealedValue = some sealedValue →
      sealedValue.keyId = keys.active → row' = row
  /-- Nothing is stored where nothing was. -/
  absent : ∀ k, t.find? k = none → t'.find? k = none
  /-- A second rotation changes nothing. -/
  again : ∀ draw, reencryptTenant env keys true authority authority tenant draw t' = .ok t'
  /-- The check passes with every keyring that has the active key, the old ones or none. -/
  checked : ∀ keys', keys'.find? keys.active = some keys.activeKey →
    checkCredentialKeys env keys' authority tenant t' = .ok ()

/-- A rotation that succeeds is the loop over the rows of a small table. -/
theorem reencryptTenant_eq_ok :
    reencryptTenant env keys owner authority instanceId tenant draw t = .ok t' ↔
      owner = true ∧ authority = instanceId ∧ ¬ 100 < (orderedCredentials t).length ∧
        reencryptRows env keys instanceId tenant draw 0 (orderedCredentials t) t = .ok t' := by
  unfold reencryptTenant
  cases owner with
  | false => simp
  | true =>
    by_cases hauthority : authority = instanceId
    · by_cases hlength : 100 < (orderedCredentials t).length
      · simp [hauthority, hlength]
      · simp [hauthority, hlength]
    · simp [hauthority]

/-- A rotation that succeeds rewrote each row of its table. -/
theorem reencryptTenant_rows
    (h : reencryptTenant env keys owner authority instanceId tenant draw t = .ok t') :
    (∀ row ∈ t, ∃ document random,
      reencryptValue env keys (row.coordinates instanceId tenant) row.sealedValue random =
          .ok document ∧
        t'.find? row.provider = some { row with sealedValue := document }) ∧
      (∀ k, t.find? k = none → t'.find? k = none) ∧ t.rows.length ≤ 100 ∧
        t'.rows.length = t.rows.length := by
  obtain ⟨-, -, hlength, hrows⟩ := reencryptTenant_eq_ok.mp h
  have hperm := orderedCredentials_perm hlength
  have hmem : ∀ row, row ∈ orderedCredentials t ↔ row ∈ t := fun row => hperm.mem_iff
  have hnodup : ((orderedCredentials t).map StoredCredential.provider).Nodup :=
    (hperm.map StoredCredential.provider).nodup_iff.mpr (nodup_providers t)
  obtain ⟨hrewritten, hkept⟩ := find?_reencryptRows hrows hnodup fun row hrow =>
    Table.find?_of_mem ((hmem row).mp hrow)
  refine ⟨fun row hrow => hrewritten row ((hmem row).mpr hrow), fun k hk => ?_, ?_,
    length_reencryptRows hrows⟩
  · rw [hkept k fun row hrow => Table.find?_eq_none.mp hk row ((hmem row).mp hrow), hk]
  · have hsame := hperm.length_eq
    omega

/-- A rotation that succeeds carries every value of the bound of a ciphertext. -/
theorem rotated_of_reencryptTenant
    (hsize : ∀ row ∈ t, ∀ value,
      openStored env keys (row.coordinates instanceId tenant) row.sealedValue = .ok value →
        plainSize value + 16 ≤ 32768)
    (h : reencryptTenant env keys owner authority instanceId tenant draw t = .ok t') :
    Rotated env keys instanceId tenant t t' := by
  obtain ⟨hrewritten, habsent, hsmall, hlength⟩ := reencryptTenant_rows h
  have hcarried : ∀ row ∈ t, ∃ document,
      t'.find? row.provider = some { row with sealedValue := document } ∧
        DocumentCarried env keys (row.coordinates instanceId tenant) row.sealedValue document := by
    intro row hrow
    obtain ⟨document, random, hvalue, hfind⟩ := hrewritten row hrow
    exact ⟨document, hfind, documentCarried (hsize row hrow) hvalue⟩
  have hafter : ∀ row' ∈ t', ∃ document,
      DocumentCarried env keys (row'.coordinates instanceId tenant) document row'.sealedValue := by
    intro row' hrow'
    cases hfind : t.find? row'.provider with
    | none =>
      have hself := Table.find?_of_mem hrow'
      have hnone := habsent _ hfind
      rw [show key row' = row'.provider from rfl, hnone] at hself
      cases hself
    | some row =>
      obtain ⟨hrow, hkey⟩ := Table.find?_eq_some.mp hfind
      obtain ⟨document, hfound, hdocument⟩ := hcarried row hrow
      have hprovider : row.provider = row'.provider := hkey
      have hself := Table.find?_of_mem hrow'
      rw [show key row' = row.provider from hprovider.symm, hfound, Option.some.injEq] at hself
      subst hself
      exact ⟨row.sealedValue, hdocument⟩
  refine ⟨fun k row hfind => ?_, habsent, fun draw' => ?_, fun keys' hkeys => ?_⟩
  · obtain ⟨hrow, hkey⟩ := Table.find?_eq_some.mp hfind
    obtain ⟨document, hfound, hdocument⟩ := hcarried row hrow
    obtain ⟨value, hopen, hopens⟩ := hdocument.opens
    obtain rfl : row.provider = k := hkey
    have hactive := hopens keys.onlyActive keys.find?_onlyActive
    refine ⟨{ row with sealedValue := document }, hfound, rfl, ⟨value, hopen, hactive⟩, ?_⟩
    intro sealedValue hread hsame
    have hkept := hdocument.kept sealedValue hread hsame
    subst hkept
    rfl
  · have hbound : ¬ 100 < (orderedCredentials t').length := by
      unfold orderedCredentials
      rw [List.length_take, List.length_insertionSort]
      omega
    refine reencryptTenant_eq_ok.mpr ⟨rfl, rfl, hbound, reencryptRows_same fun row hrow => ?_⟩
    have hmem := (orderedCredentials_perm hbound).mem_iff.mp hrow
    obtain ⟨document, hdocument⟩ := hafter row hmem
    obtain ⟨value, -, hopens⟩ := hdocument.opens
    obtain ⟨sealedValue, hread, hactive⟩ := hdocument.active
    exact ⟨Table.find?_of_mem hmem, fun random =>
      reencryptValue_active hread hactive (hopens keys keys.find?_active)⟩
  · have htake : t'.rows.take 101 = t'.rows := List.take_of_length_le (by omega)
    unfold checkCredentialKeys
    rw [htake, if_neg (by omega)]
    refine openRows_eq_ok.mpr fun row hrow => ?_
    obtain ⟨document, hdocument⟩ := hafter row (Table.mem_rows.mp hrow)
    obtain ⟨value, -, hopens⟩ := hdocument.opens
    exact ⟨value, hopens keys' hkeys⟩

/-- What a rotation of a tenant's credentials guarantees. -/
structure RotationComplete (env : CredentialEnv TenantId) (keys : CredentialKeys) (owner : Bool)
    (authority instanceId : Uuid) (tenant : TenantId)
    (draw : ℕ → Option {nonce : List UInt8 // nonce.length = 12}) (t : Table StoredCredential) :
    Prop where
  /-- A success is complete, for values that can be opened once they are sealed. -/
  complete : ∀ t', (∀ row ∈ t, ∀ value,
      openStored env keys (row.coordinates instanceId tenant) row.sealedValue = .ok value →
        plainSize value + 16 ≤ 32768) →
    reencryptTenant env keys owner authority instanceId tenant draw t = .ok t' →
      Rotated env keys instanceId tenant t t'
  /-- A row that does not open makes it fail. -/
  unopened : ∀ row ∈ t,
    (∀ value, openStored env keys (row.coordinates instanceId tenant) row.sealedValue ≠ .ok value) →
      ∀ t', reencryptTenant env keys owner authority instanceId tenant draw t ≠ .ok t'
  /-- So does a row whose key is missing, or that does not authenticate under it: it was sealed for
  other coordinates or altered. -/
  unauthentic : ∀ row ∈ t, ∀ sealedValue, Sealed.ofJson row.sealedValue = some sealedValue →
    (∀ key, keys.find? sealedValue.keyId = some key →
      env.aead.decrypt key sealedValue.nonce
        (contextBytes env (row.coordinates instanceId tenant)) sealedValue.ciphertext = none) →
      ∀ t', reencryptTenant env keys owner authority instanceId tenant draw t ≠ .ok t'
  /-- So do more than a hundred rows. -/
  overflow : 100 < t.rows.length →
    ∀ t', reencryptTenant env keys owner authority instanceId tenant draw t ≠ .ok t'

/-- A row that does not open makes a rotation fail. -/
theorem reencryptTenant_unopened {row : StoredCredential} (hrow : row ∈ t)
    (hfails : ∀ value,
      openStored env keys (row.coordinates instanceId tenant) row.sealedValue ≠ .ok value) :
    reencryptTenant env keys owner authority instanceId tenant draw t ≠ .ok t' := by
  intro h
  obtain ⟨document, random, hvalue, -⟩ := (reencryptTenant_rows h).1 row hrow
  obtain ⟨value, hopen⟩ := openStored_of_reencryptValue hvalue
  exact hfails value hopen

/-- A rotation of keys is complete, or it fails. -/
theorem rotation_complete (env : CredentialEnv TenantId) (keys : CredentialKeys) (owner : Bool)
    (authority instanceId : Uuid) (tenant : TenantId)
    (draw : ℕ → Option {nonce : List UInt8 // nonce.length = 12}) (t : Table StoredCredential) :
    RotationComplete env keys owner authority instanceId tenant draw t where
  complete _ hsize h := rotated_of_reencryptTenant hsize h
  unopened _ hrow hfails _ := reencryptTenant_unopened hrow hfails
  unauthentic row hrow sealedValue hread hfails t' := by
    refine reencryptTenant_unopened hrow fun value hopen => ?_
    rw [openStored, hread] at hopen
    exact openCredentials_fails hfails hopen
  overflow hlength t' h := by
    have hsmall := (reencryptTenant_rows h).2.2.1
    omega

end Tenants

end IdentityAuthority
