import IdentityAuthority.Json.Records
import IdentityAuthority.Storage.Credentials

/-!
# Sealed credentials in storage

One value has four sizes: as it is accepted, as a JSON plaintext with its escapes, as a
ciphertext, and as a stored document that writes every byte in decimal. The later bounds
do not follow from the first. Inside them a sealed value survives storage, and a rotation
of keys carries every value over.
-/

namespace IdentityAuthority

open Json Encoding Relational

variable {TenantId : Type} {env : CredentialEnv TenantId} {keys keys' : CredentialKeys}
  {coordinates coordinates' : Coordinates TenantId} {value : ProviderCredentials}
  {nonce : {nonce : List UInt8 // nonce.length = 12}}

section Sizes

/-- The size of a plaintext with its escapes. -/
def plainSize (value : ProviderCredentials) : ℕ := compactSize (plainJson value.secret value.ca)

/-- The decimal digits of some bytes. -/
def decimalDigits (bytes : List UInt8) : ℕ :=
  (bytes.map fun b => (Nat.toDigits 10 b.toNat).length).sum

/-- The size of a stored array of bytes. -/
def arraySize (bytes : List UInt8) : ℕ := 2 + decimalDigits bytes + 2 * (bytes.length - 1)

/-- The size of a stored document. -/
def documentSize (keyId : String) (nonce ciphertext : List UInt8) : ℕ :=
  55 + keyId.utf8ByteSize + arraySize nonce + arraySize ciphertext

/-- An array of bytes as it is stored. -/
theorem spacedSize_bytes (bytes : List UInt8) :
    spacedSize (.array (bytes.map byteJson)) = arraySize bytes := by
  have hbyte : spacedSize ∘ byteJson = fun b => (Nat.toDigits 10 b.toNat).length :=
    funext fun b => spacedSize_natural b.toNat
  rw [spacedSize_array, List.map_map, List.length_map, hbyte]
  unfold arraySize decimalDigits
  omega

/-- A name of a key is stored without escapes. -/
theorem utf8Size_quote_keyId {id : String} (h : validKeyId id = true) :
    utf8Size (quote id) = 2 + id.utf8ByteSize := by
  simp only [validKeyId, Bool.and_eq_true, List.all_eq_true, Bool.or_eq_true, decide_eq_true_eq]
    at h
  apply utf8Size_quote_plain
  intro c hc
  have hrange : 45 ≤ c.toNat ∧ c.toNat ≠ 92 := by
    rcases h.2 c hc with (halnum | rfl) | rfl
    · have hrange := toNat_of_isAlphanum halnum
      omega
    · decide
    · decide
  apply escape_plain
  · omega
  · rintro rfl
    exact absurd hrange (by decide)
  · rintro rfl
    exact absurd hrange (by decide)

/-- A document as it is stored. -/
theorem spacedSize_toJson {sealedValue : Sealed} (hversion : sealedValue.version = 1)
    (hid : validKeyId sealedValue.keyId = true) :
    spacedSize sealedValue.toJson =
      documentSize sealedValue.keyId sealedValue.nonce sealedValue.ciphertext := by
  have hnonce := spacedSize_bytes sealedValue.nonce
  have hciphertext := spacedSize_bytes sealedValue.ciphertext
  have hquote := utf8Size_quote_keyId hid
  have hcomma := utf8Size_comma.2
  have hcolon := utf8Size_colon.2
  have hnames : utf8Size (quote "nonce") = 7 ∧ utf8Size (quote "key_id") = 8 ∧
      utf8Size (quote "version") = 9 ∧ utf8Size (quote "ciphertext") = 12 := by decide
  have hone : utf8Size (Style.spaced.number (.integer 1)) = 1 := by decide
  have hbrace : '\x7b'.utf8Size = 1 ∧ '\x7d'.utf8Size = 1 := by decide
  unfold spacedSize at hnonce hciphertext ⊢
  unfold documentSize Sealed.toJson
  simp only [render, renderMembers, utf8Size_cons, utf8Size_append, utf8Size_nil, hversion,
    Nat.cast_one] at hnonce hciphertext ⊢
  omega

end Sizes

section Survival

/-- The associated data of coordinates, in bytes. -/
def contextBytes (env : CredentialEnv TenantId) (coordinates : Coordinates TenantId) : List UInt8 :=
  jsonBytes (contextJson env.texts coordinates)

/-- The plaintext of credentials, in bytes. -/
def plainBytes (value : ProviderCredentials) : List UInt8 :=
  jsonBytes (plainJson value.secret value.ca)

/-- What credentials are sealed to. -/
def ciphertextOf (env : CredentialEnv TenantId) (keys : CredentialKeys)
    (coordinates : Coordinates TenantId) (value : ProviderCredentials) (nonce : List UInt8) :
    List UInt8 :=
  env.aead.encrypt keys.activeKey nonce (contextBytes env coordinates) (plainBytes value)

theorem length_ciphertextOf (nonce : List UInt8) :
    (ciphertextOf env keys coordinates value nonce).length = plainSize value + 16 := by
  rw [ciphertextOf, env.aead.length_encrypt, plainBytes, length_jsonBytes]
  rfl

theorem aad_eq_ok {data : List UInt8} :
    aad env.texts coordinates = .ok data ↔
      1 ≤ coordinates.version ∧ contextBytes env coordinates = data := by
  unfold aad
  split
  · rename_i hversion
    simp only [reduceCtorEq, false_iff]
    omega
  · rename_i hversion
    rw [Except.ok.injEq]
    exact ⟨fun h => ⟨by omega, h⟩, fun h => h.2⟩

/-- Sealing under a version of at least one succeeds with a nonce. -/
theorem sealCredentials_eq_ok (hversion : 1 ≤ coordinates.version) :
    sealCredentials env keys coordinates value (some nonce) = .ok
      ⟨1, keys.active, nonce.val, ciphertextOf env keys coordinates value nonce.val, by decide,
        nonce.property⟩ := by
  unfold sealCredentials
  rw [aad_eq_ok.mpr ⟨hversion, rfl⟩]
  rfl

/-- What was sealed is opened where its key is, inside the bound of a ciphertext. -/
theorem openCredentials_sealed (hversion : 1 ≤ coordinates.version)
    (hkey : keys'.find? keys.active = some keys.activeKey) {sealedValue : Sealed}
    (hseal : sealCredentials env keys coordinates value (some nonce) = .ok sealedValue) :
    openCredentials env keys' coordinates sealedValue =
      if 32768 < plainSize value + 16 then .error .unavailable else .ok value := by
  rw [sealCredentials_eq_ok hversion, Except.ok.injEq] at hseal
  subst hseal
  unfold openCredentials
  simp only [ne_eq, not_true_eq_false, false_or, length_ciphertextOf,
    aad_eq_ok.mpr ⟨hversion, rfl⟩, hkey]
  by_cases hsize : 32768 < plainSize value + 16
  · rw [if_pos hsize, if_pos hsize]
  · rw [if_neg hsize, if_neg hsize]
    simp only [bind, Except.bind, ciphertextOf, env.aead.decrypt_encrypt, readCredentials,
      plainBytes, env.reader.read_plain, ProviderCredentials.new_self]

/-- An upsert succeeds exactly for a row that passes the checks, and stores it. -/
theorem upsertCredential_eq_some {row : StoredCredential} {t : Table StoredCredential} :
    (∃ t', upsertCredential row t = some t') ↔ Keyed.Check row := by
  unfold upsertCredential
  cases hfind : t.find? row.provider with
  | none =>
    have hfree : ∀ s ∈ t, Compatible row s := by
      intro s hs
      exact ⟨fun h => Table.find?_eq_none.mp hfind s hs h.symm, id, id⟩
    rw [← Option.isSome_iff_exists, ← Option.ne_none_iff_isSome, ne_eq, Table.insert_eq_none,
      not_not]
    exact ⟨fun h => h.1, fun h => ⟨h, hfree⟩⟩
  | some stored =>
    obtain ⟨hmem, hkey⟩ := Table.find?_eq_some.mp hfind
    have hnone : t.updateWhere (fun stored => decide (stored.provider = row.provider))
        (fun stored => { stored with
          credentialVersion := row.credentialVersion
          sealedValue := row.sealedValue }) = none ↔ _ :=
      Table.updateWhere_eq_none (fun _ => rfl) (fun _ _ h => h)
    rw [← Option.isSome_iff_exists, ← Option.ne_none_iff_isSome, ne_eq]
    dsimp only
    rw [hnone]
    constructor
    · intro h
      by_contra hcheck
      exact h ⟨stored, hmem, decide_eq_true hkey, hcheck⟩
    · rintro hcheck ⟨_, -, -, hbad⟩
      exact hbad hcheck

theorem find?_upsertCredential {row : StoredCredential} {t t' : Table StoredCredential}
    (h : upsertCredential row t = some t') : t'.find? row.provider = some row := by
  unfold upsertCredential at h
  cases hfind : t.find? row.provider with
  | none =>
    rw [hfind] at h
    exact (Table.find?_insert h _).trans (if_pos rfl)
  | some stored =>
    rw [hfind] at h
    have hkey : stored.provider = row.provider := Table.key_of_find? hfind
    rw [Table.find?_updateWhere h (fun _ => rfl), hfind, Option.map_some, if_pos (decide_eq_true hkey),
      hkey]

/-- Credentials survive their storage: they are stored, open again as they were wherever the key
is, and open for no other authority, tenant, provider or version. -/
def Survives (env : CredentialEnv TenantId) (keys : CredentialKeys)
    (coordinates : Coordinates TenantId) (value : ProviderCredentials)
    (nonce : {nonce : List UInt8 // nonce.length = 12}) (t : Table StoredCredential) : Prop :=
  ∃ t' row, storeCredentials env keys coordinates value (some nonce) t = .ok t' ∧
    t'.find? coordinates.provider = some row ∧ row.credentialVersion = coordinates.version ∧
    (∀ keys', keys'.find? keys.active = some keys.activeKey →
      openStored env keys' coordinates row.sealedValue = .ok value) ∧
    ∀ keys' coordinates' value', coordinates' ≠ coordinates →
      openStored env keys' coordinates' row.sealedValue ≠ .ok value'

/-- The later bounds: of a ciphertext, and of a stored document. -/
structure SealedFits (env : CredentialEnv TenantId) (keys : CredentialKeys)
    (coordinates : Coordinates TenantId) (value : ProviderCredentials) (nonce : List UInt8) :
    Prop where
  ciphertext : plainSize value + 16 ≤ 32768
  document : documentSize keys.active nonce (ciphertextOf env keys coordinates value nonce) ≤ 131072

theorem documentFits_toJson (sealedValue : Sealed) :
    documentFits sealedValue.toJson = true ↔ spacedSize sealedValue.toJson ≤ 131072 := by
  obtain ⟨members, hmembers⟩ : ∃ members, sealedValue.toJson = .object members := ⟨_, rfl⟩
  rw [hmembers]
  simp [documentFits]

/-- The document of sealed credentials passes the checks of the table by its size. -/
theorem documentFits_iff {sealedValue : Sealed} (hversion : 1 ≤ coordinates.version)
    (hseal : sealCredentials env keys coordinates value (some nonce) = .ok sealedValue) :
    documentFits sealedValue.toJson = true ↔
      documentSize keys.active nonce.val (ciphertextOf env keys coordinates value nonce.val) ≤
        131072 := by
  rw [sealCredentials_eq_ok hversion, Except.ok.injEq] at hseal
  subst hseal
  have hid := keys.ids _ (CredentialKeys.mem_of_find? keys.find?_active)
  rw [documentFits_toJson, spacedSize_toJson rfl hid]

/-- Storing sealed credentials is an upsert of their document. -/
theorem storeCredentials_eq_ok {sealedValue : Sealed} {t t' : Table StoredCredential}
    (hseal : sealCredentials env keys coordinates value (some nonce) = .ok sealedValue) :
    storeCredentials env keys coordinates value (some nonce) t = .ok t' ↔
      upsertCredential ⟨coordinates.provider, coordinates.version, sealedValue.toJson⟩ t =
        some t' := by
  unfold storeCredentials
  rw [hseal]
  simp only [bind, Except.bind]
  split <;> simp [*]

/-- A stored document is opened as what was sealed. -/
theorem openStored_toJson (sealedValue : Sealed) :
    openStored env keys' coordinates' sealedValue.toJson =
      openCredentials env keys' coordinates' sealedValue := by
  rw [openStored, Sealed.ofJson_toJson]

/-- What survives its storage is inside the later bounds. -/
theorem Survives.fits {t : Table StoredCredential} (hversion : 1 ≤ coordinates.version)
    (h : Survives env keys coordinates value nonce t) :
    SealedFits env keys coordinates value nonce.val := by
  have hseal := @sealCredentials_eq_ok _ env keys _ value nonce hversion
  obtain ⟨t', row, hstored, hfind, -, hopens, -⟩ := h
  have hupsert := (storeCredentials_eq_ok hseal).mp hstored
  have hcheck := upsertCredential_eq_some.mp ⟨t', hupsert⟩
  rw [find?_upsertCredential hupsert, Option.some.injEq] at hfind
  subst hfind
  have hself := hopens keys keys.find?_active
  rw [openStored_toJson, openCredentials_sealed hversion keys.find?_active hseal] at hself
  refine ⟨?_, (documentFits_iff hversion hseal).mp hcheck.2⟩
  by_contra hsize
  rw [if_pos (by omega)] at hself
  cases hself

end Survival

section Sample

/-- The reader that finds the plaintext whose text it is. -/
noncomputable def PlainReader.exact : PlainReader where
  read bytes :=
    open Classical in
    if h : ∃ p : String × Option String, bytes = jsonBytes (plainJson p.1 p.2) then some h.choose
    else none
  read_plain secret ca := by
    have hexists : ∃ p : String × Option String,
        jsonBytes (plainJson secret ca) = jsonBytes (plainJson p.1 p.2) := ⟨(secret, ca), rfl⟩
    have hchosen := jsonBytes_injective hexists.choose_spec
    have hca : ∀ {a b : Option String}, a.elim Value.null .string = b.elim .null .string → a = b := by
      intro a b h
      cases a <;> cases b <;> simp_all
    simp only [plainJson, Value.object.injEq, List.cons.injEq, Prod.mk.injEq, Value.string.injEq,
      true_and, and_true] at hchosen
    rw [dif_pos hexists, Option.some.injEq]
    exact Prod.ext hchosen.1.symm (hca hchosen.2).symm

end Sample

end IdentityAuthority
