import IdentityAuthority.Core.Federation
import IdentityAuthority.Encoding.Bytes
import IdentityAuthority.Json.Unique
import IdentityAuthority.Relational.Table

/-!
# Sealed provider credentials

The client secret and the certificate authority of a provider are sealed under the active
key of a keyring, with the authority, tenant, provider and version as associated data, and
stored as a JSON document. The AEAD, the reader of the plaintext and the texts of
identifiers come from outside.
-/

namespace IdentityAuthority

open Json Encoding Relational

/-- AES-256-GCM as it is used: what is sealed is opened again under the same key, nonce and
associated data, and grows by the tag. -/
structure Aead where
  encrypt : List UInt8 → List UInt8 → List UInt8 → List UInt8 → List UInt8
  decrypt : List UInt8 → List UInt8 → List UInt8 → List UInt8 → Option (List UInt8)
  decrypt_encrypt : ∀ key nonce aad plain,
    decrypt key nonce aad (encrypt key nonce aad plain) = some plain
  length_encrypt : ∀ key nonce aad plain, (encrypt key nonce aad plain).length = plain.length + 16

/-- The texts of identifiers. -/
structure IdTexts (TenantId : Type) where
  uuid : Uuid → String
  tenant : TenantId → String
  uuid_injective : Function.Injective uuid
  tenant_injective : Function.Injective tenant

/-- Why credentials are refused. -/
inductive CredentialError
  | configuration
  | invalidInput
  | unavailable
deriving DecidableEq, Repr

/-- The compact JSON text of a value, in bytes (`serde_json::to_vec`). -/
def jsonBytes (value : Value) : List UInt8 := textBytes (String.ofList (render .compact value))

theorem jsonBytes_injective : Function.Injective jsonBytes := by
  intro value value' h
  exact render_injective (String.ofList_injective (textBytes_injective h))

theorem length_jsonBytes (value : Value) : (jsonBytes value).length = compactSize value := by
  rw [jsonBytes, length_textBytes_ofList]
  rfl

/-- The client secret of a provider and the certificate authority it is reached through. -/
structure ProviderCredentials where
  secret : String
  ca : Option String
  secret_size : 0 < secret.utf8ByteSize ∧ secret.utf8ByteSize ≤ 4096
  secret_plain : Char.ofNat 0 ∉ secret.toList
  ca_size : ∀ pem ∈ ca, 0 < pem.utf8ByteSize ∧ pem.utf8ByteSize ≤ 16384
deriving DecidableEq

/-- `ProviderCredentials::new`. -/
def ProviderCredentials.new (secret : String) (ca : Option String) : Option ProviderCredentials :=
  if h : (0 < secret.utf8ByteSize ∧ secret.utf8ByteSize ≤ 4096) ∧ Char.ofNat 0 ∉ secret.toList ∧
      ∀ pem ∈ ca, 0 < pem.utf8ByteSize ∧ pem.utf8ByteSize ≤ 16384 then
    some ⟨secret, ca, h.1, h.2.1, h.2.2⟩
  else none

@[simp] theorem ProviderCredentials.new_self (value : ProviderCredentials) :
    ProviderCredentials.new value.secret value.ca = some value := by
  rw [ProviderCredentials.new, dif_pos ⟨value.secret_size, value.secret_plain, value.ca_size⟩]

/-- The plaintext that is sealed. -/
def plainJson (secret : String) (ca : Option String) : Value :=
  .object [("secret", .string secret), ("ca", ca.elim .null .string)]

/-- `serde_json::from_slice` of the plaintext: what was written is read. -/
structure PlainReader where
  read : List UInt8 → Option (String × Option String)
  read_plain : ∀ secret ca, read (jsonBytes (plainJson secret ca)) = some (secret, ca)

/-- What credentials are sealed for. -/
structure Coordinates (TenantId : Type) where
  authority : Uuid
  tenant : TenantId
  provider : ProviderId
  version : ℤ

section Sealed

/-- A sealed value. -/
structure Sealed where
  version : ℕ
  keyId : String
  nonce : List UInt8
  ciphertext : List UInt8
  version_u32 : version < 2 ^ 32
  length_nonce : nonce.length = 12
deriving DecidableEq

/-- A byte as it is stored: in decimal. -/
def byteJson (b : UInt8) : Value := .number (.integer b.toNat)

/-- A stored byte. -/
def ofByteJson : Value → Option UInt8
  | .number (.integer n) => if 0 ≤ n ∧ n < 256 then some (.ofNat n.toNat) else none
  | _ => none

/-- The stored form of a sealed value, its names in the order the database keeps them. -/
def Sealed.toJson (sealedValue : Sealed) : Value :=
  .object
    [("nonce", .array (sealedValue.nonce.map byteJson)), ("key_id", .string sealedValue.keyId),
      ("version", .number (.integer sealedValue.version)),
      ("ciphertext", .array (sealedValue.ciphertext.map byteJson))]

/-- A stored sealed value; no other names may stand in it. -/
def Sealed.ofJson : Value → Option Sealed
  | .object [("nonce", .array nonce), ("key_id", .string keyId),
      ("version", .number (.integer version)), ("ciphertext", .array ciphertext)] => do
    let nonce ← nonce.mapM ofByteJson
    let ciphertext ← ciphertext.mapM ofByteJson
    if h : (0 ≤ version ∧ version.toNat < 2 ^ 32) ∧ nonce.length = 12 then
      some ⟨version.toNat, keyId, nonce, ciphertext, h.1.2, h.2⟩
    else none
  | _ => none

@[simp] theorem ofByteJson_byteJson (b : UInt8) : ofByteJson (byteJson b) = some b := by
  have hb := b.toNat_lt
  unfold ofByteJson byteJson
  dsimp only
  rw [if_pos (by omega), Int.toNat_natCast, UInt8.ofNat_toNat]

theorem byteJson_of_ofByteJson {value : Value} {b : UInt8} (h : ofByteJson value = some b) :
    value = byteJson b := by
  match value, h with
  | .number (.integer n), h =>
    simp only [ofByteJson] at h
    split at h
    · rename_i hn
      simp only [Option.some.injEq] at h
      have hsmall : n.toNat < 256 := by omega
      have hb : b.toNat = n.toNat := by
        rw [← h, UInt8.toNat_ofNat']
        omega
      have hcast : ((b.toNat : ℕ) : ℤ) = n := by omega
      rw [byteJson, hcast]
    · cases h

theorem mapM_byteJson (bytes : List UInt8) : (bytes.map byteJson).mapM ofByteJson = some bytes := by
  induction bytes with
  | nil => rfl
  | cons b bytes ih => simp [List.mapM_cons, ih]

theorem map_byteJson_of_mapM : ∀ {values : List Value} {bytes : List UInt8},
    values.mapM ofByteJson = some bytes → values = bytes.map byteJson
  | [], bytes, h => by
    simp only [List.mapM_nil, Option.pure_def, Option.some.injEq] at h
    rw [← h]
    rfl
  | value :: values, bytes, h => by
    simp only [List.mapM_cons, Option.bind_eq_bind, Option.bind_eq_some_iff, Option.pure_def,
      Option.some.injEq] at h
    obtain ⟨b, hb, rest, hrest, rfl⟩ := h
    rw [byteJson_of_ofByteJson hb, map_byteJson_of_mapM hrest]
    rfl

/-- What is stored of a sealed value is read again. -/
@[simp] theorem Sealed.ofJson_toJson (sealedValue : Sealed) :
    ofJson sealedValue.toJson = some sealedValue := by
  have hversion := sealedValue.version_u32
  unfold toJson ofJson
  simp only [mapM_byteJson, Option.bind_eq_bind, Option.bind_some]
  rw [dif_pos ⟨⟨by omega, by simpa using hversion⟩, sealedValue.length_nonce⟩]
  simp

/-- What is read was stored as that. -/
theorem Sealed.toJson_of_ofJson {value : Value} {sealedValue : Sealed}
    (h : ofJson value = some sealedValue) : value = sealedValue.toJson := by
  unfold ofJson at h
  split at h
  · simp only [Option.bind_eq_bind, Option.bind_eq_some_iff] at h
    obtain ⟨nonce, hnonce, ciphertext, hciphertext, h⟩ := h
    split at h
    · rename_i hfits
      simp only [Option.some.injEq] at h
      rw [← h]
      simp only [toJson, Int.toNat_of_nonneg hfits.1.1, map_byteJson_of_mapM hnonce,
        map_byteJson_of_mapM hciphertext]
    · cases h
  · cases h

end Sealed

/-- A name of a key: 1 to 64 letters, digits, hyphens and underscores. -/
def validKeyId (id : String) : Bool :=
  decide (0 < id.utf8ByteSize ∧ id.utf8ByteSize ≤ 64) &&
    id.toList.all fun c => c.isAlphanum || c = '-' || c = '_'

/-- A keyring and the key it seals under. -/
structure CredentialKeys where
  active : String
  keys : List (String × List UInt8)
  count : keys.length ≤ 8
  ids : ∀ entry ∈ keys, validKeyId entry.1 = true
  raws : ∀ entry ∈ keys, entry.2.length = 32 ∧ entry.2 ≠ .replicate 32 0
  ids_nodup : (keys.map Prod.fst).Nodup
  raws_nodup : (keys.map Prod.snd).Nodup
  active_mem : (keys.lookup active).isSome = true

namespace CredentialKeys

/-- `CredentialKeys::new`; keys are told apart by their digests. -/
def new (active : String) (keys : List (String × List UInt8)) :
    Except CredentialError CredentialKeys :=
  if h : keys.length ≤ 8 ∧ (∀ entry ∈ keys, validKeyId entry.1 = true) ∧
      (∀ entry ∈ keys, entry.2.length = 32 ∧ entry.2 ≠ .replicate 32 0) ∧
      (keys.map Prod.fst).Nodup ∧ (keys.map Prod.snd).Nodup ∧
      (keys.lookup active).isSome = true then
    .ok ⟨active, keys, h.1, h.2.1, h.2.2.1, h.2.2.2.1, h.2.2.2.2.1, h.2.2.2.2.2⟩
  else .error .configuration

/-- The key under a name. -/
def find? (keys : CredentialKeys) (id : String) : Option (List UInt8) := keys.keys.lookup id

/-- The key that values are sealed under. -/
def activeKey (keys : CredentialKeys) : List UInt8 := (keys.find? keys.active).get keys.active_mem

theorem find?_active (keys : CredentialKeys) : keys.find? keys.active = some keys.activeKey :=
  (Option.some_get _).symm

theorem mem_of_find? {keys : CredentialKeys} {id : String} {raw : List UInt8}
    (h : keys.find? id = some raw) : (id, raw) ∈ keys.keys := by
  unfold find? at h
  generalize keys.keys = entries at h
  induction entries with
  | nil => cases h
  | cons entry entries ih =>
    rw [List.lookup_cons] at h
    by_cases hid : id = entry.1
    · subst hid
      simp only [beq_self_eq_true, Option.some.injEq] at h
      rw [← h]
      exact List.mem_cons_self
    · have hbeq : (id == entry.1) = false := by simpa using hid
      rw [hbeq] at h
      exact List.mem_cons_of_mem entry (ih h)

/-- The keyring of the active key alone. -/
def onlyActive (keys : CredentialKeys) : CredentialKeys where
  active := keys.active
  keys := [(keys.active, keys.activeKey)]
  count := by simp
  ids := by
    intro entry hentry
    obtain rfl := List.mem_singleton.mp hentry
    exact keys.ids _ (mem_of_find? keys.find?_active)
  raws := by
    intro entry hentry
    obtain rfl := List.mem_singleton.mp hentry
    exact keys.raws _ (mem_of_find? keys.find?_active)
  ids_nodup := by simp
  raws_nodup := by simp
  active_mem := by simp

theorem find?_onlyActive (keys : CredentialKeys) :
    keys.onlyActive.find? keys.active = some keys.activeKey := by
  simp [find?, onlyActive]

end CredentialKeys

variable {TenantId : Type}

/-- The associated data as JSON (`Context`). -/
def contextJson (texts : IdTexts TenantId) (coordinates : Coordinates TenantId) : Value :=
  .object
    [("authority", .string (texts.uuid coordinates.authority)),
      ("tenant", .string (texts.tenant coordinates.tenant)),
      ("provider", .string (texts.uuid coordinates.provider.uuid)),
      ("credential_version", .number (.integer coordinates.version)),
      ("purpose", .string "oidc-client-secret")]

/-- `CredentialKeys::aad`. -/
def aad (texts : IdTexts TenantId) (coordinates : Coordinates TenantId) :
    Except CredentialError (List UInt8) :=
  if coordinates.version < 1 then .error .invalidInput
  else .ok (jsonBytes (contextJson texts coordinates))

/-- The outside world of sealed credentials. -/
structure CredentialEnv (TenantId : Type) where
  aead : Aead
  reader : PlainReader
  texts : IdTexts TenantId

/-- `CredentialKeys::seal`, with the nonce that the random source gives. -/
def sealCredentials (env : CredentialEnv TenantId) (keys : CredentialKeys)
    (coordinates : Coordinates TenantId) (value : ProviderCredentials)
    (random : Option {nonce : List UInt8 // nonce.length = 12}) : Except CredentialError Sealed := do
  let data ← aad env.texts coordinates
  match random with
  | none => .error .unavailable
  | some nonce =>
    .ok
      { version := 1
        keyId := keys.active
        nonce := nonce.val
        ciphertext := env.aead.encrypt keys.activeKey nonce.val data
          (jsonBytes (plainJson value.secret value.ca))
        version_u32 := by decide
        length_nonce := nonce.property }

/-- The credentials of an opened plaintext. -/
def readCredentials (env : CredentialEnv TenantId) (plain : List UInt8) :
    Except CredentialError ProviderCredentials :=
  match env.reader.read plain with
  | none => .error .unavailable
  | some (secret, ca) =>
    match ProviderCredentials.new secret ca with
    | none => .error .unavailable
    | some value => .ok value

/-- `CredentialKeys::open`. -/
def openCredentials (env : CredentialEnv TenantId) (keys : CredentialKeys)
    (coordinates : Coordinates TenantId) (sealedValue : Sealed) :
    Except CredentialError ProviderCredentials :=
  if sealedValue.version ≠ 1 ∨ 32768 < sealedValue.ciphertext.length then .error .unavailable
  else do
    let data ← aad env.texts coordinates
    match keys.find? sealedValue.keyId with
    | none => .error .unavailable
    | some key =>
      match env.aead.decrypt key sealedValue.nonce data sealedValue.ciphertext with
      | none => .error .unavailable
      | some plain => readCredentials env plain

/-- `provider_credentials`. -/
structure StoredCredential where
  provider : ProviderId
  credentialVersion : ℤ
  sealedValue : Value
deriving DecidableEq

/-- The checks of the table on a stored document. -/
def documentFits (value : Value) : Bool :=
  (match value with
    | .object _ => true
    | _ => false) && decide (spacedSize value ≤ 131072)

instance : Keyed StoredCredential ProviderId where
  key := StoredCredential.provider
  Check row := 0 < row.credentialVersion ∧ documentFits row.sealedValue = true
  Collide _ _ := False
  decKey := inferInstance
  decCheck _ := inferInstance
  decCollide _ _ := inferInstance

/-- `INSERT … ON CONFLICT … DO UPDATE` of sealed credentials. -/
def upsertCredential (row : StoredCredential) (t : Table StoredCredential) :
    Option (Table StoredCredential) :=
  match t.find? row.provider with
  | none => t.insert row
  | some _ =>
    t.updateWhere (fun stored => decide (stored.provider = row.provider)) fun stored =>
      { stored with
        credentialVersion := row.credentialVersion
        sealedValue := row.sealedValue }

/-- `write_credentials`. -/
def storeCredentials (env : CredentialEnv TenantId) (keys : CredentialKeys)
    (coordinates : Coordinates TenantId) (value : ProviderCredentials)
    (random : Option {nonce : List UInt8 // nonce.length = 12}) (t : Table StoredCredential) :
    Except CredentialError (Table StoredCredential) := do
  let sealedValue ← sealCredentials env keys coordinates value random
  match upsertCredential ⟨coordinates.provider, coordinates.version, sealedValue.toJson⟩ t with
  | none => .error .unavailable
  | some t' => .ok t'

/-- Opens a stored document under some coordinates. -/
def openStored (env : CredentialEnv TenantId) (keys : CredentialKeys)
    (coordinates : Coordinates TenantId) (document : Value) :
    Except CredentialError ProviderCredentials :=
  match Sealed.ofJson document with
  | none => .error .unavailable
  | some sealedValue => openCredentials env keys coordinates sealedValue

/-- Where the stored credentials of a provider belong. -/
def StoredCredential.coordinates (row : StoredCredential) (authority : Uuid) (tenant : TenantId) :
    Coordinates TenantId :=
  ⟨authority, tenant, row.provider, row.credentialVersion⟩

/-- `CredentialKeys::reencrypt_value`. -/
def reencryptValue (env : CredentialEnv TenantId) (keys : CredentialKeys)
    (coordinates : Coordinates TenantId) (document : Value)
    (random : Option {nonce : List UInt8 // nonce.length = 12}) : Except CredentialError Value :=
  match Sealed.ofJson document with
  | none => .error .unavailable
  | some sealedValue => do
    let plain ← openCredentials env keys coordinates sealedValue
    if sealedValue.keyId = keys.active then .ok sealedValue.toJson
    else do
      let resealed ← sealCredentials env keys coordinates plain random
      .ok resealed.toJson

/-- The rows of a tenant in the order of their providers, as many as the code reads. -/
def orderedCredentials (t : Table StoredCredential) : List StoredCredential :=
  (t.rows.insertionSort fun row row' => row.provider.uuid.value ≤ row'.provider.uuid.value).take 101

/-- The loop of `reencrypt_tenant`; `draw` is the random source, asked once for each row at most. -/
def reencryptRows (env : CredentialEnv TenantId) (keys : CredentialKeys) (authority : Uuid)
    (tenant : TenantId) (draw : ℕ → Option {nonce : List UInt8 // nonce.length = 12}) :
    ℕ → List StoredCredential → Table StoredCredential →
      Except CredentialError (Table StoredCredential)
  | _, [], t => .ok t
  | n, row :: rest, t => do
    let document ← reencryptValue env keys (row.coordinates authority tenant) row.sealedValue (draw n)
    match t.updateWhere (fun stored => decide (stored.provider = row.provider))
        fun stored => { stored with sealedValue := document } with
    | none => .error .unavailable
    | some t' => reencryptRows env keys authority tenant draw (n + 1) rest t'

/-- `CredentialKeys::reencrypt_tenant`, for a caller who owns the schema or not. -/
def reencryptTenant (env : CredentialEnv TenantId) (keys : CredentialKeys) (owner : Bool)
    (authority instanceId : Uuid) (tenant : TenantId)
    (draw : ℕ → Option {nonce : List UInt8 // nonce.length = 12}) (t : Table StoredCredential) :
    Except CredentialError (Table StoredCredential) :=
  if owner = false then .error .configuration
  else if authority ≠ instanceId then .error .configuration
  else if 100 < (orderedCredentials t).length then .error .configuration
  else reencryptRows env keys instanceId tenant draw 0 (orderedCredentials t) t

/-- Opens every one of some rows. -/
def openRows (env : CredentialEnv TenantId) (keys : CredentialKeys) (authority : Uuid)
    (tenant : TenantId) : List StoredCredential → Except CredentialError Unit
  | [] => .ok ()
  | row :: rest => do
    let _ ← openStored env keys (row.coordinates authority tenant) row.sealedValue
    openRows env keys authority tenant rest

/-- `check_credential_keys` for one tenant. -/
def checkCredentialKeys (env : CredentialEnv TenantId) (keys : CredentialKeys) (authority : Uuid)
    (tenant : TenantId) (t : Table StoredCredential) : Except CredentialError Unit :=
  if 100 < (t.rows.take 101).length then .error .unavailable
  else openRows env keys authority tenant (t.rows.take 101)

end IdentityAuthority
