import IdentityAuthority.Core.Federation
import IdentityAuthority.Core.Outcome
import IdentityAuthority.Encoding.Base64Url
import IdentityAuthority.Encoding.Bytes

/-!
# State tokens

A state token is the unpadded base64url text of a version, a purpose, a tenant, a random
identifier and a MAC over them under the signer's origin. A signer accepts the text of
what it would issue for a locator, and no other spelling of it.
-/

namespace IdentityAuthority

open Encoding

/-- HMAC-SHA-256, of which only the length of its tags is known. -/
structure HmacSha256 where
  tag : List UInt8 → List UInt8 → List UInt8
  length_tag : ∀ key message, (tag key message).length = 32

/-- Tenant identifiers, which print as UUIDs and are parsed back from what they print. -/
structure TenantIds (TenantId : Type) where
  /-- `Uuid::parse_str(&tenant.to_string())`. -/
  bytes : TenantId → List UInt8
  /-- `TenantId::parse(&Uuid::from_slice(bytes).to_string())`. -/
  parse : List UInt8 → Option TenantId
  length_bytes : ∀ tenant, (bytes tenant).length = 16
  parse_eq_some : ∀ {list tenant}, parse list = some tenant ↔ list = bytes tenant

/-- The key and origin of a signer. -/
structure StateKey where
  key : List UInt8
  origin : String
  length_key : key.length = 32
  key_ne : key ≠ .replicate 32 0
  origin_le : 0 < origin.utf8ByteSize ∧ origin.utf8ByteSize ≤ 2048

/-- `StateSigner::new`. -/
def StateKey.new (key : List UInt8) (origin : String) : Except FederationError StateKey :=
  if h : key.length = 32 ∧ key ≠ .replicate 32 0 ∧
      0 < origin.utf8ByteSize ∧ origin.utf8ByteSize ≤ 2048 then
    .ok ⟨key, origin, h.1, h.2.1, h.2.2⟩
  else .error .configuration

/-- What a token says (`StateLocator`). -/
structure TokenLocator (TenantId : Type) where
  tenant : TenantId
  id : List UInt8
  purpose : Purpose

/-- What the MAC is taken over. -/
def macInput (origin : String) (payload : List UInt8) : List UInt8 :=
  textBytes "rss-identity.oidc.state.v1\x00" ++ bigEndian origin.utf8ByteSize ++ textBytes origin ++
    payload

variable {TenantId : Type}

/-- The version, purpose, tenant and identifier of a token. -/
def TokenLocator.payload (tenants : TenantIds TenantId) (locator : TokenLocator TenantId) :
    List UInt8 :=
  1 :: .ofNat locator.purpose.code :: (tenants.bytes locator.tenant ++ locator.id)

namespace StateKey

/-- `StateSigner::mac`, finished. -/
def mac (hmac : HmacSha256) (signer : StateKey) (payload : List UInt8) : List UInt8 :=
  hmac.tag signer.key (macInput signer.origin payload)

/-- The token of a locator. -/
def token (hmac : HmacSha256) (tenants : TenantIds TenantId) (signer : StateKey)
    (locator : TokenLocator TenantId) : String :=
  Base64Url.text (locator.payload tenants ++ signer.mac hmac (locator.payload tenants))

/-- `StateSigner::issue`, with what the random source gives. -/
def issue (hmac : HmacSha256) (tenants : TenantIds TenantId) (signer : StateKey) (tenant : TenantId)
    (purpose : Purpose) (random : Option (List UInt8)) : Except FederationError String :=
  match random with
  | none => .error .unavailable
  | some id => .ok (signer.token hmac tenants ⟨tenant, id, purpose⟩)

/-- `StateSigner::verify`. -/
def verify (hmac : HmacSha256) (tenants : TenantIds TenantId) (signer : StateKey) (state : String) :
    Outcome FederationError (TokenLocator TenantId) := do
  Outcome.ensure .rejected (state.utf8ByteSize = 110)
  let bytes ← Outcome.demand .rejected (Base64Url.decode state.toList)
  Outcome.ensure .rejected (bytes.length = 82 ∧ Base64Url.text bytes = state)
  let version ← Outcome.index bytes 0
  Outcome.ensure .rejected (version = 1)
  let signed ← Outcome.slice bytes 0 50
  let tag ← Outcome.slice bytes 50 bytes.length
  Outcome.ensure .rejected (signer.mac hmac signed = tag)
  let code ← Outcome.index bytes 1
  let purpose ← Outcome.demand .rejected (Purpose.fromCode code.toNat)
  let uuid ← Outcome.slice bytes 2 18
  let tenant ← Outcome.demand .rejected (tenants.parse uuid)
  let id ← Outcome.slice bytes 18 50
  pure { tenant, id, purpose }

end StateKey

section MacInput

/-- The input of the MAC determines the origin and the payload: the origin is preceded by its
length. -/
theorem macInput_inj {origin origin' : String} {payload payload' : List UInt8}
    (horigin : origin.utf8ByteSize < 2 ^ 32) (horigin' : origin'.utf8ByteSize < 2 ^ 32)
    (h : macInput origin payload = macInput origin' payload') :
    origin = origin' ∧ payload = payload' := by
  unfold macInput at h
  simp only [List.append_assoc] at h
  have hrest := List.append_cancel_left h
  obtain ⟨hsize, hrest⟩ := List.append_inj hrest rfl
  have hlength := bigEndian_inj horigin horigin' hsize
  obtain ⟨hbytes, hpayload⟩ := List.append_inj hrest (by simpa [length_textBytes] using hlength)
  exact ⟨textBytes_injective hbytes, hpayload⟩

end MacInput

section Verify

variable {hmac : HmacSha256} {tenants : TenantIds TenantId} {signer signer' : StateKey}
  {locator locator' : TokenLocator TenantId} {state : String}

theorem TokenLocator.length_payload (h : locator.id.length = 32) :
    (locator.payload tenants).length = 50 := by
  simp [payload, tenants.length_bytes, h]

theorem StateKey.length_mac (payload : List UInt8) : (signer.mac hmac payload).length = 32 :=
  hmac.length_tag _ _

/-- A list of fifty bytes is cut as the code cuts it. -/
theorem cut_fifty {x y : UInt8} {rest : List UInt8} :
    (x :: y :: rest).take 50 =
      x :: y :: (((x :: y :: rest).take 18).drop 2 ++ ((x :: y :: rest).take 50).drop 18) := by
  have hsplit := List.take_append_drop 16 (rest.take 48)
  rw [List.take_take] at hsplit
  simpa using hsplit.symm

/-- A locator with an identifier of 32 bytes is determined by its bytes. -/
theorem TokenLocator.payload_inj (h : locator.payload tenants = locator'.payload tenants) :
    locator = locator' := by
  unfold payload at h
  simp only [List.cons.injEq, true_and] at h
  obtain ⟨hcode, hrest⟩ := h
  have hlength : (tenants.bytes locator.tenant).length = (tenants.bytes locator'.tenant).length := by
    rw [tenants.length_bytes, tenants.length_bytes]
  obtain ⟨htenant, hid⟩ := List.append_inj hrest hlength
  have hparsed := tenants.parse_eq_some.mpr htenant
  rw [tenants.parse_eq_some.mpr rfl] at hparsed
  have hpurpose : locator.purpose = locator'.purpose := by
    have hnat := congrArg UInt8.toNat hcode
    generalize locator.purpose = p at hnat ⊢
    generalize locator'.purpose = p' at hnat ⊢
    cases p <;> cases p' <;> first | rfl | exact absurd hnat (by decide)
  cases locator
  cases locator'
  simp only [Option.some.injEq] at hparsed
  simp_all

/-- Exactly the token of a locator is accepted, and it is accepted as that locator. -/
theorem StateKey.verify_eq_value :
    signer.verify hmac tenants state = .value locator ↔
      locator.id.length = 32 ∧ state = signer.token hmac tenants locator := by
  unfold verify
  simp only [Outcome.bind_eq_value, Outcome.ensure_eq_value, Outcome.demand_eq_value,
    Outcome.index_eq_value, Outcome.slice_eq_value, Outcome.pure_eq_value, exists_const]
  constructor
  · rintro ⟨-, bytes, -, ⟨hlength, htext⟩, version, hversion, rfl, signed, ⟨-, rfl⟩, tag, ⟨-, rfl⟩,
      hmac', code, hcode, purpose, hpurpose, uuid, ⟨-, rfl⟩, tenant, htenant, id, ⟨-, rfl⟩, rfl⟩
    obtain ⟨rest, rfl⟩ : ∃ rest, bytes = 1 :: code :: rest := by
      cases bytes with
      | nil => cases hversion
      | cons x bytes =>
        cases bytes with
        | nil => cases hcode
        | cons y rest =>
          obtain rfl : x = 1 := by simpa using hversion
          obtain rfl : y = code := by simpa using hcode
          exact ⟨rest, rfl⟩
    have hcode' : UInt8.ofNat purpose.code = code := by
      rw [← Purpose.fromCode_eq_some.mp hpurpose, UInt8.ofNat_toNat]
    have hpayload : TokenLocator.payload tenants
        ⟨tenant, ((1 :: code :: rest).take 50).drop 18, purpose⟩ = (1 :: code :: rest).take 50 := by
      have hcut := @cut_fifty 1 code rest
      rw [tenants.parse_eq_some.mp htenant] at hcut
      refine Eq.trans ?_ hcut.symm
      rw [TokenLocator.payload, hcode']
    constructor
    · simp only [List.length_drop, List.length_take, hlength]
      omega
    · rw [token, hpayload, ← htext]
      rw [List.drop_zero, List.take_length] at hmac'
      rw [hmac', List.take_append_drop]
  · rintro ⟨hid, rfl⟩
    have hfifty := @TokenLocator.length_payload _ tenants _ hid
    have hmac' := @StateKey.length_mac hmac signer (locator.payload tenants)
    have hbytes : (locator.payload tenants ++ signer.mac hmac (locator.payload tenants)).length =
        82 := by
      rw [List.length_append, hfifty, hmac']
    have htake : (locator.payload tenants ++ signer.mac hmac (locator.payload tenants)).take 50 =
        locator.payload tenants := by
      rw [← hfifty, List.take_left]
    have htenant := tenants.length_bytes locator.tenant
    refine ⟨?_, _, ?_, ⟨hbytes, rfl⟩, 1, rfl, rfl, _, ⟨by omega, rfl⟩, _, ⟨by omega, rfl⟩, ?_, _, rfl,
      locator.purpose, ?_, _, ⟨by omega, rfl⟩, locator.tenant, ?_, locator.id, ⟨by omega, ?_⟩, rfl⟩
    · rw [token, Base64Url.utf8ByteSize_text, hbytes]
    · rw [token, Base64Url.toList_text, Base64Url.decode_encode]
    · rw [htake, List.drop_zero, List.take_length, ← hfifty, List.drop_left]
    · cases locator.purpose <;> decide
    · refine tenants.parse_eq_some.mpr ?_
      simp [TokenLocator.payload, htenant]
    · rw [htake]
      simp [TokenLocator.payload, htenant]

/-- Verification never panics: every index and slice lies inside the 82 bytes. -/
theorem StateKey.verify_ne_panicked : signer.verify hmac tenants state ≠ .panicked := by
  unfold verify
  refine Outcome.bind_ne_panicked Outcome.ensure_ne_panicked fun _ _ => ?_
  refine Outcome.bind_ne_panicked Outcome.demand_ne_panicked fun bytes _ => ?_
  refine Outcome.bind_ne_panicked Outcome.ensure_ne_panicked fun _ hbytes => ?_
  obtain ⟨hlength, -⟩ := Outcome.ensure_eq_value.mp hbytes
  refine Outcome.bind_ne_panicked (Outcome.index_ne_panicked (by omega)) fun _ _ => ?_
  refine Outcome.bind_ne_panicked Outcome.ensure_ne_panicked fun _ _ => ?_
  refine Outcome.bind_ne_panicked (Outcome.slice_ne_panicked (by omega)) fun _ _ => ?_
  refine Outcome.bind_ne_panicked (Outcome.slice_ne_panicked (by omega)) fun _ _ => ?_
  refine Outcome.bind_ne_panicked Outcome.ensure_ne_panicked fun _ _ => ?_
  refine Outcome.bind_ne_panicked (Outcome.index_ne_panicked (by omega)) fun _ _ => ?_
  refine Outcome.bind_ne_panicked Outcome.demand_ne_panicked fun _ _ => ?_
  refine Outcome.bind_ne_panicked (Outcome.slice_ne_panicked (by omega)) fun _ _ => ?_
  refine Outcome.bind_ne_panicked Outcome.demand_ne_panicked fun _ _ => ?_
  refine Outcome.bind_ne_panicked (Outcome.slice_ne_panicked (by omega)) fun _ _ => ?_
  exact Outcome.pure_ne_panicked

end Verify

/-- The MAC that ends a token. -/
def tokenTag (state : String) : Option (List UInt8) :=
  (Base64Url.decode state.toList).map (List.drop 50)

section Tags

variable {hmac : HmacSha256} {tenants : TenantIds TenantId} {signer signer' : StateKey}
  {locator locator' : TokenLocator TenantId} {state state' : String}

theorem StateKey.tokenTag_token (h : locator.id.length = 32) :
    tokenTag (signer.token hmac tenants locator) =
      some (signer.mac hmac (locator.payload tenants)) := by
  have hfifty := @TokenLocator.length_payload _ tenants _ h
  rw [tokenTag, token, Base64Url.toList_text, Base64Url.decode_encode, Option.map_some, ← hfifty,
    List.drop_left]

/-- Accepting one tag for two origins or locators takes two messages with one MAC. -/
theorem StateKey.collision (hkey : signer.key = signer'.key)
    (h : signer.verify hmac tenants state = .value locator)
    (h' : signer'.verify hmac tenants state' = .value locator')
    (htag : tokenTag state = tokenTag state')
    (hne : signer.origin ≠ signer'.origin ∨ locator ≠ locator') :
    ∃ x y, x ≠ y ∧ hmac.tag signer.key x = hmac.tag signer.key y := by
  obtain ⟨hid, rfl⟩ := verify_eq_value.mp h
  obtain ⟨hid', rfl⟩ := verify_eq_value.mp h'
  rw [tokenTag_token hid, tokenTag_token hid', Option.some.injEq] at htag
  refine ⟨macInput signer.origin (locator.payload tenants),
    macInput signer'.origin (locator'.payload tenants), fun hinput => ?_, ?_⟩
  · have hsize := signer.origin_le.2
    have hsize' := signer'.origin_le.2
    obtain ⟨horigin, hpayload⟩ := macInput_inj (by omega) (by omega) hinput
    rcases hne with hne | hne
    · exact hne horigin
    · exact hne (TokenLocator.payload_inj hpayload)
  · unfold mac at htag
    rw [htag, hkey]

end Tags

/-- What state tokens are to those who issue and verify them. -/
structure StateTokens (hmac : HmacSha256) (tenants : TenantIds TenantId) : Prop where
  /-- What is issued verifies as what it was issued for. -/
  issued : ∀ (signer : StateKey) tenant purpose id, id.length = 32 →
    ∃ state, signer.issue hmac tenants tenant purpose (some id) = .ok state ∧
      signer.verify hmac tenants state = .value ⟨tenant, id, purpose⟩
  /-- What is accepted is the one text of its locator. -/
  canonical : ∀ (signer : StateKey) state locator,
    signer.verify hmac tenants state = .value locator →
      locator.id.length = 32 ∧ state.toList.length = 110 ∧
        state = Base64Url.text (1 :: .ofNat locator.purpose.code ::
          (tenants.bytes locator.tenant ++ locator.id) ++ hmac.tag signer.key
            (macInput signer.origin (1 :: .ofNat locator.purpose.code ::
              (tenants.bytes locator.tenant ++ locator.id))))
  /-- No other spelling of it is accepted. -/
  unique : ∀ (signer : StateKey) state state' locator,
    signer.verify hmac tenants state = .value locator →
      signer.verify hmac tenants state' = .value locator → state = state'
  /-- The MAC covers the origin and the payload. -/
  input : ∀ (signer signer' : StateKey) payload payload',
    macInput signer.origin payload = macInput signer'.origin payload' →
      signer.origin = signer'.origin ∧ payload = payload'
  /-- A tag accepted under another origin, purpose, tenant or identifier is a collision. -/
  collision : ∀ (signer signer' : StateKey) state state' locator locator',
    signer.key = signer'.key → signer.verify hmac tenants state = .value locator →
      signer'.verify hmac tenants state' = .value locator' → tokenTag state = tokenTag state' →
        signer.origin ≠ signer'.origin ∨ locator ≠ locator' →
          ∃ x y, x ≠ y ∧ hmac.tag signer.key x = hmac.tag signer.key y
  panics : ∀ (signer : StateKey) state, signer.verify hmac tenants state ≠ .panicked

/-- State tokens are canonical and unambiguous. -/
theorem stateTokens (hmac : HmacSha256) (tenants : TenantIds TenantId) :
    StateTokens hmac tenants where
  issued signer tenant purpose id hid :=
    ⟨_, rfl, StateKey.verify_eq_value.mpr ⟨hid, rfl⟩⟩
  canonical signer state locator h := by
    obtain ⟨hid, rfl⟩ := StateKey.verify_eq_value.mp h
    have hfifty := @TokenLocator.length_payload _ tenants _ hid
    refine ⟨hid, ?_, rfl⟩
    rw [StateKey.token, Base64Url.toList_text, Base64Url.length_encode, List.length_append, hfifty,
      StateKey.length_mac]
  unique signer state state' locator h h' := by
    rw [(StateKey.verify_eq_value.mp h).2, (StateKey.verify_eq_value.mp h').2]
  input signer signer' payload payload' h := by
    have hsize := signer.origin_le.2
    have hsize' := signer'.origin_le.2
    exact macInput_inj (by omega) (by omega) h
  collision _ _ _ _ _ _ hkey h h' htag hne := StateKey.collision hkey h h' htag hne
  panics _ _ := StateKey.verify_ne_panicked

/-- Tenants that are sixteen bytes, and a MAC that is always the same. -/
theorem stateTokens_constant :
    @StateTokens {bytes : List UInt8 // bytes.length = 16}
      ⟨fun _ _ => .replicate 32 0, fun _ _ => rfl⟩
      ⟨Subtype.val, fun list => if h : list.length = 16 then some ⟨list, h⟩ else none,
        Subtype.property, by
          intro list tenant
          constructor
          · intro h
            split at h
            · cases h
              rfl
            · cases h
          · rintro rfl
            rw [dif_pos tenant.property]⟩ :=
  stateTokens _ _

end IdentityAuthority
