import IdentityAuthority.Oidc.Assurance

/-!
# Upstream facts are not strengthened

The strength of an authentication is a conjunction of what the deployment approved and of what the
token carries, its methods are those of the token, and the three modes of a request ask for more one
after the other.
-/

namespace IdentityAuthority

section Methods

variable {amr amr' : List String} {a b : Amr} {keycloakTotp : Bool}

/-- A method is read from its wire text, and from no other. -/
theorem Amr.parse_eq_some {s : String} : Amr.parse s = some a ↔ s = a.wire := by
  unfold Amr.parse
  constructor
  · intro h
    split at h
    · cases h
      assumption
    · split at h
      · cases h
        assumption
      · split at h
        · cases h
          assumption
        · cases h
  · rintro rfl
    cases a <;> decide

theorem Amr.rank_injective : Function.Injective Amr.rank := by
  intro a b h
  cases a <;> cases b <;> first | rfl | cases h

instance : IsTrans Amr Amr.le := ⟨fun _ _ _ => Nat.le_trans⟩

instance : Std.Total Amr.le := ⟨fun a b => Nat.le_total a.rank b.rank⟩

instance : Std.Antisymm Amr.le := ⟨fun _ _ h h' => Amr.rank_injective (Nat.le_antisymm h h')⟩

/-- Known methods are those of the token, for an approved client. -/
theorem mem_knownMethods : a ∈ knownMethods amr keycloakTotp ↔
    keycloakTotp = true ∧ a.wire ∈ amr := by
  unfold knownMethods
  rw [List.Pairwise.destutter_eq_dedup (List.pairwise_insertionSort Amr.le _), List.mem_dedup,
    List.mem_insertionSort, List.mem_filterMap]
  simp only [List.mem_filter, Amr.parse_eq_some]
  constructor
  · rintro ⟨s, ⟨hs, happroved⟩, rfl⟩
    exact ⟨happroved, hs⟩
  · rintro ⟨happroved, hs⟩
    exact ⟨a.wire, ⟨hs, happroved⟩, rfl⟩

/-- Known methods ascend strictly. -/
theorem knownMethods_ascending :
    (knownMethods amr keycloakTotp).Pairwise (fun a b => a.rank < b.rank) := by
  unfold knownMethods
  have hsorted := List.pairwise_insertionSort Amr.le
    ((amr.filter fun _ => keycloakTotp).filterMap Amr.parse)
  rw [List.Pairwise.destutter_eq_dedup hsorted]
  have hle := hsorted.sublist (List.dedup_sublist _)
  have hnodup := List.nodup_dedup (List.insertionSort Amr.le
    ((amr.filter fun _ => keycloakTotp).filterMap Amr.parse))
  apply (hle.and hnodup).imp
  rintro a b ⟨hab, hne⟩
  exact Nat.lt_of_le_of_ne hab fun h => hne (Amr.rank_injective h)

/-- Known methods do not depend on the order and the repetitions of the token. -/
theorem knownMethods_congr (h : ∀ s, s ∈ amr ↔ s ∈ amr') :
    knownMethods amr keycloakTotp = knownMethods amr' keycloakTotp := by
  have hirrefl : Std.Irrefl (fun a b : Amr => a.rank < b.rank) := ⟨fun _ => Nat.lt_irrefl _⟩
  apply List.Pairwise.eq_of_mem_iff knownMethods_ascending knownMethods_ascending
  intro a
  rw [mem_knownMethods, mem_knownMethods, h]

end Methods

section Normalized

variable {authTime : Option ℤ} {acr : Option String} {amr : List String} {keycloakTotp : Bool}
  {assurance : Assurance}

/-- An assurance that is made has the facts it is made of. -/
theorem Assurance.new_eq_ok {strength : Acr} {methods : List Amr}
    (h : Assurance.new authTime strength methods = .ok assurance) :
    assurance.authTime = authTime ∧ assurance.acr = strength ∧ assurance.amr = methods := by
  unfold Assurance.new at h
  split at h
  · cases h
    exact ⟨rfl, rfl, rfl⟩
  · cases h

/-- What normalizing makes of the claims of a token. -/
theorem normalize_eq_ok (h : normalize authTime acr amr keycloakTotp = .ok assurance) :
    assurance.authTime = authTime ∧ assurance.amr = knownMethods amr keycloakTotp ∧
      (assurance.acr = .mfa ↔
        keycloakTotp = true ∧ acr = some keycloakTotpAcr ∧ authTime.isSome = true) := by
  unfold normalize at h
  split at h
  · cases h
  · obtain ⟨htime, hacr, hamr⟩ := Assurance.new_eq_ok h
    refine ⟨htime, hamr, ?_⟩
    rw [hacr]
    split
    case isTrue hstrong =>
      simp only [Bool.and_eq_true, decide_eq_true_eq, and_assoc] at hstrong
      exact iff_of_true rfl hstrong
    case isFalse hweak =>
      simp only [Bool.and_eq_true, decide_eq_true_eq, and_assoc] at hweak
      exact iff_of_false (by decide) hweak

end Normalized

section Modes

variable {assurance : Assurance} {started now : ℤ}

/-- A request that asks for more than a login is answered by a time around it; such times are of type
`i64`, so nothing saturates downwards. -/
theorem authTime_of_accepted {mode : AuthenticationMode} (hmode : mode ≠ .login)
    (hfits : isI64 started = true) (h : assurance.accepted mode started now = true) :
    ∃ t, assurance.authTime = some t ∧ started - 30 ≤ t ∧ t ≤ now + 30 := by
  simp only [Assurance.accepted, decide_eq_true_eq] at h
  obtain ⟨hstarted, hnow, hfuture, hpast, -⟩ := h
  obtain ⟨t, ht, hafter⟩ := hpast hmode
  have hbefore := hfuture t ht
  simp only [isI64, decide_eq_true_eq] at hfits
  refine ⟨t, ht, ?_, ?_⟩
  · unfold saturatingSub at hafter
    omega
  · unfold saturatingAdd i64Min at hbefore
    omega

/-- A step-up is answered by a strong authentication only. -/
theorem mfa_of_accepted (h : assurance.accepted .stepUp started now = true) :
    assurance.acr = .mfa := by
  simp only [Assurance.accepted, decide_eq_true_eq] at h
  exact h.2.2.2.2 trivial

/-- What answers a step-up answers a reauthentication. -/
theorem reauthenticates_of_steppedUp (h : assurance.accepted .stepUp started now = true) :
    assurance.accepted .reauthenticate started now = true := by
  simp only [Assurance.accepted, decide_eq_true_eq] at h ⊢
  obtain ⟨hstarted, hnow, hfuture, hpast, -⟩ := h
  refine ⟨hstarted, hnow, hfuture, ?_, ?_⟩
  · intro _
    exact hpast (by decide)
  · intro hmode
    cases hmode

/-- What answers a reauthentication answers a login. -/
theorem logsIn_of_reauthenticated (h : assurance.accepted .reauthenticate started now = true) :
    assurance.accepted .login started now = true := by
  simp only [Assurance.accepted, decide_eq_true_eq] at h ⊢
  obtain ⟨hstarted, hnow, hfuture, -, -⟩ := h
  refine ⟨hstarted, hnow, hfuture, ?_, ?_⟩
  · intro hmode
    exact absurd rfl hmode
  · intro hmode
    cases hmode

end Modes

variable {parsers : Parsers}

/-- The deployment approved exactly this client of this issuer of this tenant. -/
def HttpOidc.Approved (oidc : HttpOidc) (tenant : Uuid) (settings : ProviderSettings parsers) :
    Prop :=
  ∃ p ∈ oidc.profiles, p.tenant = tenant ∧ p.issuer = settings.input.issuer ∧
    p.clientId = settings.input.clientId ∧ p.keycloakTotp = true

theorem trusted_iff {oidc : HttpOidc} {tenant : Uuid} {settings : ProviderSettings parsers} :
    oidc.trusted tenant settings = true ↔ oidc.Approved tenant settings := by
  simp [HttpOidc.trusted, HttpOidc.Approved, and_assoc]

/-- What an assurance has of the claims it was produced from. -/
structure FactsKept (oidc : HttpOidc) (tenant : Uuid) (settings : ProviderSettings parsers)
    (claims : VerifiedClaims) (assurance : Assurance) : Prop where
  /-- The time is the one of the token. -/
  authTime : assurance.authTime = claims.authTime
  /-- It is strong exactly if the deployment approved the client and the token carries the strength
  and a time. -/
  mfa : assurance.acr = .mfa ↔
    oidc.Approved tenant settings ∧ claims.acr = some "2" ∧ ∃ t, claims.authTime = some t ∧ 0 < t
  /-- Its methods are those of the token, for an approved client only. -/
  methods : ∀ a, a ∈ assurance.amr ↔ oidc.Approved tenant settings ∧
    ∃ amr, claims.amr = some amr ∧ a.wire ∈ amr
  /-- Its methods ascend strictly, so none is repeated. -/
  ascending : assurance.amr.Pairwise (fun a b => a.rank < b.rank)
  /-- Its document is read as itself. -/
  stored : Assurance.ofJson assurance.json = some assurance

/-- What holds of all upstream facts and all requests that they answer. -/
structure UpstreamFacts (oidc : HttpOidc) (tenant : Uuid) (settings : ProviderSettings parsers) :
    Prop where
  /-- Every assurance keeps to the claims it was produced from. -/
  kept : ∀ claims assurance, oidc.assurance tenant settings claims = .ok assurance →
    FactsKept oidc tenant settings claims assurance
  /-- Another order or number of the methods of a token makes no other assurance. -/
  canonical : ∀ claims claims' : VerifiedClaims, ∀ assurance assurance',
    claims.authTime = claims'.authTime → claims.acr = claims'.acr →
      (∀ s, s ∈ claims.amr.getD [] ↔ s ∈ claims'.amr.getD []) →
        oidc.assurance tenant settings claims = .ok assurance →
          oidc.assurance tenant settings claims' = .ok assurance' → assurance = assurance'
  /-- A step-up is answered by a strong authentication around the request only. -/
  stepUp : ∀ (assurance : Assurance) c n, isI64 c = true →
    assurance.check .stepUp c n = .ok () →
      assurance.acr = .mfa ∧ ∃ t, assurance.authTime = some t ∧ c - 30 ≤ t ∧ t ≤ n + 30
  /-- A reauthentication is answered by an authentication around the request only. -/
  reauthenticate : ∀ (assurance : Assurance) c n, isI64 c = true →
    assurance.check .reauthenticate c n = .ok () →
      ∃ t, assurance.authTime = some t ∧ c - 30 ≤ t ∧ t ≤ n + 30
  /-- What answers a step-up answers a reauthentication and a login at the same times. -/
  implied : ∀ (assurance : Assurance) c n, assurance.check .stepUp c n = .ok () →
    assurance.check .reauthenticate c n = .ok () ∧ assurance.check .login c n = .ok ()

section Facts

variable {oidc : HttpOidc} {tenant : Uuid} {settings : ProviderSettings parsers}
  {claims : VerifiedClaims} {assurance : Assurance}

/-- Every assurance that is produced keeps to its claims. -/
theorem facts_kept (h : oidc.assurance tenant settings claims = .ok assurance) :
    FactsKept oidc tenant settings claims assurance := by
  obtain ⟨htime, hamr, hacr⟩ := normalize_eq_ok h
  constructor
  case authTime => exact htime
  case mfa =>
    rw [hacr, trusted_iff, keycloakTotpAcr, Option.isSome_iff_exists]
    constructor
    · rintro ⟨happroved, hstrength, t, ht⟩
      have hpos := assurance.authTime_pos t (by rw [htime, ht]; rfl)
      exact ⟨happroved, hstrength, t, ht, hpos⟩
    · rintro ⟨happroved, hstrength, t, ht, -⟩
      exact ⟨happroved, hstrength, t, ht⟩
  case methods =>
    intro a
    rw [hamr, mem_knownMethods, trusted_iff]
    cases claims.amr with
    | none => simp
    | some amr => simp
  case ascending =>
    rw [hamr]
    exact knownMethods_ascending
  case stored =>
    apply Assurance.ofJson_json
    rw [htime]
    exact claims.authTime_fits

/-- No upstream facts are strengthened. -/
theorem upstream_facts (oidc : HttpOidc) (tenant : Uuid) (settings : ProviderSettings parsers) :
    UpstreamFacts oidc tenant settings := by
  constructor
  case kept =>
    intro claims assurance h
    exact facts_kept h
  case canonical =>
    intro claims claims' assurance assurance' htime hacr hamr h h'
    obtain ⟨htime₁, hamr₁, hacr₁⟩ := normalize_eq_ok h
    obtain ⟨htime₂, hamr₂, hacr₂⟩ := normalize_eq_ok h'
    rw [htime, hacr, ← hacr₂] at hacr₁
    rw [knownMethods_congr hamr, ← hamr₂] at hamr₁
    rw [htime, ← htime₂] at htime₁
    have hstrength : assurance.acr = assurance'.acr := by
      cases hleft : assurance.acr with
      | mfa => exact (hacr₁.mp hleft).symm
      | unspecified =>
        cases hright : assurance'.acr with
        | mfa => exact absurd (hacr₁.mpr hright) (by rw [hleft]; decide)
        | unspecified => rfl
    cases assurance
    cases assurance'
    simp only at htime₁ hstrength hamr₁
    subst htime₁ hstrength hamr₁
    rfl
  case stepUp =>
    intro assurance c n hfits h
    rw [Assurance.check_eq_ok] at h
    exact ⟨mfa_of_accepted h, authTime_of_accepted (by decide) hfits h⟩
  case reauthenticate =>
    intro assurance c n hfits h
    rw [Assurance.check_eq_ok] at h
    exact authTime_of_accepted (by decide) hfits h
  case implied =>
    intro assurance c n h
    rw [Assurance.check_eq_ok] at h
    have hagain := reauthenticates_of_steppedUp h
    rw [Assurance.check_eq_ok, Assurance.check_eq_ok]
    exact ⟨hagain, logsIn_of_reauthenticated hagain⟩

example : knownMethods ["otp", "pwd", "otp", "unknown"] true = [.otp, .pwd] := by decide

end Facts

end IdentityAuthority
