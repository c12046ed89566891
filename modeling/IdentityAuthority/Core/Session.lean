import IdentityAuthority.Core.Values

/-!
# Session policy and lifetime

A lifetime always lies inside the policy it was issued under: renewal moves only the idle
expiry, and never past the absolute one.
-/

namespace IdentityAuthority

/-- How a session is presented. -/
inductive CredentialKind
  | cookie
  | bearer
deriving DecidableEq, Repr

/-- How a session was authenticated. -/
inductive AuthenticationSource
  | localPassword
  | oidc
  | platform
deriving DecidableEq, Repr

/-- Host-selected, positive and ordered session limits in seconds. -/
structure SessionPolicy where
  idle : ℤ
  absolute : ℤ
  idle_pos : 0 < idle
  idle_le : idle ≤ absolute
deriving DecidableEq

/-- The policy with these limits, if they are positive and ordered. -/
def SessionPolicy.new (idle absolute : ℤ) : Option SessionPolicy :=
  if h : 0 < idle ∧ idle ≤ absolute then some ⟨idle, absolute, h.1, h.2⟩ else none

/-- Validated times from the authoritative clock. -/
structure SessionLifetime where
  policy : SessionPolicy
  issuedAt : ℤ
  idleExpiresAt : ℤ
  absoluteExpiresAt : ℤ
  issuedAt_pos : 0 < issuedAt
  issuedAt_lt : issuedAt < idleExpiresAt
  idle_le_absolute : idleExpiresAt ≤ absoluteExpiresAt
  duration : absoluteExpiresAt - issuedAt = policy.absolute
deriving DecidableEq

namespace SessionLifetime

/-- The lifetime of stored times, if they lie inside the policy. -/
def restore (issuedAt idleExpiresAt absoluteExpiresAt : ℤ) (policy : SessionPolicy) :
    Option SessionLifetime :=
  if h : 0 < issuedAt ∧ issuedAt < idleExpiresAt ∧ idleExpiresAt ≤ absoluteExpiresAt ∧
      isI64 (absoluteExpiresAt - issuedAt) = true ∧
      absoluteExpiresAt - issuedAt = policy.absolute then
    some ⟨policy, issuedAt, idleExpiresAt, absoluteExpiresAt, h.1, h.2.1, h.2.2.1, h.2.2.2.2⟩
  else none

/-- The lifetime of a session issued now. -/
def new (now : ℤ) (policy : SessionPolicy) : Option SessionLifetime := do
  let idle ← checkedAdd now policy.idle
  let absolute ← checkedAdd now policy.absolute
  restore now idle absolute policy

/-- The session is inside its lifetime at a time. -/
def validAt (lifetime : SessionLifetime) (now : ℤ) : Bool :=
  decide (lifetime.issuedAt ≤ now ∧ now < lifetime.idleExpiresAt ∧
    now < lifetime.absoluteExpiresAt)

/-- The lifetime with its idle expiry renewed inside the absolute deadline. -/
def renew (lifetime : SessionLifetime) (now : ℤ) : Option SessionLifetime :=
  if lifetime.validAt now && isI64 (now + lifetime.policy.idle) then
    some { lifetime with
      idleExpiresAt := max lifetime.idleExpiresAt
        (min (now + lifetime.policy.idle) lifetime.absoluteExpiresAt)
      issuedAt_lt := lt_of_lt_of_le lifetime.issuedAt_lt (le_max_left _ _)
      idle_le_absolute := max_le lifetime.idle_le_absolute (min_le_right _ _) }
  else none

variable {lifetime next : SessionLifetime} {now : ℤ}

theorem restore_eq_some {issuedAt idle absolute : ℤ} {policy : SessionPolicy} :
    restore issuedAt idle absolute policy = some lifetime ↔
      isI64 (absolute - issuedAt) = true ∧ lifetime.policy = policy ∧
        lifetime.issuedAt = issuedAt ∧ lifetime.idleExpiresAt = idle ∧
        lifetime.absoluteExpiresAt = absolute := by
  unfold restore
  constructor
  · intro h
    split at h
    · rename_i hc
      cases h
      exact ⟨hc.2.2.2.1, rfl, rfl, rfl, rfl⟩
    · cases h
  · rintro ⟨hi64, rfl, rfl, rfl, rfl⟩
    rw [dif_pos ⟨lifetime.issuedAt_pos, lifetime.issuedAt_lt, lifetime.idle_le_absolute, hi64,
      lifetime.duration⟩]

theorem new_eq_some {policy : SessionPolicy} (h : new now policy = some lifetime) :
    lifetime.policy = policy ∧ lifetime.issuedAt = now ∧
      lifetime.idleExpiresAt = now + policy.idle ∧
      lifetime.absoluteExpiresAt = now + policy.absolute := by
  unfold new at h
  simp only [Option.bind_eq_bind, Option.bind_eq_some_iff, checkedAdd_eq_some] at h
  obtain ⟨_, ⟨-, rfl⟩, _, ⟨-, rfl⟩, h⟩ := h
  obtain ⟨-, hpolicy, hissued, hidle, habsolute⟩ := restore_eq_some.mp h
  exact ⟨hpolicy, hissued, hidle, habsolute⟩

/-- Renewal needs a live session and moves only the idle expiry, forward. -/
theorem renew_eq_some (h : lifetime.renew now = some next) :
    lifetime.validAt now = true ∧ next.policy = lifetime.policy ∧
      next.issuedAt = lifetime.issuedAt ∧ next.absoluteExpiresAt = lifetime.absoluteExpiresAt ∧
      lifetime.idleExpiresAt ≤ next.idleExpiresAt := by
  unfold renew at h
  split at h
  · rename_i hvalid
    cases h
    simp only [Bool.and_eq_true] at hvalid
    exact ⟨hvalid.1, rfl, rfl, rfl, le_max_left _ _⟩
  · cases h

end SessionLifetime

end IdentityAuthority
