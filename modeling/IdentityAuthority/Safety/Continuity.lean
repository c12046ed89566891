import IdentityAuthority.System

/-!
# What time keeps

Accounts, memberships, providers, identities and sessions are never removed. Their epochs and
versions only move forward, an identity stays as it was bound, and a session keeps all that it
was issued with. Every statement keeps this relation between earlier and later worlds, so every
run does.
-/

namespace IdentityAuthority

open Relational Transition

/-- An account later: as it was, or at a later epoch. -/
def AccountRow.Later (row next : AccountRow) : Prop := next = row ∨ row.authEpoch < next.authEpoch

/-- A membership later: its epoch moved where its flag did. -/
structure MembershipRow.Later (row next : MembershipRow) : Prop where
  epoch : row.epoch ≤ next.epoch
  flips : next.active ≠ row.active → row.epoch < next.epoch

/-- A provider later: as it was, or at a later version, and at a later revocation epoch where
anything else changed. -/
structure ProviderRow.Later (row next : ProviderRow) : Prop where
  moved : next = row ∨ row.configVersion < next.configVersion
  revocationEpoch : row.revocationEpoch ≤ next.revocationEpoch
  burns : next.settings ≠ row.settings ∨ next.assuranceProfile ≠ row.assuranceProfile ∨
    next.enabled ≠ row.enabled → row.revocationEpoch < next.revocationEpoch
  credentialVersion : row.credentialVersion ≤ next.credentialVersion
  issuer : next.settings.issuer = row.settings.issuer

/-- A session later than a time: what it was issued with is fixed, a revocation stays, and the
idle expiry moves forward from a time at which it was not over. -/
structure SessionRow.Continues (now : ℤ) (row next : SessionRow) : Prop where
  fixed : next = { row with
    idleExpiresAt := next.idleExpiresAt
    tokenHash := next.tokenHash
    revokedAt := next.revokedAt
    profileSource := next.profileSource
    profileSnapshot := next.profileSnapshot }
  revoked : row.revokedAt.isSome = true → next.revokedAt.isSome = true
  idle : row.idleExpiresAt ≤ next.idleExpiresAt
  live : next.idleExpiresAt ≠ row.idleExpiresAt → now < row.idleExpiresAt

/-- A world and a later one. -/
structure Follows (w w' : Tenant) : Prop where
  advances : w.Advances w'
  revision : w.state.tenantGuard.personnelRevision ≤ w'.state.tenantGuard.personnelRevision
  accounts : w.state.accounts.Evolves AccountRow.Later w'.state.accounts
  memberships : w.state.memberships.Evolves MembershipRow.Later w'.state.memberships
  providers : w.state.providers.Evolves ProviderRow.Later w'.state.providers
  externalIdentities :
    w.state.externalIdentities.Evolves (fun row next => next = row) w'.state.externalIdentities
  sessions : w.state.sessions.Evolves (SessionRow.Continues (seconds w.clock)) w'.state.sessions

section Preorders

theorem AccountRow.Later.refl (row : AccountRow) : row.Later row := .inl rfl

theorem AccountRow.Later.trans {a b c : AccountRow} (h : a.Later b) (h' : b.Later c) :
    a.Later c := by
  rcases h with rfl | h
  · exact h'
  · rcases h' with rfl | h'
    · exact .inr h
    · exact .inr (h.trans h')

theorem MembershipRow.Later.refl (row : MembershipRow) : row.Later row :=
  ⟨le_rfl, fun h => absurd rfl h⟩

theorem MembershipRow.Later.trans {a b c : MembershipRow} (h : a.Later b) (h' : b.Later c) :
    a.Later c := by
  refine ⟨h.epoch.trans h'.epoch, fun hflip => ?_⟩
  by_cases heq : b.active = a.active
  · exact lt_of_le_of_lt h.epoch (h'.flips (by rw [heq]; exact hflip))
  · exact lt_of_lt_of_le (h.flips heq) h'.epoch

theorem ProviderRow.Later.refl (row : ProviderRow) : row.Later row :=
  ⟨.inl rfl, le_rfl, fun h => by simp at h, le_rfl, rfl⟩

theorem ProviderRow.Later.configVersion {a b : ProviderRow} (h : a.Later b) :
    a.configVersion ≤ b.configVersion := by
  rcases h.moved with rfl | h
  · exact le_rfl
  · exact h.le

theorem ProviderRow.Later.trans {a b c : ProviderRow} (h : a.Later b) (h' : b.Later c) :
    a.Later c := by
  refine ⟨?_, h.revocationEpoch.trans h'.revocationEpoch, fun hchange => ?_,
    h.credentialVersion.trans h'.credentialVersion, h'.issuer.trans h.issuer⟩
  · rcases h'.moved with rfl | hmoved
    · exact h.moved
    · exact .inr (lt_of_le_of_lt h.configVersion hmoved)
  · by_cases hkept : b.settings = a.settings ∧ b.assuranceProfile = a.assuranceProfile ∧
        b.enabled = a.enabled
    · obtain ⟨hsettings, hprofile, henabled⟩ := hkept
      refine lt_of_le_of_lt h.revocationEpoch (h'.burns ?_)
      rw [hsettings, hprofile, henabled]
      exact hchange
    · refine lt_of_lt_of_le (h.burns ?_) h'.revocationEpoch
      by_contra hno
      simp only [ne_eq, not_or, not_not] at hno
      exact hkept hno

/-- A session keeps the epochs it was issued at. -/
theorem SessionRow.Continues.epochs {now : ℤ} {row next : SessionRow} (h : row.Continues now next) :
    next.principal = row.principal ∧ next.authEpoch = row.authEpoch ∧
      next.membershipEpoch = row.membershipEpoch := by
  rw [h.fixed]
  exact ⟨rfl, rfl, rfl⟩

/-- A session keeps the origin it was issued from. -/
theorem SessionRow.Continues.hasOrigin {now : ℤ} {row next : SessionRow} {o : Option Origin}
    (h : row.Continues now next) : next.HasOrigin o ↔ row.HasOrigin o := by
  have hidentity : next.externalIdentity = row.externalIdentity := by rw [h.fixed]
  have hepoch : next.providerEpoch = row.providerEpoch := by rw [h.fixed]
  have hfacts : next.authFacts = row.authFacts := by rw [h.fixed]
  have hsequence : next.factsSequence = row.factsSequence := by rw [h.fixed]
  exact ⟨fun hhas => hhas.congr hidentity.symm hepoch.symm hfacts.symm hsequence.symm,
    fun hhas => hhas.congr hidentity hepoch hfacts hsequence⟩

/-- Between two accounts of one epoch there is no other. -/
theorem AccountRow.Later.between {a b c : AccountRow} (h : a.Later b) (h' : b.Later c)
    (hepoch : c.authEpoch = a.authEpoch) : b = a := by
  rcases h with rfl | h
  · rfl
  · rcases h' with rfl | h'
    · omega
    · omega

/-- Between two memberships of one epoch the flag stayed. -/
theorem MembershipRow.Later.between {a b c : MembershipRow} (h : a.Later b) (h' : b.Later c)
    (hepoch : c.epoch = a.epoch) : b.active = a.active ∧ b.epoch = a.epoch := by
  have hle := h.epoch
  have hle' := h'.epoch
  refine ⟨?_, by omega⟩
  by_contra hflip
  have hlt := h.flips hflip
  omega

/-- Between two providers of one version there is no other. -/
theorem ProviderRow.Later.between {a b c : ProviderRow} (h : a.Later b) (h' : b.Later c)
    (hversion : c.configVersion = a.configVersion) : b = a := by
  have hle := h'.configVersion
  rcases h.moved with rfl | hmoved
  · rfl
  · omega

theorem SessionRow.Continues.refl (now : ℤ) (row : SessionRow) : row.Continues now row :=
  ⟨rfl, id, le_rfl, fun h => absurd rfl h⟩

theorem SessionRow.Continues.trans {now now' : ℤ} {a b c : SessionRow} (h : a.Continues now b)
    (h' : b.Continues now' c) (hnow : now ≤ now') : a.Continues now c := by
  refine ⟨?_, h'.revoked ∘ h.revoked, h.idle.trans h'.idle, fun hmoved => ?_⟩
  · rw [h'.fixed, h.fixed]
  · by_cases heq : b.idleExpiresAt = a.idleExpiresAt
    · have hlive := h'.live (by rw [heq]; exact hmoved)
      omega
    · exact h.live heq

theorem Follows.refl (w : Tenant) : Follows w w :=
  ⟨.refl w, le_rfl, .refl AccountRow.Later.refl, .refl MembershipRow.Later.refl,
    .refl ProviderRow.Later.refl, .refl fun _ => rfl, .refl (SessionRow.Continues.refl _)⟩

theorem Follows.trans {w₁ w₂ w₃ : Tenant} (h : Follows w₁ w₂) (h' : Follows w₂ w₃) :
    Follows w₁ w₃ where
  advances := h.advances.trans h'.advances
  revision := h.revision.trans h'.revision
  accounts := h.accounts.trans (fun _ _ _ hab hbc => hab.trans hbc) h'.accounts
  memberships := h.memberships.trans (fun _ _ _ hab hbc => hab.trans hbc) h'.memberships
  providers := h.providers.trans (fun _ _ _ hab hbc => hab.trans hbc) h'.providers
  externalIdentities :=
    h.externalIdentities.trans (fun _ _ _ hab hbc => hbc.trans hab) h'.externalIdentities
  sessions := h.sessions.trans
    (fun _ _ _ hab hbc => hab.trans hbc (seconds_mono h.advances.clock)) h'.sessions

end Preorders

variable {env : Env} {start w w' : Tenant} {a : Area} {db : Db}

/-- A world with the same directory, at the same time or later, follows. -/
theorem Follows.of_directory (hadvances : w.Advances w')
    (h : w'.state.directory = w.state.directory) : Follows w w' := by
  have hrevision : w'.state.tenantGuard.personnelRevision =
    w.state.tenantGuard.personnelRevision := congrArg Directory.revision h
  have haccounts : w'.state.accounts = w.state.accounts := congrArg Directory.accounts h
  have hmemberships : w'.state.memberships = w.state.memberships :=
    congrArg Directory.memberships h
  have hproviders : w'.state.providers = w.state.providers := congrArg Directory.providers h
  have hidentities : w'.state.externalIdentities = w.state.externalIdentities :=
    congrArg Directory.externalIdentities h
  have hsessions : w'.state.sessions = w.state.sessions := congrArg Directory.sessions h
  refine ⟨hadvances, hrevision.ge, ?_, ?_, ?_, ?_, ?_⟩
  · rw [haccounts]
    exact .refl AccountRow.Later.refl
  · rw [hmemberships]
    exact .refl MembershipRow.Later.refl
  · rw [hproviders]
    exact .refl ProviderRow.Later.refl
  · rw [hidentities]
    exact .refl fun _ => rfl
  · rw [hsessions]
    exact .refl (SessionRow.Continues.refl _)

theorem AccountRow.Burns.later {row next : AccountRow} (h : row.Burns next) : row.Later next :=
  .inr h.authEpoch

theorem MembershipRow.Moves.later {row next : MembershipRow} (h : row.Moves next) :
    row.Later next := ⟨h.epoch, h.flips⟩

theorem ProviderRow.Moves.later {row next : ProviderRow} (h : row.Moves next) : row.Later next :=
  ⟨.inr (by rw [h.configVersion]; omega), h.revocationEpoch, h.burns, h.credentialVersion, h.issuer⟩

theorem SessionRow.Closes.continues {now : ℤ} {row next : SessionRow} (h : row.Closes next) :
    row.Continues now next := by
  obtain ⟨t, rfl⟩ := h
  exact ⟨rfl, fun _ => rfl, le_rfl, fun h => absurd rfl h⟩

theorem SessionRow.Renews.continues {row next : SessionRow} (h : row.Renews env start w next) :
    row.Continues (seconds w.clock) next := by
  have hrevoked : next.revokedAt = row.revokedAt := by rw [h.tracked]
  refine ⟨?_, by rw [hrevoked]; exact id, h.idle, fun hmoved => (h.live hmoved).2.1⟩
  rw [hrevoked]
  have hsource : next.profileSource = row.profileSource := by rw [h.tracked]
  have hsnapshot : next.profileSnapshot = row.profileSnapshot := by rw [h.tracked]
  rw [hsource, hsnapshot]
  exact h.tracked

theorem SessionRow.Binds.continues {now : ℤ} {row next : SessionRow} (h : row.Binds next) :
    row.Continues now next := by
  have hrevoked : next.revokedAt = row.revokedAt := by rw [h]
  have hidle : next.idleExpiresAt = row.idleExpiresAt := by rw [h]
  have hdigest : next.tokenHash = row.tokenHash := by rw [h]
  refine ⟨?_, by rw [hrevoked]; exact id, hidle.ge, fun hmoved => absurd hidle hmoved⟩
  rw [hrevoked, hidle, hdigest]
  exact h

theorem SessionRow.Binds.session {row next : SessionRow} (h : row.Binds next) :
    next.session = row.session := by rw [h]

theorem SessionRow.Renews.session {row next : SessionRow} (h : row.Renews env start w next) :
    next.session = row.session := by rw [h.tracked]

theorem SessionRow.Closes.session {row next : SessionRow} (h : row.Closes next) :
    next.session = row.session := by
  obtain ⟨t, rfl⟩ := h
  rfl

/-- What an effect leaves follows what it found. -/
theorem Effect.follows (h : Effect env start w a db) : Follows w { w with state := db } := by
  by_cases hd : a.ofDirectory = false
  · exact .of_directory ⟨le_rfl, le_rfl⟩ (h.directory_eq hd)
  · have hrefl := Follows.refl w
    have hadvances : ∀ db' : Db, w.Advances { w with state := db' } := fun _ => ⟨le_rfl, le_rfl⟩
    have hrevision : ∀ n : ℕ, w.state.tenantGuard.personnelRevision ≤
        w.state.tenantGuard.personnelRevision + n := fun n => by omega
    cases h with
    | accountInserted ht =>
      exact { hrefl with
        advances := hadvances _
        revision := hrevision 1
        accounts := .of_insert AccountRow.Later.refl ht }
    | accountsUpdated ht =>
      exact { hrefl with
        advances := hadvances _
        revision := hrevision _
        accounts := .of_rewritten AccountRow.Later.refl (fun _ _ h => h.principal)
          (fun _ _ h => h.later) ht }
    | membershipInserted ht =>
      exact { hrefl with
        advances := hadvances _
        revision := hrevision 1
        memberships := .of_insert MembershipRow.Later.refl ht }
    | membershipsUpdated ht =>
      exact { hrefl with
        advances := hadvances _
        revision := hrevision _
        memberships := .of_rewritten MembershipRow.Later.refl (fun _ _ h => h.principal)
          (fun _ _ h => h.later) ht }
    | providerInserted ht =>
      exact { hrefl with
        advances := hadvances _
        revision := hrevision 1
        providers := .of_insert ProviderRow.Later.refl ht }
    | providersUpdated ht =>
      exact { hrefl with
        advances := hadvances _
        revision := hrevision _
        providers := .of_rewritten ProviderRow.Later.refl (fun _ _ h => h.provider)
          (fun _ _ h => h.later) ht }
    | identityInserted ht =>
      exact { hrefl with
        advances := hadvances _
        revision := hrevision 1
        externalIdentities := .of_insert (fun _ => rfl) ht }
    | sessionInserted _ ht =>
      exact { hrefl with
        advances := hadvances _
        revision := hrevision 1
        sessions := .of_insert (SessionRow.Continues.refl _) ht }
    | sessionsClosed ht =>
      exact { hrefl with
        advances := hadvances _
        revision := hrevision _
        sessions := .of_rewritten (SessionRow.Continues.refl _) (fun _ _ h => h.session)
          (fun _ _ h => h.continues) ht }
    | sessionsRenewed ht =>
      exact { hrefl with
        advances := hadvances _
        sessions := .of_rewritten (SessionRow.Continues.refl _) (fun _ _ h => h.session)
          (fun _ _ h => h.continues) ht }
    | sessionsBound ht =>
      exact { hrefl with
        advances := hadvances _
        sessions := .of_rewritten (SessionRow.Continues.refl _) (fun _ _ h => h.session)
          (fun _ _ h => h.continues) ht }
    | credentialsSealed => exact { hrefl with advances := hadvances _ }
    | _ => first
      | exact { hrefl with advances := hadvances _, revision := hrevision _ }
      | exact absurd rfl hd

theorem Effects.follows {areas : List Area} (h : Effects env areas start w w') : Follows w w' := by
  induction h with
  | refl => exact .refl w
  | tail _ hmove ih =>
    rcases hmove with ⟨hstate, hadvances⟩ | ⟨-, heffect⟩
    · exact ih.trans (.of_directory hadvances (by rw [hstate]))
    · exact ih.trans heffect.follows

theorem Commit.follows {commit : Commit env} (h : commit.Runs w w') : Follows w w' :=
  (Commit.effects h).follows

variable {s s' : System env} {label : Label env} {trace : List (Event (System env) (Label env))}

theorem Step.follows (h : Step env s label s') : Follows s.world s'.world := by
  obtain ⟨areas, heffects⟩ := h.effects
  exact heffects.follows

/-- The world at the end of a run follows the one it started in. -/
theorem follows_of_run (hrun : Run (Step env) s trace s') : Follows s.world s'.world := by
  induction hrun with
  | start => exact .refl _
  | step _ hstep ih => exact ih.trans hstep.follows

end IdentityAuthority
