import IdentityAuthority.Storage.Management
import IdentityAuthority.Storage.Profiles

/-!
# Reading observations

A session reads the observation of its own login: the one its locator names, or none. A host may
admit an actor to the latest observation of an account at a source instead.
-/

namespace IdentityAuthority

open Relational

/-- `ProfileStatus`. -/
inductive ProfileStatus
  | available
  | missing
  | expired
  | unavailable
deriving DecidableEq

/-- What a read of an observation answers (`ProfileView`). -/
structure ProfileView where
  principal : AccountKey
  source : Option ProfileSource
  status : ProfileStatus
  snapshot : Option Uuid
  providerConfigVersion : Option ℤ
  sourceRevision : Option ℤ
  observedAt : Option ℤ
  collectedAt : Option ℤ
  expiresAt : Option ℤ
  profile : Option Profile

/-- The answer of a read that found nothing it may show. -/
def ProfileView.bare (principal : AccountKey) (source : Option ProfileSource)
    (status : ProfileStatus) : ProfileView where
  principal
  source
  status
  snapshot := none
  providerConfigVersion := none
  sourceRevision := none
  observedAt := none
  collectedAt := none
  expiresAt := none
  profile := none

/-- Which observation a read is of; the read of a session is of the snapshot it is bound to, if it
is bound to one. -/
structure ObservationLocator where
  target : AccountKey
  source : ProfileSource
  bound : Option (Option Uuid)

/-- Finds out which observation a read is of. The host admits the actor to a latest one. -/
def locateObservation (env : Env) (actor : AuthenticatedSession) (loaded : Loaded)
    (latest : Option (AccountKey × ProfileSource)) : Action ObservationLocator :=
  match latest with
  | some (target, source) => do
    authorize env loaded .readLatestProfile (some target)
    pure { target, source, bound := none }
  | none => do
    let row ← Tx.find Tables.sessions actor.view.id
    let row ← Tx.demand row .unavailable
    pure
      { target := actor.key
        source := row.profileSource.getD .identityLocal
        bound := some row.profileSnapshot }

/-- The source of an observation is still as it was observed: an upstream one is linked, enabled
and at the version and epoch of the observation. -/
def sourceCurrent (env : Env) (target : AccountKey) (row : ProfileObservationRow) :
    ProfileSource → Action Bool
  | .identityLocal => pure true
  | .idp id => do
    let view ← provider env id
    let linked ← Tx.exists? Tables.externalIdentities fun identity =>
      decide (identity.principal = target ∧ identity.provider = id)
    pure (linked && view.enabled && decide (some view.version = row.configVersion ∧
      some view.revocationEpoch = row.sourceEpoch))

/-- When a stored observation is over for a reader: at its own end, at the end of the reader's
session, or by its age. -/
def ProfileObservationRow.deadline (row : ProfileObservationRow) (absolute : ℤ) (limits : ProfileLimits) :
    ℤ :=
  min (min row.expiresAt absolute) (saturatingAdd row.observedAt limits.maxAge)

/-- Shows a stored observation; past its end only the latest one keeps its value. -/
def showObservation (env : Env) (locator : ObservationLocator) (row : ProfileObservationRow)
    (absolute : ℤ) (latest : Bool) : Action ProfileView := do
  let expiresAt := row.deadline absolute env.profileLimits
  let now ← now
  let status := if expiresAt ≤ now then ProfileStatus.expired else .available
  let shown := latest || decide (status = .available)
  Tx.require (shown = true → row.value.valid = true) .corrupt
  pure
    { principal := locator.target
      source := some locator.source
      status
      snapshot := some row.snapshot
      providerConfigVersion := row.configVersion
      sourceRevision := row.sourceRevision
      observedAt := some row.observedAt
      collectedAt := some row.collectedAt
      expiresAt := some expiresAt
      profile := if shown then some (row.value.applyLimits env.profileLimits) else none }

/-- Reads the observation under a locator that is not known to be unbound. -/
def readObservation (env : Env) (locator : ObservationLocator) (absolute : ℤ) (latest : Bool) :
    Action ProfileView := do
  let stored ← Tx.find Tables.profileObservations (locator.target, locator.source)
  match stored with
  | none => pure (.bare locator.target (some locator.source) .missing)
  | some row =>
    if ∃ id ∈ locator.bound.join, id ≠ row.snapshot then
      pure (.bare locator.target (some locator.source) .unavailable)
    else do
      let current ← sourceCurrent env locator.target row locator.source
      if current then showObservation env locator row absolute latest
      else pure (.bare locator.target (some locator.source) .unavailable)

/-- Reads the observation of a session, or the latest one at a source (`read_profile`). -/
def readProfile (env : Env) (actor : AuthenticatedSession)
    (latest : Option (AccountKey × ProfileSource)) : Action ProfileView := do
  let loaded ← recheck env actor
  let locator ← locateObservation env actor loaded latest
  let stored ← load locator.target
  Tx.require (stored.state.active = true) .rejected
  if locator.bound = some none then pure (.bare locator.target none .unavailable)
  else readObservation env locator loaded.view.absoluteExpiresAt latest.isSome

/-- The observation of a session's own login (`current_profile`). -/
def currentProfile (env : Env) (actor : AuthenticatedSession) : Action ProfileView :=
  readProfile env actor none

/-- The latest observation of an account at a source (`latest_profile`). -/
def latestProfile (env : Env) (actor : AuthenticatedSession) (target : AccountKey)
    (source : ProfileSource) : Action ProfileView :=
  readProfile env actor (some (target, source))

variable {env : Env} {w w' : Tenant} {actor : AuthenticatedSession} {view : ProfileView}
  {profile : Profile}

theorem run_sourceCurrent {target : AccountKey} {row : ProfileObservationRow} {source : ProfileSource}
    {current : Bool} (h : (sourceCurrent env target row source).run w = .ok (current, w')) :
    w' = w := by
  cases source with
  | identityLocal => exact (Tx.run_pure.mp h).2.symm
  | idp id =>
    simp only [sourceCurrent, Tx.run_bind, Tx.run_exists, Tx.run_pure] at h
    obtain ⟨found, _, hfound, _, _, ⟨-, rfl⟩, -, rfl⟩ := h
    exact (run_provider hfound).1

/-- A value is shown of the observation under the locator only, if it is the snapshot that the
locator is bound to. -/
theorem run_readObservation {locator : ObservationLocator} {absolute : ℤ} {latest : Bool}
    (h : (readObservation env locator absolute latest).run w = .ok (view, w'))
    (hprofile : view.profile = some profile) :
    ∃ row, w.state.profileObservations.find? (locator.target, locator.source) = some row ∧
      (∀ id ∈ locator.bound.join, id = row.snapshot) ∧ view.snapshot = some row.snapshot ∧
      view.source = some locator.source ∧ profile = row.value.applyLimits env.profileLimits := by
  simp only [readObservation, Tx.run_bind, Tx.run_find, Tables.profileObservations_get] at h
  obtain ⟨stored, _, ⟨hstored, rfl⟩, h⟩ := h
  cases stored with
  | none =>
    obtain ⟨rfl, -⟩ := Tx.run_pure.mp h
    cases hprofile
  | some row =>
    rcases Tx.run_ite.mp h with ⟨-, h⟩ | ⟨hbound, h⟩
    · obtain ⟨rfl, -⟩ := Tx.run_pure.mp h
      cases hprofile
    · obtain ⟨current, w₁, hcurrent, hrest⟩ := Tx.run_bind.mp h
      obtain rfl := run_sourceCurrent hcurrent
      have hsame : ∀ id ∈ locator.bound.join, id = row.snapshot := by
        intro id hid
        by_contra hne
        exact hbound ⟨id, hid, hne⟩
      rcases Tx.run_ite.mp hrest with ⟨-, hshow⟩ | ⟨-, hbare⟩
      · simp only [showObservation, Tx.run_bind, run_now, Tx.run_require, Tx.run_pure] at hshow
        obtain ⟨instant, _, ⟨-, rfl⟩, -, _, ⟨-, rfl⟩, rfl, -⟩ := hshow
        simp only [Option.ite_none_right_eq_some, Option.some.injEq] at hprofile
        exact ⟨row, hstored.symm, hsame, rfl, rfl, hprofile.2.symm⟩
      · obtain ⟨rfl, -⟩ := Tx.run_pure.mp hbare
        cases hprofile

/-- A session is shown a value only of the stored observation whose snapshot it is bound to. -/
theorem run_currentProfile (h : (currentProfile env actor).run w = .ok (view, w'))
    (hprofile : view.profile = some profile) :
    ∃ session row, w.state.sessions.find? actor.view.id = some session ∧
      session.principal = actor.key ∧ session.profileSnapshot = some row.snapshot ∧
      w.state.profileObservations.find?
        (actor.key, session.profileSource.getD .identityLocal) = some row ∧
      view.snapshot = some row.snapshot ∧
      view.source = some (session.profileSource.getD .identityLocal) ∧
      profile = row.value.applyLimits env.profileLimits := by
  simp only [currentProfile, readProfile, locateObservation, Tx.run_bind, Tx.run_find,
    Tx.run_demand, Tx.run_pure, Tx.run_require, Tables.sessions_get] at h
  obtain ⟨loaded, _, hrecheck, locator, _, ⟨_, _, ⟨rfl, rfl⟩, session, _, ⟨hsession, rfl⟩, rfl, rfl⟩,
    stored, w₁, hload, -, _, ⟨-, rfl⟩, h⟩ := h
  obtain ⟨-, row, hrow, hprincipal, -⟩ := run_recheck_byId hrecheck
  obtain ⟨rfl, -⟩ := run_recheck hrecheck
  obtain ⟨rfl, -⟩ := run_load hload
  rw [World.tick_state, hrow, Option.some.injEq] at hsession
  subst hsession
  rcases Tx.run_ite.mp h with ⟨-, h⟩ | ⟨hbound, h⟩
  · obtain ⟨rfl, -⟩ := Tx.run_pure.mp h
    cases hprofile
  · obtain ⟨found, hfound, hsame, hview, hsource, hvalue⟩ := run_readObservation h hprofile
    refine ⟨row, found, hrow, hprincipal, ?_, hfound, hview, hsource, hvalue⟩
    cases hsnapshot : row.profileSnapshot with
    | none => exact absurd (congrArg some hsnapshot) hbound
    | some id =>
      rw [hsnapshot] at hsame
      rw [hsame id rfl]

end IdentityAuthority
