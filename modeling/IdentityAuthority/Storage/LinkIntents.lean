import IdentityAuthority.Storage.Sessions

/-!
# Link intents

What an actor wants to link, and how far they have proved themselves. An attempt that belongs
to an intent can only be continued by the session the intent names, at the stage it waits for.
-/

namespace IdentityAuthority

open Relational

/-- How far a link intent is. -/
inductive LinkStage
  | reauthenticationRequired
  | targetReady
  | completed
deriving DecidableEq

namespace LinkStage

/-- `LinkStage::restore`. -/
def restore : ℤ → Option LinkStage
  | 0 => some reauthenticationRequired
  | 1 => some targetReady
  | 2 => some completed
  | _ => none

/-- `LinkStage::code`. -/
def code : LinkStage → ℤ
  | reauthenticationRequired => 0
  | targetReady => 1
  | completed => 2

/-- The stage after a stage. -/
def next : LinkStage → Option LinkStage
  | reauthenticationRequired => some targetReady
  | targetReady => some completed
  | completed => none

theorem restore_eq_some {value : ℤ} {stage : LinkStage} :
    restore value = some stage ↔ value = stage.code := by
  constructor
  · intro h
    unfold restore at h
    split at h <;> cases h <;> rfl
  · rintro rfl
    cases stage <;> rfl

end LinkStage

/-- A link intent as storage holds it. -/
structure Intent where
  browser : Digest
  id : Uuid
  principal : PrincipalId
  session : SessionId
  epoch : ℤ
  memberEpoch : ℤ
  origin : Option Origin
  localAuthenticatedAt : Option ℤ
  target : ProviderId
  version : ℤ
  stage : LinkStage
  created : ℤ
  expiry : ℤ
deriving DecidableEq

/-- The origin columns of an intent. -/
def intentOrigin (row : LinkIntentRow) : Action (Option Origin) :=
  match row.sourceIdentity with
  | none => pure none
  | some identity => do
    let epoch ← Tx.demand row.sourceEpoch .unavailable
    let factsSequence ← Tx.demand row.sourceFactsSequence .unavailable
    let facts ← Tx.demand row.sourceFacts .unavailable
    let facts ← Tx.ofExcept facts.decode
    pure (some { identity, epoch, facts, factsSequence })

/-- Reads a link intent (`intent`). -/
def intent (id : Uuid) : Action Intent := do
  let row ← Tx.find Tables.linkIntents id
  let row ← Tx.demand row .rejected
  let origin ← intentOrigin row
  let stage ← Tx.demand (LinkStage.restore row.stage) .corrupt
  pure
    { browser := row.browserHash
      id
      principal := row.principal
      session := row.session
      epoch := row.authEpoch
      memberEpoch := row.membershipEpoch
      origin
      localAuthenticatedAt := row.localAuthenticatedAt
      target := row.targetProvider
      version := row.targetVersion
      stage
      created := row.createdAt
      expiry := row.expiresAt }

/-- Moves an intent from a stage to the next one (`advance`). -/
def advance (id : Uuid) (stage : LinkStage) : Action Unit := do
  let next ← Tx.demand stage.next .corrupt
  let changed ← Tx.updateIn Tables.linkIntents
    (fun row => decide (row.intent = id ∧ row.stage = stage.code))
    (fun row => { row with stage := next.code }) .constraint
  Tx.require (changed = 1) .rejected

/-- The stage an intent must be at for an attempt of a purpose. -/
def Purpose.stage : Purpose → LinkStage
  | reauthenticate => .reauthenticationRequired
  | _ => .targetReady

/-- The intent waits for an attempt, at a time. -/
structure Intent.Awaits (found : Intent) (attempt : OidcAttempt) (now : ℤ) : Prop where
  browser : found.browser = attempt.browser
  created : found.created ≤ now
  unexpired : now < found.expiry
  stage : found.stage = attempt.purpose.stage

instance (found : Intent) (attempt : OidcAttempt) (now : ℤ) :
    Decidable (found.Awaits attempt now) :=
  decidable_of_iff (found.browser = attempt.browser ∧ found.created ≤ now ∧ now < found.expiry ∧
      found.stage = attempt.purpose.stage)
    ⟨fun ⟨h1, h2, h3, h4⟩ => ⟨h1, h2, h3, h4⟩, fun h => ⟨h.1, h.2, h.3, h.4⟩⟩

/-- The intent was begun by a loaded session, at its epochs. -/
structure Intent.BegunBy (found : Intent) (actor : Loaded) : Prop where
  session : actor.view.id = found.session
  principal : actor.state.key = found.principal
  epoch : actor.state.epoch = found.epoch
  memberEpoch : actor.state.membershipEpoch = found.memberEpoch

instance (found : Intent) (actor : Loaded) : Decidable (found.BegunBy actor) :=
  decidable_of_iff (actor.view.id = found.session ∧ actor.state.key = found.principal ∧
      actor.state.epoch = found.epoch ∧ actor.state.membershipEpoch = found.memberEpoch)
    ⟨fun ⟨h1, h2, h3, h4⟩ => ⟨h1, h2, h3, h4⟩, fun h => ⟨h.1, h.2, h.3, h.4⟩⟩

/-- The session an attempt can be continued with, where it needs one (`check_actor`): that of
its intent, or the one it replaces. The host's platform verifier has no part in it. -/
def checkActor (env : Env) (attempt : OidcAttempt) (session : Option Digest) :
    Action (Option Loaded) :=
  match attempt.link, attempt.replacement with
  | some id, _ => do
    let found ← intent id
    let instant ← now
    Tx.require (found.Awaits attempt instant) .rejected
    let digest ← Tx.demand session .rejected
    let actor ← lookup env digest .cookie none
    Tx.require (found.BegunBy actor) .rejected
    pure (some actor)
  | none, some expected => do
    let digest ← Tx.demand session .rejected
    let actor ← lookup env digest .cookie none
    Tx.require (actor.view.id = expected) .rejected
    pure (some actor)
  | none, none => pure none

variable {env : Env} {w w' : Tenant}

/-- The row of an intent. -/
structure Intent.RowOf (found : Intent) (row : LinkIntentRow) : Prop where
  id : row.intent = found.id
  browser : row.browserHash = found.browser
  principal : row.principal = found.principal
  session : row.session = found.session
  epoch : row.authEpoch = found.epoch
  memberEpoch : row.membershipEpoch = found.memberEpoch
  sourceIdentity : row.sourceIdentity = found.origin.map Origin.identity
  sourceEpoch : ∀ o ∈ found.origin, row.sourceEpoch = some o.epoch
  sourceFacts : ∀ o ∈ found.origin, row.sourceFacts = some o.facts ∧ o.facts.decodable = true
  localAuthenticatedAt : row.localAuthenticatedAt = found.localAuthenticatedAt
  target : row.targetProvider = found.target
  version : row.targetVersion = found.version
  stage : row.stage = found.stage.code
  created : row.createdAt = found.created
  expiry : row.expiresAt = found.expiry

theorem run_intentOrigin {row : LinkIntentRow} {o : Option Origin}
    (h : (intentOrigin row).run w = .ok (o, w')) :
    w' = w ∧ row.sourceIdentity = o.map Origin.identity ∧
      (∀ x ∈ o, row.sourceEpoch = some x.epoch) ∧
      ∀ x ∈ o, row.sourceFacts = some x.facts ∧ x.facts.decodable = true := by
  unfold intentOrigin at h
  split at h
  · rename_i hnone
    obtain ⟨rfl, rfl⟩ := Tx.run_pure.mp h
    exact ⟨rfl, hnone, by simp, by simp⟩
  · rename_i identity hsome
    simp only [Tx.run_bind, Tx.run_demand, Tx.run_ofExcept, Tx.run_pure] at h
    obtain ⟨epoch, _, ⟨hepoch, rfl⟩, sequence, _, ⟨-, rfl⟩, facts, _, ⟨hfacts, rfl⟩, decoded, _,
      ⟨hdecode, rfl⟩, rfl, rfl⟩ := h
    obtain ⟨hdecodable, rfl⟩ := AuthenticationFacts.decode_eq_ok.mp hdecode
    refine ⟨rfl, hsome, ?_, ?_⟩
    · rintro x hx
      cases hx
      exact hepoch
    · rintro x hx
      cases hx
      exact ⟨hfacts, hdecodable⟩

/-- Reading an intent reads its row. -/
theorem run_intent {id : Uuid} {found : Intent} (h : (intent id).run w = .ok (found, w')) :
    w' = w ∧ found.id = id ∧ ∃ row, w.state.linkIntents.find? id = some row ∧
      found.RowOf row := by
  simp only [intent, Tx.run_bind, Tx.run_find, Tx.run_demand, Tx.run_pure,
    Tables.linkIntents_get] at h
  obtain ⟨_, _, ⟨rfl, rfl⟩, row, _, ⟨hrow, rfl⟩, o, _, horigin, stage, _, ⟨hstage, rfl⟩, rfl,
    rfl⟩ := h
  obtain ⟨rfl, hidentity, hepoch, hfacts⟩ := run_intentOrigin horigin
  have hid : row.intent = id := Table.key_of_find? hrow
  exact ⟨rfl, rfl, row, hrow, hid, rfl, rfl, rfl, rfl, rfl, hidentity, hepoch, hfacts, rfl, rfl,
    rfl, LinkStage.restore_eq_some.mp hstage, rfl, rfl⟩

/-- An attempt of an intent is continued by the live session that began the intent, inside the
intent's time and at its stage. -/
theorem run_checkActor_link {attempt : OidcAttempt} {session : Option Digest} {id : Uuid}
    {actor : Option Loaded} (hlink : attempt.link = some id)
    (h : (checkActor env attempt session).run w = .ok (actor, w')) :
    w' = w.tick.tick ∧ ∃ (found : Intent) (loaded : Loaded) (row : SessionRow) (digest : Digest),
      actor = some loaded ∧
      (∃ stored, w.state.linkIntents.find? id = some stored ∧ found.RowOf stored) ∧
      found.id = id ∧ found.Awaits attempt (seconds w.tick.clock) ∧ found.BegunBy loaded ∧
      session = some digest ∧ loaded.Of env w.tick row ∧ row.tokenHash = digest ∧
      row.credentialKind = .cookie := by
  simp only [checkActor, hlink, Tx.run_bind, run_now, Tx.run_require, Tx.run_demand,
    Tx.run_pure] at h
  obtain ⟨found, _, hintent, _, _, ⟨rfl, rfl⟩, -, _, ⟨hawaits, rfl⟩, digest, _, ⟨hdigest, rfl⟩,
    loaded, _, hlookup, -, _, ⟨hbegun, rfl⟩, rfl, rfl⟩ := h
  obtain ⟨rfl, hid, stored, hstored, hrowOf⟩ := run_intent hintent
  obtain ⟨rfl, row, hof, htoken, hkind⟩ := run_lookup hlookup
  exact ⟨rfl, found, loaded, row, digest, rfl, ⟨stored, hstored, hrowOf⟩, hid, hawaits, hbegun,
    hdigest, hof, htoken, hkind⟩

/-- An attempt without an intent is continued by the live session it replaces, if any. -/
theorem run_checkActor_own {attempt : OidcAttempt} {session : Option Digest}
    {actor : Option Loaded} (hlink : attempt.link = none)
    (h : (checkActor env attempt session).run w = .ok (actor, w')) :
    w'.state = w.state ∧ (attempt.replacement = none → actor = none) ∧
      ∀ expected ∈ attempt.replacement, ∃ loaded row, actor = some loaded ∧
        loaded.view.id = expected ∧ loaded.Of env w row ∧ session = some row.tokenHash := by
  cases hreplacement : attempt.replacement with
  | none =>
    simp only [checkActor, hlink, hreplacement, Tx.run_pure] at h
    obtain ⟨rfl, rfl⟩ := h
    exact ⟨rfl, fun _ => rfl, by simp⟩
  | some expected =>
    simp only [checkActor, hlink, hreplacement, Tx.run_bind, Tx.run_require, Tx.run_demand,
      Tx.run_pure] at h
    obtain ⟨digest, _, ⟨hdigest, rfl⟩, loaded, _, hlookup, -, _, ⟨hid, rfl⟩, rfl, rfl⟩ := h
    obtain ⟨rfl, row, hof, htoken, -⟩ := run_lookup hlookup
    refine ⟨rfl, by simp, ?_⟩
    rintro x hx
    cases hx
    exact ⟨loaded, row, rfl, hid, hof, by rw [htoken, hdigest]⟩

end IdentityAuthority
