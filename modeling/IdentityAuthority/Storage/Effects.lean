import IdentityAuthority.Relational.Rewrite
import IdentityAuthority.Storage.Profiles
import Mathlib.Logic.Relation

/-!
# The effects of transactions

Every write of the component is one of the statements listed here, with what the code has
established when it makes the statement. A transaction is described by the areas it writes
to; the tables of all other areas stay as they are.
-/

namespace IdentityAuthority

open Relational

/-- What a statement writes to. -/
inductive Area
  | accounts
  | providers
  | identities
  | sessions
  | bindings
  | profiles
  | localProfiles
  | attempts
  | sequence
  | oidc
  | intents
  | proofs
  | completion
  | challenges
  | operations
  | grants
  | webauthn
deriving DecidableEq, Repr

/-- The area is one that authentication and directory reads depend on. -/
def Area.ofDirectory : Area → Bool
  | accounts | providers | identities | sessions | bindings | profiles | localProfiles => true
  | _ => false

/-- A number drawn by the transaction that began in a world. -/
def DrawnIn (start w : Tenant) (i : ℕ) : Prop := start.drawn ≤ i ∧ i < w.drawn

/-- The key of an attempt drawn at random. -/
def attemptId (env : Env) (i : ℕ) : Digest := ⟨env.entropy.draw i⟩

/-- The key of an intent, a ceremony or a credential drawn at random. -/
def freshUuid (env : Env) (i : ℕ) : Uuid := Uuid.newV4 (env.entropy.draw i)

theorem freshUuid_injective (env : Env) : Function.Injective (freshUuid env) := fun _ _ h =>
  env.entropy.injective (Uuid.newV4_injective h)

/-- The digest of a secret drawn at random. -/
def secretHash (env : Env) (i : ℕ) : Digest := env.sha256.secret ⟨env.entropy.draw i⟩

/-- An update of an account burns its epoch. -/
structure AccountRow.Burns (row next : AccountRow) : Prop where
  principal : next.principal = row.principal
  authEpoch : row.authEpoch < next.authEpoch

/-- An update of a membership burns its epoch where it changes the flag. -/
structure MembershipRow.Moves (row next : MembershipRow) : Prop where
  principal : next.principal = row.principal
  epoch : row.epoch ≤ next.epoch
  flips : next.active ≠ row.active → row.epoch < next.epoch

/-- An update of a provider moves its version on by one. No generation goes back, the revocation
epoch is burnt wherever something else changes, and the issuer stays. -/
structure ProviderRow.Moves (row next : ProviderRow) : Prop where
  provider : next.provider = row.provider
  configVersion : next.configVersion = row.configVersion + 1
  revocationEpoch : row.revocationEpoch ≤ next.revocationEpoch
  burns : next.settings ≠ row.settings ∨ next.assuranceProfile ≠ row.assuranceProfile ∨
    next.enabled ≠ row.enabled → row.revocationEpoch < next.revocationEpoch
  credentialVersion : row.credentialVersion ≤ next.credentialVersion
  issuer : next.settings.issuer = row.settings.issuer

/-- An update of a session that the triggers see revokes it. -/
def SessionRow.Closes (row next : SessionRow) : Prop := ∃ t, next = { row with revokedAt := some t }

/-- A renewal of a session keeps all other columns; the idle expiry moves only forward, and only
while the session is live, and a new credential is a fresh one. -/
structure SessionRow.Renews (env : Env) (start w : Tenant) (row next : SessionRow) : Prop where
  tracked : next = { row with idleExpiresAt := next.idleExpiresAt, tokenHash := next.tokenHash }
  idle : row.idleExpiresAt ≤ next.idleExpiresAt
  live : next.idleExpiresAt ≠ row.idleExpiresAt → row.issuedAt ≤ seconds w.clock ∧
    seconds w.clock < row.idleExpiresAt ∧ seconds w.clock < row.absoluteExpiresAt
  rotated : next.tokenHash ≠ row.tokenHash →
    ∃ i, next.tokenHash = secretHash env i ∧ DrawnIn start w i

/-- Binding a session to a profile writes nothing but the locator. -/
def SessionRow.Binds (row next : SessionRow) : Prop :=
  next = { row with profileSource := next.profileSource, profileSnapshot := next.profileSnapshot }

/-- A session is issued to an active account at its epochs, from an origin that is good, and with
a fresh credential. -/
structure SessionRow.Issued (env : Env) (start w : Tenant) (row : SessionRow) : Prop where
  account : w.state.accounts.find? row.principal = some ⟨row.principal, true, row.authEpoch⟩
  membership :
    w.state.memberships.find? row.principal = some ⟨row.principal, true, row.membershipEpoch⟩
  unrevoked : row.revokedAt = none
  unbound : row.profileSource = none ∧ row.profileSnapshot = none
  issuedAt : row.issuedAt ≤ seconds w.clock
  origin : ∃ o, row.HasOrigin o ∧ SessionRow.Backed env w.state row.principal o
  fresh : ∃ i, row.tokenHash = secretHash env i ∧ DrawnIn start w i

/-- An observation is stored with valid texts only, and once its own time has come. -/
structure ProfileObservationRow.Accepted (row : ProfileObservationRow) (now : ℤ) : Prop where
  observed : row.observedAt ≤ now
  valid : row.value.valid = true

theorem ProfileObservationRow.Accepted.mono {row : ProfileObservationRow} {now now' : ℤ}
    (h : row.Accepted now) (hnow : now ≤ now') : row.Accepted now' :=
  ⟨h.observed.trans hnow, h.valid⟩

/-- What is stored of an observation is a snapshot just drawn, accepted at the clock. -/
structure ProfileObservationRow.Fresh (env : Env) (start w : Tenant) (row : ProfileObservationRow) :
    Prop where
  accepted : row.Accepted (seconds w.clock)
  snapshot : ∃ i, row.snapshot = freshUuid env i ∧ DrawnIn start w i

/-- An observation replaces one of the same account and source that it supersedes. -/
structure ProfileObservationRow.Replaces (env : Env) (start w : Tenant)
    (row next : ProfileObservationRow) : Prop where
  key : next.principal = row.principal ∧ next.source = row.source
  supersedes : next.supersedes row = true
  fresh : next.Fresh env start w

/-- Claiming an attempt takes its secrets away. -/
def OidcTransactionRow.Claims (row next : OidcTransactionRow) : Prop :=
  next = { row with claimed := true, nonce := none, verifier := none }

/-- A reauthentication moves an intent from its first stage to the second, with its facts. -/
def LinkIntentRow.Proves (row next : LinkIntentRow) : Prop :=
  next = { row with
    sourceFacts := next.sourceFacts
    sourceFactsSequence := next.sourceFactsSequence
    stage := next.stage } ∧
  (next.stage = row.stage ∨ row.stage = 0 ∧ next.stage = 1)

/-- A completion moves an intent from its second stage to the last one. -/
def LinkIntentRow.Completes (row next : LinkIntentRow) : Prop :=
  row.stage = 1 ∧ next = { row with stage := 2 }

/-- One statement of a transaction: the area it writes to, and the database it leaves. -/
inductive Effect (env : Env) (start w : Tenant) : Area → Db → Prop
  | accountInserted {row t} : w.state.accounts.insert row = some t →
      Effect env start w .accounts ({ w.state with accounts := t }.revised 1)
  | accountsUpdated {n t} : w.state.accounts.Rewritten AccountRow.Burns n t →
      Effect env start w .accounts ({ w.state with accounts := t }.revised n)
  | membershipInserted {row t} : w.state.memberships.insert row = some t →
      Effect env start w .accounts ({ w.state with memberships := t }.revised 1)
  | membershipsUpdated {n t} : w.state.memberships.Rewritten MembershipRow.Moves n t →
      Effect env start w .accounts ({ w.state with memberships := t }.revised n)
  | credentialInserted {row t} : w.state.localCredentials.insert row = some t →
      Effect env start w .accounts ({ w.state with localCredentials := t }.revised 1)
  | credentialsUpdated {n t} : (n = 0 → t = w.state.localCredentials) →
      Effect env start w .accounts ({ w.state with localCredentials := t }.revised n)
  | providerInserted {row t} : w.state.providers.insert row = some t →
      Effect env start w .providers ({ w.state with providers := t }.revised 1)
  | providersUpdated {n t} : w.state.providers.Rewritten ProviderRow.Moves n t →
      Effect env start w .providers ({ w.state with providers := t }.revised n)
  | credentialsSealed {t} : Effect env start w .providers
      { w.state with providerCredentials := t }
  | identityInserted {row t} : w.state.externalIdentities.insert row = some t →
      (w.state.providers.find? row.provider).isSome = true →
      (FactSource.new env.parsers row.provider row.issuer).isSome = true →
      Effect env start w .identities ({ w.state with externalIdentities := t }.revised 1)
  | sessionInserted {row t} : row.Issued env start w → w.state.sessions.insert row = some t →
      Effect env start w .sessions ({ w.state with sessions := t }.revised 1)
  | sessionsClosed {n t} : w.state.sessions.Rewritten SessionRow.Closes n t →
      Effect env start w .sessions ({ w.state with sessions := t }.revised n)
  | sessionsRenewed {n t} :
      w.state.sessions.Rewritten (SessionRow.Renews env start w) n t →
      Effect env start w .sessions { w.state with sessions := t }
  | sessionsBound {n t} : w.state.sessions.Rewritten SessionRow.Binds n t →
      Effect env start w .bindings { w.state with sessions := t }
  | observationInserted {row t} : row.Fresh env start w →
      w.state.profileObservations.insert row = some t →
      Effect env start w .profiles ({ w.state with profileObservations := t }.revised 1)
  | observationsUpdated {n t} :
      w.state.profileObservations.Rewritten (ProfileObservationRow.Replaces env start w) n t →
      Effect env start w .profiles ({ w.state with profileObservations := t }.revised n)
  | localProfileInserted {row t} : w.state.localProfiles.insert row = some t →
      (∀ value ∈ row.value, value.observation.isSome = true) →
      Effect env start w .localProfiles ({ w.state with localProfiles := t }.revised 1)
  | localProfilesUpdated {n t} :
      w.state.localProfiles.Rewritten
        (fun _ next => ∀ value ∈ next.value, value.observation.isSome = true) n t →
      Effect env start w .localProfiles ({ w.state with localProfiles := t }.revised n)
  | attemptsWritten {t} : Effect env start w .attempts { w.state with attempts := t }
  | passwordAttemptsWritten {t} :
      Effect env start w .attempts { w.state with passwordAttempts := t }
  | sequenced {n} : Effect env start w .sequence
      { w.state with tenantGuard := { w.state.tenantGuard with profileSequence := n } }
  | attemptInserted {row t i} : w.state.oidcTransactions.insert row = some t →
      row.attempt = attemptId env i → DrawnIn start w i → row.claimed = false →
      Effect env start w .oidc { w.state with oidcTransactions := t }
  | attemptsClaimed {n t} : w.state.oidcTransactions.Rewritten OidcTransactionRow.Claims n t →
      Effect env start w .oidc { w.state with oidcTransactions := t }
  | attemptsDeleted {p} : Effect env start w .oidc
      { w.state with oidcTransactions := w.state.oidcTransactions.deleteWhere p }
  | intentsDeleted {p} : Effect env start w .oidc
      { w.state with linkIntents := w.state.linkIntents.deleteWhere p }
  | intentInserted {row t i} : w.state.linkIntents.insert row = some t →
      row.intent = freshUuid env i → DrawnIn start w i →
      Effect env start w .intents { w.state with linkIntents := t }
  | intentsProved {n t} : w.state.linkIntents.Rewritten LinkIntentRow.Proves n t →
      Effect env start w .proofs { w.state with linkIntents := t }
  | intentsCompleted {n t} : w.state.linkIntents.Rewritten LinkIntentRow.Completes n t →
      Effect env start w .completion { w.state with linkIntents := t }
  | challengeInserted {row t i} : w.state.platformChallenges.insert row = some t →
      row.challenge = freshUuid env i → DrawnIn start w i →
      Effect env start w .challenges { w.state with platformChallenges := t }
  | challengesDeleted {p} : Effect env start w .challenges
      { w.state with platformChallenges := w.state.platformChallenges.deleteWhere p }
  | operationsWritten {t} : Effect env start w .operations { w.state with profileOperations := t }
  | grantInserted {row t i} : w.state.stepUpGrants.insert row = some t →
      row.tokenHash = secretHash env i → DrawnIn start w i →
      Effect env start w .grants { w.state with stepUpGrants := t }
  | grantsDeleted {p} : Effect env start w .grants
      { w.state with stepUpGrants := w.state.stepUpGrants.deleteWhere p }
  | webauthnWritten {rp accounts credentials ceremonies} : Effect env start w .webauthn
      { w.state with
        webauthnRp := rp
        webauthnAccounts := accounts
        webauthnCredentials := credentials
        webauthnCeremonies := ceremonies }

/-- One move of a transaction that writes to some areas: time passes, or it makes a statement. -/
inductive Move (env : Env) (areas : List Area) (start : Tenant) : Tenant → Tenant → Prop
  | pass {w w'} : w'.state = w.state → w.Advances w' → Move env areas start w w'
  | write {w a db} : a ∈ areas → Effect env start w a db →
      Move env areas start w { w with state := db }

/-- What a transaction that writes to some areas may do. -/
abbrev Effects (env : Env) (areas : List Area) (start : Tenant) : Tenant → Tenant → Prop :=
  Relation.ReflTransGen (Move env areas start)

variable {env : Env} {areas areas' : List Area} {start w w' : Tenant}

theorem Effects.pass (hstate : w'.state = w.state) (hadvances : w.Advances w') :
    Effects env areas start w w' := .single (.pass hstate hadvances)

theorem Effects.tick : Effects env areas start w w.tick :=
  .pass rfl (.tick w)

theorem Effects.drew {n : ℕ} (h : w.drawn ≤ n) :
    Effects env areas start w { w with drawn := n } := .pass rfl ⟨le_rfl, h⟩

theorem Effects.write {a : Area} {db : Db} (ha : a ∈ areas) (h : Effect env start w a db) :
    Effects env areas start w { w with state := db } := .single (.write ha h)

theorem Effects.mono (hareas : areas ⊆ areas') (h : Effects env areas start w w') :
    Effects env areas' start w w' := by
  refine Relation.ReflTransGen.mono ?_ _ _ h
  rintro w w' (⟨hstate, hadvances⟩ | ⟨ha, heffect⟩)
  · exact .pass hstate hadvances
  · exact .write (hareas ha) heffect

theorem Move.advances (h : Move env areas start w w') : w.Advances w' := by
  rcases h with ⟨-, hadvances⟩ | ⟨-, -⟩
  · exact hadvances
  · exact ⟨le_rfl, le_rfl⟩

theorem Effects.advances (h : Effects env areas start w w') : w.Advances w' := by
  induction h with
  | refl => exact .refl _
  | tail _ hmove ih => exact ih.trans hmove.advances

/-- A property that time and every statement keep is kept by a transaction. -/
theorem Effects.invariant {Inv : Tenant → Prop}
    (hpass : ∀ w w' : Tenant, Inv w → w'.state = w.state → w.Advances w' → Inv w')
    (hwrite : ∀ w a db, start.Advances w → Inv w → a ∈ areas → Effect env start w a db →
      Inv { w with state := db })
    (hinv : Inv start) (h : Effects env areas start start w') : Inv w' := by
  suffices h' : start.Advances w' ∧ Inv w' from h'.2
  induction h with
  | refl => exact ⟨.refl _, hinv⟩
  | tail _ hmove ih =>
    refine ⟨ih.1.trans hmove.advances, ?_⟩
    rcases hmove with ⟨hstate, hadvances⟩ | ⟨ha, heffect⟩
    · exact hpass _ _ ih.2 hstate hadvances
    · exact hwrite _ _ _ ih.1 ih.2 ha heffect

/-- What no statement of the areas writes to stays as it is. -/
theorem Effects.frame {α : Type} (f : Db → α)
    (hf : ∀ w a db, a ∈ areas → Effect env start w a db → f db = f w.state)
    (h : Effects env areas start w w') : f w'.state = f w.state := by
  induction h with
  | refl => rfl
  | tail _ hmove ih =>
    rcases hmove with ⟨hstate, -⟩ | ⟨ha, heffect⟩
    · rw [hstate, ih]
    · exact (hf _ _ _ ha heffect).trans ih

/-- The tables that authentication and directory reads depend on. -/
structure Directory where
  revision : ℤ
  accounts : Table AccountRow
  memberships : Table MembershipRow
  localCredentials : Table LocalCredentialRow
  providers : Table ProviderRow
  externalIdentities : Table ExternalIdentityRow
  sessions : Table SessionRow
  profileObservations : Table ProfileObservationRow
  localProfiles : Table LocalProfileRow

/-- The directory part of a database. -/
def Db.directory (db : Db) : Directory where
  revision := db.tenantGuard.personnelRevision
  accounts := db.accounts
  memberships := db.memberships
  localCredentials := db.localCredentials
  providers := db.providers
  externalIdentities := db.externalIdentities
  sessions := db.sessions
  profileObservations := db.profileObservations
  localProfiles := db.localProfiles

section Frames

variable {a : Area} {db : Db}

theorem Effect.directory_eq (h : Effect env start w a db) (ha : a.ofDirectory = false) :
    db.directory = w.state.directory := by
  cases h <;> first | rfl | cases ha

theorem Effect.accounts_eq (h : Effect env start w a db) (ha : a ≠ .accounts) :
    (db.accounts, db.memberships, db.localCredentials) =
      (w.state.accounts, w.state.memberships, w.state.localCredentials) := by
  cases h <;> first | rfl | exact absurd rfl ha

theorem Effect.providers_eq (h : Effect env start w a db) (ha : a ≠ .providers) :
    (db.providers, db.providerCredentials) =
      (w.state.providers, w.state.providerCredentials) := by
  cases h <;> first | rfl | exact absurd rfl ha

theorem Effect.externalIdentities_eq (h : Effect env start w a db) (ha : a ≠ .identities) :
    db.externalIdentities = w.state.externalIdentities := by
  cases h <;> first | rfl | exact absurd rfl ha

theorem Effect.sessions_eq (h : Effect env start w a db) (ha : a ≠ .sessions)
    (hb : a ≠ .bindings) : db.sessions = w.state.sessions := by
  cases h <;> first | rfl | exact absurd rfl ha | exact absurd rfl hb

theorem Effect.profileObservations_eq (h : Effect env start w a db) (ha : a ≠ .profiles) :
    db.profileObservations = w.state.profileObservations := by
  cases h <;> first | rfl | exact absurd rfl ha

theorem Effect.localProfiles_eq (h : Effect env start w a db) (ha : a ≠ .localProfiles) :
    db.localProfiles = w.state.localProfiles := by
  cases h <;> first | rfl | exact absurd rfl ha

theorem Effect.profileOperations_eq (h : Effect env start w a db) (ha : a ≠ .operations) :
    db.profileOperations = w.state.profileOperations := by
  cases h <;> first | rfl | exact absurd rfl ha

theorem Effect.platformChallenges_eq (h : Effect env start w a db) (ha : a ≠ .challenges) :
    db.platformChallenges = w.state.platformChallenges := by
  cases h <;> first | rfl | exact absurd rfl ha

theorem Effect.oidcTransactions_eq (h : Effect env start w a db) (ha : a ≠ .oidc) :
    db.oidcTransactions = w.state.oidcTransactions := by
  cases h <;> first | rfl | exact absurd rfl ha

theorem Effect.linkIntents_eq (h : Effect env start w a db) (hoidc : a ≠ .oidc)
    (hintents : a ≠ .intents) (hproofs : a ≠ .proofs) (hcompletion : a ≠ .completion) :
    db.linkIntents = w.state.linkIntents := by
  cases h <;> first
    | rfl
    | exact absurd rfl hoidc
    | exact absurd rfl hintents
    | exact absurd rfl hproofs
    | exact absurd rfl hcompletion

theorem Effect.stepUpGrants_eq (h : Effect env start w a db) (ha : a ≠ .grants) :
    db.stepUpGrants = w.state.stepUpGrants := by
  cases h <;> first | rfl | exact absurd rfl ha

/-- A transaction that writes to no area of the directory leaves the directory as it is. -/
theorem Effects.directory_eq (h : Effects env areas start w w')
    (hareas : ∀ a ∈ areas, a.ofDirectory = false) : w'.state.directory = w.state.directory :=
  h.frame Db.directory fun _ a _ ha heffect => heffect.directory_eq (hareas a ha)

variable {db' : Db} {key : AccountKey}

theorem Db.Holds.of_directory {state : AccountState} (h : db.Holds state)
    (hd : db'.directory = db.directory) : db'.Holds state := by
  have haccounts : db'.accounts = db.accounts := congrArg Directory.accounts hd
  have hmemberships : db'.memberships = db.memberships := congrArg Directory.memberships hd
  have hcredentials : db'.localCredentials = db.localCredentials :=
    congrArg Directory.localCredentials hd
  exact ⟨by rw [haccounts]; exact h.account, by rw [hmemberships]; exact h.membership,
    by rw [hcredentials]; exact h.hasLocalPassword⟩

theorem SessionRow.backed_of_directory {o : Option Origin} (h : SessionRow.Backed env db key o)
    (hd : db'.directory = db.directory) : SessionRow.Backed env db' key o :=
  backed_congr h (congrArg Directory.externalIdentities hd) (congrArg Directory.providers hd)

end Frames

end IdentityAuthority
