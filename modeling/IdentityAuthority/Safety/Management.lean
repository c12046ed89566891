import IdentityAuthority.Safety.Providers

/-!
# Management authorization

What a management call commits is what the host policy allowed in that very transaction: for the
session that the call presented, for the operation and the account it is about, and at an instant
that meets what the policy demanded. Nothing but the target of the operation changes.
-/

namespace IdentityAuthority

open Relational Transition

variable {env : Env} {w w' : Tenant} {db db' : Db}

/-- An operation was authorized between two worlds that hold one state: the presented digest was
still that of a session of the actor which is accepted, the policy allowed the operation for its
target, and what it demanded was met at an instant after its answer. -/
inductive Authorised (env : Env) (actor : AuthenticatedSession) (operation : ManagementOperation)
    (target : Option AccountKey) (w w' : Tenant) : Prop
  | intro {row : SessionRow} {loaded : Loaded} {w₀ w₁ w₂ w₃ : Tenant}
      {requirement : ReauthenticationRequirement} :
      w.Advances w₀ → w₀.state = w.state →
      w.state.sessions.find? actor.view.id = some row → row.principal = actor.key →
      row.tokenHash = actor.digest →
      (byId env actor.key actor.view.id actor.checks).run w₀ = .ok (loaded, w₁) →
      w₁.Advances w₂ → w₂.state = w.state →
      env.policy
        { actor := actor.key
          target
          operation
          assurance := loaded.assurance
          groups := loaded.groups
          departmentSnapshot := loaded.departmentSnapshot } w₂ = some requirement →
      requirement.MetBy loaded w₃.clock → w₂.Advances w₃ → w₃.Advances w' → w₃.state = w.state →
      Authorised env actor operation target w w'

section Changes

/-- All of a database but the rows of accounts. -/
def Db.besidesAccounts (db : Db) : Db :=
  { db with
    tenantGuard := ⟨0, 0⟩
    accounts := .empty
    memberships := .empty
    localCredentials := .empty
    passwordAttempts := .empty }

/-- All of a database but its providers. -/
def Db.besidesProviders (db : Db) : Db :=
  { db with tenantGuard := ⟨0, 0⟩, providers := .empty, providerCredentials := .empty }

/-- All of a database but its local profiles. -/
def Db.besidesLocalProfiles (db : Db) : Db :=
  { db with tenantGuard := ⟨0, 0⟩, localProfiles := .empty, profileOperations := .empty }

/-- Nothing but the rows of one account changed. -/
structure OnlyAccount (key : AccountKey) (db db' : Db) : Prop where
  frame : db'.besidesAccounts = db.besidesAccounts
  accounts : ∀ other ≠ key, db'.accounts.find? other = db.accounts.find? other
  memberships : ∀ other ≠ key, db'.memberships.find? other = db.memberships.find? other
  credentials : ∀ other ≠ key, db'.localCredentials.find? other = db.localCredentials.find? other

/-- One account was added, with a password. -/
structure AccountAdded (key : AccountKey) (db db' : Db) : Prop where
  only : OnlyAccount key db db'
  absent : db.accounts.find? key = none
  account : db'.accounts.find? key = some ⟨key, true, 1⟩
  membership : db'.memberships.find? key = some ⟨key, true, 1⟩
  credential : (db'.localCredentials.find? key).isSome = true

/-- One account made one transition; its password changed with no other. -/
structure AccountChanged (key : AccountKey) (change : LocalChange) (db db' : Db) : Prop where
  only : OnlyAccount key db db'
  transition : ∃ old next action, old.key = key ∧ db.Holds old ∧
    old.transition change = .ok (next, action) ∧ db'.Holds next
  credentials : change ≠ .password → db'.localCredentials = db.localCredentials

/-- Nothing but one provider changed. -/
structure OnlyProvider (id : ProviderId) (db db' : Db) : Prop where
  frame : db'.besidesProviders = db.besidesProviders
  providers : ∀ other ≠ id, db'.providers.find? other = db.providers.find? other

/-- Nothing but the local profile of one account changed. -/
structure OnlyLocalProfile (key : AccountKey) (db db' : Db) : Prop where
  frame : db'.besidesLocalProfiles = db.besidesLocalProfiles
  profiles : ∀ other ≠ key, db'.localProfiles.find? other = db.localProfiles.find? other

/-- The effect a management operation has on its target. -/
def ManagementOperation.Effected (db db' : Db) : ManagementOperation → Option AccountKey → Prop
  | createAccount, some key => AccountAdded key db db'
  | setAccountEnabled value, some key => AccountChanged key (.enabled value) db db'
  | setMembership value, some key => AccountChanged key (.membership value) db db'
  | resetPassword, some key => AccountChanged key .password db db'
  | changeOwnPassword, some key => AccountChanged key .password db db'
  | createProvider, none => ∃ id row, OnlyProvider id db db' ∧ db.providers.find? id = none ∧
      db'.providers.find? id = some row ∧ row.enabled = false
  | updateProvider id, none => OnlyProvider id db db' ∧ ∃ row next,
      db.providers.find? id = some row ∧ db'.providers.find? id = some next ∧ row.Moves next ∧
      next.enabled = row.enabled
  | setProviderEnabled id value, none => OnlyProvider id db db' ∧ ∃ row next,
      db.providers.find? id = some row ∧ db'.providers.find? id = some next ∧ row.Moves next ∧
      next.enabled = value ∧ next.settings = row.settings
  | updateLocalProfile, some key => OnlyLocalProfile key db db'
  | _, _ => False

end Changes

section Authorization

variable {actor : AuthenticatedSession} {operation : ManagementOperation}
  {target : Option AccountKey} {loaded : Loaded}

/-- A recheck followed by an authorization, whatever is read in between. -/
theorem authorised_of_run {w₀ w₁ w₂ w₃ : Tenant} {u : Unit} (hadvances : w.Advances w₀)
    (hstate : w₀.state = w.state) (hrecheck : (recheck env actor).run w₀ = .ok (loaded, w₁))
    (hbetween : w₁.Advances w₂) (hread : w₂.state = w₁.state)
    (hauthorize : (authorize env loaded operation target).run w₂ = .ok (u, w₃))
    (hafter : w₃.Advances w') : Authorised env actor operation target w w' ∧ w₃.state = w.state := by
  obtain ⟨hbyId, row, hrow, hprincipal, hdigest⟩ := run_recheck_byId hrecheck
  obtain ⟨rfl, hkey, -⟩ := run_recheck hrecheck
  obtain ⟨requirement, hpolicy, hmet⟩ := run_authorize_met hauthorize
  obtain ⟨hkept, hwaited⟩ := run_authorize hauthorize
  have hheld : w₂.state = w.state := by rw [hread, World.tick_state, hstate]
  rw [hkey] at hpolicy
  rw [hstate] at hrow
  exact ⟨.intro hadvances hstate hrow hprincipal hdigest hbyId hbetween hheld hpolicy hmet hwaited
    hafter (hkept.trans hheld), hkept.trans hheld⟩

end Authorization

section Accounts

/-- Inserting an account adds it, and nothing else. -/
theorem insertAccount_adds {key : AccountKey} {login hash : String} {u : Unit}
    (h : (insertAccount key login hash).run w = .ok (u, w')) :
    AccountAdded key w.state w'.state := by
  simp only [insertAccount, Tx.run_bind, Tx.run_exists, Tx.run_require, Tx.run_insertInto] at h
  obtain ⟨_, _, ⟨accounts, _, haccount, hdb, rfl⟩, _, _, ⟨-, rfl⟩, -, _, ⟨-, rfl⟩, -, _,
    ⟨credentials, _, hcredential, hdb', rfl⟩, members, _, hmember, hdb'', rfl⟩ := h
  obtain ⟨-, rfl⟩ := advanceRevision_eq_some.mp hdb
  obtain ⟨-, rfl⟩ := advanceRevision_eq_some.mp hdb'
  obtain ⟨-, rfl⟩ := advanceRevision_eq_some.mp hdb''
  have hcredential := Table.find?_insert hcredential
  refine ⟨⟨rfl, fun other hne => ?_, fun other hne => ?_, fun other hne => ?_⟩,
    Table.find?_key_of_insert haccount, ?_, ?_, ?_⟩
  · exact (Table.find?_insert haccount other).trans (if_neg hne.symm)
  · exact (Table.find?_insert hmember other).trans (if_neg hne.symm)
  · exact (hcredential other).trans (if_neg hne.symm)
  · exact (Table.find?_insert haccount key).trans (if_pos rfl)
  · exact (Table.find?_insert hmember key).trans (if_pos rfl)
  · exact congrArg Option.isSome ((hcredential key).trans (if_pos rfl))

theorem run_setAccount {next : AccountState} {u : Unit}
    (h : (setAccount next).run w = .ok (u, w')) :
    w'.state.besidesAccounts = w.state.besidesAccounts ∧
      w'.state.memberships = w.state.memberships ∧
      w'.state.localCredentials = w.state.localCredentials ∧
      ∀ key, w'.state.accounts.find? key = (w.state.accounts.find? key).map fun row =>
        if row.principal = next.key then
          { row with enabled := next.enabled, authEpoch := next.epoch } else row := by
  simp only [setAccount, Tx.run_bind, Tx.run_pure, Tx.run_updateIn] at h
  obtain ⟨n, _, ⟨t, db, ht, hdb, -, rfl⟩, -, rfl⟩ := h
  obtain ⟨-, rfl⟩ := advanceRevision_eq_some.mp hdb
  refine ⟨rfl, rfl, rfl, fun key => (Table.find?_updateWhere ht (fun _ => rfl) key).trans ?_⟩
  simp only [decide_eq_true_eq]
  rfl

theorem run_setMembership {next : AccountState} {u : Unit}
    (h : (setMembership next).run w = .ok (u, w')) :
    w'.state.besidesAccounts = w.state.besidesAccounts ∧
      w'.state.accounts = w.state.accounts ∧
      w'.state.localCredentials = w.state.localCredentials ∧
      ∀ key, w'.state.memberships.find? key = (w.state.memberships.find? key).map fun row =>
        if row.principal = next.key then
          { row with active := next.memberActive, epoch := next.membershipEpoch } else row := by
  simp only [setMembership, Tx.run_bind, Tx.run_pure, Tx.run_updateIn] at h
  obtain ⟨n, _, ⟨t, db, ht, hdb, -, rfl⟩, -, rfl⟩ := h
  obtain ⟨-, rfl⟩ := advanceRevision_eq_some.mp hdb
  refine ⟨rfl, rfl, rfl, fun key => (Table.find?_updateWhere ht (fun _ => rfl) key).trans ?_⟩
  simp only [decide_eq_true_eq]
  rfl

/-- The password step of a change touches the credential of its target, and no row appears or goes. -/
theorem run_applyPassword {target : AccountKey} {change : AccountChange} {u : Unit}
    (h : (applyPassword env target change).run w = .ok (u, w')) :
    w'.state.besidesAccounts = w.state.besidesAccounts ∧
      w'.state.accounts = w.state.accounts ∧ w'.state.memberships = w.state.memberships ∧
      (∀ other, (w'.state.localCredentials.find? other).isSome =
        (w.state.localCredentials.find? other).isSome) ∧
      (∀ other ≠ target, w'.state.localCredentials.find? other =
        w.state.localCredentials.find? other) ∧
      (change.localChange ≠ .password → w'.state.localCredentials = w.state.localCredentials) := by
  cases change with
  | enabled value =>
    obtain ⟨-, rfl⟩ := Tx.run_pure.mp h
    exact ⟨rfl, rfl, rfl, fun _ => rfl, fun _ _ => rfl, fun _ => rfl⟩
  | membership value =>
    obtain ⟨-, rfl⟩ := Tx.run_pure.mp h
    exact ⟨rfl, rfl, rfl, fun _ => rfl, fun _ _ => rfl, fun _ => rfl⟩
  | password hash =>
    simp only [applyPassword, setPassword, Tx.run_bind, Tx.run_updateIn] at h
    obtain ⟨n, _, ⟨t, db, ht, hdb, -, rfl⟩, hclear⟩ := h
    obtain ⟨-, rfl⟩ := advanceRevision_eq_some.mp hdb
    obtain ⟨q, hstate⟩ := run_clearAttempts hclear
    have hfind := fun other => Table.find?_updateWhere ht (fun _ => rfl) other
    rw [hstate]
    refine ⟨rfl, rfl, rfl, fun other => ?_, fun other hne => ?_, fun hno => absurd rfl hno⟩
    · exact (congrArg Option.isSome (hfind other)).trans Option.isSome_map
    · refine (hfind other).trans ?_
      simp only [Tables.localCredentials_get, decide_eq_true_eq]
      cases hfound : w.state.localCredentials.find? other with
      | none => rfl
      | some row =>
        have hkey : row.principal = other := Table.key_of_find? hfound
        simp [hkey, hne]

/-- A committed change is the transition of its target, and of no other account. -/
theorem applyAccountChange_changes {actor : AuthenticatedSession} {target : AccountKey}
    {change : AccountChange} {proof : Option AuthenticationCandidate} {next : AccountState}
    (h : (applyAccountChange env actor target change proof).run w = .ok (next, w')) :
    Authorised env actor (change.operation proof.isSome) (some target) w w' ∧
      AccountChanged target change.localChange w.state w'.state := by
  simp only [applyAccountChange, Tx.run_bind, Tx.run_ofExcept, Tx.run_pure] at h
  obtain ⟨loaded, w₁, hrecheck, _, w₂, hproof, _, w₃, hauthorize, old, w₄, hload,
    ⟨next, action⟩, _, ⟨hnext, rfl⟩, _, w₅, haccount, _, w₆, hpassword, _, w₇, hmembership, -,
    rfl⟩ := h
  obtain ⟨rfl, hkey, hholds⟩ := run_load hload
  have hadvances : w₄.Advances w₇ := (((setAccount next).advances _ _ _ haccount).trans
    ((applyPassword env target change).advances _ _ _ hpassword)).trans
      ((setMembership next).advances _ _ _ hmembership)
  obtain ⟨hauthorised, hstate⟩ := authorised_of_run (.refl w) rfl hrecheck
    ((recheckReauthentication env actor target proof).advances _ _ _ hproof)
    (@WritesOnly.readOnly _ env _ (fun _ => recheckReauthentication_writes) _ _ _ hproof) hauthorize
    hadvances
  refine ⟨hauthorised, ?_⟩
  rw [hstate] at hholds
  have htransition := ofRule_eq_ok.mp hnext
  have hsucceeds := AccountState.transition_succeeds htransition
  have hnextKey : next.key = target := hsucceeds.key.trans hkey
  obtain ⟨hframe, hmembers, hcredentials, haccounts⟩ := run_setAccount haccount
  obtain ⟨hframe', haccounts', hmembers', hhas, hothers, hsame⟩ := run_applyPassword hpassword
  obtain ⟨hframe'', haccounts'', hcredentials'', hmemberships⟩ := run_setMembership hmembership
  rw [hstate] at hframe hmembers hcredentials haccounts
  rw [hnextKey] at haccounts hmemberships
  have hmove : ∀ {α : Type} [Keyed α PrincipalId] (t : Table α) (f : α → α) (other : AccountKey),
      other ≠ target →
      ((t.find? other).map fun row => if key row = target then f row else row) = t.find? other := by
    intro α _ t f other hne
    cases hfound : t.find? other with
    | none => rfl
    | some row =>
      have hkey : key row = other := Table.key_of_find? hfound
      simp [hkey, hne]
  refine ⟨⟨?_, ?_, ?_, ?_⟩, ⟨old.state, next, action, hkey, hholds, htransition, ?_, ?_, ?_⟩, ?_⟩
  · rw [hframe'', hframe', hframe]
  · intro other hne
    rw [haccounts'', haccounts', haccounts]
    exact hmove w.state.accounts _ other hne
  · intro other hne
    rw [hmemberships, hmembers', hmembers]
    exact hmove w.state.memberships _ other hne
  · intro other hne
    rw [hcredentials'', hothers other hne, hcredentials]
  · rw [haccounts'', haccounts', haccounts, hnextKey, ← hkey, hholds.account]
    simp
  · rw [hmemberships, hmembers', hmembers, hnextKey, ← hkey, hholds.membership]
    simp
  · rw [hcredentials'', hhas, hcredentials, hsucceeds.hasLocalPassword, hholds.hasLocalPassword,
      hnextKey, hkey]
  · intro hno
    rw [hcredentials'', hsame hno, hcredentials]

end Accounts

section Providers

variable {areas : List Area} {start : Tenant}

/-- A transaction that writes to providers alone leaves the rest as it is. -/
theorem Effects.besidesProviders_eq (h : Effects env [.providers] start w w') :
    w'.state.besidesProviders = w.state.besidesProviders := by
  refine h.frame Db.besidesProviders fun w a db ha heffect => ?_
  obtain rfl := List.mem_singleton.mp ha
  cases heffect <;> rfl

/-- A committed creation adds a disabled provider, and nothing else. -/
theorem createProvider_effected {actor : AuthenticatedSession}
    {settings : ProviderSettings env.parsers} {credentials : ℕ} {profile : Digest}
    {view : ProviderView env.parsers}
    (h : (createProvider env actor settings credentials profile).run w = .ok (view, w')) :
    Authorised env actor .createProvider none w w' ∧
      ManagementOperation.Effected w.state w'.state .createProvider none := by
  simp only [createProvider, Tx.run_bind, Tx.run_select, Tx.run_require, run_newV4, Tx.run_pure] at h
  obtain ⟨loaded, w₁, hrecheck, _, w₂, hauthorize, _, _, ⟨-, rfl⟩, -, _, ⟨-, rfl⟩, id, _, ⟨-, rfl⟩, _, w₃,
    hinsert, _, w₄, hwrite, rfl, rfl⟩ := h
  have hdrew : w₂.Advances { w₂ with drawn := w₂.drawn + 1 } := ⟨le_rfl, Nat.le_succ _⟩
  have hadvances : w₂.Advances w₄ := (hdrew.trans
    ((Tx.insertInto _ _ _).advances _ _ _ hinsert)).trans
      ((writeCredentials env _ _ _).advances _ _ _ hwrite)
  obtain ⟨hauthorised, hstate⟩ := authorised_of_run (.refl w) rfl hrecheck (.refl w₁) rfl hauthorize
    hadvances
  obtain ⟨t, db, ht, hdb, rfl⟩ := Tx.run_insertInto.mp hinsert
  obtain ⟨-, rfl⟩ := advanceRevision_eq_some.mp hdb
  have hframe : Effects env [.providers] w₂ _ w₄ :=
    writeCredentials_writes (by decide) _ _ _ (.refl _) hwrite
  obtain ⟨hkept, -⟩ := run_writeCredentials hwrite
  simp only [Tables.providers_get, hstate] at ht
  have hproviders : w₄.state.providers = t := hkept
  have hrow := (Table.find?_insert ht ⟨id⟩).trans (if_pos rfl)
  rw [← hproviders] at hrow
  refine ⟨hauthorised, ⟨id⟩, _, ⟨?_, fun other hne => ?_⟩, Table.find?_key_of_insert ht, hrow, rfl⟩
  · rw [hframe.besidesProviders_eq, ← hstate]
    rfl
  · rw [hproviders]
    exact (Table.find?_insert ht other).trans (if_neg hne.symm)

/-- A committed edit moves its provider as it says, and nothing else. -/
theorem editProvider_effected {actor : AuthenticatedSession} {id : ProviderId} {expected : ℤ}
    {edit : ProviderEdit env.parsers} {next : ProviderView env.parsers}
    (h : (editProvider env actor id expected edit).run w = .ok (next, w')) :
    Authorised env actor (edit.operation id) none w w' ∧
      (edit.operation id).Effected w.state w'.state none := by
  obtain ⟨hsteps, row, hrow, -, hnext, hmoves⟩ := editProvider_steps h
  have hframe : Effects env [.providers] w w w' := editProvider_effects (by decide) h
  have honly : OnlyProvider id w.state w'.state :=
    ⟨hframe.besidesProviders_eq, fun other hne => hsteps.others other (by simpa using hne)⟩
  obtain ⟨loaded, w₁, w₂, w₃, view, set, hrecheck, hauthorize, rfl, hfound, -, hset, hseal, hview, -,
    hstore⟩ := run_editProvider h
  have hadvances : w₂.Advances w' := ((edit.sealCredentials set).advances _ _ _ hseal).trans
    ((storeProvider next).advances _ _ _ hstore)
  obtain ⟨hauthorised, hstate⟩ := authorised_of_run (.refl w) rfl hrecheck (.refl w₁) rfl hauthorize
    hadvances
  refine ⟨hauthorised, ?_⟩
  rw [hstate, hrow, Option.some.injEq] at hfound
  cases edit with
  | settings value credentials profile =>
    refine ⟨honly, row, next.row, hrow, hnext, hmoves, ?_⟩
    simp only [ProviderEdit.set, bind, Except.bind] at hset
    split at hset
    · cases hset
    · split at hset
      · cases hset
      · split at hset <;> cases hset
        rw [hview, hfound]
        rfl
  | enabled value =>
    refine ⟨honly, row, next.row, hrow, hnext, hmoves, ?_⟩
    simp only [ProviderEdit.set, bind, Except.bind] at hset
    split at hset <;> cases hset
    rw [hview, hfound]
    exact ⟨rfl, rfl⟩

end Providers

section Profiles

/-- Storing the local profile of an account touches no other. -/
theorem run_storeLocalProfile {next : LocalProfileRow} {u : Unit}
    (h : (storeLocalProfile next).run w = .ok (u, w')) :
    OnlyLocalProfile next.principal w.state w'.state := by
  simp only [storeLocalProfile, Tx.run_bind, Tx.run_require, Tx.run_find] at h
  obtain ⟨-, _, ⟨-, rfl⟩, stored, _, ⟨-, rfl⟩, h⟩ := h
  cases stored with
  | none =>
    obtain ⟨t, db, ht, hdb, rfl⟩ := Tx.run_insertInto.mp h
    obtain ⟨-, rfl⟩ := advanceRevision_eq_some.mp hdb
    exact ⟨rfl, fun other hne => (Table.find?_insert ht other).trans (if_neg hne.symm)⟩
  | some row =>
    simp only [Tx.run_bind, Tx.run_updateIn, Tx.run_pure] at h
    obtain ⟨n, _, ⟨t, db, ht, hdb, -, rfl⟩, -, rfl⟩ := h
    obtain ⟨-, rfl⟩ := advanceRevision_eq_some.mp hdb
    refine ⟨rfl, fun other hne => (Table.find?_updateWhere ht (fun _ => rfl) other).trans ?_⟩
    simp only [Tables.localProfiles_get, decide_eq_true_eq]
    cases hfound : w.state.localProfiles.find? other with
    | none => rfl
    | some row =>
      have hkey : row.principal = other := Table.key_of_find? hfound
      simp [hkey, hne]

/-- A committed profile update touches the profile of its target, and no other. -/
theorem updateLocalProfile_effected {actor : AuthenticatedSession} {target : AccountKey}
    {change : ProfileChange} {settled : ProfileReceipt × List ProfileEvent}
    (h : (updateLocalProfile env actor target change).run w = .ok (settled, w')) :
    Authorised env actor .updateLocalProfile (some target) w w' ∧
      OnlyLocalProfile target w.state w'.state := by
  simp only [updateLocalProfile, admitUpdate, answerUpdate, Tx.run_bind, Tx.run_require,
    Tx.run_find] at h
  obtain ⟨-, _, ⟨-, rfl⟩, _, _, ⟨loaded, w₁, hrecheck, _, _, hauthorize, stored, w₂, hload, -, rfl⟩,
    replayed, _, ⟨-, rfl⟩, h⟩ := h
  obtain ⟨rfl, -⟩ := run_load hload
  suffices hsettled : w₂.Advances w' ∧ OnlyLocalProfile target w₂.state w'.state by
    obtain ⟨hauthorised, hstate⟩ := authorised_of_run (.refl w) rfl hrecheck (.refl w₁) rfl
      hauthorize hsettled.1
    rw [← hstate]
    exact ⟨hauthorised, hsettled.2⟩
  cases replayed with
  | some row =>
    simp only [Tx.run_bind, Tx.run_require, Tx.run_pure] at h
    obtain ⟨-, _, ⟨-, rfl⟩, -, rfl⟩ := h
    exact ⟨.refl _, rfl, fun _ _ => rfl⟩
  | none =>
    refine ⟨(settleProfile env actor.key target change).advances _ _ _ h, ?_⟩
    simp only [settleProfile, Tx.run_bind, Tx.run_select, Tx.run_require, Tx.run_find, Tx.run_demand,
      Tx.run_insertInto, Tx.run_pure, Tables.profileOperations_put, Option.some.injEq] at h
    obtain ⟨_, _, ⟨-, rfl⟩, -, _, ⟨-, rfl⟩, row, _, ⟨-, rfl⟩, -, _, ⟨-, rfl⟩, next, _, ⟨-, rfl⟩,
      before, _, ⟨-, rfl⟩, after, _, ⟨-, rfl⟩, _, w₄, hstore, -, _, ⟨t, _, -, rfl, rfl⟩, -, rfl⟩ := h
    have hstored := run_storeLocalProfile hstore
    exact ⟨hstored.frame, hstored.profiles⟩

end Profiles

section Commits

/-- A transaction is a management call of an actor, for an operation on a target. -/
inductive Commit.Manages : Commit env → AuthenticatedSession → ManagementOperation →
    Option AccountKey → Prop
  | createLocalAccount {actor login hash result} :
      Manages (.createLocalAccount actor login hash result) actor .createAccount (some result.key)
  | applyAccountChange {actor target change proof result} :
      Manages (.applyAccountChange actor target change proof result) actor
        (change.operation proof.isSome) (some target)
  | createProvider {actor settings credentials profile result} :
      Manages (.createProvider actor settings credentials profile result) actor .createProvider none
  | editProvider {actor id expected edit result} :
      Manages (.editProvider actor id expected edit result) actor (edit.operation id) none
  | updateLocalProfile {actor target change result} :
      Manages (.updateLocalProfile actor target change result) actor .updateLocalProfile
        (some target)

/-- A committed management call was authorized in its transaction, and did what was authorized. -/
theorem Commit.managed {commit : Commit env} {actor : AuthenticatedSession}
    {operation : ManagementOperation} {target : Option AccountKey} (h : commit.Runs w w')
    (hmanages : commit.Manages actor operation target) :
    Authorised env actor operation target w w' ∧ operation.Effected w.state w'.state target := by
  cases hmanages with
  | createLocalAccount =>
    simp only [Runs, IdentityAuthority.createLocalAccount, Tx.run_bind, run_newV4, Tx.run_pure] at h
    obtain ⟨principal, _, ⟨hdrawn, rfl⟩, loaded, w₁, hrecheck, _, w₂, hauthorize, _, _, hinsert, stored,
      w₃, hload, rfl, rfl⟩ := h
    obtain ⟨rfl, hkey, -⟩ := run_load hload
    have hdrew : w.Advances { w with drawn := w.drawn + 1 } := ⟨le_rfl, Nat.le_succ _⟩
    obtain ⟨hauthorised, hstate⟩ := authorised_of_run hdrew rfl hrecheck (.refl w₁) rfl hauthorize
      ((insertAccount _ _ _).advances _ _ _ hinsert)
    have hadded := insertAccount_adds hinsert
    rw [hstate, ← hkey] at hadded
    exact ⟨hkey ▸ hauthorised, hadded⟩
  | @applyAccountChange _ _ change proof =>
    obtain ⟨hauthorised, hchanged⟩ := applyAccountChange_changes h
    refine ⟨hauthorised, ?_⟩
    cases change with
    | enabled value => exact hchanged
    | membership value => exact hchanged
    | password hash =>
      cases proof with
      | none => exact hchanged
      | some candidate => exact hchanged
  | createProvider => exact createProvider_effected h
  | editProvider => exact editProvider_effected h
  | updateLocalProfile => exact updateLocalProfile_effected h

/-- Provisioning an account of another tenant is authorized in the source tenant, inside the
transaction of the target, and adds one account there. -/
theorem provisionLocalAccount_managed {provisioner : AccountProvisioner} {target actorTenant : Uuid}
    {actor : AuthenticatedSession} {login hash : String} {state : AccountState}
    {w w' : World TwoTenants}
    (h : (provisionLocalAccount env provisioner target actorTenant actor login hash).run w =
      .ok (state, w')) :
    actorTenant = provisioner.source ∧ target ≠ provisioner.source ∧ target ∈ provisioner.tenants ∧
      Authorised env actor (.provisionAccount target) none (w.part TwoTenants.ofSource)
        (w'.part TwoTenants.ofSource) ∧
      w'.state.source = w.state.source ∧ AccountAdded state.key w.state.target w'.state.target := by
  simp only [provisionLocalAccount, authorizeIn, createLocalAccountIn, Tx.run_bind, Tx.run_require,
    Tx.run_within, run_newV4, Tx.run_pure] at h
  obtain ⟨_, _, ⟨_, _, ⟨⟨htenant, hother, -, hserved⟩, rfl⟩, w₂, ⟨loaded, w₁, hrecheck, hauthorize⟩, rfl⟩,
    w₄, ⟨principal, _, ⟨-, rfl⟩, _, _, hinsert, stored, w₃, hload, rfl, rfl⟩, rfl⟩ := h
  obtain ⟨rfl, hkey, -⟩ := run_load hload
  have hadvances := (insertAccount ⟨principal⟩ login hash).advances _ _ _ hinsert
  have hafter : w₂.Advances ((World.setPart TwoTenants.ofTarget
      (World.setPart TwoTenants.ofSource w w₂) w₃).part TwoTenants.ofSource) :=
    ⟨hadvances.clock, (Nat.le_succ _).trans hadvances.drawn⟩
  obtain ⟨hauthorised, hstate⟩ := authorised_of_run (.refl _) rfl hrecheck (.refl w₁) rfl hauthorize
    hafter
  refine ⟨htenant, hother, hserved, hauthorised, hstate, ?_⟩
  rw [hkey]
  exact insertAccount_adds hinsert

end Commits

/-- What holds of the management calls of a run, and of those that provision another tenant from the
state reached. -/
structure ManagementAuthorised (trace : List (Event (System env) (Label env))) (s : System env) :
    Prop where
  managed : ∀ e ∈ trace, ∀ commit actor operation target, e.label = .commit commit →
    commit.Manages actor operation target →
    Authorised env actor operation target e.before.world e.after.world ∧
      operation.Effected e.before.world.state e.after.world.state target
  provisioned : ∀ provisioner target actorTenant actor login hash state (w w' : World TwoTenants),
    w.state.source = s.world.state →
    (provisionLocalAccount env provisioner target actorTenant actor login hash).run w =
      .ok (state, w') →
    actorTenant = provisioner.source ∧ target ≠ provisioner.source ∧ target ∈ provisioner.tenants ∧
      Authorised env actor (.provisionAccount target) none (w.part TwoTenants.ofSource)
        (w'.part TwoTenants.ofSource) ∧
      w'.state.source = s.world.state ∧ AccountAdded state.key w.state.target w'.state.target

variable {s₀ s s' : System env} {trace : List (Event (System env) (Label env))}

theorem Step.managed {commit : Commit env} {actor : AuthenticatedSession}
    {operation : ManagementOperation} {target : Option AccountKey}
    (h : Step env s (.commit commit) s') (hmanages : commit.Manages actor operation target) :
    Authorised env actor operation target s.world s'.world ∧
      operation.Effected s.world.state s'.world.state target := by
  cases h with
  | commit _ hruns => exact Commit.managed hruns hmanages

/-- Management effects are authorised at commit: in every run, whatever a management call commits was
allowed by the host policy in the same transaction, for the session presented, the operation and
its target, and nothing else changed. -/
theorem management_authorised (hrun : Run (Step env) s₀ trace s) : ManagementAuthorised trace s := by
  refine ⟨?_, ?_⟩
  · intro e he commit actor operation target hlabel hmanages
    have hstep := hrun.steps e he
    rw [hlabel] at hstep
    exact hstep.managed hmanages
  · intro provisioner target actorTenant actor login hash state w w' hsource h
    rw [← hsource]
    exact provisionLocalAccount_managed h

/-- What a manager did on the way to the federated world was authorised. -/
theorem partner_managed : ∃ trace held,
    ManagementAuthorised trace (⟨federatedWorld, held⟩ : System .transparent) ∧
      ∃ e ∈ trace, ∃ actor id, ∃ edit : ProviderEdit Env.transparent.parsers,
        Authorised .transparent actor (edit.operation id) none e.before.world e.after.world := by
  obtain ⟨trace, held, hrun, e, he, actor, id, expected, edit, result, hlabel⟩ := federated_reachable
  have hmanaged := management_authorised hrun
  exact ⟨trace, held, hmanaged, e, he, actor, id, edit,
    (hmanaged.managed e he _ _ _ _ hlabel .editProvider).1⟩

end IdentityAuthority
