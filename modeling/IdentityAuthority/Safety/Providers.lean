import IdentityAuthority.Safety.Continuity

/-!
# Provider version fencing

The version of a provider moves by one with every change of it, and never back. Whoever holds on
to an earlier version, a caller that wants to edit it as much as an attempt, an origin, a proof or
a grant, is turned away for good.
-/

namespace IdentityAuthority

open Relational Transition

/-- A provider before and after a transaction: as it was, or moved once. -/
def ProviderRow.Steps (row next : ProviderRow) : Prop := next = row ∨ row.Moves next

/-- There are no more providers than allowed, and the sealed credentials of each are at the version
it says. -/
structure ProvidersSealed (db : Db) : Prop where
  bounded : db.providers.rows.length ≤ maxProviders
  credentials : ∀ id row, db.providers.find? id = some row →
    ∃ c, db.providerCredentials.find? id = some c ∧ c.credentialVersion = row.credentialVersion

variable {env : Env} {areas : List Area} {start w w' : Tenant}

section Operations

theorem ProviderRow.Steps.refl (row : ProviderRow) : row.Steps row := .inl rfl

/-- Storing a moved view of a provider moves its row, and no other. -/
theorem run_storeProvider {parsers : Parsers} {view next : ProviderView parsers}
    (hfound : w.state.providers.find? view.id = some view.row) (hid : next.id = view.id)
    {u : Unit} (h : (storeProvider next).run w = .ok (u, w')) :
    w'.state.providerCredentials = w.state.providerCredentials ∧
      w'.state.providers.rows.length = w.state.providers.rows.length ∧
      ∀ id, w'.state.providers.find? id =
        if id = view.id then some next.row else w.state.providers.find? id := by
  simp only [storeProvider, Tx.run_bind, Tx.run_updateIn, Tx.run_pure, Tables.providers_get,
    Tables.providers_put, advanceRevision_eq_some] at h
  obtain ⟨n, _, ⟨t, db, ht, ⟨-, rfl⟩, -, rfl⟩, -, rfl⟩ := h
  refine ⟨rfl, ?_, fun id => ?_⟩
  · exact (congrArg List.length (Table.updateWhere_eq_some.mp ht)).trans (List.length_map _)
  · have hfind := Table.find?_updateWhere ht (fun _ => rfl) id
    refine hfind.trans ?_
    by_cases hsame : id = view.id
    · rw [if_pos hsame, hsame, hfound]
      simp [ProviderView.row, hid]
    · rw [if_neg hsame]
      cases hold : w.state.providers.find? id with
      | none => rfl
      | some row =>
        have hkey : row.provider = id := Table.key_of_find? hold
        have hne : row.provider ≠ next.id := by
          rw [hkey, hid]
          exact hsame
        simp [hne]

/-- Writing the credentials of a provider seals them at a version, and no others. -/
theorem run_writeCredentials {id : ProviderId} {version : ℤ} {credentials : ℕ} {u : Unit}
    (h : (writeCredentials env id version credentials).run w = .ok (u, w')) :
    w'.state.providers = w.state.providers ∧ ∃ sealedValue, ∀ id',
      w'.state.providerCredentials.find? id' =
        if id' = id then some ⟨id, version, sealedValue⟩
        else w.state.providerCredentials.find? id' := by
  simp only [writeCredentials, Tx.run_bind, Tx.run_random, Tx.run_demand, Tx.run_find,
    Tables.providerCredentials_get] at h
  obtain ⟨nonce, _, ⟨-, rfl⟩, sealedValue, _, ⟨-, rfl⟩, stored, _, ⟨hstored, rfl⟩, h⟩ := h
  cases stored with
  | none =>
    obtain ⟨t, db, ht, hdb, rfl⟩ := Tx.run_insertInto.mp h
    cases hdb
    refine ⟨rfl, sealedValue, fun id' => (Table.find?_insert ht id').trans ?_⟩
    simp only [key, eq_comm (b := id'), Tables.providerCredentials_get]
  | some row =>
    simp only [Tx.run_bind, Tx.run_updateIn, Tx.run_pure] at h
    obtain ⟨n, _, ⟨t, db, ht, hdb, -, rfl⟩, -, rfl⟩ := h
    cases hdb
    refine ⟨rfl, sealedValue, fun id' => (Table.find?_updateWhere ht (fun _ => rfl) id').trans ?_⟩
    simp only [Tables.providerCredentials_get]
    by_cases hsame : id' = id
    · have hkey : row.provider = id := Table.key_of_find? hstored.symm
      rw [if_pos hsame, hsame, ← hstored]
      simp [hkey]
    · rw [if_neg hsame]
      cases hold : w.state.providerCredentials.find? id' with
      | none => rfl
      | some found =>
        have hkey : found.provider = id' := Table.key_of_find? hold
        simp [hkey, hsame]

/-- Storing one moved provider steps the providers; they stay sealed where the credentials were
moved along. -/
theorem storeProvider_steps {parsers : Parsers} {view next : ProviderView parsers}
    (hfound : w.state.providers.find? view.id = some view.row) (hid : next.id = view.id)
    (hmoves : view.row.Moves next.row) {u : Unit}
    (h : (storeProvider next).run w = .ok (u, w')) :
    w.state.providers.Evolves ProviderRow.Steps w'.state.providers := by
  obtain ⟨-, -, hfind⟩ := run_storeProvider hfound hid h
  intro id row hrow
  rw [hfind]
  by_cases hsame : id = view.id
  · rw [hsame, hfound] at hrow
    cases hrow
    exact ⟨next.row, by rw [if_pos hsame], .inr hmoves⟩
  · exact ⟨row, by rw [if_neg hsame, hrow], .refl row⟩

/-- Providers that were stepped one by one, each at most once. -/
structure SteppedAt (ids : List ProviderId) (w w' : Tenant) : Prop where
  steps : w.state.providers.Evolves ProviderRow.Steps w'.state.providers
  others : ∀ id, id ∉ ids → w'.state.providers.find? id = w.state.providers.find? id
  stays : ProvidersSealed w.state → ProvidersSealed w'.state

theorem SteppedAt.of_eq (ids : List ProviderId) (hproviders : w'.state.providers = w.state.providers)
    (hcredentials : w'.state.providerCredentials = w.state.providerCredentials) :
    SteppedAt ids w w' := by
  refine ⟨?_, fun id _ => by rw [hproviders], fun h => ⟨?_, ?_⟩⟩
  · rw [hproviders]
    exact .refl ProviderRow.Steps.refl
  · rw [hproviders]
    exact h.bounded
  · rw [hproviders, hcredentials]
    exact h.credentials

/-- Storing a moved view steps its provider, where its credentials were sealed along. -/
theorem SteppedAt.store {parsers : Parsers} {view next : ProviderView parsers} {w₁ : Tenant}
    (hproviders : w₁.state.providers = w.state.providers)
    (hfound : w.state.providers.find? view.id = some view.row) (hid : next.id = view.id)
    (hmoves : view.row.Moves next.row) {u : Unit}
    (hcredentials : ProvidersSealed w.state →
      (∃ c, w₁.state.providerCredentials.find? view.id = some c ∧
        c.credentialVersion = next.credentialVersion) ∧
      ∀ id ≠ view.id, w₁.state.providerCredentials.find? id =
        w.state.providerCredentials.find? id)
    (h : (storeProvider next).run w₁ = .ok (u, w')) : SteppedAt [view.id] w w' := by
  have hfound₁ : w₁.state.providers.find? view.id = some view.row := by rw [hproviders, hfound]
  obtain ⟨hkept, hlength, hfind⟩ := run_storeProvider hfound₁ hid h
  refine ⟨?_, ?_, fun hsealed => ⟨?_, ?_⟩⟩
  · rw [← hproviders]
    exact storeProvider_steps hfound₁ hid hmoves h
  · intro id hne
    rw [hfind, if_neg (by simpa using hne), hproviders]
  · rw [hlength, hproviders]
    exact hsealed.bounded
  · intro id row hrow
    obtain ⟨hown, hothers⟩ := hcredentials hsealed
    rw [hfind] at hrow
    rw [hkept]
    by_cases hsame : id = view.id
    · rw [if_pos hsame] at hrow
      cases hrow
      rw [hsame]
      exact hown
    · rw [if_neg hsame, hproviders] at hrow
      rw [hothers id hsame]
      exact hsealed.credentials id row hrow

/-- A committed edit steps the provider it names, which was at the version its caller expected. -/
theorem editProvider_steps {actor : AuthenticatedSession} {id : ProviderId} {expected : ℤ}
    {edit : ProviderEdit env.parsers} {next : ProviderView env.parsers}
    (h : (editProvider env actor id expected edit).run w = .ok (next, w')) :
    SteppedAt [id] w w' ∧ ∃ row, w.state.providers.find? id = some row ∧
      row.configVersion = expected ∧ w'.state.providers.find? id = some next.row ∧
      row.Moves next.row := by
  obtain ⟨loaded, w₁, w₂, w₃, view, set, hrecheck, hauthorize, rfl, hfound, rfl, hset, hseal, hnext,
    hmoves, hstore⟩ := run_editProvider h
  have hread : w₁.state = w.state := @WritesOnly.readOnly _ env _ (fun _ => recheck_writes) _ _ _ hrecheck
  have hread' : w₂.state = w₁.state :=
    @WritesOnly.readOnly _ env _ (fun _ => authorize_writes) _ _ _ hauthorize
  have hstate : w₂.state = w.state := hread'.trans hread
  have hset_id := (ProviderEdit.set_moves hset).1
  have hid : next.id = view.id := by rw [hnext, hset_id]
  have hkept : w₃.state.providers = w₂.state.providers :=
    (show Effects env [.providers] w₂ _ _ ∧ _ from run_sealCredentials (by decide) hseal).2
  rw [hstate] at hfound hkept
  have hstep : SteppedAt [view.id] w w' := by
    refine .store hkept hfound hid hmoves ?_ hstore
    intro hsealed
    cases edit with
    | settings value credentials profile =>
      obtain ⟨-, sealedValue, hwritten⟩ := run_writeCredentials hseal
      rw [hset_id, hstate] at hwritten
      exact ⟨⟨_, by rw [hwritten, if_pos rfl], by rw [hnext]⟩,
        fun id hne => by rw [hwritten, if_neg hne]⟩
    | enabled value =>
      obtain ⟨-, rfl⟩ := Tx.run_pure.mp hseal
      rw [hstate]
      obtain ⟨c, hc, hversion⟩ := hsealed.credentials view.id view.row hfound
      refine ⟨⟨c, hc, hversion.trans ?_⟩, fun _ _ => rfl⟩
      rw [hnext]
      simp only [ProviderEdit.set, bind, Except.bind] at hset
      split at hset <;> cases hset
      rfl
  have hfound₃ : w₃.state.providers.find? view.id = some view.row := by rw [hkept, hfound]
  obtain ⟨-, -, hfind⟩ := run_storeProvider hfound₃ hid hstore
  exact ⟨hstep, view.row, hfound, rfl, by rw [hfind, if_pos rfl], hmoves⟩

theorem reconcileProvider_steps {profile : ProviderSettings env.parsers → Digest}
    {id : ProviderId} {changed : Bool}
    (h : (reconcileProvider env profile id).run w = .ok (changed, w')) : SteppedAt [id] w w' := by
  simp only [reconcileProvider, Tx.run_bind, Tx.run_ite, Tx.run_ofExcept, Tx.run_pure] at h
  obtain ⟨view, _, hprovider, h⟩ := h
  obtain ⟨rfl, rfl, hfound⟩ := run_provider hprovider
  rcases h with ⟨-, -, rfl⟩ | ⟨-, next, _, ⟨hnext, rfl⟩, _, w₁, hstore, -, rfl⟩
  · exact .of_eq _ rfl rfl
  · obtain ⟨hid, hmoves⟩ := ProviderView.reconciled_moves hnext
    refine .store rfl hfound hid hmoves (fun hsealed => ⟨?_, fun _ _ => rfl⟩) hstore
    obtain ⟨c, hc, hversion⟩ := hsealed.credentials view.id view.row hfound
    refine ⟨c, hc, hversion.trans ?_⟩
    simp only [ProviderView.reconciled, bind, Except.bind] at hnext
    split at hnext
    · cases hnext
    · split at hnext <;> cases hnext
      rfl

theorem SteppedAt.trans {ids ids' : List ProviderId} {w'' : Tenant} (h : SteppedAt ids w w')
    (h' : SteppedAt ids' w' w'') (hdisjoint : ∀ id ∈ ids, id ∉ ids') :
    SteppedAt (ids ++ ids') w w'' := by
  refine ⟨?_, ?_, h'.stays ∘ h.stays⟩
  · intro id row hrow
    by_cases hid : id ∈ ids
    · obtain ⟨next, hnext, hstep⟩ := h.steps id row hrow
      exact ⟨next, by rw [h'.others id (hdisjoint id hid), hnext], hstep⟩
    · rw [← h.others id hid] at hrow
      exact h'.steps id row hrow
  · intro id hid
    simp only [List.mem_append, not_or] at hid
    rw [h'.others id hid.2, h.others id hid.1]

/-- Providers are reconciled one by one, each at most once. -/
theorem reconcileProviders_steps {profile : ProviderSettings env.parsers → Digest} :
    ∀ {ids : List ProviderId} {reported : ℕ} {more : Bool} {w : Tenant}, ids.Nodup →
      (reconcileProviders env profile ids reported).run w = .ok (more, w') → SteppedAt ids w w'
  | [], reported, more, w, _, h => by
    obtain ⟨-, rfl⟩ := Tx.run_pure.mp h
    exact .of_eq _ rfl rfl
  | id :: ids, reported, more, w, hnodup, h => by
    obtain ⟨hnot, hnodup⟩ := List.nodup_cons.mp hnodup
    obtain ⟨changed, w₁, hfirst, h⟩ := Tx.run_bind.mp h
    have hone := reconcileProvider_steps hfirst
    have hrest : SteppedAt ids w₁ w' := by
      rcases Tx.run_ite.mp h with ⟨-, h⟩ | ⟨-, h⟩
      · obtain ⟨-, rfl⟩ := Tx.run_pure.mp h
        exact .of_eq _ rfl rfl
      · exact reconcileProviders_steps hnodup h
    exact hone.trans hrest (by simpa using hnot)

theorem reconcileAssuranceProfiles_steps {profile : ProviderSettings env.parsers → Digest}
    {more : Bool} (h : (reconcileAssuranceProfiles env profile).run w = .ok (more, w')) :
    ∃ ids, SteppedAt ids w w' := by
  simp only [reconcileAssuranceProfiles, Tx.run_bind, Tx.run_select, Tx.run_require] at h
  obtain ⟨_, _, ⟨rfl, rfl⟩, -, _, ⟨-, rfl⟩, h⟩ := h
  refine ⟨_, reconcileProviders_steps ?_ h⟩
  refine (List.perm_insertionSort _ _).nodup_iff.mpr (List.pairwise_map.mpr ?_)
  exact (w.state.providers.compatible.filter _).imp fun h => h.1

/-- A committed creation adds a provider, with its credentials sealed at its version. -/
theorem createProvider_steps {actor : AuthenticatedSession} {settings : ProviderSettings env.parsers}
    {credentials : ℕ} {profile : Digest} {view : ProviderView env.parsers}
    (h : (createProvider env actor settings credentials profile).run w = .ok (view, w')) :
    w.state.providers.Evolves ProviderRow.Steps w'.state.providers ∧
      (ProvidersSealed w.state → ProvidersSealed w'.state) := by
  simp only [createProvider, Tx.run_bind, Tx.run_select, Tx.run_require, run_newV4, Tx.run_pure,
    Tables.providers_get] at h
  obtain ⟨loaded, w₁, hrecheck, _, w₂, hauthorize, _, _, ⟨rfl, rfl⟩, -, _, ⟨hcount, rfl⟩, id, _, ⟨-, rfl⟩,
    _, w₃, hinsert, _, w₄, hwrite, rfl, rfl⟩ := h
  have hread : w₁.state = w.state := @WritesOnly.readOnly _ env _ (fun _ => recheck_writes) _ _ _ hrecheck
  have hread' : w₂.state = w₁.state :=
    @WritesOnly.readOnly _ env _ (fun _ => authorize_writes) _ _ _ hauthorize
  have hstate : w₂.state = w.state := hread'.trans hread
  obtain ⟨t, db, ht, hdb, rfl⟩ := Tx.run_insertInto.mp hinsert
  obtain ⟨-, rfl⟩ := advanceRevision_eq_some.mp hdb
  obtain ⟨hkept, sealedValue, hwritten⟩ := run_writeCredentials hwrite
  simp only [Tables.providers_get, hstate] at ht hcount
  have hproviders : w₄.state.providers = t := hkept
  have hcredentials : ∀ id', w₄.state.providerCredentials.find? id' =
      if id' = ⟨id⟩ then some ⟨⟨id⟩, 1, sealedValue⟩ else w.state.providerCredentials.find? id' := by
    intro id'
    rw [hwritten]
    simp only [Db.revised, hstate]
  rw [hproviders]
  refine ⟨.of_insert ProviderRow.Steps.refl ht, fun hsealed => ⟨?_, ?_⟩⟩
  · have hrows := (Table.insert_eq_some.mp ht).1
    have hheld : w.state.providers.rows.length < maxProviders := by
      simpa [Table.filter] using hcount
    rw [hproviders, hrows, List.length_cons]
    omega
  · intro id' row hrow
    rw [hproviders, Table.find?_insert ht] at hrow
    rw [hcredentials]
    by_cases hsame : id' = ⟨id⟩
    · rw [if_pos hsame]
      rw [if_pos (by rw [hsame]; rfl)] at hrow
      cases hrow
      exact ⟨_, rfl, rfl⟩
    · rw [if_neg hsame]
      rw [if_neg (fun heq => hsame (by rw [← heq]; rfl))] at hrow
      exact hsealed.credentials id' row hrow

end Operations

/-- Every transaction steps each provider at most once, and keeps the credentials sealed. -/
theorem Commit.steps_providers {commit : Commit env} (h : commit.Runs w w') :
    w.state.providers.Evolves ProviderRow.Steps w'.state.providers ∧
      (ProvidersSealed w.state → ProvidersSealed w'.state) := by
  have hframe : .providers ∉ commit.areas →
      w.state.providers.Evolves ProviderRow.Steps w'.state.providers ∧
        (ProvidersSealed w.state → ProvidersSealed w'.state) := by
    intro hareas
    have hkept := (Commit.effects h).frame (fun db => (db.providers, db.providerCredentials))
      fun w a db ha heffect => heffect.providers_eq fun heq => hareas (heq ▸ ha)
    simp only [Prod.mk.injEq] at hkept
    have hstep : SteppedAt [] w w' := .of_eq [] hkept.1 hkept.2
    exact ⟨hstep.steps, hstep.stays⟩
  cases commit with
  | createProvider => exact createProvider_steps h
  | editProvider =>
    obtain ⟨hstep, -⟩ := editProvider_steps h
    exact ⟨hstep.steps, hstep.stays⟩
  | reconcileAssuranceProfiles =>
    obtain ⟨ids, hstep⟩ := reconcileAssuranceProfiles_steps h
    exact ⟨hstep.steps, hstep.stays⟩
  | _ => exact hframe (by simp [areas, commitAreas])

/-- A version of a provider is behind: all that refers to it is turned away. -/
structure Fenced (env : Env) (id : ProviderId) (version : ℤ) (w : Tenant) : Prop where
  exact : ∀ view w', (provider env id).run w = .ok (view, w') → exact view version ≠ .ok ()
  origin : ∀ key (o : Origin) identity, w.state.externalIdentities.find? o.identity = some identity →
    identity.provider = id → o.facts.providerConfigVersion = version →
    ∀ source w', (checkOrigin env key o).run w ≠ .ok (source, w')
  current : ∀ verified : VerifiedExternalSubject, verified.provider = id →
    verified.version = version → ∀ view w', (provider env id).run w = .ok (view, w') →
      checkCurrent verified view ≠ .ok ()
  grant : ∀ key identity epoch w',
    (validateSource key (.oidc identity id version epoch)).run w ≠ .ok ((), w')

/-- A version is behind once the provider is past it. -/
theorem fenced_of_past {id : ProviderId} {version : ℤ} {row : ProviderRow}
    (hrow : w.state.providers.find? id = some row) (hpast : version < row.configVersion) :
    Fenced env id version w := by
  refine ⟨?_, ?_, ?_, ?_⟩
  · intro view w' hread hexact
    obtain ⟨-, -, hfound⟩ := run_provider hread
    obtain rfl := Option.some_injective _ (hrow.symm.trans hfound)
    exact absurd (exact_eq_ok.mp hexact).2 (ne_of_gt hpast)
  · intro key o identity hidentity hprovider hversion source w' hcheck
    obtain ⟨-, identity', provider, hbacks, -⟩ := run_checkOrigin.mp hcheck
    obtain rfl : identity = identity' := Option.some_injective _ (hidentity.symm.trans hbacks.bound)
    have hconfigured := hbacks.configured
    rw [hprovider, hrow, Option.some.injEq] at hconfigured
    have hsame := hbacks.version
    rw [← hconfigured, hversion] at hsame
    omega
  · intro verified _ hversion view w' hread hcurrent
    obtain ⟨-, -, hfound⟩ := run_provider hread
    obtain rfl := Option.some_injective _ (hrow.symm.trans hfound)
    have hsame := (checkCurrent_eq_ok.mp hcurrent).2.1
    simp only [ProviderView.row] at hpast
    omega
  · intro key identity epoch w' hvalid
    simp only [validateSource, Tx.run_bind, Tx.run_query, Tx.run_require] at hvalid
    obtain ⟨_, _, ⟨rfl, rfl⟩, hbacks, -⟩ := hvalid
    obtain ⟨i, -, -, -, p, hp, -, hsame, -⟩ := of_decide_eq_true hbacks
    rw [Option.mem_def, hrow, Option.some.injEq] at hp
    rw [← hp] at hsame
    omega

/-- What holds of the providers of a run, and of the state it reached: a version is edited once;
each edit found the version it was given and moved it by one; no transaction moves a provider but
once and forward; a moved provider fences its earlier versions; a failed edit leaves the state as it
is. -/
structure ProvidersFence (trace : List (Event (System env) (Label env))) (s : System env) :
    Prop where
  once : trace.Pairwise fun e f => ∀ actor actor' id expected edit edit' result result',
    e.label = .commit (.editProvider actor id expected edit result) →
    f.label ≠ .commit (.editProvider actor' id expected edit' result')
  edited : ∀ e ∈ trace, ∀ actor id expected edit result,
    e.label = .commit (.editProvider actor id expected edit result) →
    ∃ row next, e.before.world.state.providers.find? id = some row ∧ row.configVersion = expected ∧
      e.after.world.state.providers.find? id = some next ∧ row.Moves next
  moved : ∀ e ∈ trace, ∀ id row, e.before.world.state.providers.find? id = some row →
    ∃ next, e.after.world.state.providers.find? id = some next ∧ (next = row ∨ row.Moves next)
  fenced : ∀ e ∈ trace, ∀ id row next, e.before.world.state.providers.find? id = some row →
    e.after.world.state.providers.find? id = some next → next ≠ row →
    ∀ version ≤ row.configVersion, Fenced env id version s.world
  bounded : s.world.state.providers.rows.length ≤ 100
  credentials : ∀ id row, s.world.state.providers.find? id = some row →
    ∃ c, s.world.state.providerCredentials.find? id = some c ∧
      c.credentialVersion = row.credentialVersion
  failed : ∀ actor id expected edit error, (editProvider env actor id expected edit).run s.world =
    .error error → ((editProvider env actor id expected edit).settle s.world).state = s.world.state

variable {s₀ s s' : System env} {trace : List (Event (System env) (Label env))} {label : Label env}

theorem Step.steps_providers (h : Step env s label s') :
    s.world.state.providers.Evolves ProviderRow.Steps s'.world.state.providers ∧
      (ProvidersSealed s.world.state → ProvidersSealed s'.world.state) := by
  cases h with
  | commit _ hruns => exact Commit.steps_providers hruns
  | elapse hstate =>
    simp only [hstate]
    exact ⟨.refl ProviderRow.Steps.refl, id⟩

/-- What the steps of a run left of the providers they moved. -/
structure ProviderHistory (trace : List (Event (System env) (Label env))) (s : System env) :
    Prop where
  stillSealed : ProvidersSealed s.world.state
  past : ∀ e ∈ trace, ∀ id row next, e.before.world.state.providers.find? id = some row →
    e.after.world.state.providers.find? id = some next → next ≠ row →
    ∃ now, s.world.state.providers.find? id = some now ∧ row.configVersion < now.configVersion
  once : trace.Pairwise fun e f => ∀ actor actor' id expected edit edit' result result',
    e.label = .commit (.editProvider actor id expected edit result) →
    f.label ≠ .commit (.editProvider actor' id expected edit' result')

/-- A committed edit found its version and left the next one. -/
theorem Step.edited {actor : AuthenticatedSession} {id : ProviderId} {expected : ℤ}
    {edit : ProviderEdit env.parsers} {result : ProviderView env.parsers}
    (h : Step env s (.commit (.editProvider actor id expected edit result)) s') :
    ∃ row next, s.world.state.providers.find? id = some row ∧ row.configVersion = expected ∧
      s'.world.state.providers.find? id = some next ∧ row.Moves next := by
  cases h with
  | commit _ hruns =>
    obtain ⟨-, row, hrow, hversion, hnext, hmoves⟩ := editProvider_steps hruns
    exact ⟨row, _, hrow, hversion, hnext, hmoves⟩

theorem ProviderRow.Moves.ne {row next : ProviderRow} (h : row.Moves next) : next ≠ row := by
  rintro rfl
  have hversion := h.configVersion
  omega

theorem ProviderHistory.step (h : ProviderHistory trace s)
    (hsteps : ∀ e ∈ trace, Step env e.before e.label e.after) (hstep : Step env s label s') :
    ProviderHistory (trace ++ [⟨s, label, s'⟩]) s' := by
  obtain ⟨hevolves, hseals⟩ := hstep.steps_providers
  refine ⟨hseals h.stillSealed, ?_, ?_⟩
  · intro e he id row next hrow hnext hne
    rcases List.mem_append.mp he with he | he
    · obtain ⟨now, hnow, hlt⟩ := h.past e he id row next hrow hnext hne
      obtain ⟨now', hnow', hlater⟩ := hstep.follows.providers id now hnow
      exact ⟨now', hnow', lt_of_lt_of_le hlt hlater.configVersion⟩
    · obtain rfl := List.mem_singleton.mp he
      obtain ⟨next', hnext', hstepped⟩ := hevolves id row hrow
      obtain rfl := Option.some_injective _ (hnext.symm.trans hnext')
      rcases hstepped with hsame | hmoves
      · exact absurd hsame hne
      · exact ⟨next, hnext, by rw [hmoves.configVersion]; omega⟩
  · refine List.pairwise_append.mpr ⟨h.once, List.pairwise_singleton _ _, ?_⟩
    intro e he f hf actor actor' id expected edit edit' result result' hlabel hagain
    obtain rfl := List.mem_singleton.mp hf
    have hedit := hsteps e he
    rw [hlabel] at hedit
    obtain ⟨row, next, hrow, hversion, hnext, hmoves⟩ := hedit.edited
    obtain ⟨now, hnow, hlt⟩ := h.past e he id row next hrow hnext hmoves.ne
    obtain rfl : label = .commit (.editProvider actor' id expected edit' result') := hagain
    obtain ⟨row', next', hrow', hversion', -⟩ := hstep.edited
    obtain rfl := Option.some_injective _ (hnow.symm.trans hrow')
    omega

theorem providerHistory_of_run (hstart : s₀.Provisioned) (hrun : Run (Step env) s₀ trace s) :
    ProviderHistory trace s := by
  refine hrun.history ⟨⟨?_, ?_⟩, by simp, .nil⟩ fun _ _ _ _ hrun h hstep => h.step hrun.steps hstep
  · rw [hstart.1]
    decide
  · intro id row hrow
    rw [hstart.1] at hrow
    cases hrow

/-- Providers fence their versions: in every run, a version is edited once, every change moves it by
one, and whatever refers to an earlier version is turned away for good. -/
theorem providers_fence (hstart : s₀.Provisioned) (hrun : Run (Step env) s₀ trace s) :
    ProvidersFence trace s := by
  have hhistory := providerHistory_of_run hstart hrun
  refine ⟨hhistory.once, ?_, ?_, ?_, hhistory.stillSealed.bounded,
    hhistory.stillSealed.credentials, ?_⟩
  · intro e he actor id expected edit result hlabel
    have hedit := hrun.steps e he
    rw [hlabel] at hedit
    exact hedit.edited
  · intro e he id row hrow
    exact (hrun.steps e he).steps_providers.1 id row hrow
  · intro e he id row next hrow hnext hne version hle
    obtain ⟨now, hnow, hlt⟩ := hhistory.past e he id row next hrow hnext hne
    exact fenced_of_past hnow (lt_of_le_of_lt hle hlt)
  · intro actor id expected edit error herror
    rw [Tx.settle_of_error herror]

/-- The provider that `ada` set up and enabled has fenced its first version. -/
theorem partner_fenced : ∃ id version, Fenced .transparent id version federatedWorld := by
  obtain ⟨trace, held, hrun, e, he, actor, id, expected, edit, result, hlabel⟩ := federated_reachable
  have hfence := providers_fence ⟨rfl, rfl⟩ hrun
  obtain ⟨row, next, hrow, -, hnext, hmoves⟩ := hfence.edited e he actor id expected edit result hlabel
  exact ⟨id, row.configVersion, hfence.fenced e he id row next hrow hnext hmoves.ne _ le_rfl⟩

end IdentityAuthority
