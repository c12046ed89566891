import IdentityAuthority.Audit.Reports
import IdentityAuthority.Safety.Providers
import IdentityAuthority.Transition.Run

/-!
# Reconciliation of provider profiles

A deployment that reads assurance in a new way moves on every provider that was admitted under the
old one. It scans all providers in transactions of at most eight events, from the beginning each
time: what a transaction brought to its profile is passed over by the next.
-/

namespace IdentityAuthority

open Relational Transition

variable {env : Env} {reporter : Reporter} {profile : ProviderSettings env.parsers → Digest}
  {w w' w'' : Tenant} {changed changed' : List ProviderRow} {row : ProviderRow}

section Rows

variable (env) (profile)

/-- The profile a provider should have, if its settings are readable. -/
def ProviderRow.current (row : ProviderRow) : Option Digest :=
  (ProviderSettings.tryFrom env.parsers row.settings).toOption.map profile

/-- The provider has another profile than it should. -/
def ProviderRow.drifted (row : ProviderRow) : Bool :=
  (row.current env profile).any fun digest => decide (digest ≠ row.assuranceProfile)

/-- The provider at its profile, one version and one revocation epoch on. -/
def ProviderRow.brought (row : ProviderRow) : ProviderRow :=
  { row with
    configVersion := row.configVersion + 1
    revocationEpoch := row.revocationEpoch + 1
    assuranceProfile := (row.current env profile).getD row.assuranceProfile }

/-- The providers that have drifted. -/
def Db.drift (db : Db) : List ProviderRow :=
  db.providers.filter fun row => row.drifted env profile

/-- The event of a provider that was updated. -/
def Reporter.updated (reporter : Reporter) (row : ProviderRow) : SecurityEvent :=
  .federation
    { tenant := reporter.ids.text reporter.tenant
      action := .providerUpdated
      provider := row.provider
      configVersion := row.configVersion
      principal := none
      diagnostic := none }

variable {env profile}

@[simp] theorem ProviderRow.brought_current :
    (row.brought env profile).current env profile = row.current env profile := rfl

theorem ProviderRow.drifted_iff :
    row.drifted env profile = true ↔
      ∃ digest, row.current env profile = some digest ∧ digest ≠ row.assuranceProfile := by
  simp [drifted, Option.any_eq_true]

/-- What was brought to its profile has not drifted. -/
theorem ProviderRow.brought_not_drifted : (row.brought env profile).drifted env profile = false := by
  rw [drifted, brought_current]
  cases hcurrent : row.current env profile with
  | none => rfl
  | some digest => simp [brought, hcurrent]

/-- The settings of a view are readable. -/
theorem ProviderView.row_current {view : ProviderView env.parsers} :
    view.row.current env profile = some (profile view.settings) := by
  have hread : ProviderSettings.tryFrom env.parsers view.settings.input = .ok view.settings := by
    unfold ProviderSettings.tryFrom
    rw [dif_pos view.settings.valid]
  simp only [ProviderRow.current, ProviderView.row, hread]
  rfl

end Rows

/-- Some rows were brought to their profiles, and nothing else was changed. -/
structure Brought (env : Env) (profile : ProviderSettings env.parsers → Digest)
    (changed : List ProviderRow) (db db' : Db) : Prop where
  rows : db'.providers.rows = db.providers.rows.map fun row =>
    if row ∈ changed then row.brought env profile else row
  drifted : ∀ row ∈ changed, row ∈ db.providers ∧ row.drifted env profile = true
  nodup : changed.Nodup
  frame : db' = { db with
    providers := db'.providers
    tenantGuard := { db.tenantGuard with
      personnelRevision := db.tenantGuard.personnelRevision + changed.length } }

namespace Brought

variable {db db' db'' : Db}

theorem refl (db : Db) : Brought env profile [] db db where
  rows := by simp
  drifted := by simp
  nodup := .nil
  frame := by simp

/-- Every row after a change is one of before, or was brought. -/
theorem of_mem (h : Brought env profile changed db db') (hrow : row ∈ db'.providers) :
    ∃ old ∈ db.providers,
      (old ∈ changed ∧ row = old.brought env profile) ∨ (old ∉ changed ∧ row = old) := by
  have hmem : row ∈ db'.providers.rows := hrow
  rw [h.rows, List.mem_map] at hmem
  obtain ⟨old, hold, rfl⟩ := hmem
  refine ⟨old, hold, ?_⟩
  by_cases hchanged : old ∈ changed
  · exact .inl ⟨hchanged, if_pos hchanged⟩
  · exact .inr ⟨hchanged, if_neg hchanged⟩

/-- What has drifted still, had drifted before and is unchanged. -/
theorem of_drifted (h : Brought env profile changed db db') (hrow : row ∈ db'.providers)
    (hdrifted : row.drifted env profile = true) : row ∈ db.providers ∧ row ∉ changed := by
  obtain ⟨old, hold, ⟨-, rfl⟩ | ⟨hnot, rfl⟩⟩ := h.of_mem hrow
  · rw [ProviderRow.brought_not_drifted] at hdrifted
    cases hdrifted
  · exact ⟨hold, hnot⟩

/-- Changes one after the other are one change of different rows. -/
theorem trans (h : Brought env profile changed db db') (h' : Brought env profile changed' db' db'') :
    Brought env profile (changed ++ changed') db db'' where
  rows := by
    rw [h'.rows, h.rows, List.map_map]
    refine List.map_congr_left fun row hrow => ?_
    simp only [Function.comp_apply, List.mem_append]
    by_cases hchanged : row ∈ changed
    · have hnot : row.brought env profile ∉ changed' := by
        intro hmem
        have hdrifted := (h'.drifted _ hmem).2
        rw [ProviderRow.brought_not_drifted] at hdrifted
        cases hdrifted
      rw [if_pos hchanged, if_neg hnot, if_pos (.inl hchanged)]
    · rw [if_neg hchanged]
      by_cases hchanged' : row ∈ changed'
      · rw [if_pos hchanged', if_pos (.inr hchanged')]
      · rw [if_neg hchanged', if_neg (by simp [hchanged, hchanged'])]
  drifted row hrow := by
    rcases List.mem_append.mp hrow with hrow | hrow
    · exact h.drifted row hrow
    · obtain ⟨hmem, hdrifted⟩ := h'.drifted row hrow
      exact ⟨(h.of_drifted hmem hdrifted).1, hdrifted⟩
  nodup := by
    refine h.nodup.append h'.nodup fun row hrow hrow' => ?_
    obtain ⟨hmem, hdrifted⟩ := h'.drifted row hrow'
    exact (h.of_drifted hmem hdrifted).2 hrow
  frame := by
    have hframe := h'.frame
    rw [h.frame] at hframe
    rw [hframe]
    simp only [List.length_append, Nat.cast_add, add_assoc]

/-- Where no row was brought anywhere, nothing was changed. -/
theorem unchanged (h : Brought env profile [] db db') : db' = db := by
  have hrows : db'.providers.rows = db.providers.rows := by
    rw [h.rows]
    simp
  have hproviders : db'.providers = db.providers := by
    cases hleft : db'.providers
    cases hright : db.providers
    rw [hleft, hright] at hrows
    cases hrows
    rfl
  rw [h.frame, hproviders]
  simp

/-- No more rows are changed than have drifted; the rest has drifted still. -/
theorem length_add_drift (h : Brought env profile changed db db') :
    changed.length + (db'.drift env profile).length ≤ (db.drift env profile).length := by
  have hnodup : (changed ++ db'.drift env profile).Nodup := by
    refine h.nodup.append ?_ fun row hrow hrow' => ?_
    · exact List.Nodup.filter _ db'.providers.nodup_rows
    · obtain ⟨hmem, hdrifted⟩ := Table.mem_filter.mp hrow'
      exact (h.of_drifted hmem hdrifted).2 hrow
  have hsubset : changed ++ db'.drift env profile ⊆ db.drift env profile := by
    intro row hrow
    rcases List.mem_append.mp hrow with hrow | hrow
    · exact Table.mem_filter.mpr (h.drifted row hrow)
    · obtain ⟨hmem, hdrifted⟩ := Table.mem_filter.mp hrow
      exact Table.mem_filter.mpr ⟨(h.of_drifted hmem hdrifted).1, hdrifted⟩
  have hlength := (List.subperm_of_subset hnodup hsubset).length_le
  rwa [List.length_append] at hlength

/-- Where nothing has drifted any more, exactly what had drifted was changed. -/
theorem perm_drift (h : Brought env profile changed db db') (hnone : db'.drift env profile = []) :
    changed.Perm (db.drift env profile) := by
  refine (List.perm_ext_iff_of_nodup h.nodup (List.Nodup.filter _ db.providers.nodup_rows)).mpr
    fun row => ⟨fun hrow => Table.mem_filter.mpr (h.drifted row hrow), fun hrow => ?_⟩
  obtain ⟨hmem, hdrifted⟩ := Table.mem_filter.mp hrow
  by_contra hnot
  have hmem' : row ∈ db'.providers.rows := by
    rw [h.rows, List.mem_map]
    exact ⟨row, hmem, if_neg hnot⟩
  have hleft : row ∈ db'.drift env profile := Table.mem_filter.mpr ⟨hmem', hdrifted⟩
  rw [hnone] at hleft
  cases hleft

end Brought

section Scan

/-- A provider is one row of its table. -/
theorem count_provider {db : Db} (hrow : row ∈ db.providers) :
    db.providers.count (fun r => decide (r.provider = row.provider)) = 1 := by
  have hnodup : (db.providers.rows.map ProviderRow.provider).Nodup :=
    List.pairwise_map.mpr (db.providers.compatible.imp fun h => h.1)
  have hone := List.count_eq_one_of_mem hnodup (List.mem_map_of_mem hrow)
  rw [List.count, List.countP_map] at hone
  rw [← hone, Table.count]
  refine List.countP_congr fun r _ => ?_
  simp

/-- What a view is reconciled to is its row at the profile. -/
theorem reconciled_row {view next : ProviderView env.parsers}
    (h : view.reconciled (profile view.settings) = .ok next) :
    next.id = view.id ∧ next.row = view.row.brought env profile := by
  simp only [ProviderView.reconciled, bind, Except.bind] at h
  cases hversion : ProviderEdit.step view.version with
  | error e => simp [hversion] at h
  | ok version =>
    cases hepoch : ProviderEdit.step view.revocationEpoch with
    | error e => simp [hversion, hepoch] at h
    | ok revocationEpoch =>
      simp only [hversion, hepoch, Except.ok.injEq] at h
      subst h
      have hversion := ProviderEdit.step_eq_ok hversion
      have hepoch := ProviderEdit.step_eq_ok hepoch
      refine ⟨rfl, ?_⟩
      rw [ProviderRow.brought, ProviderView.row_current, Option.getD_some]
      simp only [ProviderView.row, hversion, hepoch]

/-- Storing what a drifted view is reconciled to brings its row there. -/
theorem run_storeReconciled {view next : ProviderView env.parsers}
    (hfound : w.state.providers.find? view.id = some view.row)
    (hdrifted : profile view.settings ≠ view.assuranceProfile)
    (hnext : view.reconciled (profile view.settings) = .ok next) {u : Unit}
    (h : (storeProvider next).run w = .ok (u, w')) :
    w' = { w with state := w'.state } ∧ Brought env profile [view.row] w.state w'.state := by
  obtain ⟨hid, hrow⟩ := reconciled_row hnext
  have hmem : view.row ∈ w.state.providers := Table.mem_of_find? hfound
  simp only [storeProvider, Tx.run_bind, Tx.run_updateIn, Tx.run_pure, Tables.providers_get,
    Tables.providers_put, advanceRevision_eq_some] at h
  obtain ⟨n, _, ⟨t, db, ht, ⟨-, rfl⟩, hn, rfl⟩, -, rfl⟩ := h
  have hrows := Table.updateWhere_eq_some.mp ht
  have hcount : w.state.providers.count (fun r => decide (r.provider = next.id)) = 1 := by
    rw [hid]
    exact count_provider hmem
  refine ⟨rfl, ?_, ?_, List.nodup_singleton _, ?_⟩
  · simp only [Db.revised]
    rw [hrows]
    refine List.map_congr_left fun r hr => ?_
    by_cases hsame : r.provider = view.id
    · obtain rfl : r = view.row := Table.eq_of_key hr hmem hsame
      have hnamed : view.row.provider = next.id := hid.symm
      rw [if_pos (decide_eq_true hnamed), if_pos (List.mem_singleton.mpr rfl), hrow]
      rfl
    · have hne : r ≠ view.row := by
        rintro rfl
        exact hsame rfl
      simp [hid, hsame, hne]
  · intro r hr
    obtain rfl := List.mem_singleton.mp hr
    exact ⟨hmem, ProviderRow.drifted_iff.mpr ⟨_, ProviderView.row_current, hdrifted⟩⟩
  · rw [hn, hcount]
    rfl

/-- What one transaction of the scan did, from the events it had already. -/
structure Scanned (env : Env) (reporter : Reporter)
    (profile : ProviderSettings env.parsers → Digest) (ids : List ProviderId)
    (events events' : List SecurityEvent) (more : Bool) (changed : List ProviderRow)
    (w w' : Tenant) : Prop where
  elsewhere : w' = { w with state := w'.state }
  brought : Brought env profile changed w.state w'.state
  reported : events' = events ++ changed.map fun row => reporter.updated (row.brought env profile)
  /-- A transaction that must be followed is full. -/
  full : more = true → events'.length = maxMutationEvents
  /-- One that need not be has looked at all providers, and left them at their profiles. -/
  done : more = false → ∀ id ∈ ids, ∃ row ∈ w'.state.providers, row.provider = id ∧
    row.current env profile = some row.assuranceProfile
  bounded : events.length < maxMutationEvents → events'.length ≤ maxMutationEvents

/-- A provider at its profile is left there. -/
theorem Brought.current {db db' : Db} (h : Brought env profile changed db db')
    (hrow : row ∈ db.providers) (hcurrent : row.current env profile = some row.assuranceProfile) :
    row ∈ db'.providers := by
  have hnot : row ∉ changed := by
    intro hmem
    obtain ⟨digest, hdigest, hne⟩ := ProviderRow.drifted_iff.mp (h.drifted row hmem).2
    rw [hcurrent, Option.some.injEq] at hdigest
    exact hne hdigest.symm
  have hmem : row ∈ db'.providers.rows := by
    rw [h.rows, List.mem_map]
    exact ⟨row, hrow, if_neg hnot⟩
  exact hmem

/-- The scan brings the providers that have drifted to their profiles, in their order. -/
theorem run_reconcileReporting : ∀ {ids : List ProviderId} {events events' : List SecurityEvent}
    {more : Bool} {w : Tenant},
    (reconcileReporting env reporter profile ids events).run w = .ok ((more, events'), w') →
      ∃ changed, Scanned env reporter profile ids events events' more changed w w' := by
  intro ids
  induction ids with
  | nil =>
    intro events events' more w h
    simp only [reconcileReporting, Tx.run_pure, Prod.mk.injEq] at h
    obtain ⟨⟨rfl, rfl⟩, rfl⟩ := h
    exact ⟨[], rfl, .refl _, by simp, by simp, by simp, fun h => h.le⟩
  | cons id ids ih =>
    intro events events' more w h
    obtain ⟨view, hview, hscan⟩ := run_reconcileReporting_cons.mp h
    obtain ⟨-, rfl, hfound⟩ := run_provider hview
    rcases hscan with ⟨hsame, h⟩ | ⟨hdrifted, next, w₁, hnext, hstore, h⟩
    · obtain ⟨changed, hrest⟩ := ih h
      refine ⟨changed, hrest.elsewhere, hrest.brought, hrest.reported, hrest.full, ?_,
        hrest.bounded⟩
      intro hmore other hother
      rcases List.mem_cons.mp hother with rfl | hother
      · have hcurrent : view.row.current env profile = some view.row.assuranceProfile := by
          rw [ProviderView.row_current, hsame]
          rfl
        exact ⟨view.row, hrest.brought.current (Table.mem_of_find? hfound) hcurrent, rfl, hcurrent⟩
      · exact hrest.done hmore other hother
    · obtain ⟨helsewhere, hbrought⟩ := run_storeReconciled hfound hdrifted hnext hstore
      obtain ⟨hid, hrow⟩ := reconciled_row hnext
      have hevent : reporter.federation .providerUpdated next none =
          reporter.updated (view.row.brought env profile) := by
        rw [← hrow]
        rfl
      have hcurrent : (view.row.brought env profile).current env profile =
          some (view.row.brought env profile).assuranceProfile := by
        rw [ProviderRow.brought_current, ProviderRow.brought, ProviderView.row_current]
        rfl
      have hstored : view.row.brought env profile ∈ w₁.state.providers := by
        have hmem : view.row.brought env profile ∈ w₁.state.providers.rows := by
          rw [hbrought.rows, List.mem_map]
          exact ⟨view.row, Table.mem_of_find? hfound, if_pos (List.mem_singleton.mpr rfl)⟩
        exact hmem
      split at h
      next hfull =>
        obtain ⟨rfl, rfl, rfl⟩ := h
        refine ⟨[view.row], helsewhere, hbrought, by rw [hevent]; rfl, ?_, by simp, ?_⟩
        · intro _
          rw [List.length_append, List.length_singleton, hfull]
        · intro _
          rw [List.length_append, List.length_singleton, hfull]
      next hfull =>
        obtain ⟨changed, hrest⟩ := ih h
        refine ⟨view.row :: changed, ?_, hbrought.trans hrest.brought, ?_, hrest.full, ?_, ?_⟩
        · rw [hrest.elsewhere, helsewhere]
        · rw [hrest.reported, hevent, List.map_cons, List.append_assoc, List.singleton_append]
        · intro hmore other hother
          rcases List.mem_cons.mp hother with rfl | hother
          · exact ⟨_, hrest.brought.current hstored hcurrent, rfl, hcurrent⟩
          · exact hrest.done hmore other hother
        · intro hroom
          refine hrest.bounded ?_
          rw [List.length_append, List.length_singleton]
          omega

end Scan

section Batches

/-- What one transaction of a reconciliation did. -/
structure Batched (env : Env) (reporter : Reporter)
    (profile : ProviderSettings env.parsers → Digest) (events : List SecurityEvent) (more : Bool)
    (changed : List ProviderRow) (w w' : Tenant) : Prop where
  few : w.state.providers.rows.length ≤ maxProviders
  brought : Brought env profile changed w.state w'.state
  reported : events = changed.map fun row => reporter.updated (row.brought env profile)
  bounded : events.length ≤ maxMutationEvents
  full : more = true → events.length = maxMutationEvents
  done : more = false → ∀ row ∈ w'.state.providers,
    row.current env profile = some row.assuranceProfile

/-- The scan of a transaction is over all providers. -/
theorem run_reconcileBatch {events : List SecurityEvent} {more : Bool}
    (h : (reconcileBatch env reporter profile).run w = .ok ((more, events), w')) :
    ∃ changed, Batched env reporter profile events more changed w w' := by
  simp only [reconcileBatch, Tx.run_bind, Tx.run_select, Tx.run_require, Tables.providers_get] at h
  obtain ⟨rows, _, ⟨hrows, rfl⟩, -, _, ⟨hfew, rfl⟩, hscan⟩ := h
  have hall : rows = w.state.providers.rows := by
    rw [hrows, Table.filter, List.filter_eq_self]
    simp
  subst hall
  obtain ⟨changed, hscanned⟩ := run_reconcileReporting hscan
  have hbound := hscanned.bounded (by decide)
  refine ⟨changed, ?_, hscanned.brought, by simpa using hscanned.reported, hbound, hscanned.full,
    fun hmore row hrow => ?_⟩
  · rwa [List.length_insertionSort, List.length_map] at hfew
  · obtain ⟨old, hold, hsame⟩ := hscanned.brought.of_mem hrow
    have hprovider : row.provider = old.provider := by
      rcases hsame with ⟨-, rfl⟩ | ⟨-, rfl⟩ <;> rfl
    have hmem : old.provider ∈ (w.state.providers.rows.map ProviderRow.provider).insertionSort
        fun p q => p.uuid.value ≤ q.uuid.value :=
      (List.perm_insertionSort _ _).mem_iff.mpr (List.mem_map_of_mem hold)
    obtain ⟨found, hfound, hid, hcurrent⟩ := hscanned.done hmore _ hmem
    obtain rfl : found = row := Table.eq_of_key hfound hrow (hid.trans hprovider.symm)
    exact hcurrent

/-- A transaction that must be followed, and the time until the next one starts. -/
def FullBatch (env : Env) (reporter : Reporter) (profile : ProviderSettings env.parsers → Digest)
    (w : Tenant) (events : List SecurityEvent) (w'' : Tenant) : Prop :=
  ∃ w', (reconcileBatch env reporter profile).run w = .ok ((true, events), w') ∧
    w''.state = w'.state ∧ w'.Advances w''

/-- A whole call of `reconcile_assurance_profiles`, with the events of each of its transactions:
full ones, and a last one that was not followed. -/
def Reconciles (env : Env) (reporter : Reporter) (profile : ProviderSettings env.parsers → Digest)
    (w : Tenant) (batches : List (List SecurityEvent)) (w' : Tenant) : Prop :=
  ∃ trace w₁ events, Run (FullBatch env reporter profile) w trace w₁ ∧
    (reconcileBatch env reporter profile).run w₁ = .ok ((false, events), w') ∧
    batches = trace.map Event.label ++ [events]

/-- Full transactions bring eight providers each to their profiles. -/
theorem fullBatches_brought {trace : List (Event Tenant (List SecurityEvent))}
    (hrun : Run (FullBatch env reporter profile) w trace w') :
    ∃ changed, Brought env profile changed w.state w'.state ∧
      (trace.map Event.label).flatten =
        changed.map (fun row => reporter.updated (row.brought env profile)) ∧
      changed.length = maxMutationEvents * trace.length ∧
      ∀ e ∈ trace, e.label.length = maxMutationEvents := by
  induction hrun with
  | start => exact ⟨[], .refl _, by simp, by simp, by simp⟩
  | @step trace s s' events hrun hstep ih =>
    obtain ⟨changed, hbrought, hevents, hlength, hfull⟩ := ih
    obtain ⟨w₁, hbatch, hstate, -⟩ := hstep
    obtain ⟨changed', hbatched⟩ := run_reconcileBatch hbatch
    have hlength' := hbatched.full rfl
    rw [hbatched.reported, List.length_map] at hlength'
    refine ⟨changed ++ changed', ?_, ?_, ?_, ?_⟩
    · rw [hstate]
      exact hbrought.trans hbatched.brought
    · rw [List.map_append, List.flatten_append, hevents, List.map_append]
      simp [hbatched.reported]
    · rw [List.length_append, List.length_append, hlength, hlength', List.length_singleton,
        Nat.mul_add, Nat.mul_one]
    · intro e he
      rcases List.mem_append.mp he with he | he
      · exact hfull e he
      · obtain rfl := List.mem_singleton.mp he
        exact hbatched.full rfl

/-- Each full transaction of a call leaves eight providers fewer to bring. -/
theorem fullBatches_bounded {trace : List (Event Tenant (List SecurityEvent))}
    (hrun : Run (FullBatch env reporter profile) w trace w') :
    maxMutationEvents * trace.length ≤ (w.state.drift env profile).length := by
  obtain ⟨changed, hbrought, -, hlength, -⟩ := fullBatches_brought hrun
  have hleft := hbrought.length_add_drift
  omega

end Batches

section Progress

/-- The providers can be reconciled: they are not too many, their settings are readable, and what
has to be counted on has room. -/
structure Reconcilable (env : Env) (profile : ProviderSettings env.parsers → Digest) (db : Db) :
    Prop where
  few : db.providers.rows.length ≤ maxProviders
  readable : ∀ row ∈ db.providers, (row.current env profile).isSome = true
  counters : ∀ row ∈ db.drift env profile,
    row.configVersion < i64Max ∧ row.revocationEpoch < i64Max
  revision : db.drift env profile ≠ [] → 0 ≤ db.tenantGuard.personnelRevision ∧
    db.tenantGuard.personnelRevision + (db.drift env profile).length ≤ i64Max

/-- A generation with room takes its next step. -/
theorem ProviderEdit.step_succeeds {generation : ℤ} (hpos : 0 < generation)
    (hroom : generation < i64Max) : ProviderEdit.step generation = .ok (generation + 1) := by
  have hrange : isI64 (generation + 1) = true := by
    have hmin : i64Min ≤ 0 := by decide
    exact decide_eq_true ⟨by omega, by omega⟩
  unfold ProviderEdit.step checkedAdd
  rw [if_pos hrange]

/-- A readable provider is read. -/
theorem provider_succeeds (hrow : row ∈ w.state.providers)
    (hreadable : (row.current env profile).isSome = true) :
    ∃ view : ProviderView env.parsers, (provider env row.provider).run w = .ok (view, w) ∧
      view.row = row := by
  obtain ⟨hversion, hepoch, -⟩ := Table.check_of_mem hrow
  have hfind : w.state.providers.find? row.provider = some row := Table.find?_of_mem hrow
  rw [ProviderRow.current, Option.isSome_map] at hreadable
  obtain ⟨settings, hsettings⟩ := Option.isSome_iff_exists.mp hreadable
  have hinput : settings.input = row.settings := by
    unfold ProviderSettings.tryFrom at hsettings
    split at hsettings
    · simp only [Except.toOption, Option.some.injEq] at hsettings
      rw [← hsettings]
    · cases hsettings
  refine ⟨⟨row.provider, row.configVersion, row.enabled, row.revocationEpoch, settings,
    row.assuranceProfile, row.credentialVersion⟩, ?_, by simp only [ProviderView.row, hinput]⟩
  simp only [provider, Tx.run_bind, Tx.run_find, Tx.run_demand, Tx.run_require, Tx.run_pure,
    Tables.providers_get]
  exact ⟨_, w, ⟨rfl, rfl⟩, row, w, ⟨hfind, rfl⟩, settings, w, ⟨hsettings, rfl⟩, (), w,
    ⟨⟨hversion, hepoch⟩, rfl⟩, rfl, rfl⟩

/-- A provider with room is brought to its profile. -/
theorem storeReconciled_succeeds {view : ProviderView env.parsers}
    (hrow : view.row ∈ w.state.providers) (hversion : view.version < i64Max)
    (hepoch : view.revocationEpoch < i64Max) (hrevision : 0 ≤ w.state.tenantGuard.personnelRevision)
    (hroom : w.state.tenantGuard.personnelRevision + 1 ≤ i64Max) :
    ∃ next w₁, view.reconciled (profile view.settings) = .ok next ∧
      (storeProvider next).run w = .ok ((), w₁) := by
  obtain ⟨hversion', hepoch', hcredential⟩ := Table.check_of_mem hrow
  change 0 < view.version at hversion'
  change 0 < view.revocationEpoch at hepoch'
  have hnext : view.reconciled (profile view.settings) = .ok
      { view with version := view.version + 1, revocationEpoch := view.revocationEpoch + 1,
                  assuranceProfile := profile view.settings } := by
    unfold ProviderView.reconciled
    rw [ProviderEdit.step_succeeds hversion' hversion, ProviderEdit.step_succeeds hepoch' hepoch]
    rfl
  obtain ⟨hid, hbrought⟩ := reconciled_row hnext
  have hcount := count_provider hrow
  obtain ⟨t, ht⟩ : ∃ t, w.state.providers.updateWhere
      (fun r => decide (r.provider = view.row.provider))
      (fun r => { view.row.brought env profile with provider := r.provider }) = some t := by
    refine Table.updateWhere_succeeds (fun _ => rfl) (fun _ _ h => h) fun r _ _ => ?_
    have hversion₁ : 0 < view.version + 1 := by omega
    have hepoch₁ : 0 < view.revocationEpoch + 1 := by omega
    exact ⟨hversion₁, hepoch₁, hcredential⟩
  have hrange : isI64 (w.state.tenantGuard.personnelRevision + (1 : ℕ)) = true := by
    have hmin : i64Min ≤ 0 := by decide
    exact decide_eq_true ⟨by omega, by omega⟩
  refine ⟨_, { w with state := ({ w.state with providers := t } : Db).revised 1 }, hnext, ?_⟩
  simp only [storeProvider, Tx.run_bind, Tx.run_updateIn, Tx.run_pure, Tables.providers_get,
    Tables.providers_put, advanceRevision_eq_some]
  rw [hbrought]
  exact ⟨1, _, ⟨t, _, ht, ⟨hrange, rfl⟩, hcount.symm, rfl⟩, trivial, rfl⟩

/-- The scan goes through, from wherever the call has got to. -/
theorem reconcileReporting_succeeds {db : Db} (hready : Reconcilable env profile db) :
    ∀ {ids : List ProviderId} {events : List SecurityEvent} {changed : List ProviderRow}
      {w : Tenant}, Brought env profile changed db w.state →
      (∀ id ∈ ids, ∃ row ∈ db.providers, row.provider = id) →
      ∃ more events' w', (reconcileReporting env reporter profile ids events).run w =
        .ok ((more, events'), w') := by
  intro ids
  induction ids with
  | nil => exact fun {events _ w} _ _ => ⟨false, events, w, rfl⟩
  | cons id ids ih =>
    intro events changed w hbrought hids
    obtain ⟨old, hold, rfl⟩ := hids id List.mem_cons_self
    have hrest : ∀ id ∈ ids, ∃ row ∈ db.providers, row.provider = id :=
      fun id hid => hids id (List.mem_cons_of_mem _ hid)
    obtain ⟨row, hrow, hprovider, hreadable⟩ : ∃ row ∈ w.state.providers,
        row.provider = old.provider ∧ (row.current env profile).isSome = true := by
      have hmem : (if old ∈ changed then old.brought env profile else old) ∈
          w.state.providers.rows := by
        rw [hbrought.rows]
        exact List.mem_map_of_mem hold
      have hreadable := hready.readable old hold
      refine ⟨_, hmem, ?_⟩
      split <;> exact ⟨rfl, hreadable⟩
    obtain ⟨view, hview, rfl⟩ := provider_succeeds hrow hreadable
    rw [hprovider] at hview
    by_cases hsame : profile view.settings = view.assuranceProfile
    · obtain ⟨more, events', w', hscan⟩ := @ih events changed w hbrought hrest
      exact ⟨more, events', w', run_reconcileReporting_cons.mpr
        ⟨view, hview, .inl ⟨hsame, hscan⟩⟩⟩
    · have hdrifted : view.row.drifted env profile = true :=
        ProviderRow.drifted_iff.mpr ⟨_, ProviderView.row_current, hsame⟩
      obtain ⟨hmem, hnot⟩ := hbrought.of_drifted hrow hdrifted
      obtain ⟨hversion, hepoch⟩ := hready.counters _ (Table.mem_filter.mpr ⟨hmem, hdrifted⟩)
      have hleft := hbrought.length_add_drift
      have hpos : 0 < (w.state.drift env profile).length :=
        List.length_pos_of_mem (Table.mem_filter.mpr ⟨hrow, hdrifted⟩)
      obtain ⟨hrevision, hroom⟩ := hready.revision (List.ne_nil_of_length_pos (by omega))
      have hguard : w.state.tenantGuard.personnelRevision =
          db.tenantGuard.personnelRevision + changed.length := by
        rw [hbrought.frame]
      obtain ⟨next, w₁, hnext, hstore⟩ := @storeReconciled_succeeds env profile w view hrow hversion
        hepoch (by omega) (by omega)
      have hfound : w.state.providers.find? view.id = some view.row := Table.find?_of_mem hrow
      obtain ⟨-, hone⟩ := run_storeReconciled hfound hsame hnext hstore
      by_cases hfull : events.length + 1 = maxMutationEvents
      · refine ⟨true, events ++ [reporter.federation .providerUpdated next none], w₁,
          run_reconcileReporting_cons.mpr
            ⟨view, hview, .inr ⟨hsame, next, w₁, hnext, hstore, ?_⟩⟩⟩
        rw [if_pos hfull]
        exact ⟨rfl, rfl, rfl⟩
      · obtain ⟨more, events', w', hscan⟩ :=
          @ih (events ++ [reporter.federation .providerUpdated next none]) _ w₁
            (hbrought.trans hone) hrest
        refine ⟨more, events', w', run_reconcileReporting_cons.mpr
          ⟨view, hview, .inr ⟨hsame, next, w₁, hnext, hstore, ?_⟩⟩⟩
        rw [if_neg hfull]
        exact hscan

/-- No transaction of a call fails. -/
theorem reconcileBatch_succeeds (hready : Reconcilable env profile w.state)
    {trace : List (Event Tenant (List SecurityEvent))}
    (hrun : Run (FullBatch env reporter profile) w trace w') :
    ∃ more events w'', (reconcileBatch env reporter profile).run w' = .ok ((more, events), w'') := by
  obtain ⟨changed, hbrought, -, -, -⟩ := fullBatches_brought hrun
  have hlength : w'.state.providers.rows.length ≤ maxProviders := by
    rw [hbrought.rows, List.length_map]
    exact hready.few
  have hall : w'.state.providers.filter (fun _ => true) = w'.state.providers.rows := by
    rw [Table.filter, List.filter_eq_self]
    simp
  have hids : ∀ id ∈ (w'.state.providers.rows.map ProviderRow.provider).insertionSort
      (fun p q => p.uuid.value ≤ q.uuid.value), ∃ row ∈ w.state.providers, row.provider = id := by
    intro id hid
    have hmem := (List.perm_insertionSort _ _).mem_iff.mp hid
    obtain ⟨row, hrow, rfl⟩ := List.mem_map.mp hmem
    obtain ⟨old, hold, hsame⟩ := hbrought.of_mem hrow
    refine ⟨old, hold, ?_⟩
    rcases hsame with ⟨-, rfl⟩ | ⟨-, rfl⟩ <;> rfl
  obtain ⟨more, events, w'', hscan⟩ :=
    @reconcileReporting_succeeds env reporter profile _ hready _ [] changed w' hbrought hids
  refine ⟨more, events, w'', ?_⟩
  simp only [reconcileBatch, Tx.run_bind, Tx.run_select, Tx.run_require, Tables.providers_get, hall]
  refine ⟨_, w', ⟨rfl, rfl⟩, (), w', ⟨?_, rfl⟩, hscan⟩
  rwa [List.length_insertionSort, List.length_map]

/-- A call that can be made returns. -/
theorem reconciles_returns (hready : Reconcilable env profile w.state) :
    ∃ batches w', Reconciles env reporter profile w batches w' := by
  have hleft : ∀ n (trace : List (Event Tenant (List SecurityEvent))) w₁,
      Run (FullBatch env reporter profile) w trace w₁ →
      (w.state.drift env profile).length < maxMutationEvents * trace.length + n →
      ∃ batches w', Reconciles env reporter profile w batches w' := by
    intro n
    induction n with
    | zero =>
      intro trace w₁ hrun hbound
      have hdrift := fullBatches_bounded hrun
      omega
    | succ n ih =>
      intro trace w₁ hrun hbound
      obtain ⟨more, events, w', hbatch⟩ := reconcileBatch_succeeds hready hrun
      cases more with
      | false => exact ⟨_, w', trace, w₁, events, hrun, hbatch, rfl⟩
      | true =>
        refine ih _ w' (hrun.step ⟨w', hbatch, rfl, .refl w'⟩) ?_
        rw [List.length_append, List.length_singleton, Nat.mul_add]
        have hpos : 0 < maxMutationEvents := by decide
        omega
  have hbound : (w.state.drift env profile).length <
      maxMutationEvents * 0 + ((w.state.drift env profile).length + 1) := by omega
  exact hleft _ [] w .start hbound

end Progress

section Exactness

/-- What a call that returned did. -/
structure ReconciledExactly (env : Env) (reporter : Reporter)
    (profile : ProviderSettings env.parsers → Digest) (w : Tenant)
    (batches : List (List SecurityEvent)) (w' : Tenant) : Prop where
  /-- Every provider is at its profile. -/
  current : ∀ row ∈ w'.state.providers, row.current env profile = some row.assuranceProfile
  /-- Those that had drifted moved once; the others are as they were. -/
  rows : w'.state.providers.rows = w.state.providers.rows.map fun row =>
    if row.drifted env profile = true then row.brought env profile else row
  /-- Nothing else was changed; the personnel revision counts the changes. -/
  frame : w'.state = { w.state with
    providers := w'.state.providers
    tenantGuard := { w.state.tenantGuard with
      personnelRevision := w.state.tenantGuard.personnelRevision +
        (w.state.drift env profile).length } }
  /-- Each change was reported once, and nothing else. -/
  reports : batches.flatten.Perm
    ((w.state.drift env profile).map fun row => reporter.updated (row.brought env profile))
  bounded : ∀ batch ∈ batches, batch.length ≤ maxMutationEvents
  /-- A second call returns, changes nothing and reports nothing. -/
  again : ∀ w₂ : Tenant, w₂.state = w'.state →
    (∃ batches' w₃, Reconciles env reporter profile w₂ batches' w₃) ∧
      ∀ batches' w₃, Reconciles env reporter profile w₂ batches' w₃ →
        batches'.flatten = [] ∧ w₃.state = w'.state

/-- The whole change of a call. -/
theorem Reconciles.brought {batches : List (List SecurityEvent)}
    (h : Reconciles env reporter profile w batches w') :
    ∃ changed, Brought env profile changed w.state w'.state ∧
      batches.flatten = changed.map (fun row => reporter.updated (row.brought env profile)) ∧
      (∀ batch ∈ batches, batch.length ≤ maxMutationEvents) ∧
      w'.state.providers.rows.length ≤ maxProviders ∧
      ∀ row ∈ w'.state.providers, row.current env profile = some row.assuranceProfile := by
  obtain ⟨trace, w₁, events, hrun, hlast, rfl⟩ := h
  obtain ⟨changed, hbrought, hevents, -, hfull⟩ := fullBatches_brought hrun
  obtain ⟨changed', hbatched⟩ := run_reconcileBatch hlast
  refine ⟨changed ++ changed', hbrought.trans hbatched.brought, ?_, ?_, ?_, hbatched.done rfl⟩
  · rw [List.flatten_append, hevents, List.map_append]
    simp [hbatched.reported]
  · intro batch hbatch
    rcases List.mem_append.mp hbatch with hbatch | hbatch
    · obtain ⟨e, he, rfl⟩ := List.mem_map.mp hbatch
      exact (hfull e he).le
    · obtain rfl := List.mem_singleton.mp hbatch
      exact hbatched.bounded
  · rw [hbatched.brought.rows, List.length_map]
    exact hbatched.few

theorem Db.drift_eq_nil {db : Db} (h : ∀ row ∈ db.providers,
    row.current env profile = some row.assuranceProfile) : db.drift env profile = [] := by
  refine List.filter_eq_nil_iff.mpr fun row hrow hdrifted => ?_
  obtain ⟨digest, hdigest, hne⟩ := ProviderRow.drifted_iff.mp hdrifted
  rw [h row hrow, Option.some.injEq] at hdigest
  exact hne hdigest.symm

/-- A call that finds every provider at its profile changes nothing. -/
theorem Reconciles.unchanged {batches : List (List SecurityEvent)}
    (h : Reconciles env reporter profile w batches w') (hnone : w.state.drift env profile = []) :
    batches.flatten = [] ∧ w'.state = w.state := by
  obtain ⟨changed, hbrought, hevents, -, -, -⟩ := h.brought
  have hleft := hbrought.length_add_drift
  rw [hnone, List.length_nil] at hleft
  obtain rfl : changed = [] := List.eq_nil_of_length_eq_zero (by omega)
  exact ⟨hevents, hbrought.unchanged⟩

/-- A call that returned did exactly what was to be done. -/
theorem Reconciles.exactly {batches : List (List SecurityEvent)}
    (h : Reconciles env reporter profile w batches w') :
    ReconciledExactly env reporter profile w batches w' := by
  obtain ⟨changed, hbrought, hevents, hbounded, hfew, hcurrent⟩ := h.brought
  have hnone := Db.drift_eq_nil hcurrent
  have hperm := hbrought.perm_drift hnone
  refine ⟨hcurrent, ?_, ?_, ?_, hbounded, fun w₂ hstate => ⟨?_, fun batches' w₃ hcall => ?_⟩⟩
  · rw [hbrought.rows]
    refine List.map_congr_left fun row hrow => ?_
    have hchanged : row ∈ changed ↔ row.drifted env profile = true :=
      ⟨fun hmem => (hbrought.drifted row hmem).2,
        fun hdrifted => hperm.mem_iff.mpr (Table.mem_filter.mpr ⟨hrow, hdrifted⟩)⟩
    simp only [hchanged]
  · rw [← hperm.length_eq]
    exact hbrought.frame
  · rw [hevents]
    exact hperm.map _
  · refine reconciles_returns ⟨?_, ?_, ?_, ?_⟩
    · rwa [hstate]
    · intro row hrow
      rw [hstate] at hrow
      rw [hcurrent row hrow]
      rfl
    · intro row hrow
      rw [hstate, hnone] at hrow
      cases hrow
    · intro hsome
      rw [hstate] at hsome
      exact absurd hnone hsome
  · rw [← hstate] at hnone ⊢
    exact hcall.unchanged hnone

/-- What is true of the calls from a state. -/
structure ReconciliationExact (env : Env) (reporter : Reporter)
    (profile : ProviderSettings env.parsers → Digest) (w : Tenant) : Prop where
  /-- A call makes no more than so many full transactions. -/
  ends : ∀ trace w', Run (FullBatch env reporter profile) w trace w' →
    maxMutationEvents * trace.length ≤ (w.state.drift env profile).length
  /-- None of its transactions fails, where the providers can be reconciled. -/
  goesOn : Reconcilable env profile w.state →
    ∀ trace w', Run (FullBatch env reporter profile) w trace w' → ∃ more events w'',
      (reconcileBatch env reporter profile).run w' = .ok ((more, events), w'')
  returns : Reconcilable env profile w.state →
    ∃ batches w', Reconciles env reporter profile w batches w'
  exactly : ∀ batches w', Reconciles env reporter profile w batches w' →
    ReconciledExactly env reporter profile w batches w'

/-- Reconciliation ends, and does exactly what is to be done. -/
theorem reconciliation_exact (env : Env) (reporter : Reporter)
    (profile : ProviderSettings env.parsers → Digest) (w : Tenant) :
    ReconciliationExact env reporter profile w where
  ends _ _ hrun := fullBatches_bounded hrun
  goesOn hready _ _ hrun := reconcileBatch_succeeds hready hrun
  returns hready := reconciles_returns hready
  exactly _ _ h := h.exactly

end Exactness

end IdentityAuthority
