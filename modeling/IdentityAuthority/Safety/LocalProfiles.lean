import IdentityAuthority.Safety.Management

/-!
# Updates of local profiles

The log of settled updates is the memory of the protocol: an operation is in it once, with the
actor, the target, the content and the revision it was settled with. What an admitted update does
depends on the log first, and only for an operation that is not in it on the revision.
-/

namespace IdentityAuthority

open Relational Transition Json

variable {env : Env} {w w' : Tenant} {actor : AuthenticatedSession} {target : AccountKey}
  {change : ProfileChange} {receipt : ProfileReceipt} {events : List ProfileEvent}

section Digests

theorem LocalProfile.toJson_injective : Function.Injective LocalProfile.toJson := by
  have hoptional : ∀ a b : Option String,
      a.elim Value.null Value.string = b.elim Value.null Value.string → a = b := by
    intro a b h
    cases a <;> cases b <;> simp_all
  rintro ⟨name, username, email, extensions, age⟩ ⟨name', username', email', extensions', age'⟩ h
  simp only [LocalProfile.toJson, Value.object.injEq, List.cons.injEq, Prod.mk.injEq, true_and,
    Value.number.injEq, Number.integer.injEq, and_true] at h
  obtain ⟨hname, husername, hemail, hextensions, rfl⟩ := h
  obtain rfl := hoptional _ _ hname
  obtain rfl := hoptional _ _ husername
  obtain rfl := hoptional _ _ hemail
  obtain ⟨object, within⟩ := extensions
  obtain ⟨object', within'⟩ := extensions'
  cases hextensions
  rfl

/-- Two updates under one operation with one digest are the same update. -/
theorem ProfileChange.eq_of_digest {change change' : ProfileChange}
    (hoperation : change.operation = change'.operation)
    (hdigest : change.digest env = change'.digest env) : change = change' := by
  have htext := String.ofList_injective (env.sha256.text_injective hdigest)
  have hjson := render_injective htext
  obtain ⟨operation, revision, value⟩ := change
  obtain ⟨operation', revision', value'⟩ := change'
  simp only [ProfileChange.toJson, Value.object.injEq, List.cons.injEq, Prod.mk.injEq, true_and,
    Value.number.injEq, Number.integer.injEq, and_true] at hjson hoperation
  obtain ⟨-, rfl, hvalue⟩ := hjson
  obtain rfl := hoperation
  obtain rfl : value = value' := by
    cases value with
    | none =>
      cases value' with
      | none => rfl
      | some b => cases hvalue
    | some a =>
      cases value' with
      | none => cases hvalue
      | some b => rw [LocalProfile.toJson_injective hvalue]
  rfl

end Digests

section Steps

/-- The local profile that a database keeps of an account. -/
def Db.localProfile (db : Db) (target : AccountKey) : LocalProfileView :=
  localView (db.localProfiles.find? target)

/-- The entry of the log for an update that settled at a revision. -/
def ProfileChange.entry (env : Env) (change : ProfileChange) (actor target : AccountKey)
    (revision : ℤ) : ProfileOperationRow where
  operation := change.operation
  principal := target
  actor
  digest := change.digest env
  revision

/-- An update replaces the profile that its editor saw by the next one, and enters the log. -/
structure Settles (env : Env) (actor target : AccountKey) (change : ProfileChange)
    (receipt : ProfileReceipt) (events : List ProfileEvent) (db db' : Db) : Prop where
  absent : db.profileOperations.find? change.operation = none
  expected : change.expectedRevision = (db.localProfile target).revision
  answered : receipt = ⟨change.operation, (db.localProfile target).revision + 1⟩
  stored : db'.localProfile target = ⟨(db.localProfile target).revision + 1, change.value⟩
  others : ∀ other ≠ target, db'.localProfile other = db.localProfile other
  logged : db.profileOperations.insert (change.entry env actor target receipt.revision) =
    some db'.profileOperations
  audited : ∃ event, events = [event]

/-- An update that settled before is answered from the log, and changes nothing. -/
structure Replays (env : Env) (actor target : AccountKey) (change : ProfileChange)
    (receipt : ProfileReceipt) (events : List ProfileEvent) (db db' : Db) : Prop where
  logged : db.profileOperations.find? change.operation =
    some (change.entry env actor target receipt.revision)
  answered : receipt.operation = change.operation
  unaudited : events = []
  unchanged : db' = db

theorem localProfile_storeLocalProfile {next : LocalProfileRow} {u : Unit}
    (h : (storeLocalProfile next).run w = .ok (u, w')) :
    w'.state.localProfiles.find? next.principal = some next ∧
      w'.state.profileOperations = w.state.profileOperations := by
  simp only [storeLocalProfile, Tx.run_bind, Tx.run_require, Tx.run_find] at h
  obtain ⟨-, _, ⟨-, rfl⟩, stored, _, ⟨hstored, rfl⟩, h⟩ := h
  cases stored with
  | none =>
    obtain ⟨t, db, ht, hdb, rfl⟩ := Tx.run_insertInto.mp h
    obtain ⟨-, rfl⟩ := advanceRevision_eq_some.mp hdb
    exact ⟨(Table.find?_insert ht _).trans (if_pos rfl), rfl⟩
  | some row =>
    simp only [Tx.run_bind, Tx.run_updateIn, Tx.run_pure] at h
    obtain ⟨n, _, ⟨t, db, ht, hdb, -, rfl⟩, -, rfl⟩ := h
    obtain ⟨-, rfl⟩ := advanceRevision_eq_some.mp hdb
    have hkey : row.principal = next.principal := Table.key_of_find? hstored.symm
    refine ⟨(Table.find?_updateWhere ht (fun _ => rfl) _).trans ?_, rfl⟩
    rw [← hstored]
    obtain ⟨principal, revision, value⟩ := next
    simp only [Option.map_some, hkey, decide_true, if_true]

theorem settleProfile_settles {actor target : AccountKey}
    (h : (settleProfile env actor target change).run w = .ok ((receipt, events), w'))
    (habsent : w.state.profileOperations.find? change.operation = none) :
    Settles env actor target change receipt events w.state w'.state := by
  simp only [settleProfile, Tx.run_bind, Tx.run_select, Tx.run_require, Tx.run_find, Tx.run_demand,
    Tx.run_insertInto, Tx.run_pure, Tables.profileOperations_put, Tables.profileOperations_get,
    Tables.localProfiles_get, checkedAdd_eq_some, Option.some.injEq] at h
  obtain ⟨_, _, ⟨-, rfl⟩, -, _, ⟨-, rfl⟩, row, _, ⟨rfl, rfl⟩, -, _, ⟨hrevision, rfl⟩, next, _,
    ⟨⟨-, rfl⟩, rfl⟩, before, _, ⟨-, rfl⟩, after, _, ⟨-, rfl⟩, _, w₄, hstore, -, _,
    ⟨t, _, ht, rfl, rfl⟩, hresult, rfl⟩ := h
  obtain ⟨rfl, rfl⟩ := Prod.mk.injEq _ _ _ _ ▸ hresult
  have honly := run_storeLocalProfile hstore
  obtain ⟨hfound, hoperations⟩ := localProfile_storeLocalProfile hstore
  rw [hoperations] at ht
  refine ⟨habsent, hrevision.symm, rfl, ?_, ?_, ht, _, rfl⟩
  · simp only [Db.localProfile, hfound]
    rfl
  · intro other hne
    simp only [Db.localProfile]
    rw [honly.profiles other hne]

/-- Once an update is admitted, what it answers depends on the log alone, where it is in there. -/
theorem run_answerUpdate {actor target : AccountKey}
    (h : (answerUpdate env actor target change).run w = .ok ((receipt, events), w')) :
    Settles env actor target change receipt events w.state w'.state ∨
      Replays env actor target change receipt events w.state w'.state := by
  simp only [answerUpdate, Tx.run_bind, Tx.run_find, Tables.profileOperations_get] at h
  obtain ⟨replayed, _, ⟨hfound, rfl⟩, h⟩ := h
  cases replayed with
  | none => exact .inl (settleProfile_settles h hfound.symm)
  | some row =>
    simp only [Tx.run_bind, Tx.run_require, Tx.run_pure, Prod.mk.injEq] at h
    obtain ⟨-, _, ⟨⟨hprincipal, hactor, hdigest⟩, rfl⟩, ⟨rfl, rfl⟩, rfl⟩ := h
    refine .inr ⟨?_, rfl, rfl, rfl⟩
    have hkey : row.operation = change.operation := Table.key_of_find? hfound.symm
    rw [← hfound, Option.some.injEq, ← hprincipal, ← hactor]
    obtain ⟨operation, principal, actor, digest, revision⟩ := row
    simp only [ProfileChange.entry] at hkey hdigest ⊢
    rw [hkey, hdigest]

theorem admitUpdate_readOnly : (admitUpdate env actor target).ReadOnly :=
  @WritesOnly.readOnly _ env _ fun _ => admitUpdate_writes

/-- An update that commits either settles or was settled before. -/
theorem run_updateLocalProfile
    (h : (updateLocalProfile env actor target change).run w = .ok ((receipt, events), w')) :
    Settles env actor.key target change receipt events w.state w'.state ∨
      Replays env actor.key target change receipt events w.state w'.state := by
  simp only [updateLocalProfile, Tx.run_bind, Tx.run_require] at h
  obtain ⟨-, _, ⟨-, rfl⟩, _, w₁, hadmit, hanswer⟩ := h
  rw [← admitUpdate_readOnly.state_eq hadmit]
  exact run_answerUpdate hanswer

/-- An update is admitted from one world to another: its input is valid, its actor is live and
authorised, and its target is active. -/
structure UpdateAdmitted (env : Env) (actor : AuthenticatedSession) (target : AccountKey)
    (change : ProfileChange) (w w' : Tenant) : Prop where
  revision : 0 ≤ change.expectedRevision
  value : ∀ value ∈ change.value, value.observation.isSome = true
  admitted : (admitUpdate env actor target).run w = .ok ((), w')

theorem UpdateAdmitted.commits {w'' : Tenant} {answer : ProfileReceipt × List ProfileEvent}
    (h : UpdateAdmitted env actor target change w w')
    (hanswer : (answerUpdate env actor.key target change).run w' = .ok (answer, w'')) :
    (updateLocalProfile env actor target change).run w = .ok (answer, w'') :=
  Tx.run_bind.mpr ⟨(), w, Tx.run_require.mpr ⟨⟨h.revision, h.value⟩, rfl⟩,
    Tx.run_bind.mpr ⟨(), w', h.admitted, hanswer⟩⟩

theorem UpdateAdmitted.fails {failure : Failure} (h : UpdateAdmitted env actor target change w w')
    (hanswer : (answerUpdate env actor.key target change).run w' = .error failure) :
    (updateLocalProfile env actor target change).run w = .error failure :=
  Tx.run_bind_error_of_ok (a := ()) (Tx.run_require.mpr ⟨⟨h.revision, h.value⟩, rfl⟩)
    (Tx.run_bind_error_of_ok h.admitted hanswer)

/-- An admitted update that is in the log as it stands is answered from there. -/
theorem UpdateAdmitted.replays {revision : ℤ} (h : UpdateAdmitted env actor target change w w')
    (hlogged : w.state.profileOperations.find? change.operation =
      some (change.entry env actor.key target revision)) :
    (updateLocalProfile env actor target change).run w =
        .ok ((⟨change.operation, revision⟩, []), w') ∧ w'.state = w.state := by
  have hstate := admitUpdate_readOnly.state_eq h.admitted
  refine ⟨h.commits ?_, hstate⟩
  have hfind : (Tx.find Tables.profileOperations change.operation : Action _).run w' =
      .ok (some (change.entry env actor.key target revision), w') := by
    rw [Tx.run_find, Tables.profileOperations_get, hstate, hlogged]
    exact ⟨rfl, rfl⟩
  refine Tx.run_bind.mpr ⟨_, w', hfind, Tx.run_bind.mpr ⟨(), w', ?_, Tx.run_pure.mpr ⟨rfl, rfl⟩⟩⟩
  exact Tx.run_require.mpr ⟨⟨rfl, rfl, rfl⟩, rfl⟩

/-- An admitted update is refused whose operation is in the log otherwise. -/
theorem UpdateAdmitted.conflicts {row : ProfileOperationRow}
    (h : UpdateAdmitted env actor target change w w')
    (hlogged : w.state.profileOperations.find? change.operation = some row)
    (hother : ¬ (row.principal = target ∧ row.actor = actor.key ∧ row.digest = change.digest env)) :
    (updateLocalProfile env actor target change).run w = .error .operationConflict := by
  have hstate := admitUpdate_readOnly.state_eq h.admitted
  have hfind : (Tx.find Tables.profileOperations change.operation : Action _).run w' =
      .ok (some row, w') := by
    rw [Tx.run_find, Tables.profileOperations_get, hstate, hlogged]
    exact ⟨rfl, rfl⟩
  exact h.fails (Tx.run_bind_error_of_ok hfind
    (Tx.run_bind_error.mpr (.inl (Tx.run_require_error.mpr ⟨hother, rfl⟩))))

end Steps

section Histories

variable {s₀ s s' : System env} {label : Label env}
  {trace : List (Event (System env) (Label env))} {e : Event (System env) (Label env)}

/-- An event is an update that committed, with its answer. -/
def IsUpdate (e : Event (System env) (Label env)) (actor : AuthenticatedSession)
    (target : AccountKey) (change : ProfileChange) (receipt : ProfileReceipt)
    (events : List ProfileEvent) : Prop :=
  e.label = .commit (.updateLocalProfile actor target change (receipt, events))

/-- An event is an update of a certain operation. -/
def SettlesOperation (operation : Uuid) (e : Event (System env) (Label env)) : Prop :=
  ∃ actor target change receipt events, IsUpdate e actor target change receipt events ∧
    change.operation = operation

/-- The rows that updates write. -/
def Db.localRows (db : Db) : Table LocalProfileRow × Table ProfileOperationRow :=
  (db.localProfiles, db.profileOperations)

/-- Nothing but an update writes to local profiles or to the log. -/
theorem Step.localRows_eq (h : Step env s label s')
    (hother : ∀ actor target change result,
      label ≠ .commit (.updateLocalProfile actor target change result)) :
    s'.world.state.localRows = s.world.state.localRows := by
  cases h with
  | elapse hstate _ => rw [hstate]
  | @commit commit w' _ hruns =>
    have hareas : Area.localProfiles ∉ commit.areas ∧ Area.operations ∉ commit.areas := by
      cases commit with
      | updateLocalProfile actor target change result => exact absurd rfl (hother _ _ _ _)
      | _ => simp [Commit.areas, commitAreas]
    refine (Commit.effects hruns).frame Db.localRows fun w a db ha heffect => ?_
    have hprofiles := heffect.localProfiles_eq (by rintro rfl; exact hareas.1 ha)
    have hoperations := heffect.profileOperations_eq (by rintro rfl; exact hareas.2 ha)
    simp only [Db.localRows, hprofiles, hoperations]

/-- A committed update settled or was settled before. -/
theorem Step.updates {s₁ s₂ : System env} (h : Step env s₁ label s₂)
    (hlabel : label = .commit (.updateLocalProfile actor target change (receipt, events))) :
    Settles env actor.key target change receipt events s₁.world.state s₂.world.state ∨
      Replays env actor.key target change receipt events s₁.world.state s₂.world.state := by
  subst hlabel
  cases h with
  | commit _ hruns => exact run_updateLocalProfile hruns

/-- What the log knows of a run: each update that committed, as it settled; and nothing else, so that
an account's revision counts its entries. -/
structure UpdatesLogged (trace : List (Event (System env) (Label env))) (s : System env) : Prop where
  logged : ∀ e ∈ trace, ∀ actor target change receipt events,
    IsUpdate e actor target change receipt events →
    s.world.state.profileOperations.find? change.operation =
      some (change.entry env actor.key target receipt.revision) ∧
    receipt.operation = change.operation
  origin : ∀ row ∈ s.world.state.profileOperations, ∃ e ∈ trace, SettlesOperation row.operation e
  counted : ∀ target : AccountKey,
    (s.world.state.profileOperations.count (fun row => decide (row.principal = target)) : ℤ) =
      (s.world.state.localProfile target).revision

theorem UpdatesLogged.keep (h : UpdatesLogged trace s)
    (hrows : s'.world.state.localRows = s.world.state.localRows)
    (hnew : ∀ actor target change receipt events, IsUpdate e actor target change receipt events →
      s.world.state.profileOperations.find? change.operation =
        some (change.entry env actor.key target receipt.revision) ∧
      receipt.operation = change.operation) : UpdatesLogged (trace ++ [e]) s' := by
  simp only [Db.localRows, Prod.mk.injEq] at hrows
  obtain ⟨hprofiles, hoperations⟩ := hrows
  refine ⟨?_, ?_, ?_⟩
  · intro f hf actor target change receipt events hupdate
    rw [hoperations]
    rcases List.mem_append.mp hf with hf | hf
    · exact h.logged f hf actor target change receipt events hupdate
    · obtain rfl := List.mem_singleton.mp hf
      exact hnew actor target change receipt events hupdate
  · intro row hrow
    rw [hoperations] at hrow
    obtain ⟨f, hf, hsettles⟩ := h.origin row hrow
    exact ⟨f, List.mem_append_left _ hf, hsettles⟩
  · intro target
    rw [hoperations, h.counted target]
    simp only [Db.localProfile, hprofiles]

theorem UpdatesLogged.settle (h : UpdatesLogged trace s)
    (hupdate : IsUpdate e actor target change receipt events)
    (hsettles : Settles env actor.key target change receipt events s.world.state s'.world.state) :
    UpdatesLogged (trace ++ [e]) s' := by
  have hinsert := hsettles.logged
  refine ⟨?_, ?_, ?_⟩
  · intro f hf actor' target' change' receipt' events' hupdate'
    rw [Table.find?_insert hinsert]
    rcases List.mem_append.mp hf with hf | hf
    · obtain ⟨hfound, hanswered⟩ := h.logged f hf _ _ _ _ _ hupdate'
      have hne : key (change.entry env actor.key target receipt.revision) ≠ change'.operation := by
        intro heq
        have habsent := hsettles.absent
        rw [show change.operation = change'.operation from heq, hfound] at habsent
        cases habsent
      rw [if_neg hne]
      exact ⟨hfound, hanswered⟩
    · obtain rfl := List.mem_singleton.mp hf
      have hsame := hupdate.symm.trans hupdate'
      simp only [Label.commit.injEq, Commit.updateLocalProfile.injEq, Prod.mk.injEq] at hsame
      obtain ⟨rfl, rfl, rfl, rfl, rfl⟩ := hsame
      refine ⟨if_pos rfl, ?_⟩
      rw [hsettles.answered]
  · intro row hrow
    rcases (Table.mem_insert hinsert).mp hrow with rfl | hrow
    · exact ⟨e, by simp, actor, target, change, receipt, events, hupdate, rfl⟩
    · obtain ⟨f, hf, hold⟩ := h.origin row hrow
      exact ⟨f, List.mem_append_left _ hf, hold⟩
  · intro other
    rw [Table.count_insert hinsert]
    have hcounted := h.counted other
    by_cases hother : target = other
    · subst hother
      rw [hsettles.stored]
      simp only [ProfileChange.entry, decide_true, if_true]
      omega
    · rw [hsettles.others other (Ne.symm hother)]
      simp only [ProfileChange.entry, hother, decide_false, Bool.false_eq_true, if_false]
      omega

theorem UpdatesLogged.step (h : UpdatesLogged trace s) (hstep : Step env s label s') :
    UpdatesLogged (trace ++ [⟨s, label, s'⟩]) s' := by
  by_cases hlabel : ∃ actor target change receipt events,
      label = .commit (.updateLocalProfile actor target change (receipt, events))
  · obtain ⟨actor, target, change, receipt, events, rfl⟩ := hlabel
    rcases hstep.updates rfl with hsettles | hreplays
    · exact h.settle rfl hsettles
    · refine h.keep (by rw [hreplays.unchanged]) ?_
      intro actor' target' change' receipt' events' hupdate
      simp only [IsUpdate, Label.commit.injEq, Commit.updateLocalProfile.injEq, Prod.mk.injEq]
        at hupdate
      obtain ⟨rfl, rfl, rfl, rfl, rfl⟩ := hupdate
      exact ⟨hreplays.logged, hreplays.answered⟩
  · have hother : ∀ actor target change result,
        label ≠ .commit (.updateLocalProfile actor target change result) := by
      rintro actor target change ⟨receipt, events⟩ rfl
      exact hlabel ⟨_, _, _, _, _, rfl⟩
    refine h.keep (hstep.localRows_eq hother) ?_
    intro actor target change receipt events hupdate
    exact absurd hupdate (hother _ _ _ _)

theorem updatesLogged_of_run (hstart : s₀.Provisioned) (hrun : Run (Step env) s₀ trace s) :
    UpdatesLogged trace s := by
  refine hrun.history (H := UpdatesLogged) ⟨by simp, ?_, ?_⟩ fun _ _ _ _ _ h hstep => h.step hstep
  · intro row hrow
    rw [hstart.1] at hrow
    exact absurd hrow Table.not_mem_empty
  · intro target
    rw [hstart.1]
    rfl

/-- What holds of the updates of local profiles in a run, and of any further call in the state
reached. -/
structure ProfilesSerialised (trace : List (Event (System env) (Label env))) (s : System env) :
    Prop where
  /-- An update of a fresh operation commits at the revision its editor saw, and is stored as the
  next one; no other account's profile changes. -/
  fresh : ∀ earlier e later actor target change receipt events, trace = earlier ++ e :: later →
    IsUpdate e actor target change receipt events →
    (∀ f ∈ earlier, ¬ SettlesOperation change.operation f) →
    Settles env actor.key target change receipt events e.before.world.state e.after.world.state
  /-- An update of an operation that committed before is the same update by the same actor; it gets
  the revision of the first one, changes nothing, and the audit learns nothing. -/
  repeated : ∀ earlier e later actor target change receipt events, trace = earlier ++ e :: later →
    IsUpdate e actor target change receipt events →
    ∀ f ∈ earlier, ∀ actor' target' change' receipt' events',
      IsUpdate f actor' target' change' receipt' events' → change'.operation = change.operation →
      actor.key = actor'.key ∧ target = target' ∧ change = change' ∧ receipt = receipt' ∧
        events = [] ∧ e.after.world.state = e.before.world.state
  /-- No other step, and no call that fails, touches a local profile or the log. -/
  kept : ∀ e ∈ trace, (∀ actor target change receipt events,
      ¬ IsUpdate e actor target change receipt events) →
    e.after.world.state.localRows = e.before.world.state.localRows
  /-- The revision of an account is the number of updates it settled. -/
  counted : ∀ target : AccountKey,
    (s.world.state.profileOperations.count (fun row => decide (row.principal = target)) : ℤ) =
      (s.world.state.localProfile target).revision
  /-- A committed update that is admitted again is answered with its revision, whatever was
  committed since. -/
  answers : ∀ e ∈ trace, ∀ actor target change receipt events,
    IsUpdate e actor target change receipt events →
    ∀ again w', again.key = actor.key → UpdateAdmitted env again target change s.world w' →
      (updateLocalProfile env again target change).run s.world = .ok ((receipt, []), w') ∧
        w'.state = s.world.state
  /-- The operation of a committed update is refused to any other update that is admitted. -/
  conflicts : ∀ e ∈ trace, ∀ actor target change receipt events,
    IsUpdate e actor target change receipt events →
    ∀ actor' target' change' w', change'.operation = change.operation →
      (actor'.key ≠ actor.key ∨ target' ≠ target ∨ change' ≠ change) →
      UpdateAdmitted env actor' target' change' s.world w' →
      (updateLocalProfile env actor' target' change').run s.world = .error .operationConflict
  /-- A call that fails leaves the world as it was. -/
  refused : ∀ actor target change failure,
    (updateLocalProfile env actor target change).run s.world = .error failure →
    (updateLocalProfile env actor target change).settle s.world = s.world

/-- Updates of local profiles are serialised and settle once: in every run, whatever calls
interleave and are repeated. -/
theorem profiles_serialised (hstart : s₀.Provisioned) (hrun : Run (Step env) s₀ trace s) :
    ProfilesSerialised trace s := by
  have hlogged := updatesLogged_of_run hstart hrun
  refine ⟨?_, ?_, ?_, hlogged.counted, ?_, ?_, fun _ _ _ _ => Tx.settle_of_error⟩
  · intro earlier e later actor target change receipt events htrace hupdate hfresh
    obtain ⟨hbefore, hstep, -⟩ := Run.split (htrace ▸ hrun)
    have hhistory := updatesLogged_of_run hstart hbefore
    rcases hstep.updates hupdate with hsettles | hreplays
    · exact hsettles
    · obtain ⟨f, hf, hold⟩ := hhistory.origin _ (Table.mem_of_find? hreplays.logged)
      exact absurd hold (hfresh f hf)
  · intro earlier e later actor target change receipt events htrace hupdate f hf actor' target'
      change' receipt' events' hupdate' hoperation
    obtain ⟨hbefore, hstep, -⟩ := Run.split (htrace ▸ hrun)
    obtain ⟨hfound, hanswered⟩ := (updatesLogged_of_run hstart hbefore).logged f hf _ _ _ _ _ hupdate'
    rw [hoperation] at hfound
    rcases hstep.updates hupdate with hsettles | hreplays
    · rw [hsettles.absent] at hfound
      cases hfound
    · have hentry := hreplays.logged.symm.trans hfound
      simp only [Option.some.injEq, ProfileChange.entry, ProfileOperationRow.mk.injEq] at hentry
      obtain ⟨-, htarget, hactor, hdigest, hrevision⟩ := hentry
      refine ⟨hactor, htarget, ProfileChange.eq_of_digest hoperation.symm hdigest, ?_,
        hreplays.unaudited, hreplays.unchanged⟩
      have hreceipt : receipt.operation = receipt'.operation := by
        rw [hreplays.answered, hanswered, hoperation]
      cases receipt
      cases receipt'
      simp_all
  · intro e he hother
    exact (hrun.steps e he).localRows_eq fun actor target change ⟨receipt, events⟩ hlabel =>
      hother actor target change receipt events hlabel
  · intro e he actor target change receipt events hupdate again w' hkey hadmitted
    obtain ⟨hfound, hanswered⟩ := hlogged.logged e he _ _ _ _ _ hupdate
    rw [← hkey] at hfound
    have hreplays := hadmitted.replays hfound
    rw [← hanswered] at hreplays
    exact hreplays
  · intro e he actor target change receipt events hupdate actor' target' change' w' hoperation hother
      hadmitted
    obtain ⟨hfound, -⟩ := hlogged.logged e he _ _ _ _ _ hupdate
    rw [← hoperation] at hfound
    refine hadmitted.conflicts hfound ?_
    rintro ⟨htarget, hactor, hdigest⟩
    rcases hother with hother | hother | hother
    · exact hother hactor.symm
    · exact hother htarget.symm
    · exact hother (ProfileChange.eq_of_digest hoperation hdigest.symm)

/-- Ada, signed in, edits her profile, and her client repeats the call. -/
def repeatedEdit (env : Env) (key : AccountKey) (login hash : String) (change : ProfileChange) :
    Action (ProfileReceipt × List ProfileEvent) := do
  let issued ← firstLogin env key login hash
  let actor ← authenticateSession env (env.sha256.secret issued.secret) .cookie false
  let _ ← updateLocalProfile env actor key change
  updateLocalProfile env actor key change

theorem run_repeatedEdit {key : AccountKey} {login hash : String}
    {answer : ProfileReceipt × List ProfileEvent}
    (h : (repeatedEdit env key login hash change).run w = .ok (answer, w')) :
    ∃ trace held, Run (Step env) ⟨w, []⟩ trace ⟨w', held⟩ := by
  simp only [repeatedEdit, Tx.run_bind] at h
  obtain ⟨issued, _, hfirst, actor, _, hactor, first, _, hupdate, hrepeat⟩ := h
  obtain ⟨trace, held, hrun⟩ := run_firstLogin hfirst
  have hrun := commit_step (.authenticate _ .cookie false actor) hrun trivial hactor
  have hrun := commit_step (.updateLocalProfile actor key change first) hrun trivial hupdate
  have hrun := commit_step (.updateLocalProfile actor key change answer) hrun trivial hrepeat
  exact ⟨_, _, hrun⟩

/-- A first profile. -/
def firstEdit : ProfileChange where
  operation := Uuid.newV4 7
  expectedRevision := 0
  value := some
    { displayName := some "Ada"
      username := none
      email := none
      extensions := ⟨[], by decide +kernel⟩
      maxAgeSeconds := 300 }

/-- The repeated edit on the transparent deployment. -/
@[irreducible] def edited : Except Failure ((ProfileReceipt × List ProfileEvent) × Tenant) :=
  (repeatedEdit .transparent ⟨Uuid.newV4 0⟩ "ada" "hash" firstEdit).run newTenant

/-- The world after it. -/
@[irreducible] def editedWorld : Tenant :=
  match edited with
  | .ok (_, w) => w
  | .error _ => newTenant

/-- The updates of the run with a repeated edit are serialised; one was settled. -/
theorem edited_serialised : ∃ trace held,
    ProfilesSerialised trace (⟨editedWorld, held⟩ : System .transparent) ∧
      (editedWorld.state.localProfile ⟨Uuid.newV4 0⟩).revision = 1 := by
  have hok : edited.toOption.map (fun r => (r.2.state.localProfile ⟨Uuid.newV4 0⟩).revision) =
      some 1 := by decide +kernel
  obtain ⟨⟨answer, w⟩, hsome, hrevision⟩ := Option.map_eq_some_iff.mp hok
  have hrun := eq_ok_of_toOption hsome
  have hw : editedWorld = w := by
    unfold editedWorld
    rw [hrun]
  unfold edited at hrun
  rw [← hw] at hrun hrevision
  obtain ⟨trace, held, hrun⟩ := run_repeatedEdit hrun
  exact ⟨trace, held, profiles_serialised ⟨rfl, rfl⟩ hrun, hrevision⟩

end Histories

end IdentityAuthority
