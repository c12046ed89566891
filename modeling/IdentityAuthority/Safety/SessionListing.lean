import IdentityAuthority.Operations.SessionListing
import IdentityAuthority.System

/-!
# Reading all sessions of an account

A client lists the sessions of an account page after page, while sessions are created, touched,
refreshed, revoked and expire. Each page is a scan at one state of the tables, and the pages are
joined by the cursor. What is returned was accepted when it was returned, and what is accepted all
along is returned once.
-/

namespace IdentityAuthority

open Relational Transition

/-- The sessions stored for an account. -/
def sessionsOf (key : AccountKey) (w : Tenant) : List SessionId :=
  (w.state.sessions.filter fun row => decide (row.principal = key)).map SessionRow.session

/-- A page that a client asked for: what it sent, where the call started and ended, and the page. -/
structure Visit (env : Env) where
  actor : AuthenticatedSession
  cursor : Option SessionId
  limit : ℕ
  start : System env
  page : SessionPage
  finish : Tenant

namespace Visit

variable {env : Env}

/-- The call succeeds. -/
def Succeeds (visit : Visit env) : Prop :=
  (listSessions env visit.actor visit.cursor visit.limit).run visit.start.world =
    .ok (visit.page, visit.finish)

/-- A world the call passes before it ends: at one of its clock readings. -/
def Passes (visit : Visit env) (w : Tenant) : Prop :=
  ∃ n m, w = World.tick^[n] visit.start.world ∧ visit.finish = World.tick^[m + 1] w

/-- The check of a session accepts it, in a world of the call. -/
def Accepts (visit : Visit env) (sid : SessionId) (w : Tenant) : Prop :=
  ∃ loaded w', (byId env visit.actor.key sid visit.actor.checks).run w = .ok (loaded, w')

/-- The sessions of the page. -/
def returned (visit : Visit env) : List SessionId := visit.page.sessions.map SessionView.id

end Visit

/-- Pages of one account, each behind the cursor that the one before gave, and anything that the
authority does between two of them. -/
inductive Listing (env : Env) (key : AccountKey) :
    Option SessionId → List (Visit env) → Option SessionId → Prop
  | last {visit : Visit env} : visit.actor.key = key → visit.Succeeds →
      Listing env key visit.cursor [visit] visit.page.nextCursor
  | more {visit later : Visit env} {visits : List (Visit env)} {sid : SessionId}
      {final : Option SessionId} {trace : List (Event (System env) (Label env))} :
      visit.actor.key = key → visit.Succeeds → visit.page.nextCursor = some sid →
      Run (Step env) ⟨visit.finish, visit.start.held⟩ trace later.start →
      Listing env key (some sid) (later :: visits) final →
      Listing env key visit.cursor (visit :: later :: visits) final

/-- What a listing is good for. -/
structure SessionsListed {env : Env} (key : AccountKey) (visits : List (Visit env))
    (final : Option SessionId) : Prop where
  /-- Where no session of the account is new after a page, at most as many pages follow as the
  account has sessions, and the last of them names no further page. -/
  ends : ∀ earlier first later, visits = earlier ++ first :: later →
    (∀ visit ∈ later, sessionsOf key visit.start.world ⊆ sessionsOf key first.start.world) →
    (first :: later).length ≤
      (sessionsOf key first.start.world).length + if final = none then 1 else 0
  /-- No session is returned twice. -/
  once : (visits.flatMap Visit.returned).Nodup
  /-- A session that is accepted all along is returned once. -/
  complete : final = none → ∀ sid, (∀ visit ∈ visits, ∀ w, visit.Passes w → visit.Accepts sid w) →
    (visits.flatMap Visit.returned).count sid = 1
  /-- What is returned was accepted in a world of its page. -/
  live : ∀ visit ∈ visits, ∀ view ∈ visit.page.sessions, ∃ w, visit.Passes w ∧ ∃ loaded w',
    (byId env visit.actor.key view.id visit.actor.checks).run w = .ok (loaded, w') ∧
      loaded.view = view

variable {env : Env} {key : AccountKey}

/-- The rows of an account hold one state of it. -/
theorem Db.Holds.epochs_eq {db : Db} {state state' : AccountState} (h : db.Holds state)
    (h' : db.Holds state') (hkey : state.key = state'.key) :
    state.epoch = state'.epoch ∧ state.membershipEpoch = state'.membershipEpoch := by
  have haccount := h.account
  have hmembership := h.membership
  rw [hkey, h'.account, Option.some.injEq, AccountRow.mk.injEq] at haccount
  rw [hkey, h'.membership, Option.some.injEq, MembershipRow.mk.injEq] at hmembership
  exact ⟨haccount.2.2.symm, hmembership.2.2.symm⟩

/-- A session that the check accepts is one the statement asks for, at the same reading. -/
theorem Loaded.Of.listable {loaded actorLoaded : Loaded} {w : Tenant} {row actorRow : SessionRow}
    (h : loaded.Of env w row) (hactor : actorLoaded.Of env w actorRow)
    (hkey : loaded.state.key = key) (hactorKey : actorLoaded.state.key = key) :
    row.listable key actorLoaded.state actorLoaded.now = true := by
  obtain ⟨hepoch, hmembership⟩ := h.holds.epochs_eq hactor.holds (hkey.trans hactorKey.symm)
  have hcurrent := h.current
  have hvalid := h.valid
  obtain ⟨hissued, hidle, habsolute⟩ := SessionRow.lifetime_eq_some h.lifetime
  simp only [SessionLifetime.validAt, hissued, hidle, habsolute, h.now, decide_eq_true_eq] at hvalid
  simp only [SessionRow.listable, decide_eq_true_eq, hactor.now]
  exact ⟨hcurrent.principal.trans hkey, hcurrent.authEpoch.trans hepoch,
    hcurrent.membershipEpoch.trans hmembership, hcurrent.unrevoked, hvalid⟩

/-- A page and the scan it makes. -/
structure Visit.Scans (visit : Visit env) (key : AccountKey) (scan : Scan SessionId) : Prop where
  sound : scan.Sound
  cursor : scan.cursor = visit.cursor
  next : scan.next = visit.page.nextCursor
  stored : scan.keys ⊆ sessionsOf key visit.start.world
  listed : ∀ sid, visit.Accepts sid visit.start.world → sid ∈ scan.keys
  returned : visit.returned.Sublist scan.scanned
  complete : ∀ sid ∈ scan.scanned, (∀ w, visit.Passes w → visit.Accepts sid w) →
    sid ∈ visit.returned
  live : ∀ view ∈ visit.page.sessions, ∃ w, visit.Passes w ∧ ∃ loaded w',
    (byId env visit.actor.key view.id visit.actor.checks).run w = .ok (loaded, w') ∧
      loaded.view = view
  passes_start : visit.Passes visit.start.world

/-- The check that a page makes of one key takes one reading, and answers for that key. -/
theorem run_view {checks : Option PlatformVerifier} {sid : SessionId} {w w' : Tenant}
    {view : SessionView}
    (h : (Loaded.view <$> byId env key sid checks).run w = .ok (view, w')) :
    w' = w.tick ∧ view.id = sid ∧ ∃ loaded,
      (byId env key sid checks).run w = .ok (loaded, w') ∧ loaded.view = view := by
  obtain ⟨loaded, hrun, rfl⟩ := Tx.run_map.mp h
  obtain ⟨hw, hid, -⟩ := run_byId hrun
  exact ⟨hw, hid, loaded, hrun, rfl⟩

/-- Every page that is given out makes a scan. -/
theorem Visit.Succeeds.scans {visit : Visit env} (h : visit.Succeeds)
    (hkey : visit.actor.key = key) : ∃ scan, visit.Scans key scan := by
  obtain ⟨hlimit, loaded, hrecheck, hnext, hsweep⟩ := run_listSessions h
  obtain ⟨-, hloadedKey, -, actorRow, hactor, -⟩ := run_recheck hrecheck
  let scan := pageScan visit.actor visit.cursor visit.limit loaded visit.start.world
  have hfinish : visit.finish = World.tick^[scan.scanned.length + 1] visit.start.world := by
    rw [hsweep.world_eq fun k w view w' hview => (run_view hview).1, Function.iterate_succ_apply]
  -- The key at a position is judged when the keys before it were, and the actor.
  have hpasses : ∀ n ≤ scan.scanned.length,
      visit.Passes (World.tick^[n] visit.start.world) := by
    intro n hn
    refine ⟨n, scan.scanned.length - n, rfl, ?_⟩
    rw [hfinish, ← Function.iterate_add_apply]
    congr 1
    omega
  refine ⟨scan, pageScan_sound hlimit, rfl, hnext.symm, ?_, ?_, ?_, ?_, ?_, hpasses 0 (Nat.zero_le _)⟩
  · intro sid hsid
    obtain ⟨row, hrow, rfl⟩ := List.mem_map.mp hsid
    obtain ⟨hmem, hlistable⟩ := Table.mem_filter.mp hrow
    simp only [SessionRow.listable, decide_eq_true_eq] at hlistable
    refine List.mem_map_of_mem (Table.mem_filter.mpr ⟨hmem, ?_⟩)
    rw [decide_eq_true_eq, hlistable.1, hkey]
  · rintro sid ⟨accepted, w', hrun⟩
    obtain ⟨-, hid, hacceptedKey, row, hof⟩ := run_byId hrun
    have hsession : row.session = sid := (Table.key_of_find? hof.found).trans hid
    refine List.mem_map.mpr ⟨row, Table.mem_filter.mpr ⟨Table.mem_of_find? hof.found, ?_⟩, hsession⟩
    exact hof.listable hactor hacceptedKey hloadedKey
  · exact hsweep.map_sublist fun sid w view w' hview => (run_view hview).2.1
  · intro sid hsid haccepted
    obtain ⟨view, hview, w₁, w₂, hrun⟩ :=
      hsweep.collected (fun k w view w' hview => (run_view hview).1) hsid fun n hn => by
        obtain ⟨accepted, w', hrun⟩ := haccepted _ (hpasses (n + 1) hn)
        rw [Function.iterate_succ_apply] at hrun
        exact ⟨accepted.view, w', Tx.run_map.mpr ⟨accepted, hrun, rfl⟩⟩
    exact List.mem_map.mpr ⟨view, hview, (run_view hrun).2.1⟩
  · intro view hview
    obtain ⟨n, hn, sid, -, w₁, hrun⟩ :=
      hsweep.found (fun k w view w' hview => (run_view hview).1) hview
    obtain ⟨-, hid, accepted, hrun, hviewed⟩ := run_view hrun
    rw [← Function.iterate_succ_apply] at hrun
    rw [← hid] at hrun
    exact ⟨_, hpasses (n + 1) hn, accepted, w₁, hrun, hviewed⟩

/-- A listing follows the cursor over the scans of its pages. -/
theorem Listing.follows {cursor final : Option SessionId} {visits : List (Visit env)}
    (h : Listing env key cursor visits final) :
    ∃ scans, List.Forall₂ (fun visit scan => visit.Scans key scan) visits scans ∧
      Following cursor scans final := by
  induction h with
  | last hkey hsucceeds =>
    obtain ⟨scan, hscan⟩ := hsucceeds.scans hkey
    refine ⟨[scan], .cons hscan .nil, ?_⟩
    rw [← hscan.cursor, ← hscan.next]
    exact .last hscan.sound
  | more hkey hsucceeds hnext _ _ ih =>
    obtain ⟨scan, hscan⟩ := hsucceeds.scans hkey
    obtain ⟨scans, hscans, hfollowing⟩ := ih
    refine ⟨scan :: scans, .cons hscan hscans, ?_⟩
    rw [← hscan.cursor]
    exact .more hscan.sound (hscan.next.trans hnext) hfollowing

/-- The end of a listing is a listing. -/
theorem Listing.suffix {cursor final : Option SessionId} {earlier later : List (Visit env)}
    {first : Visit env} (h : Listing env key cursor (earlier ++ first :: later) final) :
    Listing env key first.cursor (first :: later) final := by
  induction earlier generalizing cursor with
  | nil =>
    have hcursor : cursor = first.cursor := by
      cases h <;> rfl
    rw [← hcursor]
    exact h
  | cons visit earlier ih =>
    cases earlier with
    | nil =>
      cases h with
      | more _ _ _ _ hrest => exact ih hrest
    | cons next earlier =>
      cases h with
      | more _ _ _ _ hrest => exact ih hrest

section Pages

variable {visits : List (Visit env)} {scans : List (Scan SessionId)}

/-- A scan of a listing is the scan of one of its pages. -/
theorem exists_visit {scan : Scan SessionId}
    (h : List.Forall₂ (fun visit scan => visit.Scans key scan) visits scans) (hscan : scan ∈ scans) :
    ∃ visit ∈ visits, visit.Scans key scan := by
  induction h with
  | nil => cases hscan
  | @cons visit first visits scans hfirst _ ih =>
    rcases List.mem_cons.mp hscan with rfl | hscan
    · exact ⟨visit, List.mem_cons_self, hfirst⟩
    · obtain ⟨later, hlater, hscans⟩ := ih hscan
      exact ⟨later, List.mem_cons_of_mem _ hlater, hscans⟩

/-- Over all pages, what is returned was scanned, in the same order. -/
theorem returned_sublist
    (h : List.Forall₂ (fun visit scan => visit.Scans key scan) visits scans) :
    (visits.flatMap Visit.returned).Sublist (scans.flatMap Scan.scanned) := by
  induction h with
  | nil => exact List.Sublist.refl _
  | cons hscan _ ih =>
    rw [List.flatMap_cons, List.flatMap_cons]
    exact hscan.returned.append ih

/-- A session that was scanned is returned where it is accepted all along. -/
theorem mem_returned {sid : SessionId}
    (h : List.Forall₂ (fun visit scan => visit.Scans key scan) visits scans)
    (hsid : sid ∈ scans.flatMap Scan.scanned)
    (haccepted : ∀ visit ∈ visits, ∀ w, visit.Passes w → visit.Accepts sid w) :
    sid ∈ visits.flatMap Visit.returned := by
  obtain ⟨scan, hscan, hmem⟩ := List.mem_flatMap.mp hsid
  obtain ⟨visit, hvisit, hscans⟩ := exists_visit h hscan
  exact List.mem_flatMap.mpr ⟨visit, hvisit, hscans.complete sid hmem (haccepted visit hvisit)⟩

end Pages

variable {cursor final : Option SessionId} {visits : List (Visit env)}

/-- The page of a listing gives out what was accepted. -/
theorem Listing.live (h : Listing env key cursor visits final) : ∀ visit ∈ visits,
    ∀ view ∈ visit.page.sessions, ∃ w, visit.Passes w ∧ ∃ loaded w',
      (byId env visit.actor.key view.id visit.actor.checks).run w = .ok (loaded, w') ∧
        loaded.view = view := by
  induction h with
  | last hkey hsucceeds =>
    intro visit hvisit
    obtain rfl := List.mem_singleton.mp hvisit
    obtain ⟨scan, hscan⟩ := hsucceeds.scans hkey
    exact hscan.live
  | more hkey hsucceeds _ _ _ ih =>
    intro visit hvisit
    rcases List.mem_cons.mp hvisit with rfl | hvisit
    · obtain ⟨scan, hscan⟩ := hsucceeds.scans hkey
      exact hscan.live
    · exact ih visit hvisit

/-- A listing whose pages find no session but those of the first one is done after as many pages as
there are sessions, and one page more that finds none. -/
theorem Listing.length_le {first : Visit env} {later : List (Visit env)}
    (h : Listing env key cursor (first :: later) final)
    (hnew : ∀ visit ∈ later, sessionsOf key visit.start.world ⊆ sessionsOf key first.start.world) :
    (first :: later).length ≤
      (sessionsOf key first.start.world).length + if final = none then 1 else 0 := by
  obtain ⟨scans, hscans, hfollowing⟩ := h.follows
  rw [hscans.length_eq]
  refine hfollowing.length_le_of_subset fun scan hscan => ?_
  obtain ⟨visit, hvisit, hof⟩ := exists_visit hscans hscan
  rcases List.mem_cons.mp hvisit with rfl | hvisit
  · exact hof.stored
  · exact List.Subset.trans hof.stored (hnew visit hvisit)

/-- Session listing is complete and live: for an account, from the start, with any limits and
whatever the authority does between two pages, reading comes to an end where no session is new,
returns no session twice and every session that is accepted all along once, and returns none that
the check refuses. -/
theorem sessions_listed (h : Listing env key none visits final) : SessionsListed key visits final := by
  obtain ⟨scans, hscans, hfollowing⟩ := h.follows
  have hnodup : (visits.flatMap Visit.returned).Nodup := by
    have hascending := hfollowing.ascending.sublist (returned_sublist hscans)
    exact hascending.imp fun hlt => hlt.ne
  refine ⟨?_, hnodup, ?_, h.live⟩
  · rintro earlier first later rfl hnew
    exact h.suffix.length_le hnew
  · intro hfinal sid haccepted
    refine List.count_eq_one_of_mem hnodup (mem_returned hscans ?_ haccepted)
    refine hfollowing.complete hfinal ?_ (by simp)
    intro scan hscan
    obtain ⟨visit, hvisit, hof⟩ := exists_visit hscans hscan
    exact hof.listed sid (haccepted visit hvisit _ hof.passes_start)

/-- An account signs in twice, and the first of its sessions lists both, one on a page. -/
def pagesOfOne (env : Env) (key : AccountKey) (login hash : String) :
    Action (SessionPage × SessionPage) := do
  let issued ← firstLogin env key login hash
  let found ← readPassword env login
  let found ← Tx.demand found .rejected
  let candidate ← confirmPassword env found.2
  let _ ← createSessionFor env candidate none .cookie
  let actor ← authenticateSession env (env.sha256.secret issued.secret) .cookie false
  Tx.require (actor.key = key) .rejected
  let first ← listSessions env actor none 1
  let next ← Tx.demand first.nextCursor .rejected
  let second ← listSessions env actor (some next) 1
  pure (first, second)

theorem run_pagesOfOne {login hash : String} {w w' : Tenant} {first second : SessionPage}
    (h : (pagesOfOne env key login hash).run w = .ok ((first, second), w')) :
    ∃ visits, Listing env key none visits second.nextCursor ∧
      visits.map Visit.page = [first, second] := by
  simp only [pagesOfOne, Tx.run_bind, Tx.run_demand, Tx.run_require, Tx.run_pure, Prod.mk.injEq] at h
  obtain ⟨issued, w₁, -, found, w₂, -, read, w₃, -, candidate, w₄, -, again, w₅, -, actor, w₆, -, -, _,
    ⟨hkey, rfl⟩, page, w₇, hfirst, next, _, ⟨hnext, rfl⟩, page', w₈, hsecond, ⟨rfl, rfl⟩, -⟩ := h
  let visit : Visit env := ⟨actor, none, 1, ⟨w₆, []⟩, first, w₇⟩
  let later : Visit env := ⟨actor, some next, 1, ⟨w₇, []⟩, second, w₈⟩
  have hvisit : visit.Succeeds := hfirst
  have hlater : later.Succeeds := hsecond
  have hlast : Listing env key (some next) [later] second.nextCursor := .last hkey hlater
  exact ⟨[visit, later], .more hkey hvisit hnext .start hlast, rfl⟩

/-- The two pages of `ada`, who signed in twice. -/
theorem adasSessions_listed : ∃ visits : List (Visit .transparent),
    SessionsListed ⟨Uuid.newV4 0⟩ visits none ∧
      visits.map (fun visit => visit.returned.length) = [1, 1] := by
  have hok : (((pagesOfOne .transparent ⟨Uuid.newV4 0⟩ "ada" "hash").run newTenant).toOption.map
      fun found => (found.1.1.sessions.length, found.1.2.sessions.length, found.1.2.nextCursor)) =
      some (1, 1, none) := by decide +kernel
  obtain ⟨⟨⟨first, second⟩, w⟩, hsome, hpages⟩ := Option.map_eq_some_iff.mp hok
  simp only [Prod.mk.injEq] at hpages
  obtain ⟨hfirst, hsecond, hlast⟩ := hpages
  obtain ⟨visits, hlisting, hvisits⟩ := run_pagesOfOne (eq_ok_of_toOption hsome)
  rw [hlast] at hlisting
  refine ⟨visits, sessions_listed hlisting, ?_⟩
  have hlengths : visits.map (fun visit => visit.returned.length) =
      (visits.map Visit.page).map fun page => page.sessions.length := by
    simp [Visit.returned, Function.comp_def]
  rw [hlengths, hvisits, List.map_cons, List.map_singleton, hfirst, hsecond]

end IdentityAuthority
