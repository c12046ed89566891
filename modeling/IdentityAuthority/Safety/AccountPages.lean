import IdentityAuthority.Operations.AccountCursors
import IdentityAuthority.Safety.FilterMeaning
import IdentityAuthority.Safety.Windows

/-!
# Listing all accounts

A client follows the cursors from page to page, while everything else goes on. As long as the pages
are given out, they are pieces of one list: the rows that the filter selected at the first page, in
the order of the query.
-/

namespace IdentityAuthority

open Relational Transition Json

section Page

variable {env : Env} {directory : AccountDirectory} {actor : AuthenticatedSession}
  {query : AccountQuery} {cursor : Option String} {deadline : ℤ} {w w' : Tenant} {page : AccountPage}

/-- Asking the policy writes nothing. -/
theorem run_authorizeEach {loaded : Loaded} {operations : List ManagementOperation} {a : Unit}
    (h : (authorizeEach env loaded operations).run w = .ok (a, w')) :
    w'.state = w.state ∧ w.Advances w' := by
  induction operations generalizing w with
  | nil =>
    obtain ⟨-, rfl⟩ := Tx.run_pure.mp h
    exact ⟨rfl, .refl _⟩
  | cons operation rest ih =>
    obtain ⟨_, _, hfirst, hrest⟩ := Tx.run_bind.mp h
    obtain ⟨hstate, hadvances⟩ := run_authorize hfirst
    obtain ⟨hstate', hadvances'⟩ := ih hrest
    exact ⟨hstate'.trans hstate, hadvances.trans hadvances'⟩

/-- The age limit that a window is opened for. -/
def AccountQuery.windowAge (query : AccountQuery) (limits : ProfileLimits) : Option ℤ :=
  if query.needsProfiles then some limits.maxAge else none

/-- The source that a window is opened for. -/
def AccountQuery.windowSource (query : AccountQuery) : Option ProfileSource :=
  if query.needsDepartments then query.source else none

/-- What the cursors of a page are bound to. -/
def AccountDirectory.bound (directory : AccountDirectory) (env : Env) (actor : AuthenticatedSession)
    (query : AccountQuery) (generation : ℤ) : List UInt8 :=
  jsonBytes (directory.boundTo env.instanceId actor.key actor.view.id generation query)

/-- A page that is given out was read at one time, in one state of the tables, after one position. -/
structure PageRead (env : Env) (directory : AccountDirectory) (actor : AuthenticatedSession)
    (query : AccountQuery) (cursor : Option String) (w : Tenant) (page : AccountPage) (w' : Tenant)
    (window : PersonnelWindow) (position : Option (List (Option Scalar))) : Prop where
  opened : ∃ deadline actorUntil w₁ w₂, w₁.state = w.state ∧ w.Advances w₁ ∧
    (readWindowOf (query.windowAge env.profileLimits) query.windowSource deadline actorUntil).run w₁ =
      .ok (window, w₂) ∧ w₂.Advances w'
  state : w'.state = w.state
  until_i64 : isI64 window.validUntil = true
  seek : directory.seek query (directory.sha256 (directory.bound env actor query window.generation))
    window.now cursor = .ok position
  accounts : (directory.page env query window.now position w.state).rows.mapM DirectoryRow.read =
    some page.accounts
  next : page.nextCursor = (directory.page env query window.now position w.state).next.map fun next =>
    directory.encode ⟨directory.sha256 (directory.bound env actor query window.generation),
      window.validUntil, next.map scalarJson⟩

/-- Every boundary that bounds a window is still to come. -/
theorem lt_boundaries {db : Db} {maxAge : Option ℤ} {departments : Option ProfileSource} {now : ℤ} :
    ∀ m ∈ least [least (sessionEnds db now ++ maxAge.elim [] fun age => observationEnds db age now),
      departments.bind fun source => departmentUntil db source now], now < m := by
  have hfiltered : ∀ {α : Type} {rows : List α} {p : α → Bool} {f : α → ℤ} {b : ℤ},
      (∀ r, p r = true → now < f r) → b ∈ ((rows.filter p).map f).min? → now < b := by
    intro α rows p f b hp hb
    obtain ⟨r, hr, rfl⟩ := List.mem_map.mp (List.min?_eq_some_iff.mp hb).1
    exact hp r (List.mem_filter.mp hr).2
  refine lt_least.mpr fun o ho b hb => ?_
  rcases List.mem_cons.mp ho with rfl | ho
  · refine lt_least.mpr ?_ b hb
    intro o ho b hb
    rcases List.mem_append.mp ho with ho | ho
    · simp only [sessionEnds, List.mem_cons, List.not_mem_nil, or_false] at ho
      rcases ho with rfl | rfl <;> exact hfiltered (fun r => of_decide_eq_true) hb
    · cases maxAge with
      | none => cases ho
      | some age =>
        simp only [Option.elim_some, observationEnds, List.mem_cons, List.not_mem_nil, or_false] at ho
        rcases ho with rfl | rfl
        · exact hfiltered (fun r => of_decide_eq_true) hb
        · obtain ⟨m, hm, rfl⟩ := Option.map_eq_some_iff.mp hb
          obtain ⟨r, hr, rfl⟩ := List.mem_map.mp (List.min?_eq_some_iff.mp hm).1
          have hyoung := of_decide_eq_true (List.mem_filter.mp hr).2
          omega
  · obtain rfl := List.mem_singleton.mp ho
    obtain ⟨source, -, hsource⟩ := Option.bind_eq_some_iff.mp hb
    have hmem := (List.min?_eq_some_iff.mp hsource).1
    exact of_decide_eq_true (List.mem_filter.mp hmem).2

/-- The end of a window of a session that is live is a time that can be written. -/
theorem isI64_relationsUntil {db : Db} {maxAge : Option ℤ} {departments : Option ProfileSource}
    {now actorUntil : ℤ} (hnow : 0 < now) (hactor : 0 < actorUntil) :
    isI64 (relationsUntil db maxAge departments now (some actorUntil)) = true := by
  have hcoming := @lt_boundaries db maxAge departments now
  refine decide_eq_true ?_
  simp only [relationsUntil, Option.getD_some, saturatingAdd]
  generalize least [least (sessionEnds db now ++ maxAge.elim [] fun age => observationEnds db age now),
    departments.bind fun source => departmentUntil db source now] = next at hcoming
  have hnext : 0 < next.getD i64Max := by
    cases next with
    | none => decide
    | some m => exact hnow.trans (hcoming m rfl)
  have hsmall : i64Min < 0 ∧ 0 < i64Max := by decide
  omega

theorem run_listAccounts
    (h : (listAccounts env directory actor query cursor deadline).run w = .ok (page, w')) :
    ∃ window position, PageRead env directory actor query cursor w page w' window position := by
  simp only [listAccounts, Tx.run_bind, Tx.run_require, Tx.run_query, Tx.run_ofExcept, Tx.run_demand,
    Tx.run_clockTimestamp, Tx.run_pure] at h
  obtain ⟨-, _, ⟨-, rfl⟩, loaded, w₁, hrecheck, _, w₂, hauthorize, window, w₃, hwindow, position, _,
    ⟨hseek, rfl⟩, db, _, ⟨rfl, rfl⟩, accounts, _, ⟨haccounts, rfl⟩, instant, w₄, ⟨rfl, rfl⟩, -, _,
    ⟨-, rfl⟩, rfl, rfl⟩ := h
  obtain ⟨rfl, -, hid, row, hof, -⟩ := run_recheck hrecheck
  obtain ⟨hstate₂, hadvances₂⟩ := run_authorizeEach hauthorize
  obtain ⟨hstate₃, hclock₃, -, hnow, hvalid⟩ := run_readWindowOf hwindow
  have hstate : w₂.state = w.state := hstate₂
  rw [hid] at hseek
  have hpage : id w₃.state = w.state := hstate₃.trans hstate
  rw [hpage] at haccounts
  -- A session that is live was issued after the epoch, so the times of the window are positive.
  have hlive := hof.valid
  simp only [SessionLifetime.validAt, decide_eq_true_eq] at hlive
  have hissued := loaded.lifetime.issuedAt_pos
  have hview : loaded.view.idleExpiresAt = loaded.lifetime.idleExpiresAt ∧
      loaded.view.absoluteExpiresAt = loaded.lifetime.absoluteExpiresAt := by
    rw [hof.view]
    exact ⟨rfl, rfl⟩
  have hlater : loaded.now ≤ window.now := by
    rw [hof.now, hnow, hclock₃]
    exact seconds_mono ((hadvances₂.trans (.tick _)).trans (.tick _)).clock
  refine ⟨window, position, ⟨_, _, w₂, w₃, hstate, (World.Advances.tick w).trans hadvances₂, hwindow,
    .tick _⟩, hpage, ?_, hseek, haccounts, ?_⟩
  · rw [hvalid]
    exact isI64_relationsUntil (by omega) (by omega)
  · rw [hpage, hid]
    rfl

end Page

/-- A page that a client asked for: what it sent, where the call started and ended, and the page. -/
structure PageVisit (env : Env) where
  actor : AuthenticatedSession
  query : AccountQuery
  cursor : Option String
  deadline : ℤ
  start : System env
  page : AccountPage
  finish : Tenant

namespace PageVisit

variable {env : Env} (directory : AccountDirectory) (visit : PageVisit env)

/-- The call succeeds. -/
def Succeeds : Prop :=
  (listAccounts env directory visit.actor visit.query visit.cursor visit.deadline).run
    visit.start.world = .ok (visit.page, visit.finish)

/-- What the cursors of the page are bound to. -/
def bound : List UInt8 :=
  directory.bound env visit.actor visit.query visit.start.world.state.revision

/-- What the page was read as. -/
def Reads (window : PersonnelWindow) (position : Option (List (Option Scalar))) : Prop :=
  PageRead env directory visit.actor visit.query visit.cursor visit.start.world visit.page visit.finish
    window position

/-- The rows that the query is about, at a time of the page. -/
def rowsAt (now : ℤ) : List DirectoryRow :=
  directory.rows env visit.query now visit.start.world.state

/-- Another page answers the same query for the same session, at the same generation. -/
def SameListing (visit other : PageVisit env) : Prop :=
  other.query = visit.query ∧ other.actor.key = visit.actor.key ∧
    other.actor.view.id = visit.actor.view.id ∧
      other.start.world.state.revision = visit.start.world.state.revision

end PageVisit

/-- Pages that follow each other by their cursors, and anything that the authority does between two of
them. -/
inductive AccountListing (env : Env) (directory : AccountDirectory) :
    Option String → List (PageVisit env) → Option String → Prop
  | last {visit : PageVisit env} : visit.Succeeds directory →
      AccountListing env directory visit.cursor [visit] visit.page.nextCursor
  | more {visit later : PageVisit env} {visits : List (PageVisit env)} {raw : String}
      {final : Option String} {trace : List (Event (System env) (Label env))} :
      visit.Succeeds directory → visit.page.nextCursor = some raw →
      Run (Step env) ⟨visit.finish, visit.start.held⟩ trace later.start →
      AccountListing env directory (some raw) (later :: visits) final →
      AccountListing env directory visit.cursor (visit :: later :: visits) final

/-- What the cursors of these pages are bound to has one digest only if it is the same. -/
def Undigested {env : Env} (directory : AccountDirectory) (visits : List (PageVisit env)) : Prop :=
  ∀ visit ∈ visits, ∀ other ∈ visits,
    directory.sha256 (visit.bound directory) = directory.sha256 (other.bound directory) →
      visit.bound directory = other.bound directory

section Chain

variable {env : Env} {directory : AccountDirectory} {visit later : PageVisit env}
  {window window' : PersonnelWindow} {position position' : Option (List (Option Scalar))}

/-- The time of a window is one of the call, and its generation that of the tables. -/
theorem PageVisit.Reads.times (h : visit.Reads directory window position) :
    window.generation = visit.start.world.state.revision ∧
      seconds visit.start.world.clock ≤ window.now ∧ window.now ≤ seconds visit.finish.clock := by
  obtain ⟨deadline, actorUntil, w₁, w₂, hstate, hadvances, hread, hfinish⟩ := h.opened
  obtain ⟨-, hclock, hgeneration, hnow, -⟩ := run_readWindowOf hread
  refine ⟨by rw [hgeneration, hstate], ?_, ?_⟩
  · rw [hnow, hclock]
    exact seconds_mono ((hadvances.trans (.tick _)).trans (.tick _)).clock
  · rw [hnow]
    exact seconds_mono hfinish.clock

theorem PageVisit.Reads.advances (h : visit.Reads directory window position) :
    visit.start.world.Advances visit.finish := by
  obtain ⟨_, _, _, _, -, hadvances, hread, hfinish⟩ := h.opened
  exact (hadvances.trans (Tx.advances _ _ _ _ hread)).trans hfinish

/-- The next page of a listing is one of the same listing: it starts where the page before ended, in
rows that are the same. -/
theorem PageVisit.Reads.follow {s₀ : System env} {trace₀ trace : List (Event (System env) (Label env))}
    {raw : String} (hstart : s₀.Provisioned) (hreached : Run (Step env) s₀ trace₀ visit.start)
    (h : visit.Reads directory window position) (hnext : visit.page.nextCursor = some raw)
    (hrun : Run (Step env) ⟨visit.finish, visit.start.held⟩ trace later.start)
    (hlater : later.Reads directory window' position') (hcursor : later.cursor = some raw)
    (hdigest : directory.sha256 (visit.bound directory) = directory.sha256 (later.bound directory) →
      visit.bound directory = later.bound directory) :
    visit.SameListing later ∧
      later.rowsAt directory window'.now = visit.rowsAt directory window.now ∧
      (directory.page env visit.query window.now position visit.start.world.state).next = position' := by
  obtain ⟨hgeneration, -, -⟩ := h.times
  obtain ⟨hgeneration', hafter, -⟩ := hlater.times
  -- The cursor is the one that the page before wrote.
  rw [h.next] at hnext
  obtain ⟨next, hposition, rfl⟩ := Option.map_eq_some_iff.mp hnext
  obtain ⟨r, -, hcolumns⟩ := page_next_eq hposition
  have hseek := hlater.seek
  rw [hcursor] at hseek
  simp only [AccountDirectory.seek, except_bind_eq_ok] at hseek
  obtain ⟨cursor, hdecode, hseek⟩ := hseek
  obtain rfl := AccountDirectory.decode_encode h.until_i64 (by
    intro value hvalue
    obtain ⟨v, -, rfl⟩ := List.mem_map.mp hvalue
    exact ⟨v, rfl⟩) hdecode
  split at hseek
  · cases hseek
  rename_i hgood
  obtain ⟨hbinding, hexpires⟩ := not_or.mp hgood
  rw [not_not] at hbinding
  rw [not_le] at hexpires
  -- What it is bound to is the session, the generation and the query of both pages.
  rw [hgeneration, hgeneration'] at hbinding
  have hbound := jsonBytes_injective (hdigest hbinding)
  obtain ⟨hkey, hsession, hrevision, hquery⟩ := AccountDirectory.boundTo_inj hbound
  have hlisting : visit.SameListing later := ⟨hquery.symm, hkey.symm, hsession.symm, hrevision.symm⟩
  rw [← hcolumns, ← hquery, seekPosition_columns] at hseek
  refine ⟨hlisting, ?_, ?_⟩
  · obtain ⟨deadline, actorUntil, w₁, w₂, hstate, hadvances, hread, hfinish⟩ := h.opened
    obtain ⟨hstate₂, -⟩ := run_readWindowOf hread
    have hfinished : visit.finish.state = w₂.state := by rw [h.state, hstate₂, hstate]
    have hbefore : Run (Step env) s₀ (trace₀ ++ [⟨_, .elapse, _⟩]) ⟨w₁, visit.start.held⟩ :=
      hreached.step (.elapse hstate hadvances)
    have helapse : Run (Step env) ⟨w₂, visit.start.held⟩ [⟨_, .elapse, _⟩]
        ⟨visit.finish, visit.start.held⟩ := Run.start.step (.elapse hfinished hfinish)
    have hbetween := helapse.append hrun
    have hfrom : window.now ≤ window'.now := by
      have hclock := (follows_of_run hrun).advances.clock
      obtain ⟨-, -, hended⟩ := h.times
      exact hended.trans ((seconds_mono hclock).trans hafter)
    have hsame := windows_sound hstart hbefore hread hbetween
      (by rw [hgeneration, hrevision]) hfrom hexpires
    have hrelation := hsame.directory (visit.query.terms env.profileLimits 0) directory.uuids
      (fun hprofiles => if_pos hprofiles) (fun hdepartments => if_pos hdepartments)
    rw [hstate] at hrelation
    rw [PageVisit.rowsAt, PageVisit.rowsAt, ← hquery, AccountDirectory.rows, AccountDirectory.rows]
    exact congrArg (List.filter _) hrelation.symm
  · rw [hposition, ← hcolumns]
    exact Except.ok.inj hseek

/-- A listing starts with a page that is given out. -/
theorem AccountListing.head {cursor final : Option String} {visits : List (PageVisit env)}
    (h : AccountListing env directory cursor (visit :: visits) final) :
    visit.cursor = cursor ∧ visit.Succeeds directory := by
  cases h with
  | last hsucceeds => exact ⟨rfl, hsucceeds⟩
  | more hsucceeds => exact ⟨rfl, hsucceeds⟩

theorem PageVisit.SameListing.trans {first visit later : PageVisit env} (h : first.SameListing visit)
    (h' : visit.SameListing later) : first.SameListing later :=
  ⟨h'.1.trans h.1, h'.2.1.trans h.2.1, h'.2.2.1.trans h.2.2.1, h'.2.2.2.trans h.2.2.2⟩

/-- The pages of a listing are pages of the rows at the first of them. -/
theorem AccountListing.pages {s₀ : System env} {trace₀ : List (Event (System env) (Label env))}
    {cursor final : Option String} {visits : List (PageVisit env)} (hstart : s₀.Provisioned)
    (h : AccountListing env directory cursor (visit :: visits) final)
    (hreached : Run (Step env) s₀ trace₀ visit.start) (hread : visit.Reads directory window position)
    (hdigests : Undigested directory (visit :: visits)) :
    (∀ other ∈ visit :: visits, visit.SameListing other) ∧ ∃ pages last,
      Pages visit.query.directions visit.query.columns visit.query.limit
        (visit.rowsAt directory window.now) position pages last ∧
      pages.flatten.mapM DirectoryRow.read =
        some ((visit :: visits).flatMap fun visit => visit.page.accounts) ∧
      (last = none ↔ final = none) := by
  have hself : visit.SameListing visit := ⟨rfl, rfl, rfl, rfl⟩
  induction visits generalizing cursor visit window position trace₀ with
  | nil =>
    cases h with
    | last hsucceeds =>
      refine ⟨fun other hother => ?_, [_], _, .last, ?_, ?_⟩
      · rw [List.mem_singleton.mp hother]
        exact hself
      · rw [List.flatten_singleton, List.flatMap_singleton]
        exact hread.accounts
      · rw [hread.next, Option.map_eq_none_iff]
        rfl
  | cons later visits ih =>
    cases h with
    | @more _ _ _ raw _ trace hsucceeds hnext hrun hrest =>
      obtain ⟨hcursor, hlater⟩ := hrest.head
      obtain ⟨window', position', hpage⟩ := run_listAccounts hlater
      have hread' : later.Reads directory window' position' := hpage
      obtain ⟨hlisting, hrows, hposition⟩ := hread.follow hstart hreached hnext hrun hread' hcursor
        (hdigests _ List.mem_cons_self _ (List.mem_cons_of_mem _ List.mem_cons_self))
      have hfinished := hreached.step (.elapse hread.state hread.advances)
      obtain ⟨hsame, pages, last, hpages, haccounts, hlast⟩ := ih hrest (hfinished.append hrun) hread'
        (fun a ha b hb => hdigests a (List.mem_cons_of_mem _ ha) b (List.mem_cons_of_mem _ hb))
        ⟨rfl, rfl, rfl, rfl⟩
      obtain ⟨next, hmore⟩ : ∃ next, (directory.page env visit.query window.now position
          visit.start.world.state).next = some next := by
        rw [hread.next] at hnext
        obtain ⟨next, hmore, -⟩ := Option.map_eq_some_iff.mp hnext
        exact ⟨next, hmore⟩
      have hquery := hlisting.1
      rw [hquery, hrows, ← hposition, hmore] at hpages
      refine ⟨fun other hother => ?_, _ :: pages, last, .more hmore hpages, ?_, hlast⟩
      · rcases List.mem_cons.mp hother with rfl | hother
        · exact hself
        · exact hlisting.trans (hsame other hother)
      · have hfirst : (Relational.page visit.query.directions visit.query.columns visit.query.limit
            position (visit.rowsAt directory window.now)).rows.mapM DirectoryRow.read =
              some visit.page.accounts := hread.accounts
        rw [List.flatten_cons, List.mapM_append, hfirst, haccounts]
        rfl

end Chain

section Rows

variable {env : Env} {directory : AccountDirectory} {query : AccountQuery} {format : UuidFormat}
  {now : ℤ} {db : Db}

/-- Rows whose principals differ differ in what a query orders by. -/
theorem columns_ne (h : query.Accepted format) {r s : DirectoryRow}
    (hne : r.principalId ≠ s.principalId) : query.columns r ≠ query.columns s := by
  obtain ⟨sort, hsort, hfield⟩ := List.mem_map.mp h.principal
  intro heq
  have hscalar := List.map_inj_left.mp heq sort hsort
  rw [hfield] at hscalar
  simp only [DirectoryRow.scalar, Option.some.injEq, Scalar.text.injEq] at hscalar
  exact hne hscalar

/-- The rows of a query are told apart by what it orders them by. -/
theorem rows_keyset (h : query.Accepted format) :
    Keyset query.directions query.columns (directory.rows env query now db) := by
  refine Keyset.filter ⟨fun r _ => ?_, ?_⟩
  · rw [AccountQuery.columns, AccountQuery.directions, List.length_map, List.length_map]
  · rw [DirectoryTerms.relation, List.pairwise_map]
    refine (directoryJoined_distinct _ db).imp fun hne => columns_ne h fun heq => hne ?_
    exact congrArg PrincipalId.mk (directory.uuids.text_inj heq)

end Rows


/-- What a listing from the start gives out. -/
structure AccountsListed {env : Env} (directory : AccountDirectory) (first : PageVisit env)
    (visits : List (PageVisit env)) (final : Option String) : Prop where
  /-- All pages answer the query of the first one, for its session and at its generation. -/
  same : ∀ visit ∈ visits, first.SameListing visit
  /-- At a time of the first page, the pages are the beginning of all rows that the query selects, in
  its order, and all of them where the last page names no further one. -/
  rows : ∃ now front rest, seconds first.start.world.clock ≤ now ∧ now ≤ seconds first.finish.clock ∧
    (front ++ rest).Perm (first.rowsAt directory now) ∧
    (front ++ rest).Pairwise (fun r s => precedes first.query.directions (first.query.columns r)
      (first.query.columns s) = true) ∧
    front.mapM DirectoryRow.read = some (visits.flatMap fun visit => visit.page.accounts) ∧
    (rest = [] ↔ final = none)

/-- Account pagination is complete under concurrency: whatever the authority does between two pages,
the pages that are given out are, one after the other, the rows that the filter selected when the
first of them was read, each once and in the order of the query. -/
theorem accounts_listed {env : Env} {directory : AccountDirectory} {format : UuidFormat}
    {s₀ : System env} {trace₀ : List (Event (System env) (Label env))} {first : PageVisit env}
    {visits : List (PageVisit env)} {final : Option String} (hstart : s₀.Provisioned)
    (hreached : Run (Step env) s₀ trace₀ first.start) (haccepted : first.query.Accepted format)
    (h : AccountListing env directory none (first :: visits) final)
    (hdigests : Undigested directory (first :: visits)) :
    AccountsListed directory first (first :: visits) final := by
  obtain ⟨hcursor, hsucceeds⟩ := h.head
  obtain ⟨window, position, hpage⟩ := run_listAccounts hsucceeds
  have hread : first.Reads directory window position := hpage
  have hposition : position = none := by
    have hseek := hread.seek
    rw [hcursor] at hseek
    exact (Except.ok.inj hseek).symm
  subst hposition
  obtain ⟨hsame, pages, last, hpages, haccounts, hlast⟩ := h.pages hstart hreached hread hdigests
  obtain ⟨-, hfrom, huntil⟩ := hread.times
  have hkeys : Keyset first.query.directions first.query.columns
      (first.rowsAt directory window.now) := rows_keyset haccepted
  have hall := hpages.flatten hkeys haccepted.limit.1
  have hordered : following first.query.directions first.query.columns none
      (first.rowsAt directory window.now) = ordered first.query.directions first.query.columns
        (first.rowsAt directory window.now) := by
    rw [following_eq hkeys]
    exact List.filter_eq_self.mpr fun _ _ => rfl
  rw [hordered] at hall
  refine ⟨hsame, window.now, _, _, hfrom, huntil, ?_, ?_, haccounts,
    (hpages.rest_eq_nil_iff hkeys haccepted.limit.1).trans hlast⟩
  · rw [← hall]
    exact ordered_perm _
  · rw [← hall]
    exact ordered_strict hkeys

section Example

open Classical in
/-- A reader of what was written that has one cursor at hand. -/
noncomputable def CursorReader.knowing (known : Cursor) : CursorReader where
  read plain :=
    if decide (plain = jsonBytes known.json) then some known
    else if h : ∃ cursor : Cursor, jsonBytes cursor.json = plain then some h.choose
    else none
  read_cursor cursor _ _ := by
    have hinjective := jsonBytes_injective.comp Cursor.json_injective
    split
    · rename_i hknown
      rw [hinjective (of_decide_eq_true hknown)]
    · rw [dif_pos ⟨cursor, rfl⟩]
      exact congrArg some (hinjective (Exists.choose_spec (⟨cursor, rfl⟩ :
        ∃ found : Cursor, jsonBytes found.json = jsonBytes cursor.json)))

/-- The enabled accounts, by descending login, one on a page. -/
def enabledAccounts : AccountQuery where
  filter := some (.compare .enabled .equal ["true"])
  sort := [⟨.login, true⟩, ⟨.principalId, false⟩]
  fields := defaultFields
  source := none
  limit := 1

theorem enabledAccounts_accepted : enabledAccounts.Accepted .hyphenated where
  limit := by decide
  output := by decide
  sortable := by decide
  distinct := by decide
  principal := by decide
  filter := by
    rintro _ ⟨⟩
    have hwell : (Expression.compare .enabled .equal ["true"]).WellFormed .hyphenated :=
      rules_of_other (by decide) rfl (by decide) rfl (by decide) (by decide +kernel)
    have hread : parseFilter .hyphenated ((Expression.compare .enabled .equal ["true"]).text .double) =
        .ok (.compare .enabled .equal ["true"]) :=
      parseFilter_text hwell ⟨by decide, by decide, by decide⟩ (by decide +kernel)
    exact ⟨_, hread⟩
  profiles := by decide
  departments h := absurd h (by decide)

/-- What a page gives out, with its cursor not yet signed. -/
structure AccountSheet where
  accounts : List AccountDirectoryRow
  next : Option (List (Option Scalar))
  binding : List UInt8
  validUntil : ℤ

/-- The cursor that a page leads on by. -/
def AccountSheet.cursor (sheet : AccountSheet) (position : List (Option Scalar)) : Cursor :=
  ⟨sheet.binding, sheet.validUntil, position.map scalarJson⟩

/-- The page as it is given out. -/
def AccountSheet.page (directory : AccountDirectory) (query : AccountQuery) (sheet : AccountSheet) :
    AccountPage where
  accounts := sheet.accounts
  fields := query.fields
  nextCursor := sheet.next.map fun position => directory.encode (sheet.cursor position)

/-- A page of a listing, after a cursor that was read. -/
def listSheet (env : Env) (directory : AccountDirectory) (actor : AuthenticatedSession)
    (query : AccountQuery) (cursor : Option Cursor) (deadline : ℤ) : Action AccountSheet := do
  let loaded ← recheck env actor
  authorizeEach env loaded query.operations
  let window ← readWindowOf (if query.needsProfiles then some env.profileLimits.maxAge else none)
    (if query.needsDepartments then query.source else none) deadline
    (some (min loaded.view.idleExpiresAt loaded.view.absoluteExpiresAt))
  let binding := directory.sha256 (jsonBytes (directory.boundTo env.instanceId actor.key
    loaded.view.id window.generation query))
  let position ← Tx.ofExcept (cursor.elim (.ok none) (query.seekCursor binding window.now))
  let db ← Tx.query id
  let found := directory.page env query window.now position db
  let accounts ← Tx.demand (found.rows.mapM DirectoryRow.read) .corrupt
  let instant ← Tx.clockTimestamp
  Tx.require (instant < window.expires) .rejected
  pure { accounts, next := found.next, binding, validUntil := window.validUntil }

/-- The page is listed where the cursor is the one that was read. -/
theorem run_listAccounts_of_sheet {env : Env} {directory : AccountDirectory}
    {actor : AuthenticatedSession} {query : AccountQuery} {raw : Option String}
    {cursor : Option Cursor} {deadline : ℤ} {w w' : Tenant} {sheet : AccountSheet}
    (hsent : ∀ text ∈ raw, text ≠ "" ∧ text.utf8ByteSize ≤ 4096)
    (hsought : ∀ binding now, directory.seek query binding now raw =
      cursor.elim (.ok none) (query.seekCursor binding now))
    (h : (listSheet env directory actor query cursor deadline).run w = .ok (sheet, w')) :
    (listAccounts env directory actor query raw deadline).run w =
      .ok (sheet.page directory query, w') := by
  simp only [listSheet, Tx.run_bind, Tx.run_query, Tx.run_ofExcept, Tx.run_demand,
    Tx.run_clockTimestamp, Tx.run_require, Tx.run_pure] at h
  obtain ⟨loaded, w₁, hrecheck, _, w₂, hauthorize, window, w₃, hwindow, position, _, ⟨hseek, rfl⟩, db, _,
    ⟨rfl, rfl⟩, accounts, _, ⟨haccounts, rfl⟩, instant, w₄, ⟨rfl, rfl⟩, _, _, ⟨hlive, rfl⟩, rfl, rfl⟩ := h
  simp only [listAccounts, Tx.run_bind, Tx.run_query, Tx.run_ofExcept, Tx.run_demand,
    Tx.run_clockTimestamp, Tx.run_require, Tx.run_pure, hsought]
  exact ⟨(), w, ⟨hsent, rfl⟩, loaded, w₁, hrecheck, (), w₂, hauthorize, window, w₃, hwindow, position, _,
    ⟨hseek, rfl⟩, _, _, ⟨rfl, rfl⟩, accounts, _, ⟨haccounts, rfl⟩, _, _, ⟨rfl, rfl⟩, (), _, ⟨hlive, rfl⟩,
    rfl, rfl⟩

/-- What a page binds its cursor to is a digest. -/
theorem length_binding {env : Env} {directory : AccountDirectory} {actor : AuthenticatedSession}
    {query : AccountQuery} {cursor : Option Cursor} {deadline : ℤ} {w w' : Tenant} {sheet : AccountSheet}
    (h : (listSheet env directory actor query cursor deadline).run w = .ok (sheet, w')) :
    sheet.binding.length = 32 := by
  simp only [listSheet, Tx.run_bind, Tx.run_pure] at h
  obtain ⟨loaded, -, -, _, -, -, window, -, -, position, -, -, db, -, -, accounts, -, -, instant, -, -, _,
    -, -, rfl, -⟩ := h
  exact directory.length_sha256 _

/-- Ada signs in, an account is made for Zoe, and the accounts are listed while Ada's session is used. -/
def twoAccountSheets (env : Env) (directory : AccountDirectory) (query : AccountQuery)
    (key : AccountKey) (login hash other : String) : Action (AccountSheet × AccountSheet) := do
  let issued ← firstLogin env key login hash
  let _ ← createLocalAccountIn env other hash
  let actor ← authenticateSession env (env.sha256.secret issued.secret) .cookie false
  let db ← Tx.query id
  Tx.require (∀ a ∈ db.accounts.rows, (directory.uuids.text a.principal.uuid).utf8ByteSize ≤ 36) .rejected
  let first ← listSheet env directory actor query none 500000000
  let position ← Tx.demand first.next .rejected
  let cursor := first.cursor position
  Tx.require (isI64 cursor.expires = true ∧ compactSize (.array cursor.position) ≤ 100) .rejected
  let _ ← authenticateSession env (env.sha256.secret issued.secret) .cookie true
  let generation ← Tx.query Db.revision
  Tx.require (generation = db.revision) .rejected
  let second ← listSheet env directory actor query (some cursor) 500000000
  pure (first, second)

/-- The cursor that leads from Zoe's page to Ada's. -/
def zoesCursor : Cursor where
  binding := [202, 187, 8, 187, 35, 251, 12, 97, 124, 237, 139, 23, 105, 114, 235, 136, 49, 25, 100, 225,
    187, 172, 90, 45, 147, 48, 133, 207, 61, 88, 247, 122]
  expires := 160
  position := [.string "zoe", .string "00000000-0000-0000-0000-000000000005"]

/-- What Zoe's cursor is signed with, under the key `00 01 … 1f`. -/
def zoesTag : List UInt8 :=
  [251, 178, 84, 122, 10, 186, 192, 231, 216, 131, 35, 66, 208, 186, 17, 176, 25, 78, 9, 155, 27, 36, 120,
    203, 121, 67, 182, 45, 18, 36, 42, 144]

/-- The directory of Ada's tenant, with the digest and the signature that the listing asks for. -/
noncomputable def adasDirectory : AccountDirectory where
  tenant := "6ba7b810-9dad-41d1-80b4-00c04fd430c8"
  uuids := .hyphenated
  collation := plainCollation
  hmac := ⟨fun _ _ => zoesTag, fun _ _ => rfl⟩
  sha256 _ := zoesCursor.binding
  reader := .knowing zoesCursor
  cursorKey := (List.range 32).map UInt8.ofNat
  length_sha256 _ := rfl
  text_ne_local := by
    intro id h
    have hparse := UuidFormat.hyphenated.parse_text id
    rw [h, show UuidFormat.hyphenated.parse "local" = none by decide +kernel] at hparse
    cases hparse

theorem run_twoAccountSheets {directory : AccountDirectory} {query : AccountQuery} {key : AccountKey}
    {login hash other : String} {w w' : Tenant} {first second : AccountSheet} {env : Env}
    (h : (twoAccountSheets env directory query key login hash other).run w = .ok ((first, second), w')) :
    ∃ (visit later : PageVisit env) (trace : List (Event (System env) (Label env))),
      Run (Step env) ⟨w, []⟩ trace visit.start ∧ visit.query = query ∧
        AccountListing env directory none [visit, later] later.page.nextCursor ∧
        visit.bound directory = later.bound directory ∧
        (∀ a ∈ visit.start.world.state.accounts,
          (directory.uuids.text a.principal.uuid).utf8ByteSize ≤ 36) ∧
        (∃ raw, visit.page.nextCursor = some raw) ∧ visit.page = first.page directory query ∧
        later.page = second.page directory query := by
  simp only [twoAccountSheets, Tx.run_bind, Tx.run_demand, Tx.run_query, Tx.run_require, Tx.run_pure,
    Prod.mk.injEq] at h
  obtain ⟨issued, w₁, hlogin, zoe, w₂, hzoe, actor, w₃, hactor, _, _, ⟨rfl, rfl⟩, _, _,
    ⟨hprincipals, rfl⟩, sheet, w₄, hfirst, position, _, ⟨hnext, rfl⟩, _, _, ⟨⟨hexpires, hsize⟩, rfl⟩,
    again, w₅, hagain, _, _, ⟨rfl, rfl⟩, _, _, ⟨hrevision, rfl⟩, sheet', w₆, hsecond, ⟨rfl, rfl⟩, -⟩ := h
  obtain ⟨trace, held, hrun⟩ := run_firstLogin hlogin
  have hrun := commit_step (.createLocalAccountIn other hash zoe) hrun trivial hzoe
  have hrun := commit_step (.authenticate _ .cookie false actor) hrun trivial hactor
  let visit : PageVisit env := ⟨actor, query, none, 500000000, ⟨w₃, held⟩, first.page directory query, w₄⟩
  have hbetween : Run (Step env) ⟨w₄, held⟩ [] ⟨w₄, held⟩ := .start
  have hbetween := commit_step (.authenticate _ .cookie true again) hbetween trivial hagain
  -- The cursor of the first page is short, so it is read as it was written.
  let raw := directory.encode (first.cursor position)
  have hbinding : (first.cursor position).binding.length = 32 := length_binding hfirst
  have hlength : (jsonBytes (first.cursor position).json).length ≤ 3000 := by
    have hle := length_cursor_le hbinding hexpires
    omega
  have hdecode : directory.decode raw = .ok (first.cursor position) := by
    refine directory.decode_encode_eq hexpires ?_ (by omega)
    intro value hvalue
    obtain ⟨v, -, rfl⟩ := List.mem_map.mp hvalue
    exact ⟨v, rfl⟩
  have hraw : ∀ text ∈ some raw, text ≠ "" ∧ text.utf8ByteSize ≤ 4096 := by
    rintro _ ⟨⟩
    exact directory.encode_sent hlength
  let later : PageVisit env :=
    ⟨actor, query, some raw, 500000000, ⟨w₅, held⟩, second.page directory query, w₆⟩
  have hvisit : visit.Succeeds directory :=
    run_listAccounts_of_sheet (fun text htext => by cases htext) (fun _ _ => rfl) hfirst
  have hlater : later.Succeeds directory :=
    run_listAccounts_of_sheet hraw (fun _ _ => AccountDirectory.seek_of_decode hdecode) hsecond
  have hled : visit.page.nextCursor = some raw := by
    show first.next.map _ = _
    rw [hnext, Option.map_some]
  have hlast : AccountListing env directory (some raw) [later] later.page.nextCursor := .last hlater
  refine ⟨visit, later, _, hrun, rfl, .more hvisit hled hbetween hlast, ?_, hprincipals, ⟨raw, hled⟩,
    rfl, rfl⟩
  exact congrArg (directory.bound env actor query) hrevision.symm

/-- The listing gives out both pages. -/
theorem twoAccountSheets_run : ∃ sheet sheet' w, (twoAccountSheets .transparent adasDirectory
    enabledAccounts ⟨Uuid.newV4 0⟩ "ada" "hash" "zoe").run newTenant = .ok ((sheet, sheet'), w) ∧
      sheet.accounts.map AccountDirectoryRow.login = [some "zoe"] ∧
      sheet'.accounts.map AccountDirectoryRow.login = [some "ada"] ∧ sheet'.next = none := by
  have hok : (((twoAccountSheets .transparent adasDirectory enabledAccounts ⟨Uuid.newV4 0⟩ "ada" "hash"
      "zoe").run newTenant).toOption.map fun found => (found.1.1.accounts.map AccountDirectoryRow.login,
        found.1.2.accounts.map AccountDirectoryRow.login, found.1.2.next)) =
      some ([some "zoe"], [some "ada"], none) := by decide +kernel
  obtain ⟨⟨⟨sheet, sheet'⟩, w⟩, hsome, hpages⟩ := Option.map_eq_some_iff.mp hok
  simp only [Prod.mk.injEq] at hpages
  exact ⟨sheet, sheet', w, eq_ok_of_toOption hsome, hpages⟩

/-- The two pages of the listing, with a use of Ada's session in between. -/
theorem adasAccounts_listed : ∃ visits : List (PageVisit .transparent), ∃ first ∈ visits,
    AccountsListed adasDirectory first visits none ∧
      visits.map (fun visit => visit.page.accounts.map AccountDirectoryRow.login) =
        [[some "zoe"], [some "ada"]] := by
  obtain ⟨sheet, sheet', w, hrun, hfirst, hsecond, hlast⟩ := twoAccountSheets_run
  obtain ⟨visit, later, trace, hreached, hquery, hlisting, hbound, -, -, hpage, hpage'⟩ :=
    run_twoAccountSheets hrun
  have hfinal : later.page.nextCursor = none := by
    rw [hpage', AccountSheet.page, hlast, Option.map_none]
  rw [hfinal] at hlisting
  have hdigests : Undigested adasDirectory [visit, later] := by
    intro a ha b hb _
    have hsame : ∀ c ∈ [visit, later], c.bound adasDirectory = visit.bound adasDirectory := by
      intro c hc
      rcases List.mem_cons.mp hc with rfl | hc
      · rfl
      · rw [List.mem_singleton.mp hc, hbound]
    rw [hsame a ha, hsame b hb]
  have haccepted : visit.query.Accepted .hyphenated := hquery ▸ enabledAccounts_accepted
  refine ⟨[visit, later], visit, List.mem_cons_self,
    accounts_listed ⟨rfl, rfl⟩ hreached haccepted hlisting hdigests, ?_⟩
  rw [List.map_cons, List.map_singleton, hpage, hpage']
  simp only [AccountSheet.page, hfirst, hsecond]

end Example

end IdentityAuthority
