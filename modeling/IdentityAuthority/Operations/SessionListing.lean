import IdentityAuthority.Operations.Sessions
import IdentityAuthority.Relational.Cursor
import IdentityAuthority.Relational.Recovery

/-!
# Listing the sessions of an account

A page is scanned in the order of the session identifiers. The statement that scans asks less than
the check of a session does, so a scanned session may be refused; it is then left out of the page,
while the cursor of the next page still moves past it.
-/

namespace IdentityAuthority

open Relational

theorem SessionId.value_injective : Function.Injective fun sid : SessionId => sid.uuid.value := by
  rintro ⟨⟨m, hm⟩⟩ ⟨⟨n, hn⟩⟩ h
  obtain rfl : m = n := h
  rfl

/-- Identifiers in the order the database sorts them. -/
instance : LinearOrder SessionId :=
  LinearOrder.lift' (fun sid : SessionId => sid.uuid.value) SessionId.value_injective

/-- `SessionPage`. -/
structure SessionPage where
  sessions : List SessionView
  nextCursor : Option SessionId

/-- What the statement that scans asks of a row. -/
def SessionRow.listable (row : SessionRow) (key : AccountKey) (state : AccountState) (now : ℤ) :
    Bool :=
  decide (row.principal = key ∧ row.authEpoch = state.epoch ∧
    row.membershipEpoch = state.membershipEpoch ∧ row.revokedAt = none ∧ row.issuedAt ≤ now ∧
    now < row.idleExpiresAt ∧ now < row.absoluteExpiresAt)

/-- `MessagingErrorKind::Conflict`, which every check of a session refuses with. -/
def Failure.conflict : Failure → Bool
  | .rejected => true
  | _ => false

/-- One page of the sessions of an account (`list_sessions`). -/
def listSessions (env : Env) (actor : AuthenticatedSession) (cursor : Option SessionId)
    (limit : ℕ) : Action SessionPage := do
  Tx.require (1 ≤ limit ∧ limit ≤ 100) .invalidInput
  let loaded ← recheck env actor
  let rows ← Tx.select Tables.sessions fun row => row.listable actor.key loaded.state loaded.now
  let ids := seek cursor (limit + 1) (rows.map SessionRow.session)
  let more := decide (limit < ids.length)
  let scanned := ids.take limit
  let sessions ← Tx.collect Failure.conflict
    (fun id => Loaded.view <$> byId env actor.key id actor.checks) scanned
  pure { sessions, nextCursor := if more then scanned.getLast? else none }

variable {env : Env} {actor : AuthenticatedSession} {cursor : Option SessionId} {limit : ℕ}
  {w w' : Tenant} {page : SessionPage}

/-- The scan of a page, over the rows the statement finds. -/
def pageScan (actor : AuthenticatedSession) (cursor : Option SessionId) (limit : ℕ)
    (loaded : Loaded) (w : Tenant) : Scan SessionId where
  cursor
  limit
  keys := (w.state.sessions.filter fun row =>
    row.listable actor.key loaded.state loaded.now).map SessionRow.session

theorem pageScan_sound {loaded : Loaded} (hlimit : 1 ≤ limit) :
    (pageScan actor cursor limit loaded w).Sound := by
  refine ⟨hlimit, ?_⟩
  have hkeys : (w.state.sessions.rows.map SessionRow.session).Nodup :=
    List.pairwise_map.mpr (w.state.sessions.compatible.imp fun h => h.1)
  exact hkeys.sublist (List.filter_sublist.map _)

/-- A page judges the keys of its scan one after the other, after the actor was rechecked. -/
theorem run_listSessions (h : (listSessions env actor cursor limit).run w = .ok (page, w')) :
    1 ≤ limit ∧ ∃ loaded, (recheck env actor).run w = .ok (loaded, w.tick) ∧
      page.nextCursor = (pageScan actor cursor limit loaded w).next ∧
      Tx.Sweep Failure.conflict (fun id => Loaded.view <$> byId env actor.key id actor.checks)
        w.tick (pageScan actor cursor limit loaded w).scanned page.sessions w' := by
  simp only [listSessions, Tx.run_bind, Tx.run_require, Tx.run_select, Tx.run_pure] at h
  obtain ⟨-, _, ⟨⟨hlimit, -⟩, rfl⟩, loaded, w₁, hrecheck, rows, _, ⟨hrows, rfl⟩, sessions, _,
    hcollect, rfl, rfl⟩ := h
  obtain ⟨rfl, -⟩ := run_recheck hrecheck
  refine ⟨hlimit, loaded, hrecheck, ?_, ?_⟩
  · simp only [Scan.next, Scan.scanned, Scan.ids, pageScan, hrows, decide_eq_true_eq]
    rfl
  · rw [hrows] at hcollect
    exact Tx.run_collect hcollect

end IdentityAuthority
