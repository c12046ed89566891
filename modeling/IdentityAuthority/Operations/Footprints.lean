import IdentityAuthority.Operations.Accounts
import IdentityAuthority.Operations.Link
import IdentityAuthority.Operations.Platform
import IdentityAuthority.Operations.Profiles
import IdentityAuthority.Operations.Providers
import IdentityAuthority.Operations.Sessions
import IdentityAuthority.Operations.Webauthn
import IdentityAuthority.Protocols.PasswordClaims
import IdentityAuthority.Storage.Footprints

/-!
# Footprints of the operations

Each transaction of the component, with the areas it writes to. Where a statement depends on
what the transaction has read, the proof follows the run; elsewhere it follows the steps.
-/

namespace IdentityAuthority

open Relational

variable {env : Env} {areas : List Area} {start since w w' : Tenant}

section Passwords

theorem Effects.attempts {t : Table AttemptRow} {t' : Table PasswordAttemptRow}
    (ha : .attempts ∈ areas)
    (hstate : w'.state = { w.state with attempts := t, passwordAttempts := t' })
    (hadvances : w.Advances w') : Effects env areas start w w' := by
  have hfirst : Effects env areas start w { w with state := { w.state with attempts := t } } :=
    .write ha .attemptsWritten
  have hsecond : Effects env areas start { w with state := { w.state with attempts := t } }
      { w with state := { w.state with attempts := t, passwordAttempts := t' } } :=
    .write ha .passwordAttemptsWritten
  exact (hfirst.trans hsecond).trans (Effects.pass hstate ⟨hadvances.clock, hadvances.drawn⟩)

theorem cleanup_writes (ha : .attempts ∈ areas) : WritesOnly env areas start since cleanup := by
  intro w _ w' _ h
  obtain ⟨p, q, hstate⟩ := run_cleanup h
  exact .attempts ha hstate (cleanup.advances _ _ _ h)

theorem consume_writes (ha : .attempts ∈ areas) {a : Attempt} :
    WritesOnly env areas start since a.consume := by
  intro w _ w' _ h
  obtain ⟨t, hstate⟩ := run_consume h
  exact .attempts ha hstate (a.consume.advances _ _ _ h)

theorem attempt_writes {key : String} {limit seconds' : ℤ} :
    WritesOnly env areas start since (attempt key limit seconds') :=
  .of_readOnly fun _ _ _ h => (run_attempt h).1

theorem reserve_writes (ha : .attempts ∈ areas) {source scope : String} :
    WritesOnly env areas start since (reserve source scope) :=
  .bind (cleanup_writes ha) fun _ => .bind attempt_writes fun _ => .bind attempt_writes fun _ =>
    .ite (.bind .ofExcept fun _ => .pure) <| .bind .query fun _ => .ite .pure <|
      .bind (consume_writes ha) fun _ => .bind (consume_writes ha) fun _ => .pure

theorem claimPassword_writes (ha : .attempts ∈ areas) {env' : Env} {login source : String}
    {lease : ℤ} : WritesOnly env areas start since (claimPassword env' login source lease) := by
  refine .bind (.bind ?_ fun admitted => ?_) fun prepared => ?_
  · intro w _ w' _ h
    obtain ⟨⟨p, q, hstate⟩, -⟩ := run_admitPassword h
    exact .attempts ha hstate ((admitPassword _ _).advances _ _ _ h)
  · cases admitted with
    | error refusal => exact .pure
    | ok a => exact .bind (consume_writes ha) fun _ => .bind .newV4 fun _ => .pure
  · cases prepared with
    | error refusal => exact .pure
    | ok token =>
      refine .bind ?_ fun _ => .pure
      intro w _ w' _ h
      obtain ⟨t, hstate, -⟩ := run_claimRow h
      exact .attempts ha hstate ((claimRow _ _ _).advances _ _ _ h)

theorem settlePassword_writes (ha : .attempts ∈ areas) {env' : Env} {claim : PasswordClaim}
    {outcome : Except AuthorityError AuthenticationCandidate} :
    WritesOnly env areas start since (settlePassword env' claim outcome) := by
  have hwritten : ∀ {p g e}, WritesOnly env areas start since
      (Tx.updateIn Tables.passwordAttempts p g e) := .updateIn ha fun w t n db _ _ _ hdb => by
    cases hdb
    exact .passwordAttemptsWritten
  refine .bind (.of_readOnly fun _ _ _ h => (run_ownedNow h).1) fun owned => .ite .pure ?_
  cases outcome with
  | ok candidate =>
    refine .bind current_writes fun _ => .bind (.deleteFrom ha fun w db n hdb => ?_) fun _ => .pure
    cases hdb
    exact .passwordAttemptsWritten
  | error error =>
    refine .bind (.ite ?_ (.bind hwritten fun _ => .pure)) fun _ => .pure
    exact .bind .clockTimestamp fun _ => .bind .clockTimestamp fun _ => .bind .find fun _ =>
      .bind (.ite .clockTimestamp .pure) fun _ => .bind hwritten fun _ => .pure

theorem clearAttempts_writes (ha : .attempts ∈ areas) {env' : Env} {key : AccountKey} :
    WritesOnly env areas start since (clearAttempts env' key) := by
  intro w _ w' _ h
  obtain ⟨q, hstate⟩ := run_clearAttempts h
  exact .attempts ha hstate ((clearAttempts _ _).advances _ _ _ h)

end Passwords

section Accounts

theorem recheckReauthentication_writes {actor : AuthenticatedSession} {target : AccountKey}
    {proof : Option AuthenticationCandidate} :
    WritesOnly env areas start since (recheckReauthentication env actor target proof) := by
  cases proof with
  | none => exact .pure
  | some proof => exact .bind .require fun _ => .bind current_writes fun _ => .pure

variable (ha : .accounts ∈ areas)

include ha

theorem insertAccountRow_writes {row : AccountRow} {e : Failure} :
    WritesOnly env areas start since (Tx.insertInto Tables.accounts row e) :=
  .insertInto ha fun w t db _ ht hdb => by
    obtain ⟨-, rfl⟩ := advanceRevision_eq_some.mp hdb
    exact .accountInserted ht

theorem insertMembershipRow_writes {row : MembershipRow} {e : Failure} :
    WritesOnly env areas start since (Tx.insertInto Tables.memberships row e) :=
  .insertInto ha fun w t db _ ht hdb => by
    obtain ⟨-, rfl⟩ := advanceRevision_eq_some.mp hdb
    exact .membershipInserted ht

theorem insertAccount_writes {key : AccountKey} {login hash : String} :
    WritesOnly env areas start since (insertAccount key login hash) :=
  .bind (insertAccountRow_writes ha) fun _ => .bind .exists? fun _ => .bind .require fun _ =>
    .bind (.insertInto ha fun w t db _ ht hdb => by
      obtain ⟨-, rfl⟩ := advanceRevision_eq_some.mp hdb
      exact .credentialInserted ht) fun _ => insertMembershipRow_writes ha

theorem insertFederatedAccount_writes {key : AccountKey} :
    WritesOnly env areas start since (insertFederatedAccount key) :=
  .bind (insertAccountRow_writes ha) fun _ => insertMembershipRow_writes ha

theorem initializeTenant_writes {key : AccountKey} {login hash : String} :
    WritesOnly env areas start since (initializeTenant key login hash) :=
  .bind (insertAccount_writes ha) fun _ => .bind load_writes fun _ => .pure

theorem createLocalAccountIn_writes {login hash : String} :
    WritesOnly env areas start since (createLocalAccountIn env login hash) :=
  .bind .newV4 fun _ => .bind (insertAccount_writes ha) fun _ => .bind load_writes fun _ => .pure

theorem createLocalAccount_writes {actor : AuthenticatedSession} {login hash : String} :
    WritesOnly env areas start since (createLocalAccount env actor login hash) :=
  .bind .newV4 fun _ => .bind recheck_writes fun _ => .bind authorize_writes fun _ =>
    .bind (insertAccount_writes ha) fun _ => .bind load_writes fun _ => .pure

/-- Writing a successor of the stored account burns its epoch. -/
theorem updateAccounts_effects {state next : AccountState} {g : AccountRow → AccountRow}
    {e : Failure} {n : ℕ} (hholds : w.state.Holds state) (hnext : state.Succeeds next)
    (h : (Tx.updateIn Tables.accounts (fun row => decide (row.principal = state.key)) g e).run w =
      .ok (n, w'))
    (hg : ∀ r, (g r).principal = r.principal ∧ (g r).authEpoch = next.epoch) :
    Effects env areas start w w' ∧ w'.state.memberships = w.state.memberships ∧
      w'.state.localCredentials = w.state.localCredentials ∧
      w'.state.accounts.find? state.key =
        some (g ⟨state.key, state.enabled, state.epoch⟩) := by
  obtain ⟨t, db, ht, hdb, rfl, rfl⟩ := Tx.run_updateIn.mp h
  obtain ⟨-, rfl⟩ := advanceRevision_eq_some.mp hdb
  refine ⟨.write ha (.accountsUpdated (Table.rewritten_of_updateWhere ht ?_)), rfl, rfl, ?_⟩
  · intro r hr hkey
    have hfound : w.state.accounts.find? state.key = some r :=
      Table.find?_eq_some.mpr ⟨hr, of_decide_eq_true hkey⟩
    have heq := hfound.symm.trans hholds.account
    refine ⟨(hg r).1, ?_⟩
    rw [(hg r).2, hnext.epoch, Option.some_injective _ heq]
    exact Int.lt_succ state.epoch
  · have hfind := Table.find?_updateWhere ht (fun r => (hg r).1) state.key
    simp only [Tables.accounts_get, hholds.account, Option.map_some, decide_true, if_true] at hfind
    exact hfind

/-- Writing a successor of the stored membership moves its epoch with its flag. -/
theorem setMembership_effects {state next : AccountState}
    (hmembership : w.state.memberships.find? state.key =
      some ⟨state.key, state.memberActive, state.membershipEpoch⟩)
    (hnext : state.Succeeds next) {a : Unit} (h : (setMembership next).run w = .ok (a, w')) :
    Effects env areas start w w' := by
  simp only [setMembership, Tx.run_bind, Tx.run_pure, Tx.run_updateIn] at h
  obtain ⟨n, _, ⟨t, db, ht, hdb, rfl, rfl⟩, -, rfl⟩ := h
  obtain ⟨-, rfl⟩ := advanceRevision_eq_some.mp hdb
  refine .write ha (.membershipsUpdated (Table.rewritten_of_updateWhere ht ?_))
  intro r hr hkey
  have hfound : w.state.memberships.find? state.key = some r :=
    Table.find?_eq_some.mpr ⟨hr, (of_decide_eq_true hkey).trans hnext.key⟩
  obtain rfl := Option.some_injective _ (hfound.symm.trans hmembership)
  refine ⟨rfl, hnext.membershipEpoch, fun hflip => ?_⟩
  have hepoch := hnext.membership_flips hflip
  change state.membershipEpoch < next.membershipEpoch
  omega

theorem setPassword_effects (hp : .attempts ∈ areas) {target : AccountKey} {hash : String} {a : Unit}
    (h : (setPassword env target hash).run w = .ok (a, w')) :
    Effects env areas start w w' ∧ w'.state.memberships = w.state.memberships := by
  simp only [setPassword, Tx.run_bind, Tx.run_updateIn] at h
  obtain ⟨n, _, ⟨t, db, ht, hdb, rfl, rfl⟩, hclear⟩ := h
  obtain ⟨-, rfl⟩ := advanceRevision_eq_some.mp hdb
  have hwrite := Table.rewritten_of_updateWhere (S := fun _ _ => True) ht (fun _ _ _ => trivial)
  obtain ⟨q, hstate⟩ := run_clearAttempts hclear
  refine ⟨(Effects.write ha (.credentialsUpdated hwrite.untouched)).trans
    (clearAttempts_writes hp _ _ _ (.refl _) hclear), ?_⟩
  rw [hstate]
  rfl

theorem applyPassword_effects (hp : .attempts ∈ areas) {target : AccountKey}
    {change : AccountChange} {a : Unit} (h : (applyPassword env target change).run w = .ok (a, w')) :
    Effects env areas start w w' ∧ w'.state.memberships = w.state.memberships := by
  cases change with
  | password hash => exact setPassword_effects ha hp h
  | enabled value =>
    obtain ⟨-, rfl⟩ := Tx.run_pure.mp h
    exact ⟨.refl, rfl⟩
  | membership value =>
    obtain ⟨-, rfl⟩ := Tx.run_pure.mp h
    exact ⟨.refl, rfl⟩

theorem applyAccountChange_effects (hp : .attempts ∈ areas) {actor : AuthenticatedSession}
    {target : AccountKey} {change : AccountChange} {proof : Option AuthenticationCandidate}
    {next : AccountState}
    (h : (applyAccountChange env actor target change proof).run w = .ok (next, w')) :
    Effects env areas start w w' := by
  simp only [applyAccountChange, Tx.run_bind, Tx.run_ofExcept, Tx.run_pure] at h
  obtain ⟨loaded, w₁, hrecheck, _, w₂, hproof, _, w₃, hauthorize, old, w₄, hload,
    ⟨next, action⟩, _, ⟨hnext, rfl⟩, _, w₅, haccount, _, w₆, hpassword, _, w₇, hmembership, -,
    rfl⟩ := h
  obtain ⟨rfl, hkey, hholds⟩ := run_load hload
  have hsucceeds := AccountState.transition_succeeds (ofRule_eq_ok.mp hnext)
  simp only [setAccount, Tx.run_bind, Tx.run_pure, hsucceeds.key] at haccount
  obtain ⟨n, _, haccount, -, rfl⟩ := haccount
  obtain ⟨heffects, hmemberships, -⟩ : Effects env areas start _ _ ∧ _ ∧ _ :=
    updateAccounts_effects ha hholds hsucceeds haccount fun r => ⟨rfl, rfl⟩
  obtain ⟨hset, hkept⟩ : Effects env areas start _ _ ∧ _ := applyPassword_effects ha hp hpassword
  have hheld : w₆.state.memberships.find? old.state.key =
      some ⟨old.state.key, old.state.memberActive, old.state.membershipEpoch⟩ := by
    rw [hkept, hmemberships]
    exact hholds.membership
  have hread₁ : Effects env areas start _ _ := recheck_writes _ _ _ (.refl _) hrecheck
  have hread₂ : Effects env areas start _ _ := recheckReauthentication_writes _ _ _ (.refl _) hproof
  have hread₃ : Effects env areas start _ _ := authorize_writes _ _ _ (.refl _)
    hauthorize
  exact (hread₁.trans hread₂).trans (hread₃.trans (heffects.trans (hset.trans
    (setMembership_effects ha hheld hsucceeds hmembership))))

theorem recoverLocalPassword_effects (hp : .attempts ∈ areas) {key : AccountKey} {hash : String}
    {next : AccountState} (h : (recoverLocalPassword env key hash).run w = .ok (next, w')) :
    Effects env areas start w w' := by
  simp only [recoverLocalPassword, Tx.run_bind, Tx.run_ofExcept, Tx.run_pure] at h
  obtain ⟨old, _, hload, ⟨next, action⟩, _, ⟨hnext, rfl⟩, n, w₁, haccount, _, w₂, hpassword, -,
    rfl⟩ := h
  obtain ⟨rfl, rfl, hholds⟩ := run_load hload
  have hsucceeds := AccountState.recover_succeeds (ofRule_eq_ok.mp hnext)
  obtain ⟨heffects, -⟩ : Effects env areas start _ _ ∧ _ :=
    updateAccounts_effects ha hholds hsucceeds haccount fun r => ⟨rfl, rfl⟩
  exact heffects.trans (setPassword_effects ha hp hpassword).1

end Accounts

section Sessions

theorem recheckReplacement_writes {env' : Env} {replacement : Option AuthenticatedSession} :
    WritesOnly env areas start since (recheckReplacement env' replacement) := by
  cases replacement with
  | none => exact .pure
  | some proof => exact .bind recheck_writes fun _ => .pure

theorem localObservation_writes (hs : .sequence ∈ areas) {key : AccountKey} {instant : ℤ} :
    WritesOnly env areas start since (localObservation key instant) :=
  .bind .find fun _ => .bind .demand fun _ => .bind (profileSequence_writes hs) fun _ => .pure

theorem matchesVerification_active {state expected : AccountState}
    (h : state.matchesVerification expected = true) : state.active = true := by
  simp only [AccountState.matchesVerification, Bool.and_eq_true] at h
  exact h.1.1.1.1

theorem recheckReplacement_readOnly {replacement : Option AuthenticatedSession} :
    (recheckReplacement env replacement).ReadOnly :=
  @WritesOnly.readOnly _ env _ fun _ => recheckReplacement_writes

variable (ha : .sessions ∈ areas)

include ha

/-- A login with a password issues a session, in place of the one it was rechecked with. -/
theorem createSessionFor_issues (hb : .bindings ∈ areas) (hp : .profiles ∈ areas)
    (hs : .sequence ∈ areas) (hsince : start.Advances w)
    {candidate : AuthenticationCandidate} {replacement : Option AuthenticatedSession}
    {kind : CredentialKind} {issued : IssuedSession}
    (h : (createSessionFor env candidate replacement kind).run w = .ok (issued, w')) :
    ∃ replaced w₁, (recheckReplacement env replacement).run w = .ok (replaced, w₁) ∧
      Issues env areas start w w' replaced kind issued := by
  simp only [createSessionFor, Tx.run_bind, Tx.run_require, run_now, Tx.run_pure] at h
  obtain ⟨-, _, ⟨-, rfl⟩, state, _, hcurrent, replaced, w₁, hreplaced, instant, _, ⟨rfl, rfl⟩,
    issued, w₂, hinsert, observation, w₃, hobservation, _, w₄, haccept, rfl, rfl⟩ := h
  obtain ⟨rfl, hholds, hmatches, -⟩ := run_current hcurrent
  have hread : Effects env areas start _ _ := recheckReplacement_writes _ _ _
    (.refl _) hreplaced
  have hstate := recheckReplacement_readOnly _ _ _ hreplaced
  have hinserted : Effects env areas start w₁.tick w₂ := insertSession_effects ha
    (by rw [World.tick_state, hstate]; exact hholds)
    (matchesVerification_active hmatches)
    (show SessionAuthentication.Good env _ _ (.localPassword candidate.authenticatedAt) from trivial)
    le_rfl ((hsince.trans hread.advances).trans (.tick w₁)) hinsert
  refine ⟨replaced, w₁, hreplaced, .intro (hread.trans Effects.tick) hinsert hinserted ?_⟩
  intro since hlater
  have hobserved : Effects env areas since _ _ := localObservation_writes hs _ _ _ (.refl _)
    hobservation
  have haccepted : Effects env areas since _ _ := accept_writes hp hb
    (hlater.trans hobserved.advances) _ _ _ (.refl _) haccept
  exact hobserved.trans haccepted

theorem authenticateSession_effects {digest : Digest} {kind : CredentialKind} {activity : Bool}
    {proof : AuthenticatedSession}
    (h : (authenticateSession env digest kind activity).run w = .ok (proof, w')) :
    Effects env areas start w w' := by
  simp only [authenticateSession, Tx.run_bind, Tx.run_ite, Tx.run_pure] at h
  obtain ⟨loaded, _, hlookup, h⟩ := h
  obtain ⟨rfl, row, hof, -⟩ := run_lookup hlookup
  rcases h with ⟨-, touched, w₁, htouch, -, rfl⟩ | ⟨-, -, rfl⟩
  · exact Effects.tick.trans (touch_effects ha hof htouch)
  · exact .tick

theorem refreshSession_effects (hsince : start.Advances w) {old : Secret} {issued : IssuedSession}
    (h : (refreshSession env old).run w = .ok (issued, w')) : Effects env areas start w w' := by
  simp only [refreshSession, Tx.run_bind, run_randomSecret] at h
  obtain ⟨_, _, ⟨rfl, rfl⟩, loaded, _, hlookup, touched, w₁, htouch, n, w₂, hrotate, hpure⟩ := h
  obtain ⟨-, rfl⟩ := Tx.run_pure.mp hpure
  obtain ⟨rfl, row, hof, -⟩ := run_lookup hlookup
  have hdrew : Effects env areas start w { w with drawn := w.drawn + 1 } := .drew (Nat.le_succ _)
  have htouched : Effects env areas start _ w₁ := touch_effects ha hof htouch
  have hrotated : Effects env areas start w₁ w₂ := by
    refine renewed_of_update rfl ha ?_ _ _ _ (.refl _) hrotate
    have hdrawn := htouched.advances.drawn
    refine fun _ w hw => ⟨rfl, le_rfl, fun h => absurd rfl h, fun _ => ⟨_, rfl, hsince.drawn, ?_⟩⟩
    have hlater := hw.drawn
    simp only [World.tick_drawn] at hdrawn
    omega
  exact (hdrew.trans Effects.tick).trans (htouched.trans hrotated)

theorem revokeSession_effects (hc : .accounts ∈ areas) {actor : AuthenticatedSession} {all : Bool}
    {a : Unit} (h : (revokeSession env actor all).run w = .ok (a, w')) :
    Effects env areas start w w' := by
  simp only [revokeSession, Tx.run_bind, Tx.run_ite] at h
  obtain ⟨loaded, _, hrecheck, h⟩ := h
  obtain ⟨rfl, -, -, row, hof, -⟩ := run_recheck hrecheck
  rcases h with ⟨-, h⟩ | ⟨-, h⟩
  · simp only [revokeAllOf, Tx.run_bind, Tx.run_ofExcept, Tx.run_pure] at h
    obtain ⟨next, _, ⟨hnext, rfl⟩, n, _, hupdate, -, rfl⟩ := h
    have hsucceeds := (AccountState.revokeSessions_succeeds (ofRule_eq_ok.mp hnext)).2.1
    have hupdated : Effects env areas start w.tick _ ∧ _ :=
      updateAccounts_effects hc hof.holds hsucceeds hupdate fun r => ⟨rfl, rfl⟩
    exact Effects.tick.trans hupdated.1
  · exact Effects.tick.trans (close_writes ha _ _ _ (.refl _) h)

end Sessions

section Providers

variable {parsers : Parsers}

theorem ProviderEdit.step_eq_ok {generation next : ℤ} (h : step generation = .ok next) :
    next = generation + 1 := by
  unfold step at h
  cases hadd : checkedAdd generation 1 with
  | none => simp [hadd] at h
  | some n =>
    simp only [hadd, Except.ok.injEq] at h
    rw [← h]
    exact (checkedAdd_eq_some.mp hadd).2

/-- The setting part of an edit keeps the version; with the next version the provider moves. -/
theorem ProviderEdit.set_moves {edit : ProviderEdit parsers} {view next : ProviderView parsers}
    (h : edit.set view = .ok next) :
    next.id = view.id ∧ next.version = view.version ∧
      view.row.Moves ({ next with version := view.version + 1 } : ProviderView parsers).row := by
  cases edit with
  | settings value credentials profile =>
    simp only [set] at h
    split at h
    · cases h
    · rename_i hissuer
      simp only [bind, Except.bind] at h
      split at h
      · cases h
      · rename_i credentialVersion hcredential
        split at h
        · cases h
        · rename_i epoch hepoch
          cases h
          have hcredential := step_eq_ok hcredential
          have hepoch := step_eq_ok hepoch
          refine ⟨rfl, rfl, rfl, rfl, ?_, fun _ => ?_, ?_, not_not.mp hissuer⟩ <;>
            · simp only [ProviderView.row]
              omega
  | enabled value =>
    simp only [set, bind, Except.bind] at h
    split at h
    · cases h
    · rename_i epoch hepoch
      cases h
      unfold switchedEpoch at hepoch
      split at hepoch
      · have hepoch := step_eq_ok hepoch
        refine ⟨rfl, rfl, rfl, rfl, ?_, fun _ => ?_, le_rfl, rfl⟩ <;>
          · simp only [ProviderView.row]
            omega
      · rename_i henabled
        cases hepoch
        refine ⟨rfl, rfl, rfl, rfl, le_rfl, fun hchange => ?_, le_rfl, rfl⟩
        rcases hchange with h | h | h
        · exact absurd rfl h
        · exact absurd rfl h
        · exact absurd (not_not.mp henabled).symm h

theorem ProviderView.reconciled_moves {view next : ProviderView parsers} {profile : Digest}
    (h : view.reconciled profile = .ok next) :
    next.id = view.id ∧ view.row.Moves next.row := by
  simp only [reconciled, bind, Except.bind] at h
  split at h
  · cases h
  · rename_i version hversion
    split at h
    · cases h
    · rename_i epoch hepoch
      cases h
      have hversion := ProviderEdit.step_eq_ok hversion
      have hepoch := ProviderEdit.step_eq_ok hepoch
      refine ⟨rfl, rfl, hversion, ?_, fun _ => ?_, le_rfl, rfl⟩ <;>
        · simp only [ProviderView.row]
          omega

/-- A new account leaves the providers as they are. -/
theorem insertFederatedAccount_frame {key : AccountKey} {a : Unit}
    (h : (insertFederatedAccount key).run w = .ok (a, w')) :
    w'.state.providers = w.state.providers := by
  have heffects : Effects Env.transparent [.accounts] w w w' :=
    insertFederatedAccount_writes (by decide) _ _ _ (.refl _) h
  exact congrArg Prod.fst (heffects.frame (fun db => (db.providers, db.providerCredentials))
    fun w a db ha h => h.providers_eq (by rintro rfl; simp at ha))

variable (ha : .providers ∈ areas)

include ha

/-- Storing a moved view of a provider moves its row. -/
theorem storeProvider_effects {view next : ProviderView parsers}
    (hfound : w.state.providers.find? view.id = some view.row) (hid : next.id = view.id)
    (hmoves : view.row.Moves next.row) {a : Unit}
    (h : (storeProvider next).run w = .ok (a, w')) : Effects env areas start w w' := by
  simp only [storeProvider, Tx.run_bind, Tx.run_updateIn, Tx.run_pure] at h
  obtain ⟨n, _, ⟨t, db, ht, hdb, rfl, rfl⟩, -, rfl⟩ := h
  obtain ⟨-, rfl⟩ := advanceRevision_eq_some.mp hdb
  refine .write ha (.providersUpdated (Table.rewritten_of_updateWhere ht ?_))
  intro r hr hkey
  have hrow : w.state.providers.find? view.id = some r :=
    Table.find?_eq_some.mpr ⟨hr, (of_decide_eq_true hkey).trans hid⟩
  obtain rfl := Option.some_injective _ (hrow.symm.trans hfound)
  exact ⟨rfl, hmoves.configVersion, hmoves.revocationEpoch, hmoves.burns, hmoves.credentialVersion,
    hmoves.issuer⟩

theorem writeCredentials_writes {id : ProviderId} {version : ℤ} {credentials : ℕ} :
    WritesOnly env areas start since (writeCredentials env id version credentials) :=
  .bind .random fun _ => .bind .demand fun _ => .bind .find fun stored => by
    cases stored with
    | none => exact .insertInto ha fun w t db _ _ hdb => by cases hdb; exact .credentialsSealed
    | some row =>
      exact .bind (.updateIn ha fun w t n db _ _ _ hdb => by cases hdb; exact .credentialsSealed)
        fun _ => .pure

theorem createProvider_writes {actor : AuthenticatedSession} {settings : ProviderSettings env.parsers}
    {credentials : ℕ} {profile : Digest} :
    WritesOnly env areas start since (createProvider env actor settings credentials profile) :=
  .bind recheck_writes fun _ => .bind authorize_writes fun _ => .bind .select fun _ =>
    .bind .require fun _ => .bind .newV4 fun _ =>
      .bind (.insertInto ha fun w t db _ ht hdb => by
        obtain ⟨-, rfl⟩ := advanceRevision_eq_some.mp hdb
        exact .providerInserted ht) fun _ => .bind (writeCredentials_writes ha) fun _ => .pure

/-- Sealing credentials leaves the providers as they are. -/
theorem run_sealCredentials {edit : ProviderEdit env.parsers} {view : ProviderView env.parsers} {a : Unit}
    (h : (edit.sealCredentials view).run w = .ok (a, w')) :
    Effects env areas start w w' ∧ w'.state.providers = w.state.providers := by
  cases edit with
  | settings value credentials profile =>
    refine ⟨writeCredentials_writes ha _ _ _ (.refl _) h, ?_⟩
    simp only [ProviderEdit.sealCredentials, writeCredentials, Tx.run_bind, Tx.run_random, Tx.run_demand,
      Tx.run_find] at h
    obtain ⟨nonce, _, ⟨-, rfl⟩, sealedValue, _, ⟨-, rfl⟩, stored, _, ⟨-, rfl⟩, h⟩ := h
    cases stored with
    | none =>
      obtain ⟨t, db, -, hdb, rfl⟩ := Tx.run_insertInto.mp h
      cases hdb
      rfl
    | some row =>
      simp only [Tx.run_bind, Tx.run_updateIn, Tx.run_pure] at h
      obtain ⟨n, _, ⟨t, db, -, hdb, -, rfl⟩, -, rfl⟩ := h
      cases hdb
      rfl
  | enabled value =>
    obtain ⟨-, rfl⟩ := Tx.run_pure.mp h
    exact ⟨.refl, rfl⟩

omit ha in
/-- A committed edit found the provider at the version its caller expected, and moved it on. -/
theorem run_editProvider {actor : AuthenticatedSession} {id : ProviderId} {expected : ℤ}
    {edit : ProviderEdit env.parsers} {next : ProviderView env.parsers}
    (h : (editProvider env actor id expected edit).run w = .ok (next, w')) :
    ∃ (loaded : Loaded) (w₁ w₂ w₃ : Tenant) (view set : ProviderView env.parsers),
      (recheck env actor).run w = .ok (loaded, w₁) ∧
      (authorize env loaded (edit.operation id) none).run w₁ = .ok ((), w₂) ∧
      view.id = id ∧ w₂.state.providers.find? id = some view.row ∧ view.version = expected ∧
      edit.set view = .ok set ∧ (edit.sealCredentials set).run w₂ = .ok ((), w₃) ∧
      next = { set with version := view.version + 1 } ∧ view.row.Moves next.row ∧
      (storeProvider next).run w₃ = .ok ((), w') := by
  simp only [editProvider, Tx.run_bind, Tx.run_require, Tx.run_ofExcept, Tx.run_pure] at h
  obtain ⟨loaded, w₁, hrecheck, _, w₂, hauthorize, view, _, hprovider, -, _, ⟨hexpected, rfl⟩, set,
    _, ⟨hset, rfl⟩, _, w₃, hseal, version, _, ⟨hversion, rfl⟩, _, w₄, hstore, rfl, rfl⟩ := h
  obtain ⟨rfl, hid, hfound⟩ := run_provider hprovider
  obtain ⟨-, hkept, hmoves⟩ := ProviderEdit.set_moves hset
  obtain rfl : version = view.version + 1 := by
    rw [← hkept]
    exact ProviderEdit.step_eq_ok hversion
  exact ⟨loaded, w₁, _, w₃, view, set, hrecheck, hauthorize, hid, hfound, hexpected, hset, hseal,
    rfl, hmoves, hstore⟩

theorem editProvider_effects {actor : AuthenticatedSession} {id : ProviderId} {expected : ℤ}
    {edit : ProviderEdit env.parsers} {next : ProviderView env.parsers}
    (h : (editProvider env actor id expected edit).run w = .ok (next, w')) :
    Effects env areas start w w' := by
  obtain ⟨loaded, w₁, w₂, w₃, view, set, hrecheck, hauthorize, rfl, hfound, -, hset, hseal, rfl,
    hmoves, hstore⟩ := run_editProvider h
  have hid := (ProviderEdit.set_moves hset).1
  have hread : Effects env areas start _ _ := recheck_writes _ _ _ (.refl _) hrecheck
  have hread' : Effects env areas start _ _ := authorize_writes _ _ _ (.refl _) hauthorize
  obtain ⟨hsealed, hkept⟩ : Effects env areas start _ _ ∧ _ := run_sealCredentials ha hseal
  have hstored : Effects env areas start _ _ := @storeProvider_effects env areas start w₃ w' _ ha
    view ({ set with version := view.version + 1 } : ProviderView env.parsers) (by rw [hkept]; exact hfound) hid hmoves _ hstore
  exact (hread.trans hread').trans (hsealed.trans hstored)

theorem reconcileProvider_effects {profile : ProviderSettings env.parsers → Digest}
    {id : ProviderId} {changed : Bool}
    (h : (reconcileProvider env profile id).run w = .ok (changed, w')) :
    Effects env areas start w w' := by
  simp only [reconcileProvider, Tx.run_bind, Tx.run_ite, Tx.run_ofExcept, Tx.run_pure] at h
  obtain ⟨view, _, hprovider, h⟩ := h
  obtain ⟨rfl, rfl, hfound⟩ := run_provider hprovider
  rcases h with ⟨-, -, rfl⟩ | ⟨-, next, _, ⟨hnext, rfl⟩, _, w₁, hstore, -, rfl⟩
  · exact .refl
  · obtain ⟨hid, hmoves⟩ := ProviderView.reconciled_moves hnext
    exact storeProvider_effects ha hfound hid hmoves hstore

theorem reconcileProviders_effects {profile : ProviderSettings env.parsers → Digest} :
    ∀ {ids : List ProviderId} {reported : ℕ} {more : Bool} {w : Tenant},
      (reconcileProviders env profile ids reported).run w = .ok (more, w') →
      Effects env areas start w w'
  | [], reported, more, w, h => by
    obtain ⟨-, rfl⟩ := Tx.run_pure.mp h
    exact .refl
  | id :: ids, reported, more, w, h => by
    obtain ⟨changed, w₁, hfirst, h⟩ := Tx.run_bind.mp h
    have hone : Effects env areas start _ _ := reconcileProvider_effects ha hfirst
    rcases Tx.run_ite.mp h with ⟨-, h⟩ | ⟨-, h⟩
    · obtain ⟨-, rfl⟩ := Tx.run_pure.mp h
      exact hone
    · exact hone.trans (reconcileProviders_effects h)

theorem reconcileAssuranceProfiles_effects {profile : ProviderSettings env.parsers → Digest}
    {more : Bool} (h : (reconcileAssuranceProfiles env profile).run w = .ok (more, w')) :
    Effects env areas start w w' := by
  simp only [reconcileAssuranceProfiles, Tx.run_bind, Tx.run_select, Tx.run_require] at h
  obtain ⟨_, _, ⟨-, rfl⟩, -, _, ⟨-, rfl⟩, h⟩ := h
  exact reconcileProviders_effects ha h

omit ha

variable (hi : .identities ∈ areas)

include hi

/-- An identity is inserted at a provider that is there, under an issuer that makes a source. -/
theorem insertIdentity_effects {row : ExternalIdentityRow} {e : Failure}
    (hprovider : (w.state.providers.find? row.provider).isSome = true)
    (hsource : (FactSource.new env.parsers row.provider row.issuer).isSome = true) {a : Unit}
    (h : (Tx.insertInto Tables.externalIdentities row e).run w = .ok (a, w')) :
    Effects env areas start w w' := by
  obtain ⟨t, db, ht, hdb, rfl⟩ := Tx.run_insertInto.mp h
  obtain ⟨-, rfl⟩ := advanceRevision_eq_some.mp hdb
  exact .write hi (.identityInserted ht hprovider hsource)

theorem entraAccount_effects (hc : .accounts ∈ areas) {view : ProviderView env.parsers}
    {subject : String} {key : AccountKey}
    (hprovider : (w.state.providers.find? view.id).isSome = true)
    (h : (entraAccount env view subject).run w = .ok (key, w')) : Effects env areas start w w' := by
  simp only [entraAccount, Tx.run_bind, Tx.run_select] at h
  obtain ⟨rows, _, ⟨-, rfl⟩, h⟩ := h
  cases hbound : rows.head? with
  | some row =>
    simp only [hbound, Tx.run_pure] at h
    obtain ⟨-, rfl⟩ := h
    exact .refl
  | none =>
    simp only [hbound, Tx.run_bind, Tx.run_require, run_newV4] at h
    obtain ⟨-, _, ⟨-, rfl⟩, principal, _, ⟨-, rfl⟩, _, w₁, haccount, identity, _, ⟨-, rfl⟩, _, w₂,
      hidentity, hpure⟩ := h
    obtain ⟨-, rfl⟩ := Tx.run_pure.mp hpure
    have hkept := insertFederatedAccount_frame haccount
    have hdrew : Effects env areas start w { w with drawn := w.drawn + 1 } := .drew (Nat.le_succ _)
    have hinserted : Effects env areas start _ _ := insertFederatedAccount_writes hc _ _ _ (.refl _)
      haccount
    refine (hdrew.trans hinserted).trans ((Effects.drew (Nat.le_succ _)).trans
      (insertIdentity_effects hi ?_ ?_ hidentity))
    · simpa only [hkept] using hprovider
    · rw [FactSource.new_of_settings]
      rfl

theorem resolveEntra_effects (hc : .accounts ∈ areas) {verified : VerifiedExternalSubject}
    {state : AccountState} (h : (resolveEntra env verified).run w = .ok (state, w')) :
    Effects env areas start w w' := by
  simp only [resolveEntra, Tx.run_bind, Tx.run_require, Tx.run_ofExcept, Tx.run_pure] at h
  obtain ⟨view, _, hprovider, _, _, ⟨-, rfl⟩, key, w₁, hkey, stored, _, hload, -, _, ⟨-, rfl⟩, -,
    rfl⟩ := h
  obtain ⟨rfl, hid, hfound⟩ := run_provider hprovider
  obtain ⟨rfl, -⟩ := run_load hload
  exact entraAccount_effects hi hc (by rw [hid, hfound]; rfl) hkey

end Providers

section Reads

theorem readPassword_writes {login : String} :
    WritesOnly env areas start since (readPassword env login) := by
  refine .bind .select fun found => ?_
  cases found.head? with
  | none => exact .pure
  | some row => exact .bind load_writes fun _ => .bind .now fun _ => .pure

theorem confirmPassword_writes {candidate : AuthenticationCandidate} :
    WritesOnly env areas start since (confirmPassword env candidate) :=
  .bind .require fun _ => .bind current_writes fun _ => .pure

end Reads

section Profiles

variable (ha : .localProfiles ∈ areas)

include ha

theorem storeLocalProfile_writes {next : LocalProfileRow}
    (hnext : ∀ value ∈ next.value, value.observation.isSome = true) :
    WritesOnly env areas start since (storeLocalProfile next) :=
  .bind .require fun _ => .bind .find fun stored => by
    cases stored with
    | none =>
      refine .insertInto ha fun w t db _ ht hdb => ?_
      obtain ⟨-, rfl⟩ := advanceRevision_eq_some.mp hdb
      exact .localProfileInserted ht hnext
    | some row =>
      refine .bind (.updateIn ha fun w t n db _ ht hn hdb => ?_) fun _ => .pure
      obtain ⟨-, rfl⟩ := advanceRevision_eq_some.mp hdb
      subst hn
      exact .localProfilesUpdated (Table.rewritten_of_updateWhere ht fun _ _ _ => hnext)

theorem settleProfile_writes (ho : .operations ∈ areas) {actor target : AccountKey}
    {change : ProfileChange} (hvalue : ∀ value ∈ change.value, value.observation.isSome = true) :
    WritesOnly env areas start since (settleProfile env actor target change) :=
  .bind .select fun _ => .bind .require fun _ => .bind .find fun _ => .bind .require fun _ =>
    .bind .demand fun _ => .bind .demand fun _ => .bind .demand fun _ =>
      .bind (storeLocalProfile_writes ha hvalue) fun _ => .bind (.insertInto ho fun w t db _ ht hdb => by cases hdb; exact .operationsWritten)
        fun _ => .pure

omit ha in
theorem admitUpdate_writes {actor : AuthenticatedSession} {target : AccountKey} :
    WritesOnly env areas start since (admitUpdate env actor target) :=
  .bind recheck_writes fun _ => .bind authorize_writes fun _ => .bind load_writes fun _ => .require

theorem answerUpdate_writes (ho : .operations ∈ areas) {actor target : AccountKey}
    {change : ProfileChange} (hvalue : ∀ value ∈ change.value, value.observation.isSome = true) :
    WritesOnly env areas start since (answerUpdate env actor target change) :=
  .bind .find fun replayed => by
    cases replayed with
    | none => exact settleProfile_writes ha ho hvalue
    | some row => exact .bind .require fun _ => .pure

theorem updateLocalProfile_effects (ho : .operations ∈ areas) {actor : AuthenticatedSession}
    {target : AccountKey} {change : ProfileChange} {settled : ProfileReceipt × List ProfileEvent}
    (h : (updateLocalProfile env actor target change).run w = .ok (settled, w')) :
    Effects env areas start w w' := by
  obtain ⟨_, _, hvalid, h⟩ := Tx.run_bind.mp h
  obtain ⟨⟨-, hvalue⟩, rfl⟩ := Tx.run_require.mp hvalid
  have hwrites : WritesOnly env areas start w
      (admitUpdate env actor target >>= fun _ => answerUpdate env actor.key target change) :=
    .bind admitUpdate_writes fun _ => answerUpdate_writes ha ho hvalue
  exact hwrites _ _ _ (.refl _) h

end Profiles

end IdentityAuthority
