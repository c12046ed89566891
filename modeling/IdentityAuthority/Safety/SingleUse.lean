import IdentityAuthority.Safety.Attempts

/-!
# Attempts are claimed and committed once

The history of a run says of every attempt where it was inserted, and which calls claimed it and
ended it. A call commits a result only for an attempt that it claimed itself, so every result is
traced back through its claim to the insertion of the attempt.
-/

namespace IdentityAuthority

open Relational Transition

variable {env : Env} {s₀ s s' : System env} {label : Label env}
  {trace : List (Event (System env) (Label env))} {e : Event (System env) (Label env)}
  {held held' : ClaimedAttempt env} {id : Digest}

section Events

/-- An event claims an attempt for a call. -/
def ClaimsAttempt (e : Event (System env) (Label env)) (held : ClaimedAttempt env) : Prop :=
  ∃ callback, e.label = .commit (.claimAttempt callback held)

/-- An event commits a result for a claimed attempt: a session, a grant, a link, or the redirect that
follows a reauthentication. -/
def CommitsAttempt (e : Event (System env) (Label env)) (held : ClaimedAttempt env) : Prop :=
  (∃ claims outcome, e.label = .commit (.commitAttempt held claims outcome)) ∨
    ∃ claims target outcome, e.label = .commit (.finishReauthentication held claims target outcome)

/-- An event cancels an attempt. -/
def CancelsAttempt (e : Event (System env) (Label env)) (id : Digest) : Prop :=
  ∃ callback locator, e.label = .commit (.cancelAttempt callback) ∧
    env.signer.verify callback.state = some locator ∧ locator.id = id

/-- An event ends an attempt. -/
def EndsAttempt (e : Event (System env) (Label env)) (id : Digest) : Prop :=
  CancelsAttempt e id ∨ ∃ held, CommitsAttempt e held ∧ held.locator.id = id

/-- An attempt was drawn before a certain draw. -/
def AttemptDrawn (env : Env) (id : Digest) (n : ℕ) : Prop := ∃ i < n, id = attemptId env i

theorem AttemptDrawn.mono {m n : ℕ} (h : AttemptDrawn env id m) (hmn : m ≤ n) :
    AttemptDrawn env id n := by
  obtain ⟨i, hi, hid⟩ := h
  exact ⟨i, by omega, hid⟩

theorem OidcTransactionRow.InsertedIn.drawn {row : OidcTransactionRow} {w w' : Tenant}
    (h : row.InsertedIn env w w') : AttemptDrawn env row.attempt w'.drawn := by
  obtain ⟨i, hid, -, hi⟩ := h.fresh
  exact ⟨i, hi, hid⟩

/-- An attempt that was drawn before is not one that is inserted later. -/
theorem OidcTransactionRow.InsertedIn.ne {row : OidcTransactionRow} {w w' : Tenant}
    (h : row.InsertedIn env w w') (hdrawn : AttemptDrawn env id w.drawn) : row.attempt ≠ id := by
  obtain ⟨i, hid, hlo, -⟩ := h.fresh
  obtain ⟨j, hj, hid'⟩ := hdrawn
  intro heq
  have hsame := attemptId_injective env (hid.symm.trans (heq.trans hid'))
  omega

/-- The attempts of one world are those of another, or were inserted in between. -/
def AttemptsKept (env : Env) (w w' : Tenant) : Prop :=
  ∀ k row', w'.state.oidcTransactions.find? k = some row' →
    row'.InsertedIn env w w' ∨
      ∃ row, w.state.oidcTransactions.find? k = some row ∧ row.Later row'

theorem AttemptsKept.of_same {w w' : Tenant}
    (h : w'.state.oidcTransactions = w.state.oidcTransactions) : AttemptsKept env w w' := by
  intro k row' hrow'
  rw [h] at hrow'
  exact .inr ⟨row', hrow', .refl row'⟩

theorem AttemptsKept.of_deleteWhere {w w' : Tenant} {p : OidcTransactionRow → Bool}
    (h : w'.state.oidcTransactions = w.state.oidcTransactions.deleteWhere p) :
    AttemptsKept env w w' := by
  intro k row' hrow'
  rw [h] at hrow'
  exact .inr ⟨row', Table.find?_of_find?_deleteWhere hrow', .refl row'⟩

theorem AttemptsKept.of_inserts {w w₁ w' : Tenant} (h : InsertsOne env w w₁ w')
    (hkept : ∀ k row, w₁.state.oidcTransactions.find? k = some row →
      w.state.oidcTransactions.find? k = some row) : AttemptsKept env w w' := by
  obtain ⟨inserted, hinserted, hothers⟩ := h
  intro k row' hrow'
  rcases hothers k row' hrow' with rfl | hold
  · exact .inl hinserted
  · exact .inr ⟨row', hkept k row' hold, .refl row'⟩

theorem AttemptsKept.of_taken {row : OidcTransactionRow} {w w' : Tenant}
    (h : held.TakenFrom row w w') : AttemptsKept env w w' := by
  intro k row' hrow'
  by_cases hk : k = held.locator.id
  · subst hk
    obtain rfl := Option.some_injective _ (h.taken.symm.trans hrow')
    exact .inr ⟨row, h.passes.found, .inr rfl⟩
  · rw [h.others k hk] at hrow'
    exact .inr ⟨row', hrow', .refl row'⟩

/-- A result was committed for an attempt: the checks passed once more, and the attempt is gone. -/
structure AttemptCommitted (env : Env) (held : ClaimedAttempt env) (row : OidcTransactionRow)
    (w w' : Tenant) : Prop where
  found : w.state.oidcTransactions.find? held.locator.id = some row
  presented : ∃ t, w.clock ≤ t ∧ t ≤ w'.clock ∧
    row.Presented env held.locator held.callback.state held.callback.browser true (seconds t)
  enabled : w.state.EnabledAt row.provider row.configVersion ∨
    w.state.EnabledAt held.view.id held.view.version
  gone : ∀ row', w'.state.oidcTransactions.find? held.locator.id = some row' →
    row'.InsertedIn env w w'

end Events

section Steps

/-- A result that commits was for an attempt that its call holds. -/
theorem Step.commits_attempt (h : Step env s label s')
    (hcommits : CommitsAttempt ⟨s, label, s'⟩ held) :
    .attempt held ∈ s.held ∧ ∃ row, AttemptCommitted env held row s.world s'.world := by
  rcases hcommits with ⟨claims, outcome, rfl⟩ | ⟨claims, target, outcome, rfl⟩
  · cases h with
    | commit hadmissible hruns =>
      obtain ⟨row, hended⟩ := run_commitAttempt_ended hruns
      refine ⟨hadmissible, row, hended.passes.found, hended.passes.presented,
        .inl hended.passes.enabled, fun row' hrow' => ?_⟩
      rw [hended.ended, Table.find?_deleteWhere_eq_some] at hrow'
      have hkey : row'.attempt = held.locator.id := Table.key_of_find? hrow'.1
      exact absurd hkey (of_decide_eq_false hrow'.2)
  · cases h with
    | commit hadmissible hruns =>
      obtain ⟨row, intent, source, hdone⟩ := run_finishReauthentication hruns
      refine ⟨hadmissible, row, hdone.found, hdone.presented, .inr hdone.enabled, fun row' hrow' => ?_⟩
      obtain ⟨w₁, hconsumed, inserted, hinserted, hothers⟩ := hdone.consumed
      rcases hothers _ _ hrow' with rfl | hold
      · exact hinserted
      · rw [hconsumed, Table.find?_deleteWhere_eq_some] at hold
        have hkey : row'.attempt = held.locator.id := Table.key_of_find? hold.1
        exact absurd hkey (of_decide_eq_false hold.2)

theorem Step.claims_attempt (h : Step env s label s') (hclaims : ClaimsAttempt ⟨s, label, s'⟩ held) :
    ∃ row, held.TakenFrom row s.world s'.world := by
  obtain ⟨callback, rfl⟩ := hclaims
  cases h with
  | commit _ hruns => exact (run_claimAttempt hruns).2

/-- A cancelled attempt was stored and not claimed, and is gone. -/
theorem Step.cancels_attempt (h : Step env s label s') (hcancels : CancelsAttempt ⟨s, label, s'⟩ id) :
    (∃ row, s.world.state.oidcTransactions.find? id = some row ∧ row.claimed = false) ∧
      s'.world.state.oidcTransactions.find? id = none := by
  obtain ⟨callback, locator, rfl, hverify, rfl⟩ := hcancels
  cases h with
  | commit _ hruns =>
    obtain ⟨locator', row, hverify', hended⟩ := run_cancelAttempt hruns
    obtain rfl := Option.some_injective _ (hverify.symm.trans hverify')
    obtain ⟨t, -, -, hpresented⟩ := hended.passes.presented
    refine ⟨⟨row, hended.passes.found, hpresented.claimed⟩, ?_⟩
    rw [hended.ended, Table.find?_eq_none]
    intro other hother hkey
    exact of_decide_eq_false (Table.mem_deleteWhere.mp hother).2 hkey

/-- What a step stores of attempts was stored before, or is inserted by it. -/
theorem Step.attempts_kept (h : Step env s label s') : AttemptsKept env s.world s'.world := by
  cases h with
  | elapse hstate _ => exact .of_same (by rw [hstate])
  | @commit commit w' hadmissible hruns =>
    have hframe : .oidc ∉ commit.areas →
        w'.state.oidcTransactions = s.world.state.oidcTransactions := fun hno =>
      (Commit.effects hruns).frame Db.oidcTransactions fun _ _ _ ha heffect =>
        heffect.oidcTransactions_eq fun heq => hno (heq ▸ ha)
    cases commit with
    | beginFederated => exact .of_inserts (beginFederated_inserts hruns) fun _ _ h => h
    | beginLink => exact .of_inserts (beginLink_inserts hruns) fun _ _ h => h
    | finishReauthentication =>
      obtain ⟨row, intent, source, hdone⟩ := run_finishReauthentication hruns
      obtain ⟨w₁, hconsumed, hinserts⟩ := hdone.consumed
      refine .of_inserts hinserts fun k row hrow => ?_
      rw [hconsumed] at hrow
      exact Table.find?_of_find?_deleteWhere hrow
    | claimAttempt =>
      obtain ⟨-, row, htaken⟩ := run_claimAttempt hruns
      exact .of_taken htaken
    | cancelAttempt =>
      obtain ⟨locator, row, -, hended⟩ := run_cancelAttempt hruns
      exact .of_deleteWhere hended.ended
    | commitAttempt =>
      obtain ⟨row, hended⟩ := run_commitAttempt_ended hruns
      exact .of_deleteWhere hended.ended
    | _ => exact .of_same (hframe (by simp [Commit.areas]))

/-- What calls in flight hold of attempts, they claimed. -/
theorem Step.attempt_held (h : Step env s label s') (hheld : .attempt held ∈ s'.held) :
    .attempt held ∈ s.held ∨ ClaimsAttempt ⟨s, label, s'⟩ held := by
  cases h with
  | elapse hstate _ => exact .inl hheld
  | @commit commit w' hadmissible hruns =>
    rcases List.mem_append.mp hheld with hgiven | hold
    · cases commit with
      | claimAttempt callback result =>
        simp only [Commit.gives, List.mem_singleton, Held.attempt.injEq] at hgiven
        subst hgiven
        exact .inr ⟨callback, rfl⟩
      | claimPassword login source lease result => cases result <;> simp [Commit.gives] at hgiven
      | readPassword login result => cases result <;> simp [Commit.gives] at hgiven
      | settlePassword login claim outcome result => cases result <;> simp [Commit.gives] at hgiven
      | _ => simp [Commit.gives] at hgiven
    · exact .inl hold

end Steps

section Histories

/-- What the events of a run say about the attempts that are stored, and about those that calls hold
on to. -/
structure AttemptHistory (trace : List (Event (System env) (Label env))) (s : System env) :
    Prop where
  stored : ∀ k row, s.world.state.oidcTransactions.find? k = some row →
    AttemptDrawn env k s.world.drawn ∧ ∃ e ∈ trace, ∃ first : OidcTransactionRow,
      first.InsertedIn env e.before.world e.after.world ∧ first.Later row
  claimed : ∀ e ∈ trace, ∀ held, ClaimsAttempt e held →
    AttemptDrawn env held.locator.id s.world.drawn ∧ ∀ row,
      s.world.state.oidcTransactions.find? held.locator.id = some row → row.claimed = true
  held : ∀ held, .attempt held ∈ s.held → ∃ e ∈ trace, ClaimsAttempt e held
  ended : ∀ e ∈ trace, ∀ id, EndsAttempt e id →
    AttemptDrawn env id s.world.drawn ∧ s.world.state.oidcTransactions.find? id = none
  fenced : trace.Pairwise fun e f => ∀ held, ClaimsAttempt e held →
    ¬ CancelsAttempt f held.locator.id ∧
      ∀ held', ClaimsAttempt f held' → held'.locator.id ≠ held.locator.id
  once : trace.Pairwise fun e f => ∀ id, EndsAttempt e id → ¬ EndsAttempt f id

/-- An ended attempt was stored, and is gone unless the step itself inserts one under its key. -/
theorem Step.ends_attempt (h : Step env s label s') (hends : EndsAttempt ⟨s, label, s'⟩ id) :
    (∃ row, s.world.state.oidcTransactions.find? id = some row) ∧
      ∀ row', s'.world.state.oidcTransactions.find? id = some row' →
        row'.InsertedIn env s.world s'.world := by
  rcases hends with hcancels | ⟨held, hcommits, rfl⟩
  · obtain ⟨⟨row, hrow, -⟩, hgone⟩ := h.cancels_attempt hcancels
    refine ⟨⟨row, hrow⟩, fun row' hrow' => ?_⟩
    rw [hgone] at hrow'
    cases hrow'
  · obtain ⟨-, row, hcommitted⟩ := h.commits_attempt hcommits
    exact ⟨⟨row, hcommitted.found⟩, hcommitted.gone⟩

theorem AttemptHistory.step (h : AttemptHistory trace s) (hstep : Step env s label s') :
    AttemptHistory (trace ++ [⟨s, label, s'⟩]) s' := by
  have hlater := hstep.advances.drawn
  have hdescends := hstep.descends.attempts
  refine ⟨?_, ?_, ?_, ?_, ?_, ?_⟩
  · intro k row' hrow'
    rcases hstep.attempts_kept k row' hrow' with hinserted | ⟨row, hrow, hrest⟩
    · have hkey : row'.attempt = k := Table.key_of_find? hrow'
      rw [← hkey]
      exact ⟨hinserted.drawn, ⟨s, label, s'⟩, by simp, row', hinserted, .refl row'⟩
    · obtain ⟨hdrawn, e, he, first, hinserted, hfirst⟩ := h.stored k row hrow
      exact ⟨hdrawn.mono hlater, e, List.mem_append_left _ he, first, hinserted, hfirst.trans hrest⟩
  · intro e he held hclaims
    rcases List.mem_append.mp he with he | he
    · obtain ⟨⟨i, hi, hid⟩, hclaimed⟩ := h.claimed e he held hclaims
      refine ⟨⟨i, by omega, hid⟩, fun row' hrow' => ?_⟩
      rw [hid] at hrow' hclaimed
      obtain ⟨row, hrow, hrest⟩ := hdescends.before (attemptId_injective env) hi hrow'
      exact hrest.claimed (hclaimed row hrow)
    · obtain rfl := List.mem_singleton.mp he
      obtain ⟨row, htaken⟩ := hstep.claims_attempt hclaims
      refine ⟨(h.stored _ _ htaken.passes.found).1.mono hlater, fun row' hrow' => ?_⟩
      obtain rfl := Option.some_injective _ (htaken.taken.symm.trans hrow')
      rfl
  · intro held hheld
    rcases hstep.attempt_held hheld with hold | hclaims
    · obtain ⟨e, he, hclaims⟩ := h.held held hold
      exact ⟨e, List.mem_append_left _ he, hclaims⟩
    · exact ⟨_, by simp, hclaims⟩
  · intro e he id hends
    rcases List.mem_append.mp he with he | he
    · obtain ⟨⟨i, hi, hid⟩, hgone⟩ := h.ended e he id hends
      refine ⟨⟨i, by omega, hid⟩, ?_⟩
      rw [hid] at hgone ⊢
      exact hdescends.gone (attemptId_injective env) hi hgone
    · obtain rfl := List.mem_singleton.mp he
      obtain ⟨⟨row, hrow⟩, hgone⟩ := hstep.ends_attempt hends
      have hdrawn := (h.stored id row hrow).1
      refine ⟨hdrawn.mono hlater, ?_⟩
      cases hfind : s'.world.state.oidcTransactions.find? id with
      | none => rfl
      | some row' => exact absurd (Table.key_of_find? hfind) ((hgone row' hfind).ne hdrawn)
  · refine List.pairwise_append.mpr ⟨h.fenced, List.pairwise_singleton _ _, ?_⟩
    intro e he f hf held hclaims
    obtain rfl := List.mem_singleton.mp hf
    have hclaimed := (h.claimed e he held hclaims).2
    refine ⟨fun hcancels => ?_, fun held' hclaims' hid => ?_⟩
    · obtain ⟨⟨row, hrow, hunclaimed⟩, -⟩ := hstep.cancels_attempt hcancels
      rw [hclaimed row hrow] at hunclaimed
      cases hunclaimed
    · obtain ⟨row, htaken⟩ := hstep.claims_attempt hclaims'
      obtain ⟨t, -, -, hpresented⟩ := htaken.passes.presented
      have hfound := htaken.passes.found
      rw [hid] at hfound
      have hunclaimed := hpresented.claimed
      rw [hclaimed row hfound] at hunclaimed
      cases hunclaimed
  · refine List.pairwise_append.mpr ⟨h.once, List.pairwise_singleton _ _, ?_⟩
    intro e he f hf id hends hends'
    obtain rfl := List.mem_singleton.mp hf
    obtain ⟨⟨row, hrow⟩, -⟩ := hstep.ends_attempt hends'
    rw [(h.ended e he id hends).2] at hrow
    cases hrow

theorem attemptHistory_of_run (hstart : s₀.Provisioned) (hrun : Run (Step env) s₀ trace s) :
    AttemptHistory trace s := by
  refine hrun.history (H := AttemptHistory) ?_ fun _ _ _ _ _ h hstep => h.step hstep
  refine ⟨?_, by simp, ?_, by simp, .nil, .nil⟩
  · intro k row hrow
    rw [hstart.1] at hrow
    exact absurd (Table.mem_of_find? hrow) Table.not_mem_empty
  · intro held hheld
    rw [hstart.2] at hheld
    cases hheld

/-- What holds of a result that an event committed for an attempt which earlier events inserted and
claimed. -/
structure AttemptMet (i c e : Event (System env) (Label env)) (held : ClaimedAttempt env)
    (row : OidcTransactionRow) : Prop where
  /-- The attempt was inserted at an enabled provider, under the version recorded. -/
  inserted : row.InsertedIn env i.before.world i.after.world
  /-- The call claimed it itself: the checks passed, and the call was given the secrets stored. -/
  claims : ClaimsAttempt c held
  taken : held.TakenFrom row c.before.world c.after.world
  /-- The same checks passed at the commit, of the same row without its secrets. -/
  passes : row.taken.Passes env held.locator held.callback true e.before.world e.after.world
  /-- The attempt is gone. -/
  gone : e.after.world.state.oidcTransactions.find? held.locator.id = none

/-- What holds of the attempts of a run. -/
structure AttemptsFenced (trace : List (Event (System env) (Label env))) : Prop where
  /-- The secrets of an attempt are handed to at most one call. -/
  handed : trace.Pairwise fun e f => ∀ held held', ClaimsAttempt e held → ClaimsAttempt f held' →
    held.locator.id ≠ held'.locator.id
  /-- At most one call commits a result for an attempt. -/
  once : trace.Pairwise fun e f => ∀ held held', CommitsAttempt e held → CommitsAttempt f held' →
    held.locator.id ≠ held'.locator.id
  /-- A claimed attempt is never cancelled. -/
  uncancelled : trace.Pairwise fun e f => ∀ held, ClaimsAttempt e held →
    ¬ CancelsAttempt f held.locator.id
  /-- A result rests on the attempt as it was inserted, and on the checks of both halves. -/
  met : ∀ earlier e later, trace = earlier ++ e :: later → ∀ held, CommitsAttempt e held →
    ∃ before i mid c between row,
      earlier = before ++ i :: mid ++ c :: between ∧ AttemptMet i c e held row

/-- Attempts are single-use and fenced: in every run, whatever calls interleave. -/
theorem attempts_fenced (hstart : s₀.Provisioned) (hrun : Run (Step env) s₀ trace s) :
    AttemptsFenced trace := by
  have hhistory := attemptHistory_of_run hstart hrun
  refine ⟨?_, ?_, ?_, ?_⟩
  · exact hhistory.fenced.imp fun hfenced held held' hclaims hclaims' heq =>
      (hfenced held hclaims).2 held' hclaims' heq.symm
  · exact hhistory.once.imp fun honce held held' hcommits hcommits' heq =>
      honce _ (.inr ⟨held, hcommits, rfl⟩) (.inr ⟨held', hcommits', heq.symm⟩)
  · exact hhistory.fenced.imp fun hfenced held hclaims => (hfenced held hclaims).1
  · intro earlier e later htrace held hcommits
    obtain ⟨hearlier, hstep, -⟩ := Run.split (htrace ▸ hrun)
    have hbefore := attemptHistory_of_run hstart hearlier
    obtain ⟨hheld, row', hcommitted⟩ := hstep.commits_attempt hcommits
    obtain ⟨c, hc, hclaims⟩ := hbefore.held held hheld
    obtain ⟨first, between, rfl⟩ := List.append_of_mem hc
    obtain ⟨hfirst, hclaim, hbetween⟩ := Run.split hearlier
    obtain ⟨row, htaken⟩ := hclaim.claims_attempt hclaims
    have hatClaim := attemptHistory_of_run hstart hfirst
    obtain ⟨⟨j, hj, hid⟩, i, hi, inserted, hinserted, hrest⟩ := hatClaim.stored _ _ htaken.passes.found
    obtain ⟨t, -, -, hpresented⟩ := htaken.passes.presented
    obtain rfl := hrest.unclaimed hpresented.claimed
    obtain ⟨before, mid, rfl⟩ := List.append_of_mem hi
    -- The attempt is the claimed row up to the commit: its key was drawn before the claim.
    have hdescends := (descends_of_run hbetween).attempts
    have hdrawn : j < c.after.world.drawn := lt_of_lt_of_le hj hclaim.advances.drawn
    have hfound := hcommitted.found
    have hstored := htaken.taken
    rw [hid] at hfound hstored
    obtain ⟨claimed, hclaimed, hsame⟩ := hdescends.before (attemptId_injective env) hdrawn hfound
    obtain rfl := Option.some_injective _ (hstored.symm.trans hclaimed)
    obtain rfl := hsame.taken
    have hgone := (hbefore.step hstep).ended e (by simp) _ (.inr ⟨held, hcommits, rfl⟩)
    refine ⟨before, i, mid, c, between, row, rfl, hinserted, hclaims, htaken,
      ⟨hcommitted.found, hcommitted.presented, ?_⟩, hgone.2⟩
    · rcases hcommitted.enabled with henabled | henabled
      · exact henabled
      · rw [htaken.provider.1, htaken.provider.2] at henabled
        exact henabled

/-- The attempts of the run in which `bob` logs in are fenced; one was committed in it. -/
theorem federated_fenced : ∃ trace, @AttemptsFenced .transparent trace ∧
    ∃ e ∈ trace, ∃ held, CommitsAttempt e held := by
  have hok : federated.toOption.isSome = true := by decide +kernel
  obtain ⟨⟨outcome, w⟩, hsome⟩ := Option.isSome_iff_exists.mp hok
  have hrun := eq_ok_of_toOption hsome
  unfold federated at hrun
  obtain ⟨trace, held, hrun, -, earlier, e, claimed, htrace, hlabel⟩ := run_partnerLogin hrun
  refine ⟨trace, attempts_fenced ⟨rfl, rfl⟩ hrun, e, ?_, claimed, .inl ⟨_, outcome, hlabel⟩⟩
  rw [htrace]
  exact List.mem_append_right _ List.mem_cons_self

end Histories

end IdentityAuthority
