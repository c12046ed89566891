import IdentityAuthority.Safety.Continuity

/-!
# What is stored of a protocol in flight

An attempt, an intent or a grant that is stored was stored before, and moved on only as its protocol
moves it, or was inserted under a key just drawn. So a key drawn before names the same attempt, the
same intent and the same grant for good, and what is gone under it never comes back.
-/

namespace IdentityAuthority

open Relational Transition

/-- An attempt stays as it was inserted, until a claim takes its secrets away. -/
def OidcTransactionRow.Later (row next : OidcTransactionRow) : Prop := next = row ∨ row.Claims next

/-- An intent stays as it was inserted but for its stage, which never goes back, and for the facts
of the reauthentication. -/
structure LinkIntentRow.Later (row next : LinkIntentRow) : Prop where
  kept : next = { row with
    sourceFacts := next.sourceFacts
    sourceFactsSequence := next.sourceFactsSequence
    stage := next.stage }
  stage : row.stage ≤ next.stage

/-- What is stored of protocols in one world comes from another, earlier one, or is new. -/
structure Descends (env : Env) (w w' : Tenant) : Prop where
  advances : w.Advances w'
  attempts : Table.Descends OidcTransactionRow.Later (attemptId env) w.drawn w'.drawn
    w.state.oidcTransactions w'.state.oidcTransactions
  intents : Table.Descends LinkIntentRow.Later (freshUuid env) w.drawn w'.drawn
    w.state.linkIntents w'.state.linkIntents
  grants : Table.Descends (· = ·) (secretHash env) w.drawn w'.drawn
    w.state.stepUpGrants w'.state.stepUpGrants

variable {env : Env} {areas : List Area} {start w w' : Tenant} {s s' : System env}
  {label : Label env} {trace : List (Event (System env) (Label env))}

section Rows

theorem attemptId_injective (env : Env) : Function.Injective (attemptId env) := fun i j h => by
  simp only [attemptId, Digest.mk.injEq] at h
  exact env.entropy.injective h

theorem OidcTransactionRow.Later.refl (row : OidcTransactionRow) : row.Later row := .inl rfl

theorem OidcTransactionRow.Later.trans {a b c : OidcTransactionRow} (h : a.Later b)
    (h' : b.Later c) : a.Later c := by
  rcases h with rfl | rfl
  · exact h'
  · rcases h' with rfl | rfl
    · exact .inr rfl
    · exact .inr rfl

/-- An attempt that is not claimed is as it was inserted. -/
theorem OidcTransactionRow.Later.unclaimed {row next : OidcTransactionRow} (h : row.Later next)
    (hnext : next.claimed = false) : next = row := by
  rcases h with rfl | rfl
  · rfl
  · cases hnext

/-- A claimed attempt stays claimed. -/
theorem OidcTransactionRow.Later.claimed {row next : OidcTransactionRow} (h : row.Later next)
    (hrow : row.claimed = true) : next.claimed = true := by
  rcases h with rfl | rfl
  · exact hrow
  · rfl

theorem LinkIntentRow.Later.refl (row : LinkIntentRow) : row.Later row := ⟨rfl, le_rfl⟩

theorem LinkIntentRow.Later.trans {a b c : LinkIntentRow} (h : a.Later b) (h' : b.Later c) :
    a.Later c := by
  refine ⟨?_, h.stage.trans h'.stage⟩
  have hkept := h'.kept
  rw [h.kept] at hkept
  exact hkept

theorem LinkIntentRow.Proves.later {row next : LinkIntentRow} (h : row.Proves next) :
    row.Later next := by
  refine ⟨h.1, ?_⟩
  rcases h.2 with hstage | ⟨hrow, hnext⟩
  · rw [hstage]
  · rw [hrow, hnext]
    decide

theorem LinkIntentRow.Completes.later {row next : LinkIntentRow} (h : row.Completes next) :
    row.Later next := by
  obtain ⟨hstage, rfl⟩ := h
  refine ⟨rfl, ?_⟩
  simp only [hstage]
  omega

theorem LinkIntentRow.Later.intent {row next : LinkIntentRow} (h : row.Later next) :
    next.intent = row.intent := by
  rw [h.kept]

end Rows

section Effects

variable {a : Area} {db : Db}

theorem Effect.attempts_descend (h : Effect env start w a db) :
    Table.Descends OidcTransactionRow.Later (attemptId env) start.drawn w.drawn
      w.state.oidcTransactions db.oidcTransactions := by
  by_cases ha : a = .oidc
  · subst ha
    cases h with
    | attemptInserted ht hid hi => exact .of_insert .refl ht hid hi.1 hi.2
    | attemptsClaimed h =>
      exact .of_rewritten .refl (fun _ _ hclaims => by rw [hclaims]; rfl) (fun _ _ => .inr) h
    | attemptsDeleted => exact .of_deleteWhere .refl
    | intentsDeleted => exact .refl .refl
  · rw [h.oidcTransactions_eq ha]
    exact .refl .refl

theorem Effect.intents_descend (h : Effect env start w a db) :
    Table.Descends LinkIntentRow.Later (freshUuid env) start.drawn w.drawn
      w.state.linkIntents db.linkIntents := by
  cases h with
  | intentsDeleted => exact .of_deleteWhere .refl
  | intentInserted ht hid hi => exact .of_insert .refl ht hid hi.1 hi.2
  | intentsProved h => exact .of_rewritten .refl (fun _ _ h => h.later.intent) (fun _ _ h => h.later) h
  | intentsCompleted h =>
    exact .of_rewritten .refl (fun _ _ h => h.later.intent) (fun _ _ h => h.later) h
  | _ => exact .refl .refl

theorem Effect.grants_descend (h : Effect env start w a db) :
    Table.Descends (· = ·) (secretHash env) start.drawn w.drawn
      w.state.stepUpGrants db.stepUpGrants := by
  by_cases ha : a = .grants
  · subst ha
    cases h with
    | grantInserted ht hid hi => exact .of_insert (fun _ => rfl) ht hid hi.1 hi.2
    | grantsDeleted => exact .of_deleteWhere fun _ => rfl
  · rw [h.stepUpGrants_eq ha]
    exact .refl fun _ => rfl

/-- What a part of a transaction stores of protocols comes from before it, or was drawn by the
transaction. -/
theorem Effects.descend (h : Effects env areas start w w') :
    Table.Descends OidcTransactionRow.Later (attemptId env) start.drawn w'.drawn
        w.state.oidcTransactions w'.state.oidcTransactions ∧
      Table.Descends LinkIntentRow.Later (freshUuid env) start.drawn w'.drawn
        w.state.linkIntents w'.state.linkIntents ∧
      Table.Descends (· = ·) (secretHash env) start.drawn w'.drawn
        w.state.stepUpGrants w'.state.stepUpGrants := by
  induction h with
  | refl => exact ⟨.refl .refl, .refl .refl, .refl fun _ => rfl⟩
  | tail _ hmove ih =>
    obtain ⟨hattempts, hintents, hgrants⟩ := ih
    have hlater := hmove.advances.drawn
    rcases hmove with ⟨hstate, -⟩ | ⟨-, heffect⟩
    · rw [hstate]
      exact ⟨hattempts.mono le_rfl hlater, hintents.mono le_rfl hlater,
        hgrants.mono le_rfl hlater⟩
    · exact ⟨hattempts.trans (fun _ _ _ => .trans) heffect.attempts_descend,
        hintents.trans (fun _ _ _ => .trans) heffect.intents_descend,
        hgrants.trans (fun _ _ _ => Eq.trans) heffect.grants_descend⟩

theorem Effects.descends (h : Effects env areas w w w') : Descends env w w' :=
  ⟨h.advances, h.descend.1, h.descend.2.1, h.descend.2.2⟩

end Effects

theorem Descends.refl (w : Tenant) : Descends env w w :=
  ⟨.refl w, .refl .refl, .refl .refl, .refl fun _ => rfl⟩

theorem Descends.trans {w₁ w₂ w₃ : Tenant} (h : Descends env w₁ w₂) (h' : Descends env w₂ w₃) :
    Descends env w₁ w₃ where
  advances := h.advances.trans h'.advances
  attempts := (h.attempts.mono le_rfl h'.advances.drawn).trans (fun _ _ _ => .trans)
    (h'.attempts.mono h.advances.drawn le_rfl)
  intents := (h.intents.mono le_rfl h'.advances.drawn).trans (fun _ _ _ => .trans)
    (h'.intents.mono h.advances.drawn le_rfl)
  grants := (h.grants.mono le_rfl h'.advances.drawn).trans (fun _ _ _ => Eq.trans)
    (h'.grants.mono h.advances.drawn le_rfl)

theorem Step.descends (h : Step env s label s') : Descends env s.world s'.world := by
  obtain ⟨areas, heffects⟩ := h.effects
  exact heffects.descends

/-- What is stored of protocols at the end of a run comes from its beginning, or was drawn in it. -/
theorem descends_of_run (hrun : Run (Step env) s trace s') : Descends env s.world s'.world :=
  hrun.history (H := fun _ s' => Descends env s.world s'.world) (.refl _)
    fun _ _ _ _ _ h hstep => h.trans hstep.descends

end IdentityAuthority
