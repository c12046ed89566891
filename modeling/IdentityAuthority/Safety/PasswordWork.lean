import IdentityAuthority.Concurrency.PasswordKdf

/-!
# Password work is bounded and drained

The permits of the semaphore and the tokens of the tracker are counted by the closures that hold them.
What a closure holds it gives back itself, after its work; its waiter has no part in it.
-/

namespace IdentityAuthority

open Transition

section Closures

variable {closure next : BlockingClosure} {a : Act}

/-- What an act does to a closure: each one has its phase, and only its waiter's acts leave it. -/
theorem act_cases (h : closure.act a = some next) :
    (a = .start ∧ closure.phase = .queued ∧ next = { closure with phase := .running }) ∨
    (∃ workEnd, a = .finish workEnd ∧ closure.phase = .running ∧
      next = { closure with phase := .worked workEnd }) ∨
    (∃ workEnd, a = .untrack ∧ closure.phase = .worked workEnd ∧
      next = { closure with phase := .untracked workEnd }) ∨
    (∃ workEnd, a = .release ∧ closure.phase = .untracked workEnd ∧
      next = { closure with phase := .released workEnd }) ∨
    (a = .cancel ∧ closure.waiter = .awaiting ∧ next = { closure with waiter := .cancelled }) ∨
    (∃ workEnd, a = .answer ∧ closure.waiter = .awaiting ∧ closure.phase = .released workEnd ∧
      next = { closure with waiter := .answered (BlockingClosure.answer workEnd) }) := by
  cases a with
  | start =>
    simp only [BlockingClosure.act] at h
    split at h
    case h_1 hphase =>
      cases h
      exact .inl ⟨rfl, hphase, rfl⟩
    case h_2 => cases h
  | finish workEnd =>
    simp only [BlockingClosure.act] at h
    split at h
    case h_1 hphase =>
      cases h
      exact .inr (.inl ⟨workEnd, rfl, hphase, rfl⟩)
    case h_2 => cases h
  | untrack =>
    simp only [BlockingClosure.act] at h
    split at h
    case h_1 workEnd hphase =>
      cases h
      exact .inr (.inr (.inl ⟨workEnd, rfl, hphase, rfl⟩))
    case h_2 => cases h
  | release =>
    simp only [BlockingClosure.act] at h
    split at h
    case h_1 workEnd hphase =>
      cases h
      exact .inr (.inr (.inr (.inl ⟨workEnd, rfl, hphase, rfl⟩)))
    case h_2 => cases h
  | cancel =>
    simp only [BlockingClosure.act] at h
    split at h
    case h_1 hwaiter =>
      cases h
      exact .inr (.inr (.inr (.inr (.inl ⟨rfl, hwaiter, rfl⟩))))
    case h_2 => cases h
  | answer =>
    simp only [BlockingClosure.act] at h
    split at h
    case h_1 workEnd hwaiter hphase =>
      cases h
      exact .inr (.inr (.inr (.inr (.inr ⟨workEnd, rfl, hwaiter, hphase, rfl⟩))))
    case h_2 => cases h

/-- A permit is given back by a release only, which ends the closure's part in the count. -/
theorem holds_of_act (h : closure.act a = some next) :
    if a = .release then closure.holds = true ∧ next.holds = false
    else next.holds = closure.holds := by
  obtain ⟨rfl, hphase, rfl⟩ | ⟨workEnd, rfl, hphase, rfl⟩ | ⟨workEnd, rfl, hphase, rfl⟩ |
    ⟨workEnd, rfl, hphase, rfl⟩ | ⟨rfl, -, rfl⟩ | ⟨workEnd, rfl, -, -, rfl⟩ := act_cases h <;>
  simp_all [BlockingClosure.holds]

/-- A token is given back by `untrack` only. -/
theorem tracked_of_act (h : closure.act a = some next) :
    if a = .untrack then closure.tracked = true ∧ next.tracked = false
    else next.tracked = closure.tracked := by
  obtain ⟨rfl, hphase, rfl⟩ | ⟨workEnd, rfl, hphase, rfl⟩ | ⟨workEnd, rfl, hphase, rfl⟩ |
    ⟨workEnd, rfl, hphase, rfl⟩ | ⟨rfl, -, rfl⟩ | ⟨workEnd, rfl, -, -, rfl⟩ := act_cases h <;>
  simp_all [BlockingClosure.tracked]

/-- A closure that gives its permit back has ended its work. -/
theorem ended_of_release (h : closure.act .release = some next) : closure.ended = true := by
  obtain ⟨h, -⟩ | ⟨_, h, -⟩ | ⟨_, h, -⟩ | ⟨workEnd, -, hphase, -⟩ | ⟨h, -⟩ | ⟨_, h, -⟩ :=
    act_cases h
  all_goals first
    | cases h
    | simp [BlockingClosure.ended, hphase]

/-- A closure that runs holds its permit. -/
theorem holds_of_running (h : closure.running = true) : closure.holds = true := by
  simp_all [BlockingClosure.running, BlockingClosure.holds]

/-- A closure without a token has ended its work. -/
theorem ended_of_untracked (h : closure.tracked = false) : closure.ended = true := by
  cases hphase : closure.phase <;> simp_all [BlockingClosure.tracked, BlockingClosure.ended]

end Closures

section Counting

variable {closures : List BlockingClosure} {closure : BlockingClosure} {i : ℕ}

/-- Replacing one closure changes a count by that closure alone. -/
theorem countP_replace (p : BlockingClosure → Bool) (next : BlockingClosure)
    (h : closures[i]? = some closure) :
    (closures.set i next).countP p + (if p closure then 1 else 0) =
      closures.countP p + (if p next then 1 else 0) := by
  obtain ⟨hi, hget⟩ := List.getElem?_eq_some_iff.mp h
  have hpos : p closure = true → 0 < closures.countP p := by
    intro hp
    exact List.countP_pos_iff.mpr ⟨closure, List.mem_of_getElem? h, hp⟩
  rw [List.countP_set hi, hget]
  split
  case isTrue hp =>
    have := hpos hp
    omega
  case isFalse => omega

end Counting

namespace PasswordKdf

variable {kdf next : PasswordKdf} {label : KdfLabel} {i : ℕ} {a : Act}

theorem act_eq_some (h : kdf.act i a = some next) :
    ∃ closure closure', kdf.closures[i]? = some closure ∧ closure.act a = some closure' ∧
      next = { kdf with
        tokens := if a = .untrack then kdf.tokens - 1 else kdf.tokens
        available := if a = .release then kdf.available + 1 else kdf.available
        closures := kdf.closures.set i closure' } := by
  simp only [act, Option.bind_eq_bind, Option.bind_eq_some_iff] at h
  obtain ⟨closure, hclosure, closure', hact, h⟩ := h
  exact ⟨closure, closure', hclosure, hact, (Option.some.inj h).symm⟩

/-- What a computation that is admitted changes. -/
theorem compute_eq_ok (h : kdf.compute = .ok next) :
    kdf.admission = true ∧ 0 < kdf.available ∧
      next = { kdf with
        available := kdf.available - 1
        tokens := kdf.tokens + 1
        closures := kdf.closures ++ [⟨.queued, .awaiting⟩] } := by
  unfold compute at h
  split at h
  · cases h
  case isFalse hadmission =>
    split at h
    · cases h
    case isFalse hpermit =>
      cases h
      exact ⟨by simpa using hadmission, Nat.pos_of_ne_zero hpermit, rfl⟩

/-- What a step does. -/
theorem step_cases (h : KdfStep kdf label next) :
    (label = .compute ∧ kdf.compute = .ok next) ∨
    (∃ e, label = .compute ∧ kdf.compute = .error e ∧ next = kdf) ∨
    (∃ i a, label = .act i a ∧ kdf.act i a = some next) ∨
    (label = .close ∧ next = kdf.close) ∨
    (label = .wait ∧ next = { kdf with waits := kdf.waits ++ [.pending] }) ∨
    (∃ w, label = .notify w ∧ kdf.waits[w]? = some .pending ∧ kdf.closed = true ∧ kdf.tokens = 0 ∧
      next = { kdf with waits := kdf.waits.set w .notified }) ∨
    (∃ w, label = .wake w ∧ kdf.waits[w]? = some .notified ∧
      next = { kdf with waits := kdf.waits.set w .returned }) := by
  cases label with
  | compute =>
    simp only [KdfStep, Fires, step] at h
    cases hcompute : kdf.compute with
    | ok admitted =>
      rw [hcompute] at h
      cases h
      exact .inl ⟨rfl, rfl⟩
    | error e =>
      rw [hcompute] at h
      cases h
      exact .inr (.inl ⟨e, rfl, rfl, rfl⟩)
  | act i a => exact .inr (.inr (.inl ⟨i, a, rfl, h⟩))
  | close =>
    cases h
    exact .inr (.inr (.inr (.inl ⟨rfl, rfl⟩)))
  | wait =>
    cases h
    exact .inr (.inr (.inr (.inr (.inl ⟨rfl, rfl⟩))))
  | notify w =>
    simp only [KdfStep, Fires, step] at h
    split at h
    case isTrue hready =>
      cases h
      exact .inr (.inr (.inr (.inr (.inr (.inl ⟨w, rfl, hready.1, hready.2.1, hready.2.2, rfl⟩)))))
    case isFalse => cases h
  | wake w =>
    simp only [KdfStep, Fires, step] at h
    split at h
    case isTrue hnotified =>
      cases h
      exact .inr (.inr (.inr (.inr (.inr (.inr ⟨w, rfl, hnotified, rfl⟩)))))
    case isFalse => cases h

/-- What holds of every state that is reached. -/
structure Sound (kdf : PasswordKdf) : Prop where
  /-- A permit is in the semaphore or held by a closure. -/
  permits : kdf.available + kdf.closures.countP BlockingClosure.holds = maxConcurrency
  /-- The tracker counts the closures that hold a token. -/
  tokens : kdf.tokens = kdf.closures.countP BlockingClosure.tracked
  /-- The tracker is closed only together with the gate. -/
  gate : kdf.closed = true → kdf.admission = false
  /-- Nobody was notified before the tracker was closed and empty. -/
  drained : ∀ wait ∈ kdf.waits, wait ≠ .pending → kdf.closed = true ∧ kdf.tokens = 0

theorem sound_new : new.Sound := by
  constructor
  · rfl
  · rfl
  · intro h
    cases h
  · intro wait h
    cases h

/-- A closure that goes on takes its own permit and token out of the counts. -/
theorem Sound.act (hsound : kdf.Sound) (h : kdf.act i a = some next) : next.Sound := by
  obtain ⟨closure, closure', hclosure, hact, rfl⟩ := act_eq_some h
  have hpermits := hsound.permits
  have htokens := hsound.tokens
  have hholds := countP_replace BlockingClosure.holds closure' hclosure
  have htracked := countP_replace BlockingClosure.tracked closure' hclosure
  have hrelease := holds_of_act hact
  have huntrack := tracked_of_act hact
  have htokens' : (if a = .untrack then kdf.tokens - 1 else kdf.tokens) =
      (kdf.closures.set i closure').countP BlockingClosure.tracked := by
    split at huntrack
    · rw [huntrack.1, huntrack.2] at htracked
      simp only [if_true, Bool.false_eq_true, if_false] at htracked
      rw [if_pos ‹_›]
      omega
    · rw [huntrack] at htracked
      rw [if_neg ‹_›]
      omega
  constructor
  · split at hrelease
    · rw [hrelease.1, hrelease.2] at hholds
      simp only [if_true, Bool.false_eq_true, if_false] at hholds
      simp only [if_pos ‹a = _›]
      omega
    · rw [hrelease] at hholds
      simp only [if_neg ‹¬ a = _›]
      omega
  · exact htokens'
  · exact hsound.gate
  · intro wait hwait hnot
    obtain ⟨hclosed, hempty⟩ := hsound.drained wait hwait hnot
    refine ⟨hclosed, ?_⟩
    simp only [hempty]
    split <;> rfl

/-- A step keeps the counts. -/
theorem Sound.step (hsound : kdf.Sound) (h : KdfStep kdf label next) : next.Sound := by
  obtain ⟨-, hcompute⟩ | ⟨e, -, -, rfl⟩ | ⟨i, a, -, hact⟩ | ⟨-, rfl⟩ | ⟨-, rfl⟩ |
    ⟨w, -, -, hclosed, hempty, rfl⟩ | ⟨w, -, hnotified, rfl⟩ := step_cases h
  · obtain ⟨hadmission, hpermit, rfl⟩ := compute_eq_ok hcompute
    have hpermits := hsound.permits
    have htokens := hsound.tokens
    have hopen : kdf.closed = false := by
      cases hclosed : kdf.closed with
      | false => rfl
      | true =>
        rw [hsound.gate hclosed] at hadmission
        cases hadmission
    constructor
    · simp only [List.countP_append, List.countP_singleton]
      simp only [BlockingClosure.holds, if_true]
      omega
    · simp only [List.countP_append, List.countP_singleton]
      simp only [BlockingClosure.tracked, if_true]
      omega
    · exact hsound.gate
    · intro wait hwait hnot
      have hclosed := (hsound.drained wait hwait hnot).1
      rw [hopen] at hclosed
      cases hclosed
  · exact hsound
  · exact hsound.act hact
  · constructor
    · exact hsound.permits
    · exact hsound.tokens
    · exact fun _ => rfl
    · intro wait hwait hnot
      exact ⟨rfl, (hsound.drained wait hwait hnot).2⟩
  · constructor
    · exact hsound.permits
    · exact hsound.tokens
    · exact hsound.gate
    · intro wait hwait hnot
      rcases List.mem_append.mp hwait with hwait | hwait
      · exact hsound.drained wait hwait hnot
      · exact absurd (List.mem_singleton.mp hwait) hnot
  · constructor
    · exact hsound.permits
    · exact hsound.tokens
    · exact hsound.gate
    · intro wait hwait hnot
      exact ⟨hclosed, hempty⟩
  · constructor
    · exact hsound.permits
    · exact hsound.tokens
    · exact hsound.gate
    · intro wait hwait hnot
      exact hsound.drained .notified (List.mem_of_getElem? hnotified) (by decide)

/-- A closure that is over stays over. -/
theorem over_of_step {closure : BlockingClosure} (h : KdfStep kdf label next)
    (hclosure : kdf.closures[i]? = some closure) (hover : closure.holds = false) :
    ∃ closure', next.closures[i]? = some closure' ∧ closure'.holds = false := by
  obtain ⟨-, hcompute⟩ | ⟨e, -, -, rfl⟩ | ⟨j, a, -, hact⟩ | ⟨-, rfl⟩ | ⟨-, rfl⟩ |
    ⟨w, -, -, -, -, rfl⟩ | ⟨w, -, -, rfl⟩ := step_cases h
  · obtain ⟨-, -, rfl⟩ := compute_eq_ok hcompute
    have hi := (List.getElem?_eq_some_iff.mp hclosure).1
    refine ⟨closure, ?_, hover⟩
    simp only [List.getElem?_append_left hi]
    exact hclosure
  · exact ⟨closure, hclosure, hover⟩
  · obtain ⟨moved, moved', hmoved, hact, rfl⟩ := act_eq_some hact
    by_cases hij : j = i
    · subst hij
      rw [hclosure] at hmoved
      cases hmoved
      have hi := (List.getElem?_eq_some_iff.mp hclosure).1
      refine ⟨moved', by simp [hi], ?_⟩
      have hholds := holds_of_act hact
      split at hholds
      · exact hholds.2
      · rw [hholds, hover]
    · refine ⟨closure, ?_, hover⟩
      simp only [List.getElem?_set_ne hij]
      exact hclosure
  all_goals exact ⟨closure, hclosure, hover⟩

/-- The gate stays shut. -/
theorem shut_of_step (h : KdfStep kdf label next) (hshut : kdf.admission = false) :
    next.admission = false := by
  obtain ⟨-, hcompute⟩ | ⟨e, -, -, rfl⟩ | ⟨j, a, -, hact⟩ | ⟨-, rfl⟩ | ⟨-, rfl⟩ |
    ⟨w, -, -, -, -, rfl⟩ | ⟨w, -, -, rfl⟩ := step_cases h
  · rw [(compute_eq_ok hcompute).1] at hshut
    cases hshut
  · exact hshut
  · obtain ⟨_, _, -, -, rfl⟩ := act_eq_some hact
    exact hshut
  · rfl
  all_goals exact hshut

/-- Behind a shut gate no step admits a closure. -/
theorem length_of_shut (h : KdfStep kdf label next) (hshut : kdf.admission = false) :
    next.closures.length = kdf.closures.length := by
  obtain ⟨-, hcompute⟩ | ⟨e, -, -, rfl⟩ | ⟨j, a, -, hact⟩ | ⟨-, rfl⟩ | ⟨-, rfl⟩ |
    ⟨w, -, -, -, -, rfl⟩ | ⟨w, -, -, rfl⟩ := step_cases h
  · rw [(compute_eq_ok hcompute).1] at hshut
    cases hshut
  · rfl
  · obtain ⟨_, _, -, -, rfl⟩ := act_eq_some hact
    exact List.length_set
  all_goals rfl

/-- A step that adds to the semaphore is the release of a closure that has ended. -/
theorem release_of_step (h : KdfStep kdf label next) (hmore : kdf.available < next.available) :
    ∃ i closure, label = .act i .release ∧ kdf.closures[i]? = some closure ∧
      closure.ended = true ∧ closure.holds = true := by
  obtain ⟨-, hcompute⟩ | ⟨e, -, -, rfl⟩ | ⟨j, a, rfl, hstep⟩ | ⟨-, rfl⟩ | ⟨-, rfl⟩ |
    ⟨w, -, -, -, -, rfl⟩ | ⟨w, -, -, rfl⟩ := step_cases h
  · obtain ⟨-, hpermit, rfl⟩ := compute_eq_ok hcompute
    simp only at hmore
    omega
  · omega
  · obtain ⟨closure, closure', hclosure, hact, rfl⟩ := act_eq_some hstep
    by_cases ha : a = .release
    · subst ha
      exact ⟨j, closure, rfl, hclosure, ended_of_release hact, (holds_of_act hact).1⟩
    · simp only [if_neg ha] at hmore
      omega
  all_goals
    simp only [close] at hmore
    omega

/-- A closure whose work has ended needs nobody to give its permit back. -/
theorem frees {closure : BlockingClosure} (hclosure : kdf.closures[i]? = some closure)
    (hended : closure.ended = true) (hholds : closure.holds = true) :
    ∃ later after, Run KdfStep kdf later after ∧ after.available = kdf.available + 1 ∧
      ∀ e ∈ later, e.label = .act i .untrack ∨ e.label = .act i .release := by
  have hi := (List.getElem?_eq_some_iff.mp hclosure).1
  cases hphase : closure.phase with
  | queued => simp [BlockingClosure.ended, hphase] at hended
  | running => simp [BlockingClosure.ended, hphase] at hended
  | released => simp [BlockingClosure.holds, hphase] at hholds
  | untracked workEnd =>
    have hrelease : KdfStep kdf (.act i .release) { kdf with
        available := kdf.available + 1
        closures := kdf.closures.set i { closure with phase := .released workEnd } } := by
      simp [KdfStep, Fires, step, act, hclosure, BlockingClosure.act, hphase]
    refine ⟨_, _, Run.start.step hrelease, rfl, ?_⟩
    simp
  | worked workEnd =>
    have huntrack : KdfStep kdf (.act i .untrack) { kdf with
        tokens := kdf.tokens - 1
        closures := kdf.closures.set i { closure with phase := .untracked workEnd } } := by
      simp [KdfStep, Fires, step, act, hclosure, BlockingClosure.act, hphase]
    have hrelease : KdfStep { kdf with
        tokens := kdf.tokens - 1
        closures := kdf.closures.set i { closure with phase := .untracked workEnd } }
        (.act i .release) { kdf with
        tokens := kdf.tokens - 1
        available := kdf.available + 1
        closures := kdf.closures.set i { closure with phase := .released workEnd } } := by
      simp [KdfStep, Fires, step, act, hi, BlockingClosure.act]
    refine ⟨_, _, (Run.start.step huntrack).step hrelease, rfl, ?_⟩
    simp

end PasswordKdf

open PasswordKdf

/-- What every run of a `PasswordKdf` keeps to. -/
structure BoundedAndDrained (trace : List (Event PasswordKdf KdfLabel)) (kdf : PasswordKdf) :
    Prop where
  /-- At most four closures run. -/
  running : kdf.closures.countP BlockingClosure.running ≤ 4
  /-- Four permits are in the semaphore or held by closures that are not over. -/
  permits : kdf.available + kdf.closures.countP BlockingClosure.holds = 4
  /-- What adds a permit is a closure that holds it and has ended. -/
  released : ∀ e ∈ trace, e.before.available < e.after.available →
    ∃ i closure, e.label = .act i .release ∧ e.before.closures[i]? = some closure ∧
      closure.ended = true ∧ closure.holds = true
  /-- A closure gives its permit back once. -/
  once : trace.Pairwise fun e f => ∀ i, e.label = .act i .release → f.label ≠ .act i .release
  /-- A closure that has ended gives its permit back without anybody else. -/
  frees : ∀ i closure, kdf.closures[i]? = some closure → closure.ended = true →
    closure.holds = true →
      ∃ later after, Run KdfStep kdf later after ∧ after.available = kdf.available + 1 ∧
        ∀ e ∈ later, e.label = .act i .untrack ∨ e.label = .act i .release
  /-- The cancellation of a waiter leaves the permits, the tokens and the work as they are. -/
  cancelled : ∀ e ∈ trace, ∀ i, e.label = .act i .cancel →
    e.after.available = e.before.available ∧ e.after.tokens = e.before.tokens ∧
      e.after.closures.map BlockingClosure.phase = e.before.closures.map BlockingClosure.phase
  /-- After `close`, computations are refused and no closure is added. -/
  closed : trace.Pairwise fun e f => e.label = .close →
    (f.label = .compute → f.before.compute = .error .unavailable) ∧
      f.after.closures.length = f.before.closures.length
  /-- Where `wait_closed` has returned, all work has ended and no more is admitted. -/
  drained : ∀ w : ℕ, kdf.waits[w]? = some Wait.returned →
    (∀ closure ∈ kdf.closures, closure.ended = true) ∧ kdf.compute = .error .unavailable
  /-- `wait_closed` returns once the tracker is closed and all closures gave their tokens back. -/
  returns : ∀ w : ℕ, kdf.waits[w]? = some Wait.pending → kdf.closed = true →
    (∀ closure ∈ kdf.closures, closure.tracked = false) →
      ∃ later after, Run KdfStep kdf later after ∧ after.waits[w]? = some Wait.returned

section Main

variable {trace : List (Event PasswordKdf KdfLabel)} {kdf : PasswordKdf}

theorem sound_of_runs (h : Runs trace kdf) : kdf.Sound :=
  h.invariant sound_new fun _ _ _ hsound hs => hsound.step hs

theorem compute_of_shut (h : kdf.admission = false) : kdf.compute = .error .unavailable := by
  rw [compute, if_pos h]

/-- Password work is bounded and drained in every run. -/
theorem password_work (trace : List (Event PasswordKdf KdfLabel)) (kdf : PasswordKdf)
    (h : Runs trace kdf) : BoundedAndDrained trace kdf := by
  have hsound := sound_of_runs h
  have hsteps := h.steps
  constructor
  case running =>
    have hle : kdf.closures.countP BlockingClosure.running ≤ kdf.closures.countP BlockingClosure.holds :=
      List.countP_mono_left fun closure _ => holds_of_running
    have hpermits := hsound.permits
    unfold maxConcurrency at hpermits
    omega
  case permits => exact hsound.permits
  case released =>
    intro e he hmore
    exact release_of_step (hsteps e he) hmore
  case once =>
    apply h.pairwise
      (fun e kdf => ∀ i, e.label = .act i .release →
        ∃ closure, kdf.closures[i]? = some closure ∧ closure.holds = false) sound_new
    · intro kdf label next hsound hs
      exact hsound.step hs
    · intro e _ hs i hlabel
      rw [hlabel] at hs
      obtain ⟨closure, closure', hclosure, hact, hafter⟩ := act_eq_some hs
      have hi := (List.getElem?_eq_some_iff.mp hclosure).1
      exact ⟨closure', by simp [hafter, hi], (holds_of_act hact).2⟩
    · intro e kdf label next _ hmark hs i hlabel
      obtain ⟨closure, hclosure, hover⟩ := hmark i hlabel
      exact over_of_step hs hclosure hover
    · intro e f _ hmark hs i hlabel hagain
      obtain ⟨closure, hclosure, hover⟩ := hmark i hlabel
      rw [hagain] at hs
      obtain ⟨closure', _, hclosure', hact, -⟩ := act_eq_some hs
      rw [hclosure] at hclosure'
      cases hclosure'
      rw [(holds_of_act hact).1] at hover
      cases hover
  case frees =>
    intro i closure hclosure hended hholds
    exact PasswordKdf.frees hclosure hended hholds
  case cancelled =>
    intro e he i hlabel
    have hs := hsteps e he
    rw [hlabel] at hs
    obtain ⟨closure, closure', hclosure, hact, hafter⟩ := act_eq_some hs
    obtain ⟨h, -⟩ | ⟨_, h, -⟩ | ⟨_, h, -⟩ | ⟨_, h, -⟩ | ⟨-, -, hnext⟩ | ⟨_, h, -⟩ := act_cases hact
    · cases h
    · cases h
    · cases h
    · cases h
    · obtain ⟨hi, hget⟩ := List.getElem?_eq_some_iff.mp hclosure
      rw [hafter]
      refine ⟨rfl, rfl, ?_⟩
      rw [List.map_set, hnext, ← hget]
      apply List.ext_getElem?
      intro j
      by_cases hij : i = j
      · subst hij
        simp [hi]
      · simp [List.getElem?_set_ne hij]
    · cases h
  case closed =>
    apply h.pairwise (fun e kdf => e.label = .close → kdf.admission = false) sound_new
    · intro kdf label next hsound hs
      exact hsound.step hs
    · intro e _ hs hlabel
      rw [hlabel] at hs
      have hafter : e.before.close = e.after := Option.some.inj hs
      rw [← hafter]
      rfl
    · intro e kdf label next _ hmark hs hlabel
      exact shut_of_step hs (hmark hlabel)
    · intro e f _ hmark hs hlabel
      have hshut := hmark hlabel
      exact ⟨fun _ => compute_of_shut hshut, length_of_shut hs hshut⟩
  case drained =>
    intro w hw
    obtain ⟨hclosed, hempty⟩ := hsound.drained .returned (List.mem_of_getElem? hw) (by decide)
    constructor
    · intro closure hclosure
      rw [hsound.tokens, List.countP_eq_zero] at hempty
      exact ended_of_untracked (by simpa using hempty closure hclosure)
    · exact compute_of_shut (hsound.gate hclosed)
  case returns =>
    intro w hw hclosed huntracked
    have hempty : kdf.tokens = 0 := by
      rw [hsound.tokens, List.countP_eq_zero]
      intro closure hclosure
      simp [huntracked closure hclosure]
    have hlength := (List.getElem?_eq_some_iff.mp hw).1
    have hnotify : KdfStep kdf (.notify w) { kdf with waits := kdf.waits.set w .notified } :=
      if_pos ⟨hw, hclosed, hempty⟩
    have hwake : KdfStep { kdf with waits := kdf.waits.set w .notified } (.wake w)
        { kdf with waits := kdf.waits.set w .returned } := by
      simp [KdfStep, Fires, step, hlength]
    refine ⟨_, _, (Run.start.step hnotify).step hwake, ?_⟩
    simp [hlength]

/-- A computation whose waiter is cancelled while it runs and whose work panics, with a drain. -/
def panickedWork : List KdfLabel :=
  [.compute, .act 0 .start, .act 0 .cancel, .close, .wait, .act 0 (.finish .panicked),
    .act 0 .untrack, .notify 0, .act 0 .release, .wake 0]

/-- It ends with all permits in the semaphore, and the drain returns. -/
theorem panicked_work_drained : ∃ trace kdf, kdf.waits = [Wait.returned] ∧ kdf.available = 4 ∧
    BoundedAndDrained trace kdf := by
  obtain ⟨trace, hrun⟩ := Run.of_labels panickedWork (rfl : panickedWork.foldlM step new = some _)
  exact ⟨trace, _, rfl, rfl, password_work trace _ hrun⟩

end Main

end IdentityAuthority
