import Mathlib.Tactic.Common
import Mathlib.Data.List.Basic
import Mathlib.Data.List.Pairwise

/-!
# Runs of a labelled transition system

A run lists the steps it took, each with the states around it. The rules below lift what
one step does to what a run does: an invariant, a fact that stays once it holds, and two
statements about the order of steps, that one step excludes a later one and that a step
was prepared by an earlier one.
-/

namespace Transition

variable {State Label : Type}

/-- One step of a run: the states before and after, and its label. -/
structure Event (State Label : Type) where
  before : State
  label : Label
  after : State

/-- The runs of a step relation from a state: the steps taken and the state reached. -/
inductive Run (step : State → Label → State → Prop) (start : State) :
    List (Event State Label) → State → Prop
  | start : Run step start [] start
  | step {trace : List (Event State Label)} {s s' : State} {label : Label} :
      Run step start trace s → step s label s' → Run step start (trace ++ [⟨s, label, s'⟩]) s'

namespace Run

variable {step : State → Label → State → Prop} {start s : State}
  {trace : List (Event State Label)}

/-- A property of the steps taken and the state reached holds of every run if it holds at
the start and each step extends it. -/
theorem history {H : List (Event State Label) → State → Prop} (hstart : H [] start)
    (hstep : ∀ trace s label s', Run step start trace s → H trace s → step s label s' →
      H (trace ++ [⟨s, label, s'⟩]) s')
    (hrun : Run step start trace s) : H trace s := by
  induction hrun with
  | start => exact hstart
  | step hrun hs ih => exact hstep _ _ _ _ hrun ih hs

/-- An invariant that every step keeps holds in every state reached. -/
theorem invariant {Inv : State → Prop} (hstart : Inv start)
    (hstep : ∀ s label s', Inv s → step s label s' → Inv s')
    (hrun : Run step start trace s) : Inv s :=
  hrun.history (H := fun _ s => Inv s) hstart fun _ s label s' _ h hs => hstep s label s' h hs

/-- Every event of a run is a step between states that satisfy the invariant. -/
theorem forall_event {Inv : State → Prop} (hstart : Inv start)
    (hstep : ∀ s label s', Inv s → step s label s' → Inv s')
    (hrun : Run step start trace s) :
    ∀ e ∈ trace, Inv e.before ∧ step e.before e.label e.after := by
  induction hrun with
  | start => simp
  | step hrun hs ih =>
    intro e he
    rcases List.mem_append.mp he with he | he
    · exact ih e he
    · obtain rfl := List.mem_singleton.mp he
      exact ⟨hrun.invariant hstart hstep, hs⟩

/-- Every event of a run is a step. -/
theorem steps (hrun : Run step start trace s) : ∀ e ∈ trace, step e.before e.label e.after := by
  intro e he
  have hevent := hrun.history (H := fun trace _ => ∀ e ∈ trace, step e.before e.label e.after)
    (by simp) ?_
  · exact hevent e he
  · intro trace s label s' _ hsteps hs e he
    rcases List.mem_append.mp he with he | he
    · exact hsteps e he
    · obtain rfl := List.mem_singleton.mp he
      exact hs

/-- Runs compose. -/
theorem append {mid t : State} {trace' : List (Event State Label)}
    (hrun : Run step start trace mid) (hrun' : Run step mid trace' t) :
    Run step start (trace ++ trace') t := by
  induction hrun' with
  | start => simpa using hrun
  | step _ hs ih => simpa only [List.append_assoc] using ih.step hs

/-- A run up to one of its events, the step of the event, and the rest of the run. -/
theorem split {earlier later : List (Event State Label)} {e : Event State Label}
    (hrun : Run step start (earlier ++ e :: later) s) :
    Run step start earlier e.before ∧ step e.before e.label e.after ∧ Run step e.after later s := by
  obtain ⟨trace, htrace⟩ : ∃ trace, trace = earlier ++ e :: later := ⟨_, rfl⟩
  rw [← htrace] at hrun
  induction hrun generalizing later with
  | start => simp at htrace
  | @step trace s s' label hrun hs ih =>
    rcases List.eq_nil_or_concat later with rfl | ⟨later, last, rfl⟩
    · obtain ⟨rfl, hlast⟩ := List.append_inj' htrace rfl
      cases hlast
      exact ⟨hrun, hs, .start⟩
    · have hparts : trace ++ [⟨s, label, s'⟩] = (earlier ++ e :: later) ++ [last] := by
        rw [htrace, List.concat_eq_append, List.append_assoc, List.cons_append]
      obtain ⟨rfl, hlast⟩ := List.append_inj' hparts rfl
      cases hlast
      obtain ⟨hbefore, hstep, hafter⟩ := ih rfl
      refine ⟨hbefore, hstep, ?_⟩
      rw [List.concat_eq_append]
      exact hafter.step hs

/-- A run of no events ends where it starts. -/
theorem eq_start (hrun : Run step start trace s) (hnil : trace = []) : s = start := by
  cases hrun with
  | start => rfl
  | step => simp at hnil

/-- A relation that each step satisfies and that composes relates the ends of every run. -/
theorem rel {Inv : State → Prop} {R : State → State → Prop} (hrefl : ∀ s, R s s)
    (htrans : ∀ {s₁ s₂ s₃}, R s₁ s₂ → R s₂ s₃ → R s₁ s₃) (hstart : Inv start)
    (hinv : ∀ s label s', Inv s → step s label s' → Inv s')
    (hstep : ∀ s label s', Inv s → step s label s' → R s s')
    (hrun : Run step start trace s) : R start s := by
  induction hrun with
  | start => exact hrefl _
  | step hrun hs ih => exact htrans ih (hstep _ _ _ (hrun.invariant hstart hinv) hs)

/-- Excluding later steps: if an event leaves a mark that every step keeps, and an event on
a marked state is related to the event that left the mark, then every two events of a run
are related in their order. -/
theorem pairwise {Inv : State → Prop} {R : Event State Label → Event State Label → Prop}
    (Mark : Event State Label → State → Prop) (hstart : Inv start)
    (hinv : ∀ s label s', Inv s → step s label s' → Inv s')
    (hmark : ∀ e, Inv e.before → step e.before e.label e.after → Mark e e.after)
    (hkeep : ∀ e s label s', Inv s → Mark e s → step s label s' → Mark e s')
    (huse : ∀ e f, Inv f.before → Mark e f.before → step f.before f.label f.after → R e f)
    (hrun : Run step start trace s) : trace.Pairwise R := by
  suffices h : trace.Pairwise R ∧ ∀ e ∈ trace, Mark e s from h.1
  refine hrun.history (H := fun trace s => trace.Pairwise R ∧ ∀ e ∈ trace, Mark e s)
    ⟨.nil, by simp⟩ ?_
  rintro trace s label s' hrun ⟨hpair, hmarks⟩ hs
  have hinv' := hrun.invariant hstart hinv
  constructor
  · refine List.pairwise_append.mpr ⟨hpair, List.pairwise_singleton _ _, ?_⟩
    intro e he f hf
    obtain rfl := List.mem_singleton.mp hf
    exact huse e _ hinv' (hmarks e he) hs
  · intro e he
    rcases List.mem_append.mp he with he | he
    · exact hkeep e s label s' hinv' (hmarks e he) hs
    · obtain rfl := List.mem_singleton.mp he
      exact hmark _ hinv' hs

end Run

end Transition
