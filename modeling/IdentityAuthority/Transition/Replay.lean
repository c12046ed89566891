import IdentityAuthority.Transition.Run

/-!
# Replaying labels

Where each label has at most one step from a state, a list of labels that can be followed from a state
is a run from it.
-/

namespace Transition

variable {State Label : Type} {step : State → Label → Option State} {start s : State}

/-- The step relation of a step function. -/
def Fires (step : State → Label → Option State) (s : State) (label : Label) (s' : State) : Prop :=
  step s label = some s'

/-- Labels that can be followed are a run. -/
theorem Run.of_labels (labels : List Label) (h : labels.foldlM step start = some s) :
    ∃ trace, Run (Fires step) start trace s := by
  induction labels generalizing start with
  | nil =>
    cases h
    exact ⟨[], .start⟩
  | cons label labels ih =>
    obtain ⟨next, hstep, hrest⟩ := Option.bind_eq_some_iff.mp h
    obtain ⟨trace, hrun⟩ := ih hrest
    have hfirst : Run (Fires step) start [⟨start, label, next⟩] next := Run.start.step hstep
    exact ⟨[⟨start, label, next⟩] ++ trace, hfirst.append hrun⟩

end Transition
