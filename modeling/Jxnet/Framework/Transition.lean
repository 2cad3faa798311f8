import Mathlib.Data.List.Infix

namespace Transition

variable {σ ι : Type}

/-- The states that steps allowed by `may` lead to. -/
inductive Reachable (initial : σ) (may : σ → ι → Prop) (step : σ → ι → σ) : σ → Prop
  | initial : Reachable initial may step initial
  | step {s : σ} {i : ι} (hs : Reachable initial may step s) (hi : may s i) :
      Reachable initial may step (step s i)

namespace Reachable

variable {initial : σ} {may : σ → ι → Prop} {step : σ → ι → σ}

/-- What holds at the start and is kept by every step that is allowed holds throughout. -/
theorem invariant {P : σ → Prop} (h0 : P initial) (hstep : ∀ s i, P s → may s i → P (step s i))
    {s : σ} (hs : Reachable initial may step s) : P s := by
  induction hs with
  | initial => exact h0
  | step hs hi ih => exact hstep _ _ ih hi

end Reachable

section Run

variable (step : σ → ι → σ)

/-- The state after a sequence of inputs. -/
def run (s : σ) (inputs : List ι) : σ := inputs.foldl step s

theorem run_nil (s : σ) : run step s [] = s := rfl

theorem run_append_singleton (s : σ) (inputs : List ι) (i : ι) :
    run step s (inputs ++ [i]) = step (run step s inputs) i := by
  rw [run, List.foldl_append]
  rfl

variable {step}

/-- Where a step keeps `P` exactly if `ok` holds of it, `P` holds throughout a run iff every
input is `ok` in the state that it meets. -/
theorem forall_prefix_iff {P : σ → Prop} {ok : σ → ι → Prop}
    (hstep : ∀ s i, P s → (P (step s i) ↔ ok s i)) {s : σ} (h0 : P s) (inputs : List ι) :
    (∀ before, before <+: inputs → P (run step s before)) ↔
      ∀ before i, before ++ [i] <+: inputs → ok (run step s before) i := by
  constructor
  · intro h before i hi
    have hbefore := h before ((List.prefix_append before [i]).trans hi)
    have hafter := h (before ++ [i]) hi
    rw [run_append_singleton] at hafter
    exact (hstep _ i hbefore).mp hafter
  · intro h before
    induction before using List.reverseRecOn with
    | nil => exact fun _ => h0
    | append_singleton before i ih =>
      intro hi
      have hbefore := ih ((List.prefix_append before [i]).trans hi)
      rw [run_append_singleton]
      exact (hstep _ i hbefore).mpr (h before i hi)

end Run

end Transition
