import Mathlib.Logic.Basic

namespace Loop

/-! `while` loops whose body may raise. -/

/-- What one pass through the body does: leave with a value, or go round again. -/
inductive Step (σ α : Type) where
  | done (a : α)
  | next (s : σ)

variable {σ α ε : Type}

/-- Up to `fuel` passes; `none` while the loop has not ended. -/
def run (body : σ → Except ε (Step σ α)) : Nat → σ → Option (Except ε α)
  | 0, _ => none
  | fuel + 1, s => match body s with
    | .error e => some (.error e)
    | .ok (.done a) => some (.ok a)
    | .ok (.next s') => run body fuel s'

/-- Every further pass starts from a state of smaller measure. -/
def Decreases (body : σ → Except ε (Step σ α)) (μ : σ → Nat) : Prop :=
  ∀ s s', body s = .ok (.next s') → μ s' < μ s

theorem run_mono (body : σ → Except ε (Step σ α)) {m n : Nat} (h : m ≤ n) (s : σ)
    (r : Except ε α) (hr : run body m s = some r) : run body n s = some r := by
  induction m generalizing n s with
  | zero => simp [run] at hr
  | succ m ih =>
    obtain ⟨n, rfl⟩ : ∃ k, n = k + 1 := ⟨n - 1, by omega⟩
    simp only [run] at hr ⊢
    split at hr
    · exact hr
    · exact hr
    · exact ih (by omega) _ hr

theorem run_isSome (body : σ → Except ε (Step σ α)) (μ : σ → Nat) (hμ : Decreases body μ)
    (n : Nat) (s : σ) (h : μ s < n) : (run body n s).isSome := by
  induction n generalizing s with
  | zero => omega
  | succ n ih =>
    simp only [run]
    split
    · rfl
    · rfl
    · next s' hs => exact ih s' (by have := hμ s s' hs; omega)

/-- The value of a loop whose measure decreases. -/
def exec (body : σ → Except ε (Step σ α)) (μ : σ → Nat) (hμ : Decreases body μ) (s : σ) :
    Except ε α :=
  (run body (μ s + 1) s).get (run_isSome body μ hμ _ s (Nat.lt_succ_self _))

theorem run_eq_exec (body : σ → Except ε (Step σ α)) (μ : σ → Nat) (hμ : Decreases body μ)
    {n : Nat} {s : σ} {r : Except ε α} (h : run body n s = some r) : exec body μ hμ s = r := by
  have he : run body (μ s + 1) s = some (exec body μ hμ s) := (Option.some_get _).symm
  have hn := run_mono body (Nat.le_max_left n (μ s + 1)) s r h
  have hm := run_mono body (Nat.le_max_right n (μ s + 1)) s _ he
  rw [hn] at hm
  exact (Option.some.inj hm).symm

/-- Unfold one pass. -/
theorem exec_eq (body : σ → Except ε (Step σ α)) (μ : σ → Nat) (hμ : Decreases body μ) (s : σ) :
    exec body μ hμ s = match body s with
      | .error e => .error e
      | .ok (.done a) => .ok a
      | .ok (.next s') => exec body μ hμ s' := by
  cases hb : body s with
  | error e => exact run_eq_exec body μ hμ (n := 1) (by simp [run, hb])
  | ok t =>
    cases t with
    | done a => exact run_eq_exec body μ hμ (n := 1) (by simp [run, hb])
    | next s' =>
      have hs' : run body (μ s' + 1) s' = some (exec body μ hμ s') := (Option.some_get _).symm
      exact run_eq_exec body μ hμ (n := μ s' + 1 + 1) (by rw [run, hb]; exact hs')

end Loop
