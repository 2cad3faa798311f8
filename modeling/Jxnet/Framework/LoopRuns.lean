import Jxnet.Framework.Loop

namespace Loop

/-! Runs of a loop whose measure need not decrease: what several passes lead to, what a loop
ends with, and how two loops follow each other. -/

variable {σ τ α ε : Type}

/-- `n` passes lead from one state to another. -/
inductive Leads (body : σ → Except ε (Step σ α)) : Nat → σ → σ → Prop
  | refl (s : σ) : Leads body 0 s s
  | pass {n : Nat} {s s' s'' : σ} (h : body s = .ok (.next s')) (hs : Leads body n s' s'') :
      Leads body (n + 1) s s''

/-- The loop ends with `r`: some number of passes is enough. -/
def Ends (body : σ → Except ε (Step σ α)) (s : σ) (r : Except ε α) : Prop :=
  ∃ fuel, run body fuel s = some r

section One

variable {body : σ → Except ε (Step σ α)}

theorem Leads.one {s s' : σ} (h : body s = .ok (.next s')) : Leads body 1 s s' :=
  .pass h (.refl s')

theorem Leads.trans {m n : Nat} {s s' s'' : σ} (h : Leads body m s s')
    (h' : Leads body n s' s'') : Leads body (m + n) s s'' := by
  induction h with
  | refl s => simpa using h'
  | pass hb _ ih =>
    rw [Nat.add_right_comm]
    exact .pass hb (ih h')

theorem run_of_leads {n : Nat} {s s' : σ} (h : Leads body n s s') (fuel : Nat) :
    run body (n + fuel) s = run body fuel s' := by
  induction h with
  | refl s => rw [Nat.zero_add]
  | pass hb _ ih =>
    rw [Nat.add_right_comm, run, hb]
    exact ih

theorem ends_of_stop {s : σ} {r : Except ε α} (h : run body 1 s = some r) : Ends body s r :=
  ⟨1, h⟩

theorem ends_of_done {s : σ} {a : α} (h : body s = .ok (.done a)) : Ends body s (.ok a) :=
  ends_of_stop (by rw [run, h])

theorem ends_of_error {s : σ} {e : ε} (h : body s = .error e) : Ends body s (.error e) :=
  ends_of_stop (by rw [run, h])

/-- A loop ends in one way only. -/
theorem Ends.unique {s : σ} {r r' : Except ε α} (h : Ends body s r) (h' : Ends body s r') :
    r = r' := by
  obtain ⟨m, hm⟩ := h
  obtain ⟨n, hn⟩ := h'
  have h1 := run_mono body (Nat.le_max_left m n) s r hm
  have h2 := run_mono body (Nat.le_max_right m n) s r' hn
  exact Option.some.inj (h1.symm.trans h2)

theorem ends_exec (body : σ → Except ε (Step σ α)) (μ : σ → Nat) (hμ : Decreases body μ) (s : σ) :
    Ends body s (exec body μ hμ s) :=
  ⟨μ s + 1, (Option.some_get _).symm⟩

theorem Ends.of_leads {n : Nat} {s s' : σ} {r : Except ε α} (h : Leads body n s s')
    (hr : Ends body s' r) : Ends body s r := by
  obtain ⟨fuel, hfuel⟩ := hr
  exact ⟨n + fuel, (run_of_leads h fuel).trans hfuel⟩

/-- What holds at the start and is kept by every pass holds when the loop stops. -/
theorem Ends.of_invariant {P : σ → Prop} {Q : Except ε α → Prop}
    (hnext : ∀ s s', P s → body s = .ok (.next s') → P s')
    (herror : ∀ s e, P s → body s = .error e → Q (.error e))
    (hdone : ∀ s a, P s → body s = .ok (.done a) → Q (.ok a))
    {s : σ} {r : Except ε α} (hs : P s) (h : Ends body s r) : Q r := by
  obtain ⟨fuel, hfuel⟩ := h
  induction fuel generalizing s with
  | zero => simp [run] at hfuel
  | succ fuel ih =>
    rw [run] at hfuel
    cases hb : body s with
    | error e =>
      rw [hb] at hfuel
      exact Option.some.inj hfuel ▸ herror s e hs hb
    | ok t =>
      cases t with
      | done a =>
        rw [hb] at hfuel
        exact Option.some.inj hfuel ▸ hdone s a hs hb
      | next s' =>
        rw [hb] at hfuel
        exact ih (hnext s s' hs hb) hfuel

/-- A measure that the passes lower in every state of an invariant bounds the passes. -/
theorem run_isSome_of_invariant {P : σ → Prop} (μ : σ → Nat)
    (hnext : ∀ s s', P s → body s = .ok (.next s') → P s' ∧ μ s' < μ s)
    {n : Nat} {s : σ} (hs : P s) (h : μ s < n) : (run body n s).isSome := by
  induction n generalizing s with
  | zero => omega
  | succ n ih =>
    rw [run]
    cases hb : body s with
    | error e => rfl
    | ok t =>
      cases t with
      | done a => rfl
      | next s' =>
        obtain ⟨hs', hμ⟩ := hnext s s' hs hb
        exact ih hs' (by omega)

end One

/-- Two loops that keep a relation pass by pass end alike, where the second stops as the first
does; only the stops that `Q` speaks of count. -/
theorem Ends.of_simulation {body : σ → Except ε (Step σ α)} {body' : τ → Except ε (Step τ α)}
    {R : σ → τ → Prop} {Q : Except ε α → Prop}
    (hnext : ∀ s s' t, R s t → body s = .ok (.next s') →
      ∃ t', body' t = .ok (.next t') ∧ R s' t')
    (hstop : ∀ s t r, R s t → run body 1 s = some r → Q r → Ends body' t r)
    {s : σ} {t : τ} {r : Except ε α} (hR : R s t) (h : Ends body s r) (hQ : Q r) :
    Ends body' t r := by
  obtain ⟨fuel, hfuel⟩ := h
  induction fuel generalizing s t with
  | zero => simp [run] at hfuel
  | succ fuel ih =>
    rw [run] at hfuel
    cases hb : body s with
    | error e =>
      rw [hb] at hfuel
      exact hstop s t r hR (by rw [run, hb]; exact hfuel) hQ
    | ok u =>
      cases u with
      | done a =>
        rw [hb] at hfuel
        exact hstop s t r hR (by rw [run, hb]; exact hfuel) hQ
      | next s' =>
        rw [hb] at hfuel
        obtain ⟨t', ht', hR'⟩ := hnext s s' t hR hb
        exact (ih hR' hfuel).of_leads (.one ht')

end Loop
