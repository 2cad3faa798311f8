namespace Budget

/-! Computations with errors that take from a limited supply: either they come to an end within
their budget, or less than that was left. -/

variable {ε σ α β : Type}

/-- The run ends with `P` and has taken at most `n`, or it stops with `out` for want of it. -/
inductive Within (supply : σ → Nat) (out : ε) (n : Nat) (s : σ) (r : Except ε (α × σ))
    (P : α → σ → Prop) : Prop
  | done {a : α} {s' : σ} (run : r = .ok (a, s')) (post : P a s')
    (spent : supply s ≤ supply s' + n)
  | short (run : r = .error out) (lack : supply s < n)

namespace Within

variable {supply : σ → Nat} {out : ε} {n n' : Nat} {s : σ} {r : Except ε (α × σ)}
  {P : α → σ → Prop}

theorem pure {a : α} (h : P a s) : Within supply out 0 s (.ok (a, s)) P :=
  .done rfl h (Nat.le_refl _)

theorem imp {Q : α → σ → Prop} (h : Within supply out n s r P) (hQ : ∀ a s', P a s' → Q a s') :
    Within supply out n s r Q := by
  cases h with
  | done run post spent => exact .done run (hQ _ _ post) spent
  | short run lack => exact .short run lack

theorem le (h : Within supply out n s r P) (hn : n ≤ n') : Within supply out n' s r P := by
  cases h with
  | done run post spent => exact .done run post (by omega)
  | short run lack => exact .short run (by omega)

/-- One computation after the other, each within its own budget. -/
theorem bind {m : StateT σ (Except ε) α} {f : α → StateT σ (Except ε) β} {Q : β → σ → Prop}
    (hm : Within supply out n s (m s) P)
    (hf : ∀ a s', P a s' → Within supply out n' s' (f a s') Q) :
    Within supply out (n + n') s ((m >>= f) s) Q := by
  cases hm with
  | short run lack =>
    refine .short ?_ (by omega)
    simp only [Bind.bind, StateT.bind, run, Except.bind]
  | @done a s' run post spent =>
    have heq : (m >>= f) s = f a s' := by
      simp only [Bind.bind, StateT.bind, run, Except.bind]
    rw [heq]
    cases hf a s' post with
    | done run' post' spent' => exact .done run' post' (by omega)
    | short run' lack' => exact .short run' (by omega)

/-- What comes after takes nothing. -/
theorem bind_pure {m : StateT σ (Except ε) α} {f : α → StateT σ (Except ε) β} {Q : β → σ → Prop}
    (hm : Within supply out n s (m s) P)
    (hf : ∀ a s', P a s' → Within supply out 0 s' (f a s') Q) :
    Within supply out n s ((m >>= f) s) Q := hm.bind hf

/-- The run may as well begin in another state with the same supply. -/
theorem of_supply {s' : σ} (h : Within supply out n s r P) (hs : supply s' = supply s) :
    Within supply out n s' r P := by
  cases h with
  | done run post spent => exact .done run post (hs ▸ spent)
  | short run lack => exact .short run (hs ▸ lack)

/-- The supply counted in packs of `k`. -/
theorem packs {k : Nat} (hk : 0 < k) (h : Within supply out (n * k) s r P) :
    Within (fun s => supply s / k) out n s r P := by
  cases h with
  | @done a s' run post spent =>
    refine .done run post ?_
    rw [← Nat.add_mul_div_right _ _ hk]
    exact Nat.div_le_div_right spent
  | short run lack => exact .short run ((Nat.div_lt_iff_lt_mul hk).mpr lack)

end Within

end Budget
