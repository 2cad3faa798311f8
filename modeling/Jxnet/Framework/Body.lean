import Mathlib.Logic.Basic

/-- The body of a procedure that may return early with a value of type `ρ`. -/
abbrev Body (ρ σ α : Type) := ExceptT ρ (StateM σ) α

namespace Body

variable {ρ σ τ α β : Type}

/-- Leave the procedure with `r`. -/
def exit (r : ρ) : Body ρ σ α := fun s => (.error r, s)

def update (f : σ → σ) : Body ρ σ Unit := fun s => (.ok (), f s)

def read (f : σ → α) : Body ρ σ α := fun s => (.ok (f s), s)

/-- The value returned, early or at the end, and the state left. -/
def run (m : Body ρ σ ρ) (s : σ) : ρ × σ :=
  match m s with
  | (.ok r, s') => (r, s')
  | (.error r, s') => (r, s')

@[simp] theorem bind_apply (m : Body ρ σ α) (f : α → Body ρ σ β) (s : σ) :
    (m >>= f) s = match m s with
      | (.ok a, s') => f a s'
      | (.error r, s') => (.error r, s') := by
  change (match m s with | (a, s') => ExceptT.bindCont f a s') = _
  rcases m s with ⟨a | a, s'⟩ <;> rfl

@[simp] theorem pure_apply (a : α) (s : σ) : (pure a : Body ρ σ α) s = (.ok a, s) := rfl

theorem map_apply (f : α → β) (m : Body ρ σ α) (s : σ) :
    (f <$> m) s = match m s with
      | (.ok a, s') => (.ok (f a), s')
      | (.error r, s') => (.error r, s') := by
  rw [map_eq_pure_bind, bind_apply]
  rfl

@[simp] theorem exit_apply (r : ρ) (s : σ) : (exit r : Body ρ σ α) s = (.error r, s) := rfl

@[simp] theorem update_apply (f : σ → σ) (s : σ) :
    (update f : Body ρ σ Unit) s = (.ok (), f s) := rfl

@[simp] theorem read_apply (f : σ → α) (s : σ) : (read f : Body ρ σ α) s = (.ok (f s), s) := rfl

/-- What `f` sees of the state stays as it is. -/
def Keeps (f : σ → τ) (m : Body ρ σ α) : Prop := ∀ s, f (m s).2 = f s

namespace Keeps

variable {f : σ → τ}

theorem pure (a : α) : Keeps f (Pure.pure a : Body ρ σ α) := fun _ => rfl

theorem exit (r : ρ) : Keeps f (Body.exit r : Body ρ σ α) := fun _ => rfl

theorem read (g : σ → α) : Keeps f (Body.read g : Body ρ σ α) := fun _ => rfl

theorem update {g : σ → σ} (h : ∀ s, f (g s) = f s) : Keeps f (Body.update g : Body ρ σ Unit) := h

theorem bind {m : Body ρ σ α} {k : α → Body ρ σ β} (hm : Keeps f m) (hk : ∀ a, Keeps f (k a)) :
    Keeps f (m >>= k) := by
  intro s
  have hs := hm s
  rw [bind_apply]
  rcases hr : m s with ⟨r | a, s'⟩
  · rw [hr] at hs
    exact hs
  · rw [hr] at hs
    exact (hk a s').trans hs

theorem ite {p : Prop} [Decidable p] {m n : Body ρ σ α} (hm : Keeps f m) (hn : Keeps f n) :
    Keeps f (if p then m else n) := by
  split
  · exact hm
  · exact hn

theorem run {m : Body ρ σ ρ} (hm : Keeps f m) (s : σ) : f (m.run s).2 = f s := by
  have hs := hm s
  unfold Body.run
  rcases hr : m s with ⟨r | a, s'⟩ <;> rw [hr] at hs <;> exact hs

end Keeps

/-- What `f` sees of the state stays as it is, or changes by `P`. -/
def Affects (f : σ → τ) (P : τ → τ → Prop) (m : Body ρ σ α) : Prop :=
  ∀ s, f (m s).2 = f s ∨ P (f s) (f (m s).2)

namespace Affects

variable {f : σ → τ} {P : τ → τ → Prop}

theorem bind {m : Body ρ σ α} {k : α → Body ρ σ β} (hm : Keeps f m)
    (hk : ∀ a, Affects f P (k a)) : Affects f P (m >>= k) := by
  intro s
  have hs := hm s
  rw [bind_apply]
  rcases hr : m s with ⟨r | a, s'⟩
  · rw [hr] at hs
    exact .inl hs
  · rw [hr] at hs
    rw [← hs]
    exact hk a s'

theorem bind_keeps {m : Body ρ σ α} {k : α → Body ρ σ β} (hm : Affects f P m)
    (hk : ∀ a, Keeps f (k a)) : Affects f P (m >>= k) := by
  intro s
  have hs := hm s
  rw [bind_apply]
  rcases hr : m s with ⟨r | a, s'⟩
  · rw [hr] at hs
    exact hs
  · rw [hr] at hs
    rw [hk a s']
    exact hs

theorem of_keeps {m : Body ρ σ α} (hm : Keeps f m) : Affects f P m := fun s => .inl (hm s)

theorem ite {p : Prop} [Decidable p] {m n : Body ρ σ α} (hm : Affects f P m)
    (hn : Affects f P n) : Affects f P (if p then m else n) := by
  split
  · exact hm
  · exact hn

theorem run {m : Body ρ σ ρ} (hm : Affects f P m) (s : σ) :
    f (m.run s).2 = f s ∨ P (f s) (f (m.run s).2) := by
  have hs := hm s
  unfold Body.run
  rcases hr : m s with ⟨r | a, s'⟩ <;> rw [hr] at hs <;> exact hs

end Affects

section Search

/-- The value of `x`, or an early return with what `raise` makes of its exception. -/
def ofExcept {ε : Type} (raise : ε → ρ) : Except ε α → Body ρ σ α
  | .ok a => pure a
  | .error e => exit (raise e)

@[simp] theorem ofExcept_ok {ε : Type} (raise : ε → ρ) (a : α) :
    (ofExcept raise (.ok a) : Body ρ σ α) = pure a := rfl

@[simp] theorem ofExcept_error {ε : Type} (raise : ε → ρ) (e : ε) :
    (ofExcept raise (.error e) : Body ρ σ α) = exit (raise e) := rfl

theorem bind_of_ok {m : Body ρ σ α} {k : α → Body ρ σ β} {s : σ} {a : α}
    (h : (m s).1 = .ok a) : (m >>= k) s = k a (m s).2 := by
  rw [bind_apply]
  rcases hr : m s with ⟨r | b, s'⟩
  · rw [hr] at h
    cases h
  · rw [hr] at h
    cases h
    rfl

theorem bind_of_error {m : Body ρ σ α} {k : α → Body ρ σ β} {s : σ} {r : ρ}
    (h : (m s).1 = .error r) : (m >>= k) s = (.error r, (m s).2) := by
  rw [bind_apply]
  rcases hr : m s with ⟨r' | b, s'⟩
  · rw [hr] at h
    cases h
    rfl
  · rw [hr] at h
    cases h

/-- A loop that returns at the elements that pass a test, and only there, returns at the first
of them. -/
theorem forM_find {I : σ → Prop} {Q : α → σ → Prop} {f : α → Body ρ σ PUnit} {p : α → Bool}
    {r : α → ρ} {l : List α}
    (hskip : ∀ a ∈ l, p a = false → ∀ s, I s → (f a s).1 = .ok ⟨⟩ ∧ I (f a s).2)
    (hfound : ∀ a ∈ l, p a = true → ∀ s, I s → (f a s).1 = .error (r a) ∧ Q a (f a s).2)
    {s : σ} (hs : I s) :
    let result := (forM l f : Body ρ σ PUnit) s
    (∀ a, l.find? p = some a → result.1 = .error (r a) ∧ Q a result.2) ∧
      (l.find? p = none → result.1 = .ok ⟨⟩ ∧ I result.2) := by
  induction l generalizing s with
  | nil =>
    refine ⟨?_, fun _ => ⟨rfl, hs⟩⟩
    intro b hb
    cases hb
  | cons a l ih =>
    have hhead := List.mem_cons_self (a := a) (l := l)
    rw [List.forM_cons]
    cases hp : p a with
    | true =>
      obtain ⟨herror, hQ⟩ := hfound a hhead hp s hs
      rw [List.find?_cons_of_pos hp, bind_of_error herror]
      constructor
      · intro b hb
        cases hb
        exact ⟨rfl, hQ⟩
      · intro hnone
        cases hnone
    | false =>
      obtain ⟨hok, hI⟩ := hskip a hhead hp s hs
      have htail := ih (fun b hb => hskip b (List.mem_cons_of_mem _ hb))
        (fun b hb => hfound b (List.mem_cons_of_mem _ hb)) hI
      rw [List.find?_cons_of_neg (by rw [hp]; decide), bind_of_ok hok]
      exact htail

/-- Two loops, of which the inner one returns. -/
theorem forM_forM_find {δ : Type} {I : σ → Prop} {Q : δ → α → σ → Prop}
    {f : δ → α → Body ρ σ PUnit} {items : δ → List α} {p : α → Bool} {r : δ → ρ} {l : List δ}
    (hskip : ∀ d ∈ l, ∀ a ∈ items d, p a = false → ∀ s, I s →
      (f d a s).1 = .ok ⟨⟩ ∧ I (f d a s).2)
    (hfound : ∀ d ∈ l, ∀ a ∈ items d, p a = true → ∀ s, I s →
      (f d a s).1 = .error (r d) ∧ Q d a (f d a s).2)
    {s : σ} (hs : I s) :
    let result := (forM l fun d => forM (items d) (f d) : Body ρ σ PUnit) s
    (∀ d, (l.find? fun d => (items d).any p) = some d →
      result.1 = .error (r d) ∧ ∃ a ∈ items d, p a = true ∧ Q d a result.2) ∧
    ((l.find? fun d => (items d).any p) = none → result.1 = .ok ⟨⟩ ∧ I result.2) := by
  apply forM_find (Q := fun d s => ∃ a ∈ items d, p a = true ∧ Q d a s) ?_ ?_ hs
  · intro d hd hany s hs
    apply (forM_find (hskip d hd) (hfound d hd) hs).2
    rw [List.find?_eq_none]
    exact List.any_eq_false.mp hany
  · intro d hd hany s hs
    obtain ⟨a, ha⟩ : ∃ a, (items d).find? p = some a := by
      rw [← Option.isSome_iff_exists, List.find?_isSome]
      exact List.any_eq_true.mp hany
    obtain ⟨herror, hQ⟩ := (forM_find (hskip d hd) (hfound d hd) hs).1 a ha
    exact ⟨herror, a, List.mem_of_find?_eq_some ha, List.find?_some ha, hQ⟩

/-- A procedure that returns early has run no further. -/
theorem run_of_error {m : Body ρ σ α} {k : α → Body ρ σ ρ} {s : σ} {r : ρ}
    (h : (m s).1 = .error r) : (m >>= k).run s = (r, (m s).2) := by
  unfold run
  rw [bind_of_error h]

theorem run_of_ok {m : Body ρ σ α} {k : α → Body ρ σ ρ} {s : σ} {a : α}
    (h : (m s).1 = .ok a) : (m >>= k).run s = (k a).run (m s).2 := by
  unfold run
  rw [bind_of_ok h]

end Search

end Body
