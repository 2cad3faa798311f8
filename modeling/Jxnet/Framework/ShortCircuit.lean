import Mathlib.Logic.Basic

namespace ShortCircuit

/-! Conditions built from tests, and the branch graphs that decide them. A test works on a state
and may stop the whole evaluation. -/

variable {τ κ σ ρ ε : Type}

/-- A condition over tests. -/
inductive Expr (τ : Type) where
  | test (t : τ)
  | not (e : Expr τ)
  | and (a b : Expr τ)
  | or (a b : Expr τ)
  deriving DecidableEq, Repr

/-- What a test comes to: the end of the evaluation, or an answer and the state that it leaves. -/
inductive Answer (σ ρ : Type) where
  | halt (r : ρ)
  | answer (b : Bool) (s : σ)

namespace Expr

section Eval

variable (test : τ → σ → Except ε (Answer σ ρ))

/-- The second operand is looked at only when the first leaves the answer open. -/
def eval : Expr τ → σ → Except ε (Answer σ ρ)
  | .test t, s => test t s
  | .not e, s => match e.eval s with
    | .error err => .error err
    | .ok (.halt r) => .ok (.halt r)
    | .ok (.answer b s') => .ok (.answer (!b) s')
  | .and a b, s => match a.eval s with
    | .error err => .error err
    | .ok (.halt r) => .ok (.halt r)
    | .ok (.answer true s') => b.eval s'
    | .ok (.answer false s') => .ok (.answer false s')
  | .or a b, s => match a.eval s with
    | .error err => .error err
    | .ok (.halt r) => .ok (.halt r)
    | .ok (.answer true s') => .ok (.answer true s')
    | .ok (.answer false s') => b.eval s'

end Eval

/-- The tests that occur. -/
def tests : Expr τ → List τ
  | .test t => [t]
  | .not e => e.tests
  | .and a b => a.tests ++ b.tests
  | .or a b => a.tests ++ b.tests

end Expr

/-- What is looked up without a state; an outcome on the left ends the whole evaluation. -/
abbrev Look (ε ρ α : Type) := Except (Except ε ρ) α

namespace Look

@[simp] theorem ok_bind {α β : Type} (a : α) (f : α → Look ε ρ β) :
    (Except.ok a : Look ε ρ α) >>= f = f a := rfl

@[simp] theorem pure_eq {α : Type} (a : α) : (pure a : Look ε ρ α) = .ok a := rfl

@[simp] theorem error_bind {α β : Type} (o : Except ε ρ) (f : α → Look ε ρ β) :
    (Except.error o : Look ε ρ α) >>= f = .error o := rfl

def not (a : Look ε ρ Bool) : Look ε ρ Bool := do return !(← a)

def and (a b : Look ε ρ Bool) : Look ε ρ Bool := do if ← a then b else return false

def or (a b : Look ε ρ Bool) : Look ε ρ Bool := do if ← a then return true else b

theorem and_assoc (a b c : Look ε ρ Bool) : (a.and b).and c = a.and (b.and c) := by
  rcases a with o | (_ | _)
  · rfl
  · rfl
  · rfl

theorem and_true (a : Look ε ρ Bool) : a.and (.ok true) = a := by
  rcases a with o | (_ | _)
  · rfl
  · rfl
  · rfl

theorem and_eq_true {a b : Look ε ρ Bool} : a.and b = .ok true ↔ a = .ok true ∧ b = .ok true := by
  rcases a with o | (_ | _)
  · simp [and]
  · simp [and]
  · simp [and]

end Look

/-- An evaluation comes to what was looked up. -/
def Answers : Look ε ρ Bool → Except ε (Answer σ ρ) → Prop
  | .error (.error err), x => x = .error err
  | .error (.ok r), x => x = .ok (.halt r)
  | .ok b, x => ∃ s, x = .ok (.answer b s)

/-- Whatever state it starts in, the evaluation of a condition comes to what was looked up. -/
def Means (test : τ → σ → Except ε (Answer σ ρ)) (e : Expr τ) (v : Look ε ρ Bool) : Prop :=
  ∀ s, Answers v (e.eval test s)

namespace Means

variable {test : τ → σ → Except ε (Answer σ ρ)} {a b e : Expr τ} {v va vb : Look ε ρ Bool}

theorem not (h : Means test e v) : Means test (.not e) v.not := by
  intro s
  have he := h s
  rw [Expr.eval]
  rcases v with (err | r) | b
  · rw [show e.eval test s = .error err from he]
    rfl
  · rw [show e.eval test s = .ok (.halt r) from he]
    rfl
  · obtain ⟨s', hs'⟩ := he
    rw [hs']
    exact ⟨s', rfl⟩

theorem and (ha : Means test a va) (hb : Means test b vb) :
    Means test (.and a b) (va.and vb) := by
  intro s
  have ha := ha s
  rw [Expr.eval]
  rcases va with (err | r) | (_ | _)
  · rw [show a.eval test s = .error err from ha]
    rfl
  · rw [show a.eval test s = .ok (.halt r) from ha]
    rfl
  · obtain ⟨s', hs'⟩ := ha
    rw [hs']
    exact ⟨s', rfl⟩
  · obtain ⟨s', hs'⟩ := ha
    rw [hs']
    exact hb s'

theorem or (ha : Means test a va) (hb : Means test b vb) :
    Means test (.or a b) (va.or vb) := by
  intro s
  have ha := ha s
  rw [Expr.eval]
  rcases va with (err | r) | (_ | _)
  · rw [show a.eval test s = .error err from ha]
    rfl
  · rw [show a.eval test s = .ok (.halt r) from ha]
    rfl
  · obtain ⟨s', hs'⟩ := ha
    rw [hs']
    exact hb s'
  · obtain ⟨s', hs'⟩ := ha
    rw [hs']
    exact ⟨s', rfl⟩

end Means

/-- A node of a branch graph: a result, or a test with the nodes that its answers lead to. -/
inductive Node (κ τ ρ : Type) where
  | leaf (r : ρ)
  | branch (t : τ) (onTrue onFalse : κ)

section Graph

variable (test : τ → σ → Except ε (Answer σ ρ)) (graph : κ → Option (Node κ τ ρ))

/-- Walking the graph from a node in a state comes to a result. -/
inductive Walk : κ → σ → Except ε ρ → Prop
  | leaf {i : κ} {s : σ} {r : ρ} (hi : graph i = some (.leaf r)) : Walk i s (.ok r)
  | error {i a b : κ} {s : σ} {t : τ} {err : ε} (hi : graph i = some (.branch t a b))
      (ht : test t s = .error err) : Walk i s (.error err)
  | halt {i a b : κ} {s : σ} {t : τ} {r : ρ} (hi : graph i = some (.branch t a b))
      (ht : test t s = .ok (.halt r)) : Walk i s (.ok r)
  | onTrue {i a b : κ} {s s' : σ} {t : τ} {r : Except ε ρ} (hi : graph i = some (.branch t a b))
      (ht : test t s = .ok (.answer true s')) (hr : Walk a s' r) : Walk i s r
  | onFalse {i a b : κ} {s s' : σ} {t : τ} {r : Except ε ρ} (hi : graph i = some (.branch t a b))
      (ht : test t s = .ok (.answer false s')) (hr : Walk b s' r) : Walk i s r

/-- The graph at node `i` decides the condition: it leaves to `t` where it holds and to `f`
where it does not. -/
def Decides : Expr τ → κ → κ → κ → Prop
  | .test q, i, t, f => graph i = some (.branch q t f)
  | .not e, i, t, f => Decides e i f t
  | .and a b, i, t, f => ∃ m, Decides a i m f ∧ Decides b m t f
  | .or a b, i, t, f => ∃ m, Decides a i t m ∧ Decides b m t f

/-- How a walk goes on after an evaluation. -/
def Continues (t f : κ) : Except ε (Answer σ ρ) → Except ε ρ → Prop
  | .error err, r => r = .error err
  | .ok (.halt a), r => r = .ok a
  | .ok (.answer true s), r => Walk test graph t s r
  | .ok (.answer false s), r => Walk test graph f s r

variable {test graph}

/-- A graph that decides a condition is walked as the condition is evaluated. -/
theorem Decides.walk {e : Expr τ} {i t f : κ} (h : Decides graph e i t f) {s : σ}
    {r : Except ε ρ} (hr : Continues test graph t f (e.eval test s) r) :
    Walk test graph i s r := by
  induction e generalizing i t f s r with
  | test q =>
    rw [Expr.eval] at hr
    cases hq : test q s with
    | error err =>
      rw [hq] at hr
      exact hr ▸ .error h hq
    | ok a =>
      rw [hq] at hr
      rcases a with a | ⟨_ | _, s'⟩
      · exact hr ▸ .halt h hq
      · exact .onFalse h hq hr
      · exact .onTrue h hq hr
  | not e ih =>
    apply ih h
    rw [Expr.eval] at hr
    rcases he : e.eval test s with err | (a | ⟨_ | _, s'⟩)
    all_goals
      rw [he] at hr
      exact hr
  | and a b iha ihb =>
    obtain ⟨m, ha, hb⟩ := h
    apply iha ha
    rw [Expr.eval] at hr
    rcases hea : a.eval test s with err | (c | ⟨_ | _, s'⟩)
    · rw [hea] at hr
      exact hr
    · rw [hea] at hr
      exact hr
    · rw [hea] at hr
      exact hr
    · rw [hea] at hr
      exact ihb hb hr
  | or a b iha ihb =>
    obtain ⟨m, ha, hb⟩ := h
    apply iha ha
    rw [Expr.eval] at hr
    rcases hea : a.eval test s with err | (c | ⟨_ | _, s'⟩)
    · rw [hea] at hr
      exact hr
    · rw [hea] at hr
      exact hr
    · rw [hea] at hr
      exact ihb hb hr
    · rw [hea] at hr
      exact hr

/-- The nodes of the graph below a node that decides a condition. -/
theorem Decides.mono {graph' : κ → Option (Node κ τ ρ)}
    (hle : ∀ i n, graph i = some n → graph' i = some n) {e : Expr τ} {i t f : κ}
    (h : Decides graph e i t f) : Decides graph' e i t f := by
  induction e generalizing i t f with
  | test q => exact hle i _ h
  | not e ih => exact ih h
  | and a b iha ihb =>
    obtain ⟨m, ha, hb⟩ := h
    exact ⟨m, iha ha, ihb hb⟩
  | or a b iha ihb =>
    obtain ⟨m, ha, hb⟩ := h
    exact ⟨m, iha ha, ihb hb⟩

end Graph

end ShortCircuit
