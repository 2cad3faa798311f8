import Jxnet.Framework.JumpMachine
import Jxnet.Framework.ShortCircuit

namespace JumpMachine

open ShortCircuit

/-! What a straight line of instructions reads off its surroundings: rules that follow the line
instruction by instruction. -/

variable {ι σ ρ ε α β : Type} {exec : ι → σ → Except ε (Effect σ ρ)}

theorem runLine_append (code code' : List ι) (s : σ) :
    runLine exec (code ++ code') s =
      match runLine exec code s with
      | .error e => .error e
      | .ok (.halt r) => .ok (.halt r)
      | .ok (.data s') => runLine exec code' s' := by
  induction code generalizing s with
  | nil => rfl
  | cons i code ih =>
    rw [List.cons_append, runLine, runLine]
    rcases exec i s with e | (r | ⟨offset, s'⟩)
    · rfl
    · rfl
    · exact ih s'

/-- The line ends as the look does, or leaves a state that satisfies `Q` for what was found. -/
def Reads (exec : ι → σ → Except ε (Effect σ ρ)) (code : List ι) (s : σ) :
    Look ε ρ α → (α → σ → Prop) → Prop
  | .error (.error e), _ => runLine exec code s = .error e
  | .error (.ok r), _ => runLine exec code s = .ok (.halt r)
  | .ok a, Q => ∃ s', runLine exec code s = .ok (.data s') ∧ Q a s'

namespace Reads

variable {code code' : List ι} {s : σ} {v : Look ε ρ α} {Q : α → σ → Prop}

theorem nil {a : α} (h : Q a s) : Reads exec [] s (.ok a) Q := ⟨s, rfl, h⟩

theorem imp {Q' : α → σ → Prop} (h : Reads exec code s v Q) (hQ : ∀ a s, Q a s → Q' a s) :
    Reads exec code s v Q' := by
  rcases v with (e | r) | a
  · exact h
  · exact h
  · obtain ⟨s', hs', hq⟩ := h
    exact ⟨s', hs', hQ a s' hq⟩

/-- One line after the other. -/
theorem append {f : α → Look ε ρ β} {Q' : β → σ → Prop} (h : Reads exec code s v Q)
    (h' : ∀ a s', Q a s' → Reads exec code' s' (f a) Q') :
    Reads exec (code ++ code') s (v >>= f) Q' := by
  rcases v with (e | r) | a
  · show runLine exec (code ++ code') s = .error e
    rw [runLine_append, show runLine exec code s = .error e from h]
  · show runLine exec (code ++ code') s = .ok (.halt r)
    rw [runLine_append, show runLine exec code s = .ok (.halt r) from h]
  · obtain ⟨s', hs', hq⟩ := h
    have hrest := h' a s' hq
    have hrun : runLine exec (code ++ code') s = runLine exec code' s' := by
      rw [runLine_append, hs']
    show Reads exec (code ++ code') s (f a) Q'
    unfold Reads at hrest ⊢
    rw [hrun]
    exact hrest

/-- An instruction that goes on. -/
theorem cons {i : ι} {s' : σ} {offset : Int} (hi : exec i s = .ok (.jump offset s'))
    (h : Reads exec code s' v Q) : Reads exec (i :: code) s v Q := by
  unfold Reads at h ⊢
  rw [runLine, hi]
  exact h

/-- An instruction that ends the line or goes on, as a look does. -/
theorem cons_look (next : α → σ) {i : ι} {f : α → Look ε ρ β} {Q' : β → σ → Prop}
    (hi : exec i s = match v with
      | .error (.error e) => .error e
      | .error (.ok r) => .ok (.halt r)
      | .ok a => .ok (.jump 0 (next a)))
    (h : ∀ a, v = .ok a → Reads exec code (next a) (f a) Q') :
    Reads exec (i :: code) s (v >>= f) Q' := by
  rcases v with (e | r) | a
  · show runLine exec (i :: code) s = .error e
    rw [runLine, hi]
  · show runLine exec (i :: code) s = .ok (.halt r)
    rw [runLine, hi]
  · exact cons hi (h a rfl)

end Reads

end JumpMachine
