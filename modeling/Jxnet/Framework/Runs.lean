import Mathlib.Order.Basic

/-! Runs of positions, and a scan for the longest of them. -/

namespace Runs

variable {p : Nat → Prop} {length i k n size : Nat}

/-- The `n` positions from `i` on lie below `length`, and `p` holds of each. -/
structure RunAt (p : Nat → Prop) (length i n : Nat) : Prop where
  le : i + n ≤ length
  holds : ∀ j, i ≤ j → j < i + n → p j

/-- A run that no run is longer than, and the first of those of its size. -/
structure LeftmostLongest (p : Nat → Prop) (length i n : Nat) : Prop where
  run : RunAt p length i n
  longest : ∀ j m, RunAt p length j m → m ≤ n
  leftmost : ∀ j, RunAt p length j n → i ≤ j

/-- The run from `k` on that cannot be continued. -/
structure Extent (p : Nat → Prop) (length k size : Nat) : Prop where
  run : RunAt p length k size
  longest : ∀ n, RunAt p length k n → n ≤ size

/-- A run of which the first positions are left out. -/
theorem RunAt.join {d : Nat} (h : RunAt p length k size) (hd : d ≤ size)
    (hrun : RunAt p length (k + d) n) : RunAt p length k (d + n) := by
  have hle := hrun.le
  refine ⟨by omega, ?_⟩
  intro j hj hj'
  by_cases hlt : j < k + d
  · exact h.holds j hj (by omega)
  · exact hrun.holds j (by omega) (by omega)

/-- What starts inside an extent ends with it. -/
theorem Extent.add_le {d : Nat} (h : Extent p length k size) (hd : d ≤ size)
    (hrun : RunAt p length (k + d) n) : d + n ≤ size := h.longest _ (h.run.join hd hrun)

/-- The best of the runs that start before `k`, or no start where all of them are empty. -/
structure BestBefore (p : Nat → Prop) (length k : Nat) (start : Option Nat) (size : Nat) :
    Prop where
  run : ∀ i, start = some i → RunAt p length i size ∧ i < k
  none : start = none → size = 0
  longest : ∀ j n, j < k → RunAt p length j n → n ≤ size
  leftmost : ∀ i j, start = some i → RunAt p length j size → i ≤ j

theorem bestBefore_zero : BestBefore p length 0 none 0 := by
  refine ⟨?_, fun _ => rfl, ?_, ?_⟩
  · intro i hi
    cases hi
  · intro j n hj
    exact absurd hj (Nat.not_lt_zero j)
  · intro i j hi
    cases hi

/-- The scan goes on past the position that ends the run which it has measured. -/
theorem BestBefore.step {start : Option Nat} {best : Nat} (h : BestBefore p length k start best)
    (hsize : Extent p length k size) :
    BestBefore p length (k + size + 1) (if size > best then some k else start)
      (if size > best then size else best) := by
  -- a run from `k` on that starts before the next position lies in the measured one
  have hinside : ∀ j n, k ≤ j → j < k + size + 1 → RunAt p length j n → n ≤ size := by
    intro j n hj hj' hrun
    obtain ⟨d, rfl⟩ := Nat.exists_eq_add_of_le hj
    have hle := hsize.add_le (by omega) hrun
    omega
  split
  · next hgt =>
    refine ⟨?_, ?_, ?_, ?_⟩
    · intro i hi
      cases hi
      exact ⟨hsize.run, by omega⟩
    · intro hnone
      cases hnone
    · intro j n hj hrun
      by_cases hbefore : j < k
      · have hle := h.longest j n hbefore hrun
        omega
      · exact hinside j n (by omega) hj hrun
    · intro i j hi hrun
      cases hi
      by_contra hlt
      have hle := h.longest j size (by omega) hrun
      omega
  · next hle =>
    refine ⟨?_, h.none, ?_, h.leftmost⟩
    · intro i hi
      obtain ⟨hrun, hlt⟩ := h.run i hi
      exact ⟨hrun, by omega⟩
    · intro j n hj hrun
      by_cases hbefore : j < k
      · exact h.longest j n hbefore hrun
      · have hn := hinside j n (by omega) hj hrun
        omega

/-- A scan that stops before the last position misses runs of one position at most. -/
theorem BestBefore.leftmostLongest (h : BestBefore p length k (some i) n) (hk : length ≤ k + 1)
    (hn : 2 ≤ n) : LeftmostLongest p length i n := by
  refine ⟨(h.run i rfl).1, ?_, fun j => h.leftmost i j rfl⟩
  intro j m hrun
  by_cases hlt : j < k
  · exact h.longest j m hlt hrun
  · have hle := hrun.le
    omega

theorem BestBefore.lt_two {start : Option Nat} (h : BestBefore p length k start n)
    (hk : length ≤ k + 1) (hn : n < 2) {j m : Nat} (hrun : RunAt p length j m) : m < 2 := by
  by_cases hlt : j < k
  · have hle := h.longest j m hlt hrun
    omega
  · have hle := hrun.le
    omega

end Runs
