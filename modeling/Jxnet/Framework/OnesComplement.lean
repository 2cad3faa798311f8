import Mathlib.Algebra.BigOperators.Group.List.Basic
import Mathlib.Data.Nat.ModEq

namespace OnesComplement

/-! One's-complement sums of words that lie between 0 and `m`, as with `m = 2 ^ w - 1`. -/

/-- Addition that brings the carry out of the top round to the bottom. -/
def add (m a b : Nat) : Nat := if a + b ≤ m then a + b else a + b - m

/-- The sum of the words with every carry brought round. -/
def sum (m : Nat) (words : List Nat) : Nat := words.foldl (add m) 0

/-- One fold: what stands above the word is added to the word. -/
def fold (m n : Nat) : Nat := n / (m + 1) + n % (m + 1)

variable {m : Nat}

theorem add_le {a b : Nat} (ha : a ≤ m) (hb : b ≤ m) : add m a b ≤ m := by
  unfold add
  split <;> omega

theorem add_modEq (a b : Nat) : add m a b ≡ a + b [MOD m] := by
  unfold add
  split
  · rfl
  · next h =>
    have hm : m ≤ a + b := by omega
    have hself : m ≡ 0 [MOD m] := by simp [Nat.ModEq]
    have hsub : a + b - m + m ≡ a + b + 0 [MOD m] := by rw [Nat.sub_add_cancel hm, Nat.add_zero]
    exact Nat.ModEq.add_right_cancel hself hsub

theorem add_eq_zero {a b : Nat} : add m a b = 0 ↔ a + b = 0 := by
  unfold add
  split <;> omega

private theorem foldl_add (words : List Nat) (hw : ∀ w ∈ words, w ≤ m) (a : Nat) (ha : a ≤ m) :
    words.foldl (add m) a ≤ m ∧ words.foldl (add m) a ≡ a + words.sum [MOD m] ∧
      (words.foldl (add m) a = 0 ↔ a + words.sum = 0) := by
  induction words generalizing a with
  | nil => simpa using ⟨ha, Nat.ModEq.refl a⟩
  | cons w words ih =>
    have hle : add m a w ≤ m := add_le ha (hw w (by simp))
    obtain ⟨h1, h2, h3⟩ := ih (fun v hv => hw v (by simp [hv])) (add m a w) hle
    refine ⟨h1, ?_, ?_⟩
    · rw [List.foldl_cons, List.sum_cons, ← Nat.add_assoc]
      exact h2.trans ((add_modEq a w).add_right _)
    · have hz : add m a w = 0 ↔ a + w = 0 := add_eq_zero
      rw [List.foldl_cons, List.sum_cons, h3]
      omega

/-- The all-ones sum: the plain sum is a positive multiple of `m`. -/
theorem sum_eq_max_iff (hm : 0 < m) (words : List Nat) (hw : ∀ w ∈ words, w ≤ m) :
    sum m words = m ↔ words.sum ≠ 0 ∧ words.sum % m = 0 := by
  obtain ⟨hle, hmod, hzero⟩ := foldl_add words hw 0 (Nat.zero_le m)
  change sum m words ≤ m at hle
  change sum m words % m = (0 + words.sum) % m at hmod
  change sum m words = 0 ↔ 0 + words.sum = 0 at hzero
  rw [Nat.zero_add] at hmod hzero
  constructor
  · intro h
    rw [h, Nat.mod_self] at hmod
    exact ⟨fun h0 => by omega, hmod.symm⟩
  · intro h
    obtain ⟨h0, hs⟩ := h
    rw [hs] at hmod
    have hpos : sum m words ≠ 0 := fun h => h0 (hzero.mp h)
    have hdvd : m ≤ sum m words := Nat.le_of_dvd (by omega) (Nat.dvd_of_mod_eq_zero hmod)
    omega

theorem fold_modEq (n : Nat) : fold m n ≡ n [MOD m] := by
  have hself : m + 1 ≡ 1 [MOD m] := by simp [Nat.ModEq]
  have hmul : (m + 1) * (n / (m + 1)) ≡ 1 * (n / (m + 1)) [MOD m] := hself.mul_right _
  calc fold m n = 1 * (n / (m + 1)) + n % (m + 1) := by rw [fold, Nat.one_mul]
    _ ≡ (m + 1) * (n / (m + 1)) + n % (m + 1) [MOD m] := hmul.symm.add_right _
    _ = n := Nat.div_add_mod n (m + 1)

/-- The complement of a sum that was folded once: what is missing is the carry of the fold. -/
theorem add_complement_modEq (n : Nat) :
    n + (m - fold m n % (m + 1)) ≡ fold m n / (m + 1) [MOD m] := by
  have hlt : fold m n % (m + 1) < m + 1 := Nat.mod_lt _ (Nat.succ_pos m)
  have htwice : n ≡ fold m n / (m + 1) + fold m n % (m + 1) [MOD m] :=
    (fold_modEq n).symm.trans (fold_modEq (fold m n)).symm
  have hcancel : fold m n / (m + 1) + fold m n % (m + 1) + (m - fold m n % (m + 1)) =
      fold m n / (m + 1) + m := by omega
  calc n + (m - fold m n % (m + 1))
      ≡ fold m n / (m + 1) + fold m n % (m + 1) + (m - fold m n % (m + 1)) [MOD m] :=
        htwice.add_right _
    _ = fold m n / (m + 1) + m := hcancel
    _ ≡ fold m n / (m + 1) [MOD m] := by simp [Nat.ModEq]

end OnesComplement
