import Jxnet.Framework.JString
import Jxnet.Framework.Padding

namespace Java

/-! Hexadecimal numbers of a fixed width. -/

/-- The last `k` digits of a number, in lower case. -/
def fixedHex : Nat → Nat → JString
  | 0, _ => []
  | k + 1, n => fixedHex k (n / 16) ++ [Integer.hexChar (n % 16)]

example : fixedHex 4 0x0a1 = chars "00a1" := by decide

theorem hexNumber_append_singleton (s : JString) (c : JChar) :
    hexNumber (s ++ [c]) = hexNumber s * 16 + (hexValue c).getD 0 := by
  rw [hexNumber_append]
  rfl

section FixedHex

variable (k n : Nat)

@[simp] theorem fixedHex_length : (fixedHex k n).length = k := by
  induction k generalizing n with
  | zero => rfl
  | succ k ih => rw [fixedHex, List.length_append, ih, List.length_singleton]

theorem hexNumber_fixedHex : hexNumber (fixedHex k n) = n % 16 ^ k := by
  induction k generalizing n with
  | zero => simp [fixedHex, hexNumber, Nat.mod_one]
  | succ k ih =>
    rw [fixedHex, hexNumber_append_singleton, ih, hexValue_hexChar (Nat.mod_lt _ (by decide)),
      Option.getD_some, pow_succ', Nat.mod_mul]
    omega

theorem fixedHex_add (j : Nat) : fixedHex (j + k) n = fixedHex j (n / 16 ^ k) ++ fixedHex k n := by
  induction k generalizing n with
  | zero => simp [fixedHex]
  | succ k ih =>
    rw [← Nat.add_assoc, fixedHex, fixedHex, ih, Nat.div_div_eq_div_mul, pow_succ',
      List.append_assoc]

end FixedHex

/-- Only the digits in range count. -/
theorem fixedHex_mod (k n : Nat) : fixedHex k (n % 16 ^ k) = fixedHex k n := by
  induction k generalizing n with
  | zero => rfl
  | succ k ih =>
    have hdiv : n % 16 ^ (k + 1) / 16 = n / 16 % 16 ^ k := by
      rw [pow_succ', Nat.mod_mul_right_div_self]
    have hmod : n % 16 ^ (k + 1) % 16 = n % 16 := by
      rw [pow_succ', Nat.mod_mul_right_mod]
    rw [fixedHex, fixedHex, hdiv, hmod, ih]

/-! The form without leading zeros. -/

/-- The text of a magnitude without leading zeros. -/
def hexText (n : Nat) : JString := digitsText 16 Integer.hexChar n

theorem toHexString_eq (x : JInt) : Integer.toHexString x = hexText x.toNat :=
  toHexString_eq_digitsText x

/-- The fixed width form is the form without leading zeros, padded. -/
theorem fixedHex_eq_padded {k n : Nat} (hn : n < 16 ^ (k + 1)) :
    fixedHex (k + 1) n =
      List.replicate (k + 1 - (hexText n).length) (Integer.hexChar 0) ++ hexText n := by
  induction k generalizing n with
  | zero =>
    have hlt : n < 16 := by simpa using hn
    rw [hexText, digitsText_of_lt hlt, fixedHex, fixedHex, Nat.mod_eq_of_lt hlt]
    rfl
  | succ k ih =>
    have hdiv : n / 16 < 16 ^ (k + 1) := by
      rw [pow_succ] at hn
      omega
    rw [fixedHex, ih hdiv, hexText, hexText]
    by_cases hge : 16 ≤ n
    · rw [digitsText_of_ge (by decide) hge, List.length_append, List.length_singleton,
        List.append_assoc]
      congr 2
      omega
    · have hlt : n < 16 := by omega
      have hzero : n / 16 = 0 := by omega
      rw [digitsText_of_lt hlt, hzero, digitsText_of_lt (by decide), Nat.mod_eq_of_lt hlt,
        List.length_singleton, List.length_singleton, Nat.add_sub_cancel, Nat.add_sub_cancel,
        List.replicate_succ']

/-! The form of at least two digits. -/

theorem fixedHex_eq_padTwo {k : Nat} (hk : 2 ≤ k) {x : JInt} (hx : x.toNat < 16 ^ k) :
    fixedHex k x.toNat =
      List.replicate (k - (padTwo (Integer.toHexString x)).length) (Integer.hexChar 0) ++
        padTwo (Integer.toHexString x) := by
  obtain ⟨j, rfl⟩ := Nat.exists_eq_add_of_le' hk
  rw [fixedHex_eq_padded hx, ← toHexString_eq, padTwo]
  split
  · next hone =>
    have hzero : chars "0" = [Integer.hexChar 0] := rfl
    rw [hone, hzero, List.length_append, hone, ← List.append_assoc, ← List.replicate_succ']
    rfl
  · rfl

theorem hexNumber_zeros {s : JString} (h : ∀ c ∈ s, c = Integer.hexChar 0) : hexNumber s = 0 := by
  induction s using List.reverseRecOn with
  | nil => rfl
  | append_singleton s c ih =>
    have hc := h c (by simp)
    have hs := ih fun c hc => h c (List.mem_append_left _ hc)
    rw [hexNumber_append_singleton, hs, hc, hexValue_hexChar (by decide)]
    rfl

theorem toNat_lt_pow {w k : Nat} (hw : w = 4 * k) (x : BitVec w) : x.toNat < 16 ^ k := by
  subst hw
  have hx := x.isLt
  rwa [Nat.pow_mul] at hx

/-- Numbers of `k` digits, written with at least two. -/
def hexPrinter (w k : Nat) (hw : w = 4 * k) (hk : 2 ≤ k) (h8 : k ≤ 8) :
    Padding.Printer (BitVec w) JChar where
  print x := padTwo (Integer.toHexString (x.setWidth 32))
  width := k
  blank := Integer.hexChar 0
  zero := 0#w
  print_ne_nil x := by
    apply List.ne_nil_of_length_pos
    rw [padTwo_length (toHexString_ne_nil _)]
    omega
  print_length_le x := by
    have hlt : (x.setWidth 32).toNat < 16 ^ k := by
      rw [BitVec.toNat_setWidth_of_le (by omega)]
      exact toNat_lt_pow hw x
    have hlen := (toHexString_length_le_iff (x.setWidth 32) (by omega)).mpr hlt
    rw [padTwo_length (toHexString_ne_nil _)]
    omega
  blank_iff x := by
    constructor
    · intro h
      have hnumber := hexNumber_zeros h
      rw [hexNumber_padTwo, hexNumber_toHexString,
        BitVec.toNat_setWidth_of_le (by omega)] at hnumber
      exact BitVec.eq_of_toNat_eq hnumber
    · intro h
      rw [h, BitVec.setWidth_zero]
      have hzero : padTwo (Integer.toHexString 0#32) = List.replicate 2 (Integer.hexChar 0) := rfl
      rw [hzero]
      exact fun c hc => List.eq_of_mem_replicate hc

section HexPrinter

variable {w k : Nat} (hw : w = 4 * k) (hk : 2 ≤ k) (h8 : k ≤ 8)

theorem hexPrinter_zeroLength : (hexPrinter w k hw hk h8).zeroLength = 2 := by
  change (padTwo (Integer.toHexString ((0#w).setWidth 32))).length = 2
  rw [BitVec.setWidth_zero]
  rfl

/-- Padded, a value has its fixed width form. -/
theorem hexPrinter_fixed (x : BitVec w) :
    (hexPrinter w k hw hk h8).fixed x = fixedHex k x.toNat := by
  have hx : (x.setWidth 32).toNat = x.toNat := BitVec.toNat_setWidth_of_le (by omega)
  have hpadded := fixedHex_eq_padTwo hk (x := x.setWidth 32) (by rw [hx]; exact toNat_lt_pow hw x)
  rw [hx] at hpadded
  exact hpadded.symm

end HexPrinter

theorem fixedHex_injective {w k : Nat} (hw : w = 4 * k) :
    Function.Injective fun x : BitVec w => fixedHex k x.toNat := by
  intro x y h
  have hnumber := congrArg hexNumber h
  simp only [hexNumber_fixedHex] at hnumber
  rw [Nat.mod_eq_of_lt (toNat_lt_pow hw x), Nat.mod_eq_of_lt (toNat_lt_pow hw y)] at hnumber
  exact BitVec.eq_of_toNat_eq hnumber

end Java
