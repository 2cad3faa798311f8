import Mathlib.Data.List.Count
import Mathlib.Tactic.IntervalCases

namespace Java

/-! Fixed-width integers. A `byte` or `short` operand is promoted to `int` before an
operator is applied, and a cast back keeps the low bits. -/

abbrev JByte := BitVec 8
abbrev JShort := BitVec 16
abbrev JInt := BitVec 32
abbrev JLong := BitVec 64

/-- The contents of a `byte[]`. -/
abbrev Bytes := List JByte

/-- Unary promotion to `int`: sign extension. -/
def promote {w : Nat} (x : BitVec w) : JInt := x.signExtend 32

def toByte (x : JInt) : JByte := x.setWidth 8

def toShort (x : JInt) : JShort := x.setWidth 16

theorem getLsbD_promote {w : Nat} (x : BitVec w) (i : Nat) (h : i < w) (hw : w ≤ 32) :
    (promote x).getLsbD i = x.getLsbD i := by
  have h32 : i < 32 := by omega
  rw [promote, BitVec.getLsbD_signExtend]
  simp only [h32, h, decide_true, Bool.true_and, if_true]

theorem getLsbD_promote_sshiftRight {w : Nat} (x : BitVec w) (k i : Nat) (h : k + i < w)
    (hw : w ≤ 32) : ((promote x).sshiftRight k).getLsbD i = x.getLsbD (k + i) := by
  have h32 : k + i < 32 := by omega
  have hi : ¬ 32 ≤ i := by omega
  rw [BitVec.getLsbD_sshiftRight, getLsbD_promote x (k + i) h hw]
  simp only [h32, hi, decide_false, Bool.not_false, Bool.true_and, if_true]

theorem getLsbD_toByte (x : JInt) (i : Nat) (h : i < 8) : (toByte x).getLsbD i = x.getLsbD i := by
  simp [toByte, h]

theorem getLsbD_toShort (x : JInt) (i : Nat) (h : i < 16) :
    (toShort x).getLsbD i = x.getLsbD i := by
  simp [toShort, h]

/-- `(short) (x & 0xffff)`, the form of most 16-bit accessors. -/
def mask16 (x : JShort) : JShort := toShort (promote x &&& 0xffff#32)

/-- `(byte) (x & 0xff)`, the form of most 8-bit accessors. -/
def mask8 (x : JByte) : JByte := toByte (promote x &&& 0xff#32)

/-- `(int) (x & 0xffffffffL)`, through `long`. -/
def mask32 (x : JInt) : JInt := ((x.signExtend 64) &&& 0xffffffff#64).setWidth 32

@[simp] theorem toShort_promote (x : JShort) : toShort (promote x) = x := by
  unfold toShort promote
  grind

/-- A cast to `byte` and back keeps the numbers that a `byte` holds. -/
theorem promote_toByte_eq_iff (x : JInt) :
    promote (toByte x) = x ↔ -128 ≤ x.toInt ∧ x.toInt ≤ 127 := by
  have hx := x.isLt
  rw [← BitVec.toInt_inj, promote, toByte, BitVec.toInt_signExtend_of_le (by decide)]
  simp only [BitVec.toInt_eq_toNat_cond, BitVec.toNat_setWidth]
  omega

@[simp] theorem toByte_promote (x : JByte) : toByte (promote x) = x := by
  unfold toByte promote
  grind

@[simp] theorem toByte_and (x m : JInt) : toByte (x &&& m) = toByte x &&& m.setWidth 8 := by
  unfold toByte
  grind

@[simp] theorem toShort_and (x m : JInt) : toShort (x &&& m) = toShort x &&& m.setWidth 16 := by
  unfold toShort
  grind

@[simp] theorem and_and_self_right {w : Nat} (x m : BitVec w) : x &&& m &&& m = x &&& m := by
  rw [BitVec.and_assoc, BitVec.and_self]

@[simp] theorem mask16_eq (x : JShort) : mask16 x = x := by
  unfold mask16 toShort promote
  apply BitVec.eq_of_getElem_eq
  intro i h
  interval_cases i <;> simp [BitVec.getElem_signExtend]

@[simp] theorem mask8_eq (x : JByte) : mask8 x = x := by
  unfold mask8 toByte promote
  apply BitVec.eq_of_getElem_eq
  intro i h
  interval_cases i <;> simp [BitVec.getElem_signExtend]

@[simp] theorem mask32_eq (x : JInt) : mask32 x = x := by
  unfold mask32
  apply BitVec.eq_of_getElem_eq
  intro i h
  interval_cases i <;> simp [BitVec.getElem_signExtend]

theorem promote_and_ffff (x : JShort) : promote x &&& 0xffff#32 = x.setWidth 32 := by
  unfold promote
  apply BitVec.eq_of_getElem_eq
  intro i h
  interval_cases i <;> simp [BitVec.getElem_signExtend]

/-- `x & 0xffff` reads a `short` as an unsigned number. -/
theorem promote_and_ffff_toInt (x : JShort) : (promote x &&& 0xffff#32).toInt = x.toNat := by
  have hlt := x.isLt
  rw [promote_and_ffff, BitVec.toInt_setWidth]
  simp only [Int.bmod]
  omega

/-- `x & 0xff` reads a `byte` as an unsigned number. -/
theorem promote_and_ff (x : JByte) : promote x &&& 0xff#32 = x.setWidth 32 := by
  revert x
  decide

theorem promote_and_ff_toInt (x : JByte) : (promote x &&& 0xff#32).toInt = x.toNat := by
  revert x
  decide

theorem and_eq_self_iff {w : Nat} (x m : BitVec w) : x &&& m = x ↔ x &&& ~~~m = 0#w := by
  simp only [BitVec.eq_of_getLsbD_eq_iff, BitVec.getLsbD_and, BitVec.getLsbD_not,
    BitVec.getLsbD_zero]
  refine forall_congr' fun i => forall_congr' fun hi => ?_
  cases hx : x.getLsbD i <;> cases hm : m.getLsbD i <;> simp [hi]

/-- The low nibble of a byte is not negative as an `int`. -/
theorem and_15_toInt (x : JByte) : (x &&& 15#8).toInt = (x &&& 15#8).toNat := by
  revert x
  decide

theorem and_15_le (x : JByte) : (x &&& 15#8).toNat ≤ 15 := by
  revert x
  decide

/-- `(byte) (x >> 12 & 0xf)`, the top nibble of a `short`. -/
theorem topNibble_toNat (x : JShort) :
    (toByte ((promote x).sshiftRight 12) &&& 15#8).toNat = x.toNat / 4096 := by
  have hx : toByte ((promote x).sshiftRight 12) &&& 15#8 = (x >>> 12).setWidth 8 := by
    apply BitVec.eq_of_getLsbD_eq
    intro i hi
    rw [BitVec.getLsbD_and, getLsbD_toByte _ i hi]
    by_cases h4 : i < 4
    · rw [getLsbD_promote_sshiftRight x 12 i (by omega) (by decide)]
      interval_cases i <;> simp
    · interval_cases i <;> simp at h4 ⊢
  have hlt := x.isLt
  rw [hx, BitVec.toNat_setWidth, BitVec.toNat_ushiftRight, Nat.shiftRight_eq_div_pow]
  omega

/-- `(byte) (x >> s & 0xff)`. -/
theorem byte_of_shift {w : Nat} (x : BitVec w) (s : Nat) (h : s + 8 ≤ w) :
    (x.sshiftRight s &&& BitVec.ofNat w 0xff).setWidth 8 = x.extractLsb' s 8 := by
  apply BitVec.eq_of_getLsbD_eq
  intro i hi
  have hmask : (BitVec.ofNat w 0xff).getLsbD i = true := by
    have hlt : i < w := by omega
    rw [BitVec.getLsbD_ofNat, decide_eq_true hlt]
    interval_cases i <;> rfl
  have hnot : ¬ w ≤ i := by omega
  have hin : s + i < w := by omega
  simp only [BitVec.getLsbD_setWidth, BitVec.getLsbD_and, BitVec.getLsbD_sshiftRight,
    BitVec.getLsbD_extractLsb', hmask, hi, hnot, hin, decide_true, decide_false, Bool.not_false,
    Bool.true_and, Bool.and_true, if_true]

theorem extractLsb'_promote {w : Nat} (x : BitVec w) (s : Nat) (h : s + 8 ≤ w) (hw : w ≤ 32) :
    (promote x).extractLsb' s 8 = x.extractLsb' s 8 := by
  apply BitVec.eq_of_getLsbD_eq
  intro i hi
  rw [BitVec.getLsbD_extractLsb', BitVec.getLsbD_extractLsb',
    getLsbD_promote x (s + i) (by omega) hw]

/-- A mask below the shift keeps nothing. -/
theorem shiftLeft_and_eq_zero (x m : JInt) (k : Nat) (h : m.toNat < 2 ^ k) :
    x <<< k &&& m = 0#32 := by
  apply BitVec.eq_of_getLsbD_eq
  intro i _
  by_cases hk : i < k
  · simp [hk]
  · have hpow : 2 ^ k ≤ 2 ^ i := Nat.pow_le_pow_right (by decide) (by omega)
    have hm : m.getLsbD i = false := Nat.testBit_lt_two_pow (by omega)
    simp [hm]

/-- Big-endian composition of a `short`. -/
def shortOf (a b : JByte) : JShort := a ++ b

/-- Big-endian composition of an `int`. -/
def intOf (a b c d : JByte) : JInt := a ++ b ++ c ++ d

def shortBytes (s : JShort) : Bytes := [s.extractLsb' 8 8, s.extractLsb' 0 8]

def intBytes (x : JInt) : Bytes :=
  [x.extractLsb' 24 8, x.extractLsb' 16 8, x.extractLsb' 8 8, x.extractLsb' 0 8]

@[simp] theorem shortBytes_length (s : JShort) : (shortBytes s).length = 2 := by
  simp [shortBytes]

@[simp] theorem intBytes_length (x : JInt) : (intBytes x).length = 4 := by
  simp [intBytes]

/-- An `int` of two 16-bit halves. -/
theorem intOf_toNat (w x y z : JByte) :
    (intOf w x y z).toNat = (shortOf w x).toNat * 2 ^ 16 + (shortOf y z).toNat := by
  have hhalves : intOf w x y z = shortOf w x ++ shortOf y z := by
    unfold intOf shortOf
    grind
  have hlt := (shortOf y z).isLt
  rw [hhalves, BitVec.toNat_append, ← Nat.shiftLeft_add_eq_or_of_lt hlt, Nat.shiftLeft_eq]

@[simp] theorem shortBytes_shortOf (a b : JByte) : shortBytes (shortOf a b) = [a, b] := by
  have hhi : (shortOf a b).extractLsb' 8 8 = a := by unfold shortOf; grind
  have hlo : (shortOf a b).extractLsb' 0 8 = b := by unfold shortOf; grind
  rw [shortBytes, hhi, hlo]

@[simp] theorem shortOf_bytes (s : JShort) :
    shortOf (s.extractLsb' 8 8) (s.extractLsb' 0 8) = s := by
  unfold shortOf
  grind

@[simp] theorem intBytes_intOf (a b c d : JByte) : intBytes (intOf a b c d) = [a, b, c, d] := by
  have h3 : (intOf a b c d).extractLsb' 24 8 = a := by unfold intOf; grind
  have h2 : (intOf a b c d).extractLsb' 16 8 = b := by unfold intOf; grind
  have h1 : (intOf a b c d).extractLsb' 8 8 = c := by unfold intOf; grind
  have h0 : (intOf a b c d).extractLsb' 0 8 = d := by unfold intOf; grind
  rw [intBytes, h3, h2, h1, h0]

@[simp] theorem intOf_bytes (x : JInt) :
    intOf (x.extractLsb' 24 8) (x.extractLsb' 16 8) (x.extractLsb' 8 8)
      (x.extractLsb' 0 8) = x := by
  unfold intOf
  grind

@[simp] theorem shortBytes_inj (s t : JShort) : shortBytes s = shortBytes t ↔ s = t := by
  refine ⟨fun h => ?_, congrArg shortBytes⟩
  simp only [shortBytes, List.cons.injEq] at h
  rw [← shortOf_bytes s, ← shortOf_bytes t, h.1, h.2.1]

theorem intBytes_injective {x y : JInt} (h : intBytes x = intBytes y) : x = y := by
  simp only [intBytes, List.cons.injEq] at h
  rw [← intOf_bytes x, ← intOf_bytes y, h.1, h.2.1, h.2.2.1, h.2.2.2.1]

theorem shortOf_injective {a b c d : JByte} (h : shortOf a b = shortOf c d) : a = c ∧ b = d := by
  have hb := congrArg shortBytes h
  simpa using hb

@[simp] theorem shortOf_eq_zero (a b : JByte) : shortOf a b = 0#16 ↔ a = 0#8 ∧ b = 0#8 := by
  refine ⟨fun h => shortOf_injective (c := 0) (d := 0) h, ?_⟩
  intro hbytes
  obtain ⟨rfl, rfl⟩ := hbytes
  rfl

@[simp] theorem toByte_intOf (a b c d : JByte) : toByte (intOf a b c d) = d := by
  unfold toByte intOf
  grind

@[simp] theorem promote_eq_zero (x : JByte) : promote x = 0#32 ↔ x = 0#8 := by
  refine ⟨fun h => ?_, ?_⟩
  · rw [← toByte_promote x, h]
    rfl
  · intro heq
    subst heq
    rfl

end Java
