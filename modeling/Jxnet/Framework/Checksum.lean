import Jxnet.Framework.Codec
import Jxnet.Framework.OnesComplement

namespace Java

namespace ByteBuffer

/-! The Internet checksum of a byte array. -/

/-- The big-endian 16-bit words, an odd last byte padded with zero. -/
def words : Bytes → List Nat
  | [] => []
  | [x] => [256 * x.toNat]
  | x :: y :: rest => (shortOf x y).toNat :: words rest

def wordSum (bytes : Bytes) : Nat := (words bytes).sum

/-- The check of a receiver: the one's-complement sum of all words is all ones. -/
def Verifies (bytes : Bytes) : Prop := OnesComplement.sum 0xffff (words bytes) = 0xffff

instance (bytes : Bytes) : Decidable (Verifies bytes) :=
  inferInstanceAs (Decidable (_ = _))

/-- The carries that a 32-bit sum and a single fold of it leave out. -/
def droppedCarries (n : Nat) : Nat :=
  n / 2 ^ 32 + OnesComplement.fold 0xffff (n % 2 ^ 32) / 2 ^ 16

section Words

theorem words_le (bytes : Bytes) : ∀ w ∈ words bytes, w ≤ 0xffff := by
  induction bytes using words.induct with
  | case1 => simp [words]
  | case2 x =>
    have hx := x.isLt
    simp only [words, List.mem_singleton, forall_eq]
    omega
  | case3 x y rest ih =>
    have hs := (shortOf x y).isLt
    simp only [words, List.mem_cons, forall_eq_or_imp]
    exact ⟨by omega, ih⟩

/-- An array of whole words in front does not move the words behind it. -/
theorem words_append (xs ys : Bytes) (h : 2 ∣ xs.length) :
    words (xs ++ ys) = words xs ++ words ys := by
  induction xs using words.induct with
  | case1 => rfl
  | case2 x => simp at h
  | case3 x y rest ih =>
    have hr : 2 ∣ rest.length := by
      simp only [List.length_cons] at h
      omega
    simp only [List.cons_append, words, ih hr]

theorem wordSum_append (xs ys : Bytes) (h : 2 ∣ xs.length) :
    wordSum (xs ++ ys) = wordSum xs + wordSum ys := by
  rw [wordSum, words_append xs ys h, List.sum_append, wordSum, wordSum]

@[simp] theorem wordSum_nil : wordSum [] = 0 := rfl

@[simp] theorem wordSum_shortBytes (s : JShort) : wordSum (shortBytes s) = s.toNat := by
  simp [wordSum, shortBytes, words]

theorem wordSum_cons_cons (x y : JByte) (rest : Bytes) :
    wordSum (x :: y :: rest) = (shortOf x y).toNat + wordSum rest := by
  rw [wordSum, words, List.sum_cons, wordSum]

/-- Both halves of an `int`. -/
theorem wordSum_intBytes (x : JInt) :
    wordSum (intBytes x) = x.toNat / 2 ^ 16 + x.toNat % 2 ^ 16 := by
  have hx := intOf_toNat (x.extractLsb' 24 8) (x.extractLsb' 16 8) (x.extractLsb' 8 8)
    (x.extractLsb' 0 8)
  have hlt := (shortOf (x.extractLsb' 8 8) (x.extractLsb' 0 8)).isLt
  rw [intOf_bytes] at hx
  rw [intBytes, wordSum_cons_cons, wordSum_cons_cons, wordSum_nil]
  omega

/-- A byte alone in its word. -/
theorem wordSum_zero_cons (x : JByte) (rest : Bytes) :
    wordSum (0 :: x :: rest) = x.toNat + wordSum rest := by
  have hx : (shortOf 0 x).toNat = x.toNat := by
    rw [shortOf, BitVec.toNat_append]
    simp
  rw [wordSum_cons_cons, hx]

/-- Half as many words as bytes, each below 65536. -/
theorem wordSum_le (bytes : Bytes) : wordSum bytes ≤ (bytes.length + 1) / 2 * 0xffff := by
  induction bytes using words.induct with
  | case1 => simp
  | case2 x =>
    have hx := x.isLt
    simp only [wordSum, words, List.sum_singleton, List.length_singleton]
    omega
  | case3 x y rest ih =>
    have hs := (shortOf x y).isLt
    have hlen : (rest.length + 1 + 1 + 1) / 2 = (rest.length + 1) / 2 + 1 := by omega
    rw [wordSum_cons_cons, List.length_cons, List.length_cons, hlen, Nat.add_mul]
    omega

/-- Patching a word of zeros adds it to the sum. -/
theorem wordSum_patch (front back : Bytes) (c : JShort) (h : 2 ∣ front.length) :
    wordSum (front ++ (shortBytes c ++ back)) =
      wordSum (front ++ (shortBytes 0 ++ back)) + c.toNat := by
  have h2 : ∀ s : JShort, 2 ∣ (shortBytes s).length := fun s => by simp
  have hsum : ∀ s : JShort, wordSum (front ++ (shortBytes s ++ back)) =
      wordSum front + (s.toNat + wordSum back) := by
    intro s
    rw [wordSum_append _ _ h, wordSum_append _ _ (h2 s), wordSum_shortBytes]
  rw [hsum, hsum]
  change _ = wordSum front + (0 + wordSum back) + c.toNat
  omega

theorem verifies_iff (bytes : Bytes) :
    Verifies bytes ↔ wordSum bytes ≠ 0 ∧ wordSum bytes % 0xffff = 0 :=
  OnesComplement.sum_eq_max_iff (by decide) (words bytes) (words_le bytes)

end Words

section Sum

theorem and_promote (s : JShort) : 0xffff#32 &&& promote s = BitVec.ofNat 32 s.toNat := by
  have hs : BitVec.ofNat 32 s.toNat = s.setWidth 32 := by
    rw [BitVec.ofNat_toNat]
  rw [hs]
  unfold promote
  apply BitVec.eq_of_getElem_eq
  intro i h
  interval_cases i <;> simp [BitVec.getElem_signExtend]

theorem promote_and_shift (x : JByte) :
    (promote x &&& 0xff#32) <<< 8 = BitVec.ofNat 32 (256 * x.toNat) := by
  revert x
  decide

theorem sumShorts_eq (n : Nat) (accumulation : JInt) (pre bytes rest post : Bytes)
    (h : bytes.length = 2 * n) :
    sumShorts n accumulation ⟨pre, bytes ++ rest, post⟩ =
      .ok (accumulation + BitVec.ofNat 32 (wordSum bytes), ⟨pre ++ bytes, rest, post⟩) := by
  induction n generalizing accumulation pre bytes with
  | zero =>
    have hnil : bytes = [] := List.eq_nil_of_length_eq_zero (by omega)
    simp [sumShorts, hnil]
  | succ n ih =>
    have hbytes : 2 * n + 2 ≤ bytes.length := by omega
    obtain ⟨x, b1, rfl, h1⟩ := exists_byte hbytes
    obtain ⟨y, b2, rfl, h2⟩ := exists_byte h1
    have hlen : b2.length = 2 * n := by
      simp only [List.length_cons] at h
      omega
    have hacc : accumulation + (0xffff#32 &&& promote (shortOf x y)) +
        BitVec.ofNat 32 (wordSum b2) =
          accumulation + BitVec.ofNat 32 (wordSum (x :: y :: b2)) := by
      rw [wordSum_cons_cons, and_promote, BitVec.ofNat_add, BitVec.add_assoc]
    simp only [sumShorts, List.cons_append, bind_apply, getShort_cons, ih _ _ _ hlen, hacc]
    simp

/-- The two loops together: what follows works with the sum of all words in 32 bits. -/
theorem sum_bind {β : Type} (f : JInt → Op β) (length : Nat) (accumulation : JInt)
    (pre bytes rest post : Bytes) (h : bytes.length = length) :
    (do
      let accumulation ← sumShorts (length / 2) accumulation
      let accumulation ← sumOddByte length accumulation
      f accumulation) ⟨pre, bytes ++ rest, post⟩ =
      f (accumulation + BitVec.ofNat 32 (wordSum bytes)) ⟨pre ++ bytes, rest, post⟩ := by
  have hbytes : length % 2 + 2 * (length / 2) ≤ bytes.length := by omega
  obtain ⟨front, last, rfl, hf, hl⟩ := exists_chunk _ hbytes
  rw [List.length_append] at h
  have hsum := sumShorts_eq (length / 2) accumulation pre front (last ++ rest) post hf
  rw [← List.append_assoc] at hsum
  rw [bind_apply, hsum]
  have h2 : 2 ∣ front.length := by omega
  rw [wordSum_append front last h2]
  by_cases hodd : length % 2 > 0
  · have hlast : 0 + 1 ≤ last.length := by omega
    obtain ⟨x, tail, rfl, -⟩ := exists_byte hlast
    have htail : tail = [] := by
      apply List.eq_nil_of_length_eq_zero
      simp only [List.length_cons] at h
      omega
    subst htail
    have hx : wordSum [x] = 256 * x.toNat := by simp [wordSum, words]
    simp only [sumOddByte, if_pos hodd, bind_apply, List.cons_append, List.nil_append, get_cons,
      pure_apply, promote_and_shift, hx, BitVec.ofNat_add, BitVec.add_assoc, List.append_assoc]
  · have hnil : last = [] := List.eq_nil_of_length_eq_zero (by omega)
    simp [sumOddByte, hodd, hnil]

end Sum

section Fold

theorem high_toNat (x : JInt) : (x.sshiftRight 16 &&& 0xffff#32).toNat = x.toNat / 2 ^ 16 := by
  have hx : x.sshiftRight 16 &&& 0xffff#32 = x >>> 16 := by
    apply BitVec.eq_of_getLsbD_eq
    intro i hi
    rw [BitVec.getLsbD_and, BitVec.getLsbD_sshiftRight]
    interval_cases i <;> simp
  rw [hx, BitVec.toNat_ushiftRight, Nat.shiftRight_eq_div_pow]

theorem low_toNat (x : JInt) : (x &&& 0xffff#32).toNat = x.toNat % 2 ^ 16 := by
  rw [BitVec.toNat_and]
  exact Nat.and_two_pow_sub_one_eq_mod x.toNat 16

/-- The complement of the sum folded once. -/
theorem foldChecksum_toNat (accumulation : JInt) :
    (foldChecksum accumulation).toNat =
      0xffff - OnesComplement.fold 0xffff accumulation.toNat % 2 ^ 16 := by
  have hacc := accumulation.isLt
  have hfold : ((accumulation.sshiftRight 16 &&& 0xffff#32) +
      (accumulation &&& 0xffff#32)).toNat = OnesComplement.fold 0xffff accumulation.toNat := by
    rw [BitVec.toNat_add, high_toNat, low_toNat, OnesComplement.fold]
    omega
  have hnot : ∀ x : JInt, (toShort (~~~x &&& 0xffff#32)).toNat = 0xffff - x.toNat % 2 ^ 16 := by
    intro x
    have hx := x.isLt
    rw [toShort, BitVec.toNat_setWidth, low_toNat, BitVec.toNat_not]
    omega
  rw [foldChecksum, hnot, hfold]

/-- The written checksum makes up for the sum, the dropped carries excepted. -/
theorem add_foldChecksum (n : Nat) :
    n + (foldChecksum (BitVec.ofNat 32 n)).toNat ≠ 0 ∧
      (n + (foldChecksum (BitVec.ofNat 32 n)).toNat) % 0xffff = droppedCarries n % 0xffff := by
  have h32 : 2 ^ 32 ≡ 1 [MOD 0xffff] := by decide
  have hn : n ≡ n / 2 ^ 32 + n % 2 ^ 32 [MOD 0xffff] :=
    calc n = 2 ^ 32 * (n / 2 ^ 32) + n % 2 ^ 32 := (Nat.div_add_mod n (2 ^ 32)).symm
      _ ≡ 1 * (n / 2 ^ 32) + n % 2 ^ 32 [MOD 0xffff] := (h32.mul_right _).add_right _
      _ = n / 2 ^ 32 + n % 2 ^ 32 := by rw [Nat.one_mul]
  rw [foldChecksum_toNat, BitVec.toNat_ofNat]
  refine ⟨?_, ?_⟩
  · intro h0
    have hz : n = 0 := by omega
    subst hz
    exact absurd h0 (by decide)
  · have hc := OnesComplement.add_complement_modEq (m := 0xffff) (n % 2 ^ 32)
    calc n + (0xffff - OnesComplement.fold 0xffff (n % 2 ^ 32) % 2 ^ 16)
        ≡ n / 2 ^ 32 + n % 2 ^ 32 +
            (0xffff - OnesComplement.fold 0xffff (n % 2 ^ 32) % 2 ^ 16) [MOD 0xffff] :=
          hn.add_right _
      _ = n / 2 ^ 32 + (n % 2 ^ 32 +
            (0xffff - OnesComplement.fold 0xffff (n % 2 ^ 32) % 2 ^ 16)) := Nat.add_assoc _ _ _
      _ ≡ droppedCarries n [MOD 0xffff] := hc.add_left _

/-- A message whose checksum field held zero while it was summed verifies iff no carry was
dropped, up to a whole turn of the sum. -/
theorem verifies_patch_iff (front back : Bytes) (h : 2 ∣ front.length) (n : Nat)
    (hn : wordSum (front ++ (shortBytes 0 ++ back)) = n) :
    Verifies (front ++ (shortBytes (foldChecksum (BitVec.ofNat 32 n)) ++ back)) ↔
      0xffff ∣ droppedCarries n := by
  obtain ⟨hne, hmod⟩ := add_foldChecksum n
  rw [verifies_iff, wordSum_patch front back _ h, hn, hmod, Nat.dvd_iff_mod_eq_zero]
  exact and_iff_right hne

/-- A checksum that was right and not 0 is found again iff one fold leaves less than all ones. -/
theorem foldChecksum_eq_iff {n : Nat} {c : JShort} (hn : n < 2 ^ 32) (hc : c ≠ 0)
    (h : (n + c.toNat) % 0xffff = 0) :
    foldChecksum (BitVec.ofNat 32 n) = c ↔ OnesComplement.fold 0xffff n < 0xffff := by
  have hmod : OnesComplement.fold 0xffff n % 0xffff = n % 0xffff := OnesComplement.fold_modEq n
  have hlt : OnesComplement.fold 0xffff n < 2 * 0xffff + 1 := by
    rw [OnesComplement.fold]
    omega
  have hpos : c.toNat ≠ 0 := by
    intro h0
    exact hc (BitVec.eq_of_toNat_eq h0)
  have hc16 := c.isLt
  rw [← BitVec.toNat_inj, foldChecksum_toNat, BitVec.toNat_ofNat, Nat.mod_eq_of_lt hn]
  omega

/-- A single fold of a 32-bit sum drops at most one carry. -/
theorem droppedCarries_le {n : Nat} (h : n < 2 ^ 32) : droppedCarries n ≤ 1 := by
  rw [droppedCarries, OnesComplement.fold]
  omega

/-- A message that was summed with a pseudo header naming `protocol` is checked with one that
names `expected`: it verifies iff the two numbers differ by the dropped carries. -/
theorem verifies_pseudo_iff (pseudo front back : Bytes) (hp : 2 ∣ pseudo.length)
    (hf : 2 ∣ front.length) (base protocol expected n : Nat)
    (hbase : wordSum pseudo = base + expected) (hprotocol : protocol ≤ 0xff)
    (hexpected : 0 < expected) (hle : expected ≤ 0xff)
    (hn : base + protocol + wordSum (front ++ (shortBytes 0 ++ back)) = n) (hlt : n < 2 ^ 32) :
    Verifies (pseudo ++ (front ++ (shortBytes (foldChecksum (BitVec.ofNat 32 n)) ++ back))) ↔
      protocol = expected + droppedCarries n := by
  have hmod := (add_foldChecksum n).2
  have hone := droppedCarries_le hlt
  rw [verifies_iff, wordSum_append _ _ hp, wordSum_patch _ _ _ hf, hbase]
  constructor
  · intro hsum
    obtain ⟨-, hzero⟩ := hsum
    omega
  · intro heq
    exact ⟨by omega, by omega⟩

end Fold

end ByteBuffer

end Java
