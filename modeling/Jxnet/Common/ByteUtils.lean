import Jxnet.Common.Validate
import Jxnet.Framework.Codec
import Mathlib.Tactic.Ring

namespace Jxnet

open Java ByteBuffer

inductive ByteOrder where
  | BIG_ENDIAN
  | LITTLE_ENDIAN
  deriving DecidableEq, Repr

namespace ByteUtils

/-- `new byte[n]`. -/
def newByteArray (n : JInt) : Except JavaException Bytes :=
  if n.toInt < 0 then .error .negativeArraySize else .ok (List.replicate n.toInt.toNat 0)

/-- `array[j++] = b` for each of the bytes. -/
def storeAll (array : Bytes) (j : JInt) : Bytes → Except JavaException Bytes
  | [] => .ok array
  | b :: bs =>
    if 0 ≤ j.toInt ∧ j.toInt < array.length then storeAll (array.set j.toInt.toNat b) (j + 1) bs
    else .error .indexOutOfBounds

/-- The shifts in the order in which the loop of each byte order makes them. -/
def shifts (k : Nat) : ByteOrder → List Nat
  | .BIG_ENDIAN => (List.range (2 ^ k)).map (8 * ·)
  | .LITTLE_ENDIAN => ((List.range (2 ^ k)).map (8 * ·)).reverse

/-- `toByteArray(value, offset, length, bo)` for elements of `2 ^ k` bytes: `shiftedByte x s` is
`(byte) ((x >> s) & 0xff)`. -/
def toByteArrayWith {w : Nat} (k : Nat) (shiftedByte : BitVec w → Nat → JByte)
    (value : List (BitVec w)) (offset length : Int) (bo : ByteOrder) :
    Except JavaException Bytes := do
  Validate.checkBounds value offset length
  let array ← newByteArray (BitVec.ofInt 32 length <<< k)
  (List.range' offset.toNat (length - offset).toNat).foldlM (fun array i =>
    storeAll array (BitVec.ofNat 32 i <<< k) ((shifts k bo).map (shiftedByte (value.getD i 0))))
    array

/-- `toByteArray(short[], int, int, ByteOrder)`. -/
def toByteArrayShorts : List JShort → Int → Int → ByteOrder → Except JavaException Bytes :=
  toByteArrayWith 1 fun x s => toByte ((promote x).sshiftRight s &&& 0xff#32)

/-- `toByteArray(int[], int, int, ByteOrder)`. -/
def toByteArrayInts : List JInt → Int → Int → ByteOrder → Except JavaException Bytes :=
  toByteArrayWith 2 fun x s => toByte (x.sshiftRight s &&& 0xff#32)

/-- `toByteArray(long[], int, int, ByteOrder)`. -/
def toByteArrayLongs : List JLong → Int → Int → ByteOrder → Except JavaException Bytes :=
  toByteArrayWith 3 fun x s => (x.sshiftRight s &&& 0xff#64).setWidth 8

example : toByteArrayShorts [0x0102, 0x0304] 0 2 .BIG_ENDIAN = .ok [2, 1, 4, 3] := by
  decide +kernel

/-! What a buffer receives. -/

/-- The bytes of an element of `2 ^ k` bytes in their order. -/
def orderedBytes {w : Nat} (k : Nat) : ByteOrder → BitVec w → Bytes
  | .BIG_ENDIAN, x => (((List.range (2 ^ k)).map (8 * ·)).map fun s => x.extractLsb' s 8).reverse
  | .LITTLE_ENDIAN, x => ((List.range (2 ^ k)).map (8 * ·)).map fun s => x.extractLsb' s 8

/-- `putShort`, `putInt` or `putLong` of each element into a buffer of the order. -/
def putElements {w : Nat} (k : Nat) (bo : ByteOrder) : List (BitVec w) → Op Unit
  | [] => pure ()
  | x :: xs => do
    putBytes (orderedBytes k bo x)
    putElements k bo xs

example (x : JShort) : orderedBytes 1 .BIG_ENDIAN x = shortBytes x := rfl

example (x : JInt) : orderedBytes 2 .BIG_ENDIAN x = intBytes x := rfl

section Loop

variable {w k : Nat}

@[simp] theorem orderedBytes_length (bo : ByteOrder) (x : BitVec w) :
    (orderedBytes k bo x).length = 2 ^ k := by
  cases bo <;> simp [orderedBytes]

theorem putElements_writes (bo : ByteOrder) (xs : List (BitVec w)) :
    Writes (putElements k bo xs) (xs.flatMap (orderedBytes k bo)) := by
  induction xs with
  | nil => exact Writes.pure
  | cons x xs ih => exact (Writes.putBytes _).bind ih

/-- Each pass writes the bytes of its element the wrong way round. -/
theorem map_shifts (bo : ByteOrder) (x : BitVec w) :
    (shifts k bo).map (fun s => x.extractLsb' s 8) = (orderedBytes k bo x).reverse := by
  cases bo <;> simp [shifts, orderedBytes, List.map_reverse]

/-- Bytes stored over others of the same number. -/
theorem storeAll_append {pre old bs : Bytes} (post : Bytes) {j : JInt} (hj : pre.length = j.toNat)
    (hold : old.length = bs.length) (hfit : j.toNat + bs.length < 2 ^ 31) :
    storeAll (pre ++ (old ++ post)) j bs = .ok (pre ++ (bs ++ post)) := by
  induction bs generalizing pre old j with
  | nil =>
    rw [List.length_eq_zero_iff.mp hold]
    rfl
  | cons b bs ih =>
    obtain ⟨o, old, rfl⟩ := List.exists_cons_of_length_eq_add_one hold
    rw [List.length_cons, List.length_cons] at hold
    rw [List.length_cons] at hfit
    have hint : j.toInt = j.toNat := BitVec.toInt_eq_toNat_of_lt (by omega)
    have hrange : 0 ≤ j.toInt ∧ j.toInt < (pre ++ (o :: old ++ post)).length := by
      rw [hint, List.length_append, List.length_append, List.length_cons]
      omega
    have hset : (pre ++ (o :: old ++ post)).set j.toInt.toNat b =
        (pre ++ [b]) ++ (old ++ post) := by
      rw [hint, Int.toNat_natCast, ← hj, List.cons_append,
        List.set_append_right _ _ (Nat.le_refl _), Nat.sub_self, List.set_cons_zero,
        List.append_assoc]
      rfl
    have hnext : (j + 1).toNat = j.toNat + 1 := by
      rw [BitVec.toNat_add]
      exact Nat.mod_eq_of_lt (by simp; omega)
    rw [storeAll, if_pos hrange, hset, ih (by rw [List.length_append, hj, hnext]; rfl) (by omega)
      (by omega)]
    simp

theorem storeAll_length {array bs array' : Bytes} {j : JInt}
    (h : storeAll array j bs = .ok array') : array'.length = array.length := by
  induction bs generalizing array j with
  | nil =>
    cases h
    rfl
  | cons b bs ih =>
    rw [storeAll] at h
    split at h
    · rw [ih h, List.length_set]
    · cases h

theorem shiftLeft_toNat {i : Nat} (h : 2 ^ k * i < 2 ^ 31) :
    (BitVec.ofNat 32 i <<< k).toNat = 2 ^ k * i := by
  have hle : i ≤ 2 ^ k * i := Nat.le_mul_of_pos_left i (Nat.two_pow_pos k)
  rw [BitVec.toNat_shiftLeft, BitVec.toNat_ofNat, Nat.shiftLeft_eq,
    Nat.mod_eq_of_lt (a := i) (by omega), Nat.mul_comm, Nat.mod_eq_of_lt (by omega)]

/-- The passes fill the array from where they start. -/
theorem foldlM_storeAll {written : Nat → Bytes} (hlen : ∀ i, (written i).length = 2 ^ k)
    (n i : Nat) {pre : Bytes} (hpre : pre.length = 2 ^ k * i) (hfit : 2 ^ k * (i + n) < 2 ^ 31) :
    (List.range' i n).foldlM (fun array i => storeAll array (BitVec.ofNat 32 i <<< k) (written i))
        (pre ++ List.replicate (2 ^ k * n) 0) =
      .ok (pre ++ (List.range' i n).flatMap written) := by
  induction n generalizing i pre with
  | zero => rfl
  | succ n ih =>
    have hsum : 2 ^ k * (i + (n + 1)) = 2 ^ k * i + 2 ^ k + 2 ^ k * n := by ring
    have hsum' : 2 ^ k * (i + 1 + n) = 2 ^ k * i + 2 ^ k + 2 ^ k * n := by ring
    rw [hsum] at hfit
    have hfirst : 2 ^ k * i + 2 ^ k < 2 ^ 31 := Nat.lt_of_le_of_lt (Nat.le_add_right _ _) hfit
    have hsmall : 2 ^ k * i < 2 ^ 31 := Nat.lt_of_le_of_lt (Nat.le_add_right _ _) hfirst
    have hj := shiftLeft_toNat hsmall
    have hold : (List.replicate (2 ^ k) (0 : JByte)).length = (written i).length := by
      rw [List.length_replicate, hlen]
    have hstore := storeAll_append (List.replicate (2 ^ k * n) 0) (hpre.trans hj.symm) hold
      (by rw [hj, hlen]; exact hfirst)
    have hzeros : List.replicate (2 ^ k * (n + 1)) (0 : JByte) =
        List.replicate (2 ^ k) 0 ++ List.replicate (2 ^ k * n) 0 := by
      rw [List.replicate_append_replicate, Nat.mul_succ, Nat.add_comm]
    rw [List.range'_succ, List.foldlM_cons, hzeros, hstore]
    change List.foldlM _ (pre ++ (written i ++ List.replicate (2 ^ k * n) 0)) _ = _
    rw [← List.append_assoc, ih (i + 1) (by rw [List.length_append, hpre, hlen]; ring)
      (by rw [hsum']; exact hfit), List.flatMap_cons, List.append_assoc]

theorem foldlM_storeAll_length {l : List Nat} {f : Bytes → Nat → Except JavaException Bytes}
    (hf : ∀ array i array', f array i = .ok array' → array'.length = array.length)
    {array array' : Bytes} (h : l.foldlM f array = .ok array') : array'.length = array.length := by
  induction l generalizing array with
  | nil =>
    cases h
    rfl
  | cons i l ih =>
    rw [List.foldlM_cons] at h
    cases hi : f array i with
    | error e =>
      rw [hi] at h
      cases h
    | ok next =>
      rw [hi] at h
      rw [ih h, hf _ _ _ hi]

/-- The element whose bytes come in place `i`. -/
def elementAt (value : List (BitVec w)) (offset i : Nat) : BitVec w :=
  if i < offset then 0 else value.getD i 0

theorem orderedBytes_zero (bo : ByteOrder) :
    orderedBytes k bo (0 : BitVec w) = List.replicate (2 ^ k) 0 := by
  rw [List.eq_replicate_iff]
  refine ⟨orderedBytes_length bo _, ?_⟩
  intro b hb
  have hmem : b ∈ ((List.range (2 ^ k)).map (8 * ·)).map
      fun s => (0 : BitVec w).extractLsb' s 8 := by
    cases bo with
    | BIG_ENDIAN => exact List.mem_reverse.mp hb
    | LITTLE_ENDIAN => exact hb
  obtain ⟨s, -, rfl⟩ := List.mem_map.mp hmem
  simp

/-- Only zero has the bytes of zero. -/
theorem eq_zero_of_orderedBytes (hw : w = 8 * 2 ^ k) {x : BitVec w}
    (h : orderedBytes k .BIG_ENDIAN x = List.replicate (2 ^ k) 0) : x = 0 := by
  apply BitVec.eq_of_getLsbD_eq
  intro j hj
  have hpos : j / 8 < 2 ^ k := by omega
  have hmem : x.extractLsb' (8 * (j / 8)) 8 ∈ orderedBytes k .BIG_ENDIAN x := by
    rw [orderedBytes, List.mem_reverse, List.mem_map]
    exact ⟨_, List.mem_map_of_mem (List.mem_range.mpr hpos), rfl⟩
  rw [h] at hmem
  have hbyte := congrArg (fun b => b.getLsbD (j % 8)) (List.eq_of_mem_replicate hmem)
  have hdiv : 8 * (j / 8) + j % 8 = j := by omega
  have hmod : j % 8 < 8 := Nat.mod_lt _ (by decide)
  simpa [BitVec.getLsbD_extractLsb', hdiv, hmod] using hbyte

theorem newByteArray_small {length : Nat} (h : 2 ^ k * length < 2 ^ 31) :
    newByteArray (BitVec.ofInt 32 length <<< k) = .ok (List.replicate (2 ^ k * length) 0) := by
  have hnat : (BitVec.ofInt 32 length <<< k).toNat = 2 ^ k * length := by
    rw [BitVec.ofInt_natCast]
    exact shiftLeft_toNat h
  have hint : (BitVec.ofInt 32 length <<< k).toInt = ((2 ^ k * length : Nat) : Int) := by
    rw [BitVec.toInt_eq_toNat_of_lt (by omega), hnat]
  rw [newByteArray, hint, if_neg (by omega), Int.toNat_natCast]

variable {shiftedByte : BitVec w → Nat → JByte} {value : List (BitVec w)} {offset length : Nat}

theorem map_shiftedByte (hw : w = 8 * 2 ^ k)
    (hshift : ∀ x s, s + 8 ≤ w → shiftedByte x s = x.extractLsb' s 8) (bo : ByteOrder)
    (x : BitVec w) : (shifts k bo).map (shiftedByte x) = (orderedBytes k bo x).reverse := by
  rw [← map_shifts]
  apply List.map_congr_left
  intro s hs
  have hmem : s ∈ (List.range (2 ^ k)).map (8 * ·) := by
    cases bo with
    | BIG_ENDIAN => exact hs
    | LITTLE_ENDIAN => exact List.mem_reverse.mp hs
  obtain ⟨i, hi, rfl⟩ := List.mem_map.mp hmem
  have hlt := List.mem_range.mp hi
  exact hshift x _ (by omega)

theorem flatMap_zeros {l : List Nat} {f : Nat → Bytes}
    (hf : ∀ i ∈ l, f i = List.replicate (2 ^ k) 0) :
    l.flatMap f = List.replicate (2 ^ k * l.length) 0 := by
  induction l with
  | nil => rfl
  | cons i l ih =>
    obtain ⟨hi, hl⟩ := List.forall_mem_cons.mp hf
    rw [List.flatMap_cons, hi, ih hl, List.replicate_append_replicate, List.length_cons,
      Nat.mul_succ, Nat.add_comm]

/-- The bytes of the elements, each the wrong way round. -/
def written (k : Nat) (bo : ByteOrder) (value : List (BitVec w)) (offset i : Nat) : Bytes :=
  (orderedBytes k bo (elementAt value offset i)).reverse

theorem written_before (value : List (BitVec w)) (bo : ByteOrder) {i : Nat} (hi : i < offset) :
    written k bo value offset i = List.replicate (2 ^ k) 0 := by
  rw [written, elementAt, if_pos hi, orderedBytes_zero, List.reverse_replicate]

theorem written_from (bo : ByteOrder) {i : Nat} (hi : offset ≤ i) :
    written k bo value offset i = (orderedBytes k bo (value.getD i 0)).reverse := by
  rw [written, elementAt, if_neg (by omega)]

/-- What the loops leave: each element in its own place, not the one of the slice. -/
theorem toByteArrayWith_eq (hw : w = 8 * 2 ^ k)
    (hshift : ∀ x s, s + 8 ≤ w → shiftedByte x s = x.extractLsb' s 8) (bo : ByteOrder)
    (hlen : 0 < length) (hfit : offset + length ≤ value.length)
    (hsmall : 2 ^ k * length < 2 ^ 31) :
    toByteArrayWith k shiftedByte value offset length bo =
      .ok ((List.range length).flatMap (written k bo value offset)) := by
  rw [toByteArrayWith, checkBounds_ok hlen hfit, newByteArray_small hsmall]
  change (List.range' offset ((length : Int) - offset).toNat).foldlM _ _ = _
  simp only [map_shiftedByte hw hshift]
  by_cases hle : offset ≤ length
  · obtain ⟨n, rfl⟩ := Nat.exists_eq_add_of_le hle
    have hn : (((offset + n : Nat) : Int) - offset).toNat = n := by omega
    have hzeros : List.replicate (2 ^ k * (offset + n)) (0 : JByte) =
        List.replicate (2 ^ k * offset) 0 ++ List.replicate (2 ^ k * n) 0 := by
      rw [List.replicate_append_replicate, Nat.mul_add]
    have hbefore : (List.range offset).flatMap (written k bo value offset) =
        List.replicate (2 ^ k * offset) 0 := by
      have hflat := flatMap_zeros (k := k) (l := List.range offset)
        fun i hi => written_before value bo (List.mem_range.mp hi)
      rwa [List.length_range] at hflat
    have hafter : (List.range' offset n).flatMap (written k bo value offset) =
        (List.range' offset n).flatMap fun i => (orderedBytes k bo (value.getD i 0)).reverse :=
      List.flatMap_congr fun i hi => written_from bo (List.mem_range'_1.mp hi).1
    have hrange : List.range (offset + n) = List.range offset ++ List.range' offset n := by
      rw [List.range_eq_range', List.range_eq_range', ← List.range'_append_1, Nat.zero_add]
    rw [hn, hzeros, foldlM_storeAll (fun i => by rw [List.length_reverse, orderedBytes_length]) n
      offset (by rw [List.length_replicate]) hsmall, hrange, List.flatMap_append, hbefore, hafter]
  · have hn : ((length : Int) - offset).toNat = 0 := by omega
    have hgt : length < offset := by omega
    have hflat := flatMap_zeros (k := k) (l := List.range length)
      fun i hi => written_before value bo (Nat.lt_trans (List.mem_range.mp hi) hgt)
    rw [List.length_range] at hflat
    rw [hn, hflat]
    rfl

/-- No array is longer than an `int` can count. -/
theorem toByteArrayWith_length {bo : ByteOrder} {bytes : Bytes} (hlen : 0 < length)
    (hfit : offset + length ≤ value.length)
    (h : toByteArrayWith k shiftedByte value offset length bo = .ok bytes) :
    bytes.length < 2 ^ 31 := by
  rw [toByteArrayWith, checkBounds_ok hlen hfit, newByteArray] at h
  have hlt := (BitVec.ofInt 32 length <<< k).toInt_lt
  by_cases hneg : (BitVec.ofInt 32 length <<< k).toInt < 0
  · rw [if_pos hneg] at h
    cases h
  · rw [if_neg hneg] at h
    have hsame := foldlM_storeAll_length (fun _ _ _ hi => storeAll_length hi) h
    rw [hsame, List.length_replicate]
    omega

theorem encode_putElements (bo : ByteOrder) (hfit : offset + length ≤ value.length) :
    encode ((2 ^ k * length : Nat) : Int) (putElements k bo (slice value offset length)) =
      .ok ((List.range length).flatMap fun i => orderedBytes k bo (value.getD (offset + i) 0)) := by
  rw [← flatMap_slice (orderedBytes k bo) 0 hfit]
  apply (putElements_writes bo _).encode_exact
  rw [flatMap_length_eq (orderedBytes_length bo), slice_length hfit]

/-- Both orders are wrong for the same elements. -/
theorem reverse_eq_iff (bo : ByteOrder) (x y : BitVec w) :
    (orderedBytes k bo x).reverse = orderedBytes k bo y ↔
      orderedBytes k .BIG_ENDIAN y = (orderedBytes k .BIG_ENDIAN x).reverse := by
  cases bo with
  | BIG_ENDIAN => exact eq_comm
  | LITTLE_ENDIAN =>
    simp only [orderedBytes, List.reverse_reverse]
    constructor
    · intro h
      rw [← h, List.reverse_reverse]
    · intro h
      rw [← h, List.reverse_reverse]

/-- Behind an offset the elements that come first are zero, the others those of earlier places. -/
theorem elementAt_eq_zero (hoffset : offset ≠ 0) {i : Nat}
    (h : ∀ j < i, value.getD (offset + j) 0 = 0) : elementAt value offset i = 0 := by
  by_cases hlt : i < offset
  · exact if_pos hlt
  · have hearlier := h (i - offset) (by omega)
    rw [Nat.add_sub_cancel' (Nat.le_of_not_lt hlt)] at hearlier
    rw [elementAt, if_neg hlt, hearlier]

theorem getD_eq_zero (hw : w = 8 * 2 ^ k) (hoffset : offset ≠ 0)
    (h : ∀ i < length, orderedBytes k .BIG_ENDIAN (value.getD (offset + i) 0) =
      (orderedBytes k .BIG_ENDIAN (elementAt value offset i)).reverse) {i : Nat} (hi : i < length) :
    value.getD (offset + i) 0 = 0 := by
  induction i using Nat.strong_induction_on with
  | _ i ih =>
    have hplace := elementAt_eq_zero hoffset fun j hj => ih j hj (Nat.lt_trans hj hi)
    apply eq_zero_of_orderedBytes hw
    rw [h i hi, hplace, orderedBytes_zero, List.reverse_replicate]

/-- Every element of the slice is a palindrome of bytes, and zero unless the slice starts the
array. -/
theorem forall_place_iff (hw : w = 8 * 2 ^ k) (hfit : offset + length ≤ value.length) :
    (∀ i < length, orderedBytes k .BIG_ENDIAN (value.getD (offset + i) 0) =
      (orderedBytes k .BIG_ENDIAN (elementAt value offset i)).reverse) ↔
      ∀ x ∈ slice value offset length, x = 0 ∨
        offset = 0 ∧ orderedBytes k .BIG_ENDIAN x = (orderedBytes k .BIG_ENDIAN x).reverse := by
  rw [forall_mem_slice_iff 0 hfit]
  by_cases hoffset : offset = 0
  · subst hoffset
    apply forall₂_congr
    intro i _
    rw [elementAt, if_neg (Nat.not_lt_zero i), Nat.zero_add]
    constructor
    · intro h
      exact .inr ⟨rfl, h⟩
    · intro h
      cases h with
      | inl hzero => rw [hzero, orderedBytes_zero, List.reverse_replicate]
      | inr hboth => exact hboth.2
  · constructor
    · intro h i hi
      exact .inl (getD_eq_zero hw hoffset h hi)
    · intro h i hi
      have hzero : ∀ j < length, value.getD (offset + j) 0 = 0 := by
        intro j hj
        exact (h j hj).resolve_right fun hboth => hoffset hboth.1
      have hplace := elementAt_eq_zero hoffset fun j hj => hzero j (Nat.lt_trans hj hi)
      rw [hzero i hi, hplace, orderedBytes_zero, List.reverse_replicate]

/-- The loops give what a buffer of the order receives exactly if the bytes of an element of the
slice are, the wrong way round, those of the element that comes in its place. -/
theorem toByteArrayWith_put_iff (hw : w = 8 * 2 ^ k)
    (hshift : ∀ x s, s + 8 ≤ w → shiftedByte x s = x.extractLsb' s 8) (bo : ByteOrder)
    (hlen : 0 < length) (hfit : offset + length ≤ value.length) :
    (∃ bytes, toByteArrayWith k shiftedByte value offset length bo = .ok bytes ∧
      encode ((2 ^ k * length : Nat) : Int) (putElements k bo (slice value offset length)) =
        .ok bytes) ↔ 2 ^ k * length < 2 ^ 31 ∧
      ∀ i < length, orderedBytes k .BIG_ENDIAN (value.getD (offset + i) 0) =
        (orderedBytes k .BIG_ENDIAN (elementAt value offset i)).reverse := by
  have hflat : ∀ f g : Nat → Bytes, (∀ i, (f i).length = 2 ^ k) → (∀ i, (g i).length = 2 ^ k) →
      ((List.range length).flatMap f = (List.range length).flatMap g ↔
        ∀ i < length, f i = g i) := by
    intro f g hf hg
    rw [flatMap_eq_flatMap_iff _ fun i _ => (hf i).trans (hg i).symm]
    simp only [List.mem_range]
  have hiff : (List.range length).flatMap (written k bo value offset) =
      (List.range length).flatMap (fun i => orderedBytes k bo (value.getD (offset + i) 0)) ↔
        ∀ i < length, orderedBytes k .BIG_ENDIAN (value.getD (offset + i) 0) =
          (orderedBytes k .BIG_ENDIAN (elementAt value offset i)).reverse := by
    rw [hflat _ _ (fun i => by rw [written, List.length_reverse, orderedBytes_length])
      (fun i => orderedBytes_length bo _)]
    exact forall₂_congr fun i _ => reverse_eq_iff bo _ _
  rw [encode_putElements bo hfit]
  constructor
  · intro h
    obtain ⟨bytes, hbytes, hput⟩ := h
    have hsmall : 2 ^ k * length < 2 ^ 31 := by
      have hlt := toByteArrayWith_length hlen hfit hbytes
      rw [← Except.ok.inj hput, flatMap_length_eq (fun i => orderedBytes_length bo _),
        List.length_range] at hlt
      exact hlt
    rw [toByteArrayWith_eq hw hshift bo hlen hfit hsmall] at hbytes
    exact ⟨hsmall, hiff.mp (Except.ok.inj (hbytes.trans hput.symm))⟩
  · intro h
    obtain ⟨hsmall, hall⟩ := h
    refine ⟨_, toByteArrayWith_eq hw hshift bo hlen hfit hsmall, ?_⟩
    rw [hiff.mpr hall]

end Loop

/-! The three types of elements. -/

inductive ElementType where
  | short
  | int
  | long
  deriving DecidableEq, Repr

namespace ElementType

def bits : ElementType → Nat
  | short => 16
  | int => 32
  | long => 64

/-- The shift from a number of elements to a number of bytes. -/
def shift : ElementType → Nat
  | short => 1
  | int => 2
  | long => 3

end ElementType

/-- `toByteArray(xs, offset, length, bo)`, by the type of the array. -/
def toByteArraySlice : (t : ElementType) → List (BitVec t.bits) → Int → Int → ByteOrder →
    Except JavaException Bytes
  | .short => toByteArrayShorts
  | .int => toByteArrayInts
  | .long => toByteArrayLongs

/-- `toByteArray` gives what a buffer of the order receives when the elements of the slice are
put. -/
def Receives (t : ElementType) (xs : List (BitVec t.bits)) (offset length : Nat)
    (bo : ByteOrder) : Prop :=
  ∃ bytes, toByteArraySlice t xs offset length bo = .ok bytes ∧
    encode ((2 ^ t.shift * length : Nat) : Int)
      (putElements t.shift bo (slice xs offset length)) = .ok bytes

theorem receives_iff (t : ElementType) {xs : List (BitVec t.bits)} {offset length : Nat}
    (bo : ByteOrder) (hlen : 0 < length) (hfit : offset + length ≤ xs.length) :
    Receives t xs offset length bo ↔ 2 ^ t.shift * length < 2 ^ 31 ∧
      ∀ x ∈ slice xs offset length, x = 0 ∨ offset = 0 ∧
        orderedBytes t.shift .BIG_ENDIAN x = (orderedBytes t.shift .BIG_ENDIAN x).reverse := by
  have hw : t.bits = 8 * 2 ^ t.shift := by cases t <;> rfl
  rw [← forall_place_iff hw hfit]
  cases t with
  | short =>
    have hshift : ∀ (x : JShort) s, s + 8 ≤ 16 →
        toByte ((promote x).sshiftRight s &&& 0xff#32) = x.extractLsb' s 8 := by
      intro x s hs
      have hpromote := extractLsb'_promote x s hs (by decide)
      exact (byte_of_shift (promote x) s (Nat.le_trans hs (by decide))).trans hpromote
    exact toByteArrayWith_put_iff (k := 1) rfl hshift bo hlen hfit
  | int =>
    have hshift : ∀ (x : JInt) s, s + 8 ≤ 32 →
        toByte (x.sshiftRight s &&& 0xff#32) = x.extractLsb' s 8 := byte_of_shift
    exact toByteArrayWith_put_iff (k := 2) rfl hshift bo hlen hfit
  | long =>
    have hshift : ∀ (x : JLong) s, s + 8 ≤ 64 →
        (x.sshiftRight s &&& 0xff#64).setWidth 8 = x.extractLsb' s 8 := byte_of_shift
    exact toByteArrayWith_put_iff (k := 3) rfl hshift bo hlen hfit

end ByteUtils

namespace BufferUtils

/-- `Arrays.copyOfRange`. -/
def copyOfRange (original : Bytes) (lo hi : Int) : Except JavaException Bytes :=
  if lo > hi then .error .illegalArgument
  else if lo < 0 ∨ lo > original.length then .error .indexOutOfBounds
  else
    let range := (original.drop lo.toNat).take (hi - lo).toNat
    .ok (range ++ List.replicate ((hi - lo).toNat - range.length) 0)

/-- `toDirectByteBuffer(byte[], int, int)`. -/
def toDirectByteBuffer (bytes : Bytes) (offset length : Int) : Except JavaException ByteBuffer := do
  Validate.checkBounds bytes offset length
  let range ← copyOfRange bytes offset length
  let (_, buffer) ← putBytes range (allocate length.toNat)
  return buffer

/-- The buffer holds the bytes of the slice. -/
def Holds (bytes : Bytes) (offset length : Nat) : Prop :=
  ∃ buffer, toDirectByteBuffer bytes offset length = .ok buffer ∧
    buffer.array = slice bytes offset length

/-- The bytes are put at the start of the buffer, the zeros of which stay behind them. -/
theorem putBytes_allocate {xs : Bytes} {n : Nat} (h : xs.length ≤ n) :
    putBytes xs (allocate n) = .ok ((), ⟨xs, List.replicate (n - xs.length) 0, []⟩) := by
  have hfit : xs.length ≤ (allocate n).rest.length := by
    rw [allocate, List.length_replicate]
    exact h
  rw [putBytes, if_pos hfit]
  simp [allocate]

theorem copyOfRange_ok {bytes : Bytes} {offset n : Nat} (hfit : offset + n ≤ bytes.length) :
    copyOfRange bytes offset ((offset + n : Nat) : Int) = .ok (slice bytes offset n) := by
  have hn : (((offset + n : Nat) : Int) - offset).toNat = n := by omega
  have hpad : n - (slice bytes offset n).length = 0 := by
    rw [slice_length hfit, Nat.sub_self]
  rw [copyOfRange, if_neg (by omega), if_neg (by omega), hn, Int.toNat_natCast]
  change Except.ok (slice bytes offset n ++
    List.replicate (n - (slice bytes offset n).length) 0) = _
  rw [hpad, List.replicate_zero, List.append_nil]

/-- The length is taken for an end, so the slice stops short. -/
theorem toDirectByteBuffer_ok {bytes : Bytes} {offset n : Nat} (hlen : 0 < offset + n)
    (hfit : offset + (offset + n) ≤ bytes.length) :
    toDirectByteBuffer bytes offset ((offset + n : Nat) : Int) =
      .ok ⟨slice bytes offset n, List.replicate offset 0, []⟩ := by
  have hsize : (slice bytes offset n).length = n := slice_length (by omega)
  have hroom : (slice bytes offset n).length ≤ offset + n := by omega
  have hput := putBytes_allocate hroom
  rw [hsize, Nat.add_sub_cancel_right] at hput
  rw [toDirectByteBuffer, checkBounds_ok hlen hfit, copyOfRange_ok (by omega), Int.toNat_natCast]
  simp [bind, Except.bind, hput, pure, Except.pure]

theorem toDirectByteBuffer_error {bytes : Bytes} {offset length : Nat} (hlen : 0 < length)
    (hfit : offset + length ≤ bytes.length) (hgt : length < offset) :
    toDirectByteBuffer bytes offset length = .error .illegalArgument := by
  have hcopy : copyOfRange bytes offset length = .error .illegalArgument := if_pos (by omega)
  rw [toDirectByteBuffer, checkBounds_ok hlen hfit]
  simp [bind, Except.bind, hcopy]

theorem holds_iff {bytes : Bytes} {offset length : Nat} (hlen : 0 < length)
    (hfit : offset + length ≤ bytes.length) :
    Holds bytes offset length ↔ offset ≤ length ∧ ∀ b ∈ slice bytes length offset, b = 0 := by
  by_cases hle : offset ≤ length
  · obtain ⟨n, rfl⟩ := Nat.exists_eq_add_of_le hle
    have hrest : (slice bytes (offset + n) offset).length = offset := slice_length (by omega)
    have hiff : slice bytes offset n ++ List.replicate offset 0 =
        slice bytes offset n ++ slice bytes (offset + n) offset ↔
          ∀ b ∈ slice bytes (offset + n) offset, b = 0 := by
      rw [List.append_cancel_left_eq, eq_comm, List.eq_replicate_iff]
      exact and_iff_right hrest
    rw [Holds, toDirectByteBuffer_ok hlen hfit, Nat.add_comm offset n, slice_add,
      Nat.add_comm n offset, ← hiff]
    constructor
    · intro h
      obtain ⟨buffer, hbuffer, harray⟩ := h
      cases hbuffer
      rw [← harray, array, List.append_nil]
      exact ⟨hle, rfl⟩
    · intro h
      refine ⟨_, rfl, ?_⟩
      rw [array, List.append_nil]
      exact h.2
  · rw [Holds, toDirectByteBuffer_error hlen hfit (by omega)]
    constructor
    · intro h
      obtain ⟨buffer, hbuffer, -⟩ := h
      cases hbuffer
    · intro h
      exact absurd h.1 hle

end BufferUtils

theorem ByteUtils.slices_iff (t : ElementType) {xs : List (BitVec t.bits)} {bytes : Bytes}
    {offset length : Nat} (bo : ByteOrder) (hlen : 0 < length) (hxs : offset + length ≤ xs.length)
    (hbytes : offset + length ≤ bytes.length) :
    (Receives t xs offset length bo ↔ 2 ^ t.shift * length < 2 ^ 31 ∧
      ∀ x ∈ slice xs offset length, x = 0 ∨ offset = 0 ∧
        orderedBytes t.shift .BIG_ENDIAN x = (orderedBytes t.shift .BIG_ENDIAN x).reverse) ∧
    (BufferUtils.Holds bytes offset length ↔
      offset ≤ length ∧ ∀ b ∈ slice bytes length offset, b = 0) :=
  ⟨receives_iff t bo hlen hxs, BufferUtils.holds_iff hlen hbytes⟩

theorem ByteUtils.slices_palindrome :
    Receives .int [0x01020201, 0] 0 2 .BIG_ENDIAN ∧ BufferUtils.Holds [7, 8] 0 2 := by
  have hxs : 0 + 2 ≤ [0x01020201#32, 0#32].length := by decide
  have hbytes : 0 + 2 ≤ ([7, 8] : Bytes).length := by decide
  obtain ⟨hreceives, hholds⟩ := slices_iff .int .BIG_ENDIAN (by decide) hxs hbytes
  constructor
  · apply hreceives.mpr
    refine ⟨by decide, ?_⟩
    intro x hx
    obtain rfl | hx := List.mem_cons.mp (show x ∈ [0x01020201#32, 0#32] from hx)
    · exact .inr ⟨rfl, by decide⟩
    · exact .inl (List.mem_singleton.mp hx)
  · apply hholds.mpr
    refine ⟨by decide, ?_⟩
    intro b hb
    cases hb

theorem ByteUtils.slices_differ :
    ¬ Receives .short [0x0102] 0 1 .BIG_ENDIAN ∧ ¬ BufferUtils.Holds [1, 2, 3] 1 1 := by
  have harray : toByteArraySlice .short [0x0102] 0 1 .BIG_ENDIAN = .ok [2, 1] := by decide +kernel
  have hput : encode 2 (putElements 1 .BIG_ENDIAN [0x0102#16]) = .ok [1, 2] := by decide +kernel
  have hbuffer : (array <$> BufferUtils.toDirectByteBuffer [1, 2, 3] 1 1) = .ok [0] := by
    decide +kernel
  constructor
  · intro h
    obtain ⟨bytes, hbytes, hreceived⟩ := h
    cases harray.symm.trans hbytes
    cases hput.symm.trans hreceived
  · intro h
    obtain ⟨buffer, hheld, harray⟩ := h
    have hheld' : BufferUtils.toDirectByteBuffer [1, 2, 3] 1 1 = .ok buffer := hheld
    rw [hheld'] at hbuffer
    cases hbuffer.symm.trans (congrArg Except.ok harray)

end Jxnet
