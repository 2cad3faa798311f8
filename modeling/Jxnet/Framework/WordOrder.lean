import Jxnet.Framework.Codec

open Java Java.ByteBuffer

/-- The order in which a machine keeps the bytes of a word. -/
inductive WordOrder where
  | little
  | big
  deriving DecidableEq, Repr

namespace WordOrder

def other : WordOrder → WordOrder
  | little => big
  | big => little

/-- From most significant byte first to the order of the machine, and back. -/
def arrange : WordOrder → Bytes → Bytes
  | little, bytes => bytes.reverse
  | big, bytes => bytes

variable (o : WordOrder)

@[simp] theorem arrange_arrange (bytes : Bytes) : o.arrange (o.arrange bytes) = bytes := by
  cases o with
  | little => exact List.reverse_reverse bytes
  | big => rfl

@[simp] theorem length_arrange (bytes : Bytes) : (o.arrange bytes).length = bytes.length := by
  cases o with
  | little => exact List.length_reverse
  | big => rfl

theorem arrange_other (bytes : Bytes) : o.other.arrange bytes = o.arrange bytes.reverse := by
  cases o with
  | little => exact (List.reverse_reverse bytes).symm
  | big => rfl

theorem eq_other_of_ne {o o' : WordOrder} (h : o' ≠ o) : o' = o.other := by
  cases o <;> cases o' <;> first | rfl | exact absurd rfl h

/-! Words of eight bytes. -/

/-- Big-endian composition of a `long`. -/
def longOf (a b c d e f g h : JByte) : JLong := intOf a b c d ++ intOf e f g h

def longBytes (x : JLong) : Bytes :=
  intBytes (x.extractLsb' 32 32) ++ intBytes (x.extractLsb' 0 32)

@[simp] theorem length_longBytes (x : JLong) : (longBytes x).length = 8 := by simp [longBytes]

theorem getLsbD_intOf (a b c d : JByte) (i : Nat) : (intOf a b c d).getLsbD i =
    if i < 8 then d.getLsbD i else if i < 16 then c.getLsbD (i - 8)
    else if i < 24 then b.getLsbD (i - 16) else a.getLsbD (i - 24) := by
  unfold intOf
  grind

theorem getLsbD_longOf (a b c d e f g h : JByte) (i : Nat) :
    (longOf a b c d e f g h).getLsbD i =
      if i < 32 then (intOf e f g h).getLsbD i else (intOf a b c d).getLsbD (i - 32) := by
  unfold longOf
  grind

theorem extract_longOf (a b c d e f g h : JByte) :
    (longOf a b c d e f g h).extractLsb' 32 32 = intOf a b c d ∧
      (longOf a b c d e f g h).extractLsb' 0 32 = intOf e f g h := by
  unfold longOf
  constructor <;> grind

@[simp] theorem longBytes_longOf (a b c d e f g h : JByte) :
    longBytes (longOf a b c d e f g h) = [a, b, c, d, e, f, g, h] := by
  obtain ⟨hhi, hlo⟩ := extract_longOf a b c d e f g h
  rw [longBytes, hhi, hlo, intBytes_intOf, intBytes_intOf]
  rfl

theorem exists_longOf (x : JLong) : ∃ a b c d e f g h, x = longOf a b c d e f g h := by
  have hx : x = x.extractLsb' 32 32 ++ x.extractLsb' 0 32 := by grind
  rw [hx, ← intOf_bytes (x.extractLsb' 32 32), ← intOf_bytes (x.extractLsb' 0 32)]
  exact ⟨_, _, _, _, _, _, _, _, rfl⟩

theorem longBytes_injective {x y : JLong} (h : longBytes x = longBytes y) : x = y := by
  obtain ⟨hhi, hlo⟩ := List.append_inj h rfl
  have hx : x = x.extractLsb' 32 32 ++ x.extractLsb' 0 32 := by grind
  have hy : y = y.extractLsb' 32 32 ++ y.extractLsb' 0 32 := by grind
  rw [hx, hy, intBytes_injective hhi, intBytes_injective hlo]

/-! A word with its bytes reversed. -/

def reverseShort (x : JShort) : JShort := shortOf (x.extractLsb' 0 8) (x.extractLsb' 8 8)

def reverseInt (x : JInt) : JInt :=
  intOf (x.extractLsb' 0 8) (x.extractLsb' 8 8) (x.extractLsb' 16 8) (x.extractLsb' 24 8)

theorem shortBytes_reverseShort (x : JShort) :
    shortBytes (reverseShort x) = (shortBytes x).reverse :=
  shortBytes_shortOf _ _

theorem intBytes_reverseInt (x : JInt) : intBytes (reverseInt x) = (intBytes x).reverse :=
  intBytes_intOf _ _ _ _

@[simp] theorem reverseShort_reverseShort (x : JShort) : reverseShort (reverseShort x) = x := by
  rw [← shortBytes_inj, shortBytes_reverseShort, shortBytes_reverseShort, List.reverse_reverse]

@[simp] theorem reverseInt_reverseInt (x : JInt) : reverseInt (reverseInt x) = x := by
  apply intBytes_injective
  rw [intBytes_reverseInt, intBytes_reverseInt, List.reverse_reverse]

def reverseLong (x : JLong) : JLong :=
  reverseInt (x.extractLsb' 0 32) ++ reverseInt (x.extractLsb' 32 32)

theorem longBytes_reverseLong (x : JLong) : longBytes (reverseLong x) = (longBytes x).reverse := by
  have hhi : (reverseLong x).extractLsb' 32 32 = reverseInt (x.extractLsb' 0 32) := by
    unfold reverseLong
    grind
  have hlo : (reverseLong x).extractLsb' 0 32 = reverseInt (x.extractLsb' 32 32) := by
    unfold reverseLong
    grind
  rw [longBytes, hhi, hlo, intBytes_reverseInt, intBytes_reverseInt, longBytes,
    List.reverse_append]

@[simp] theorem reverseLong_reverseLong (x : JLong) : reverseLong (reverseLong x) = x := by
  apply longBytes_injective
  rw [longBytes_reverseLong, longBytes_reverseLong, List.reverse_reverse]

/-! Words in memory. -/

def storeShort (x : JShort) : Bytes := o.arrange (shortBytes x)

def storeInt (x : JInt) : Bytes := o.arrange (intBytes x)

def storeLong (x : JLong) : Bytes := o.arrange (longBytes x)

@[simp] theorem length_storeShort (x : JShort) : (o.storeShort x).length = 2 := by
  simp [storeShort]

@[simp] theorem length_storeInt (x : JInt) : (o.storeInt x).length = 4 := by simp [storeInt]

@[simp] theorem length_storeLong (x : JLong) : (o.storeLong x).length = 8 := by simp [storeLong]

theorem storeShort_other (x : JShort) : o.other.storeShort x = o.storeShort (reverseShort x) := by
  rw [storeShort, storeShort, arrange_other, shortBytes_reverseShort]

theorem storeLong_other (x : JLong) : o.other.storeLong x = o.storeLong (reverseLong x) := by
  rw [storeLong, storeLong, arrange_other, longBytes_reverseLong]

theorem storeInt_other (x : JInt) : o.other.storeInt x = o.storeInt (reverseInt x) := by
  rw [storeInt, storeInt, arrange_other, intBytes_reverseInt]

theorem exists_storeShort {n : Nat} {bytes : Bytes} (h : n + 2 ≤ bytes.length) :
    ∃ x rest, bytes = o.storeShort x ++ rest ∧ n ≤ rest.length := by
  obtain ⟨x, bytes, rfl, hbytes⟩ := exists_byte h
  obtain ⟨y, rest, rfl, hrest⟩ := exists_byte hbytes
  cases o with
  | little => exact ⟨shortOf y x, rest, by simp [storeShort, arrange], hrest⟩
  | big => exact ⟨shortOf x y, rest, by simp [storeShort, arrange], hrest⟩

theorem exists_storeInt {n : Nat} {bytes : Bytes} (h : n + 4 ≤ bytes.length) :
    ∃ x rest, bytes = o.storeInt x ++ rest ∧ n ≤ rest.length := by
  obtain ⟨x, y, z, w, rest, rfl, hrest⟩ := exists_four h
  cases o with
  | little => exact ⟨intOf w z y x, rest, by simp [storeInt, arrange], hrest⟩
  | big => exact ⟨intOf x y z w, rest, by simp [storeInt, arrange], hrest⟩

theorem exists_storeLong {n : Nat} {bytes : Bytes} (h : n + 8 ≤ bytes.length) :
    ∃ x rest, bytes = o.storeLong x ++ rest ∧ n ≤ rest.length := by
  obtain ⟨a, b, c, d, behind, rfl, hbehind⟩ := exists_four (n := n + 4) h
  obtain ⟨e, f, g, i, rest, rfl, hrest⟩ := exists_four hbehind
  cases o with
  | little =>
    exact ⟨longOf i g f e d c b a, rest, by simp [storeLong, arrange, longBytes_longOf], hrest⟩
  | big =>
    exact ⟨longOf a b c d e f g i, rest, by simp [storeLong, arrange, longBytes_longOf], hrest⟩

/-- The `n` bytes at offset `i`. -/
def slice (bytes : Bytes) (i n : Nat) : Bytes := (bytes.drop i).take n

theorem slice_zero {n : Nat} (xs ys : Bytes) (h : xs.length = n) : slice (xs ++ ys) 0 n = xs :=
  List.take_left' h

theorem slice_add {m : Nat} (xs ys : Bytes) (h : xs.length = m) (i n : Nat) :
    slice (xs ++ ys) (i + m) n = slice ys i n := by
  rw [slice, Nat.add_comm, ← List.drop_drop, List.drop_left' h]
  rfl

def loadShort (bytes : Bytes) (i : Nat) : JShort := shortAt (o.arrange (slice bytes i 2)) 0

def loadInt (bytes : Bytes) (i : Nat) : JInt := intAt (o.arrange (slice bytes i 4)) 0

/-- The `long` whose big-endian bytes stand at offset `i`. -/
def longAt (bytes : Bytes) (i : Nat) : JLong := intAt bytes i ++ intAt bytes (i + 4)

def loadLong (bytes : Bytes) (i : Nat) : JLong := longAt (o.arrange (slice bytes i 8)) 0

/-! A structure in memory is read field by field: the field in front, or one behind it. -/

@[simp] theorem loadShort_storeShort (x : JShort) (ys : Bytes) :
    o.loadShort (o.storeShort x ++ ys) 0 = x := by
  rw [loadShort, slice_zero _ ys (o.length_storeShort x), storeShort, arrange_arrange]
  simpa using shortAt_append [] [] x rfl

@[simp] theorem loadInt_storeInt (x : JInt) (ys : Bytes) :
    o.loadInt (o.storeInt x ++ ys) 0 = x := by
  rw [loadInt, slice_zero _ ys (o.length_storeInt x), storeInt, arrange_arrange]
  simpa using intAt_append [] [] x rfl

@[simp] theorem loadInt_storeInt_nil (x : JInt) : o.loadInt (o.storeInt x) 0 = x := by
  simpa using o.loadInt_storeInt x []

theorem loadInt_behind {i : Nat} (xs ys : Bytes) (h : xs.length = i) :
    o.loadInt (xs ++ ys) i = o.loadInt ys 0 := by
  have hslice := slice_add xs ys h 0 4
  rw [Nat.zero_add] at hslice
  rw [loadInt, loadInt, hslice]

theorem loadLong_storeLong (x : JLong) : o.loadLong (o.storeLong x) 0 = x := by
  have hslice : slice (o.storeLong x) 0 8 = o.storeLong x :=
    List.take_of_length_le (Nat.le_of_eq (o.length_storeLong x))
  obtain ⟨a, b, c, d, e, f, g, h, rfl⟩ := exists_longOf x
  rw [loadLong, hslice, storeLong, arrange_arrange, longBytes_longOf]
  rfl

@[simp] theorem loadShort_behind_short (x : JShort) (ys : Bytes) (i : Nat) :
    o.loadShort (o.storeShort x ++ ys) (i + 2) = o.loadShort ys i := by
  rw [loadShort, slice_add _ ys (o.length_storeShort x), loadShort]

@[simp] theorem loadInt_behind_short (x : JShort) (ys : Bytes) (i : Nat) :
    o.loadInt (o.storeShort x ++ ys) (i + 2) = o.loadInt ys i := by
  rw [loadInt, slice_add _ ys (o.length_storeShort x), loadInt]

@[simp] theorem loadInt_behind_int (x : JInt) (ys : Bytes) (i : Nat) :
    o.loadInt (o.storeInt x ++ ys) (i + 4) = o.loadInt ys i := by
  rw [loadInt, slice_add _ ys (o.length_storeInt x), loadInt]

end WordOrder
