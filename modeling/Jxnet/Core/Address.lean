import Jxnet.Framework.Codec

namespace Jxnet

open Java ByteBuffer

/-- The common part of `MacAddress`, `Inet4Address` and `Inet6Address`: `valueOf(byte[])` is
the only way in, so an address has its `n` bytes. -/
structure Address (n : Nat) where
  address : Bytes
  length_eq : address.length = n
  deriving DecidableEq, Repr

namespace Address

variable {n : Nat}

def valueOf (n : Nat) (address : Bytes) : Except JavaException (Address n) :=
  if h : address.length = n then .ok ⟨address, h⟩ else .error .illegalArgument

def toBytes (a : Address n) : Bytes := a.address

@[simp] theorem toBytes_length (a : Address n) : a.toBytes.length = n := a.length_eq

theorem eq_of_toBytes_eq {a b : Address n} (h : a.toBytes = b.toBytes) : a = b := by
  obtain ⟨bytes, hlen⟩ := a
  obtain ⟨bytes', hlen'⟩ := b
  cases h
  rfl

theorem valueOf_error (bytes : Bytes) (h : bytes.length ≠ n) :
    valueOf n bytes = .error .illegalArgument :=
  dif_neg h

@[simp] theorem valueOf_toBytes (a : Address n) : valueOf n a.toBytes = .ok a :=
  dif_pos a.length_eq

theorem exists_toBytes {k : Nat} {bytes : Bytes} (h : k + n ≤ bytes.length) :
    ∃ a : Address n, ∃ rest, bytes = a.toBytes ++ rest ∧ k ≤ rest.length := by
  obtain ⟨xs, rest, hb, hxs, hr⟩ := exists_chunk n h
  exact ⟨⟨xs, hxs⟩, rest, hb, hr⟩

/-- `buffer.get(buf)` into `new byte[n]`, then `valueOf(buf)`. -/
def read (n : Nat) : Op (Address n) := do
  let buf ← getBytes n
  lift (valueOf n buf)

@[simp] theorem read_append (a : Address n) (pre rest post : Bytes) :
    read n ⟨pre, a.toBytes ++ rest, post⟩ = .ok (a, ⟨pre ++ a.toBytes, rest, post⟩) := by
  simp [read, getBytes_append]

theorem read_consumes (n : Nat) : Consumes (read n) n := by
  intro b
  refine ⟨fun h => ?_, fun h => ?_⟩
  · obtain ⟨a, rest, hb, -⟩ : ∃ a : Address n, ∃ rest, b.rest = a.toBytes ++ rest ∧
        0 ≤ rest.length := exists_toBytes (by omega)
    obtain ⟨pre, bytes, post⟩ := b
    subst hb
    exact ⟨a, by simp [skip]⟩
  · rw [read, bind_apply, (Consumes.getBytes n b).2 h]

/-- A buffer of another length raises when it is filled, or when it is validated. -/
theorem getArray_valueOf_error {α : Type} {k : Int} (hk : k ≠ (n : Int)) (f : Address n → Op α)
    (b : ByteBuffer) :
    ∃ e, (getArray k >>= fun buf => lift (valueOf n buf) >>= f) b = .error e := by
  by_cases hneg : k < 0
  · refine ⟨.negativeArraySize, ?_⟩
    rw [bind_apply, getArray, if_pos hneg]
  · by_cases hl : k.toNat ≤ b.rest.length
    · have hlen : (b.rest.take k.toNat).length ≠ n := by
        rw [List.length_take]
        omega
      refine ⟨.illegalArgument, ?_⟩
      rw [bind_apply, getArray, if_neg hneg, getBytes, if_pos hl]
      simp only [bind_apply, valueOf_error _ hlen, lift_error]
    · refine ⟨.bufferUnderflow, ?_⟩
      rw [bind_apply, getArray, if_neg hneg, getBytes, if_neg hl]

theorem getArray_valueOf {α : Type} {k : Int} (hk : k = (n : Int)) (f : Address n → Op α) :
    (getArray k >>= fun buf => lift (valueOf n buf) >>= f) = read n >>= f := by
  funext b
  simp only [bind_apply, hk, getArray_natCast, read]
  cases getBytes n b <;> rfl

end Address

abbrev MacAddress := Address 6

namespace MacAddress

def MAC_ADDRESS_LENGTH : Nat := 6

def ZERO : MacAddress := ⟨[0, 0, 0, 0, 0, 0], rfl⟩

abbrev valueOf (address : Bytes) : Except JavaException MacAddress := Address.valueOf 6 address

end MacAddress

abbrev Inet4Address := Address 4

namespace Inet4Address

def IPV4_ADDRESS_LENGTH : Nat := 4

/-- `valueOf("127.0.0.1")`. -/
def LOCALHOST : Inet4Address := ⟨[127, 0, 0, 1], rfl⟩

abbrev valueOf (address : Bytes) : Except JavaException Inet4Address := Address.valueOf 4 address

def toInt (a : Inet4Address) : JInt :=
  (List.range IPV4_ADDRESS_LENGTH).foldl
    (fun ip i => ip ||| (promote (a.address.getD i 0) &&& 0xff#32) <<< ((3 - i) * 8)) 0

theorem exists_bytes (a : Inet4Address) : ∃ w x y z, a = ⟨[w, x, y, z], rfl⟩ := by
  obtain ⟨address, h⟩ := a
  have hlen : 0 + 4 ≤ address.length := by omega
  obtain ⟨w, x, y, z, b4, rfl, -⟩ := exists_four hlen
  have hnil : b4 = [] := by
    apply List.eq_nil_of_length_eq_zero
    simpa using h
  subst hnil
  exact ⟨w, x, y, z, rfl⟩

/-- The four bytes, each shifted to its own place. -/
theorem toInt_eq (w x y z : JByte) : toInt ⟨[w, x, y, z], rfl⟩ = intOf w x y z := by
  have hrange : List.range 4 = [0, 1, 2, 3] := rfl
  simp only [toInt, IPV4_ADDRESS_LENGTH, hrange, List.foldl_cons, List.foldl_nil,
    List.getD_cons_zero, List.getD_cons_succ, promote_and_ff]
  apply BitVec.eq_of_getLsbD_eq
  intro i hi
  simp only [BitVec.getLsbD_or, BitVec.getLsbD_shiftLeft, BitVec.getLsbD_setWidth, intOf,
    BitVec.getLsbD_append]
  have hw : ∀ j, 8 ≤ j → w.getLsbD j = false := fun j hj => BitVec.getLsbD_of_ge w j hj
  have hx : ∀ j, 8 ≤ j → x.getLsbD j = false := fun j hj => BitVec.getLsbD_of_ge x j hj
  have hy : ∀ j, 8 ≤ j → y.getLsbD j = false := fun j hj => BitVec.getLsbD_of_ge y j hj
  have hz : ∀ j, 8 ≤ j → z.getLsbD j = false := fun j hj => BitVec.getLsbD_of_ge z j hj
  grind

end Inet4Address

abbrev Inet6Address := Address 16

namespace Inet6Address

def IPV6_ADDRESS_LENGTH : Nat := 16

/-- `valueOf("::1")`. -/
def LOCALHOST : Inet6Address := ⟨List.replicate 15 0 ++ [1], rfl⟩

abbrev valueOf (address : Bytes) : Except JavaException Inet6Address := Address.valueOf 16 address

end Inet6Address

/-- `none` is null. -/
structure SockAddr where
  sa_family : JShort
  data : Option Bytes
  deriving DecidableEq, Repr

inductive DataLinkType where
  | EN10MB
  | DOCSIS
  | FDDI
  | IEEE802
  | IEEE802_11
  | LINUX_SLL
  | PPP
  | PPP_SERIAL
  | NULL
  | IEEE802_11_RADIO
  | UNKNOWN
  deriving DecidableEq, Repr

namespace DataLinkType

def getValue : DataLinkType → JShort
  | EN10MB => 1
  | DOCSIS => 143
  | FDDI => 10
  | IEEE802 => 6
  | IEEE802_11 => 105
  | LINUX_SLL => 113
  | PPP => 9
  | PPP_SERIAL => 50
  | NULL => 0
  | IEEE802_11_RADIO => 127
  | UNKNOWN => -1

def values : List DataLinkType :=
  [EN10MB, DOCSIS, FDDI, IEEE802, IEEE802_11, LINUX_SLL, PPP, PPP_SERIAL, NULL,
    IEEE802_11_RADIO, UNKNOWN]

/-- The first constant with the value; null when there is none. -/
def valueOf (dataLinkType : JShort) : Option DataLinkType :=
  values.find? (fun f => f.getValue = dataLinkType)

@[simp] theorem valueOf_getValue (d : DataLinkType) : valueOf d.getValue = some d := by
  cases d <;> decide

end DataLinkType

end Jxnet
