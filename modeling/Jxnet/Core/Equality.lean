import Jxnet.Core.MacText

namespace Jxnet

open Java ByteBuffer

/-! `equals` and `hashCode` of the four classes of addresses. -/

inductive AddressObject where
  | inet4Address (a : Inet4Address)
  | inet6Address (a : Inet6Address)
  | macAddress (a : MacAddress)
  | sockAddr (a : SockAddr)
  deriving DecidableEq, Repr

inductive AddressClass where
  | Inet4Address
  | Inet6Address
  | MacAddress
  | SockAddr
  deriving DecidableEq, Repr

namespace AddressObject

def getClass : AddressObject → AddressClass
  | inet4Address _ => .Inet4Address
  | inet6Address _ => .Inet6Address
  | macAddress _ => .MacAddress
  | sockAddr _ => .SockAddr

/-- `toBytes()` of an `instanceof Inet4Address`. -/
def ofInet4Address : AddressObject → Option Bytes
  | inet4Address a => some a.toBytes
  | _ => none

/-- `toBytes()` of an `instanceof Inet6Address`. -/
def ofInet6Address : AddressObject → Option Bytes
  | inet6Address a => some a.toBytes
  | _ => none

/-- `toBytes()` of an `instanceof MacAddress`. -/
def ofMacAddress : AddressObject → Option Bytes
  | macAddress a => some a.toBytes
  | _ => none

end AddressObject

section Equals

variable {Ref : Type} [DecidableEq Ref]

/-- The form of each `equals`: `tested` is what the `instanceof` tests find in the other object. -/
def equalsWith (heap : Ref → AddressObject) (address : Option Bytes)
    (tested : AddressObject → Option Bytes) (this obj : Ref) : Bool :=
  if obj = this then true
  else if (heap obj).getClass ≠ (heap this).getClass then false
  else match tested (heap obj) with
    | some bytes => decide (address = some bytes)
    | none => false

variable (heap : Ref → AddressObject) (this obj : Ref)

def Inet4Address.equals (a : Inet4Address) : Bool :=
  equalsWith heap (some a.address) AddressObject.ofInet4Address this obj

def Inet6Address.equals (a : Inet6Address) : Bool :=
  equalsWith heap (some a.address) AddressObject.ofInet4Address this obj

def MacAddress.equals (a : MacAddress) : Bool :=
  equalsWith heap (some a.address) AddressObject.ofMacAddress this obj

def SockAddr.equals (a : SockAddr) : Bool :=
  equalsWith heap a.data (fun o => o.ofInet4Address <|> o.ofInet6Address) this obj

/-- `this.equals(obj)`, by the class of `this`. -/
def equals : Bool :=
  match heap this with
  | .inet4Address a => Inet4Address.equals heap this obj a
  | .inet6Address a => Inet6Address.equals heap this obj a
  | .macAddress a => MacAddress.equals heap this obj a
  | .sockAddr a => SockAddr.equals heap this obj a

end Equals

def Inet4Address.hashCode (a : Inet4Address) : JInt := 17 * 37 + a.toInt

def Inet6Address.hashCode (a : Inet6Address) : JInt :=
  a.address.foldl (fun hashCode b => hashCode * 3 + promote b) (17 * 3)

def MacAddress.hashCode (a : MacAddress) : JInt :=
  17 * 37 + (a.toLong ^^^ a.toLong.sshiftRight 32).setWidth 32

/-- `Arrays.hashCode(byte[])`. -/
def arraysHashCode : Option Bytes → JInt
  | none => 0
  | some bytes => bytes.foldl (fun result element => 31 * result + promote element) 1

def SockAddr.hashCode (a : SockAddr) : JInt := arraysHashCode a.data

def AddressObject.hashCode : AddressObject → JInt
  | inet4Address a => a.hashCode
  | inet6Address a => a.hashCode
  | macAddress a => a.hashCode
  | sockAddr a => a.hashCode

/-- The classes whose `equals` tests for the class itself. -/
def AddressClass.TestsItself (c : AddressClass) : Prop := c = .Inet4Address ∨ c = .MacAddress

section

variable {Ref : Type} [DecidableEq Ref] {heap : Ref → AddressObject} {x y : Ref}

/-- The outcome for two objects: same class, and what the tests find is the address. -/
theorem equalsWith_iff_of_ne (hne : x ≠ y) (address : Option Bytes)
    (tested : AddressObject → Option Bytes) :
    equalsWith heap address tested x y = true ↔ (heap y).getClass = (heap x).getClass ∧
      ∃ bytes, tested (heap y) = some bytes ∧ address = some bytes := by
  rw [equalsWith, if_neg fun h => hne h.symm]
  by_cases hclass : (heap y).getClass = (heap x).getClass
  · rw [if_neg (not_not.mpr hclass)]
    cases tested (heap y) with
    | none => simp
    | some bytes => simp [hclass]
  · simp [hclass]

theorem toBytes_eq_iff {n : Nat} (a b : Address n) :
    (∃ bytes, some b.toBytes = some bytes ∧ some a.address = some bytes) ↔ a = b := by
  constructor
  · intro h
    obtain ⟨bytes, hb, ha⟩ := h
    exact Address.eq_of_toBytes_eq (Option.some.inj (ha.trans hb.symm))
  · intro h
    exact ⟨b.toBytes, rfl, congrArg (some ·.address) h⟩

/-- Only two of the classes look further than identity. -/
theorem equals_iff :
    equals heap x y = true ↔ x = y ∨ (heap x = heap y ∧ (heap x).getClass.TestsItself) := by
  by_cases hxy : x = y
  · subst hxy
    simp only [true_or, iff_true]
    unfold equals
    split <;> exact if_pos rfl
  simp only [hxy, false_or]
  unfold equals
  cases hx : heap x with
  | inet4Address a =>
    change Inet4Address.equals heap x y a = true ↔ _
    rw [Inet4Address.equals, equalsWith_iff_of_ne hxy, hx]
    cases hy : heap y with
    | inet4Address b =>
      rw [AddressObject.ofInet4Address, toBytes_eq_iff]
      simp [AddressClass.TestsItself, AddressObject.getClass]
    | _ => simp [AddressObject.getClass]
  | inet6Address a =>
    change Inet6Address.equals heap x y a = true ↔ _
    rw [Inet6Address.equals, equalsWith_iff_of_ne hxy, hx]
    cases hy : heap y with
    | inet6Address b => simp [AddressClass.TestsItself, AddressObject.ofInet4Address,
        AddressObject.getClass]
    | _ => simp [AddressObject.getClass]
  | macAddress a =>
    change MacAddress.equals heap x y a = true ↔ _
    rw [MacAddress.equals, equalsWith_iff_of_ne hxy, hx]
    cases hy : heap y with
    | macAddress b =>
      rw [AddressObject.ofMacAddress, toBytes_eq_iff]
      simp [AddressClass.TestsItself, AddressObject.getClass]
    | _ => simp [AddressObject.getClass]
  | sockAddr a =>
    change SockAddr.equals heap x y a = true ↔ _
    rw [SockAddr.equals, equalsWith_iff_of_ne hxy, hx]
    cases hy : heap y with
    | sockAddr b => simp [AddressClass.TestsItself, AddressObject.ofInet4Address,
        AddressObject.ofInet6Address, AddressObject.getClass]
    | _ => simp [AddressObject.getClass]

theorem equals_equivalence (heap : Ref → AddressObject) :
    Equivalence fun x y => equals heap x y = true := by
  constructor
  · intro x
    exact equals_iff.mpr (.inl rfl)
  · intro x y h
    rcases equals_iff.mp h with rfl | ⟨hsame, hclass⟩
    · exact h
    · exact equals_iff.mpr (.inr ⟨hsame.symm, hsame ▸ hclass⟩)
  · intro x y z hxy hyz
    rcases equals_iff.mp hxy with rfl | ⟨hsame, hclass⟩
    · exact hyz
    · rcases equals_iff.mp hyz with rfl | ⟨hsame', -⟩
      · exact hxy
      · exact equals_iff.mpr (.inr ⟨hsame.trans hsame', hclass⟩)

theorem hashCode_of_equals (h : equals heap x y = true) :
    (heap x).hashCode = (heap y).hashCode := by
  rcases equals_iff.mp h with rfl | ⟨hsame, -⟩
  · rfl
  · rw [hsame]

/-- Objects are equal if they have one class and one value, and then their hash codes are. -/
structure EqualsLaw (heap : Ref → AddressObject) (x y : Ref) : Prop where
  same : equals heap x y = true ↔ heap x = heap y
  hash : equals heap x y = true → (heap x).hashCode = (heap y).hashCode

/-- The law fails only for two objects of one value whose class tests for others. -/
theorem equalsLaw_iff (heap : Ref → AddressObject) :
    (Equivalence fun x y => equals heap x y = true) ∧
      ∀ x y, EqualsLaw heap x y ↔
        ¬ (x ≠ y ∧ heap x = heap y ∧ ¬ (heap x).getClass.TestsItself) := by
  refine ⟨equals_equivalence heap, ?_⟩
  intro x y
  constructor
  · intro h hbad
    obtain ⟨hne, hsame, hclass⟩ := hbad
    rcases equals_iff.mp (h.same.mpr hsame) with heq | ⟨-, htests⟩
    · exact hne heq
    · exact hclass htests
  · intro hgood
    refine ⟨?_, hashCode_of_equals⟩
    rw [equals_iff]
    constructor
    · intro h
      rcases h with rfl | ⟨hsame, -⟩
      · rfl
      · exact hsame
    · intro hsame
      by_cases heq : x = y
      · exact .inl heq
      · by_contra hno
        exact hgood ⟨heq, hsame, fun htests => hno (.inr ⟨hsame, htests⟩)⟩

/-- Two `Inet6Address` objects of "::1", and two `SockAddr` objects of one value. -/
theorem inet6_not_equal :
    ¬ EqualsLaw (fun _ : Bool => .inet6Address Inet6Address.LOCALHOST) true false ∧
      ¬ EqualsLaw (fun _ : Bool => .sockAddr ⟨2, some [127, 0, 0, 1]⟩) true false := by
  constructor
  · intro h
    exact absurd (h.same.mpr rfl) (by decide)
  · intro h
    exact absurd (h.same.mpr rfl) (by decide)

end

end Jxnet
