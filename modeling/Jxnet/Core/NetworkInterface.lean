import Jxnet.Core.Inet4Text
import Jxnet.Native.FindAllDevs

namespace Jxnet

open Java Text Native

/-! `LookupNetworkInterface` of `AddrUtils` and of `Core`. -/

inductive Family where
  | AF_INET
  | AF_INET6
  deriving DecidableEq, Repr

def SockAddr.getSaFamily (a : SockAddr) : Option Family :=
  if a.sa_family = 2 then some .AF_INET
  else if a.sa_family = 10 then some .AF_INET6
  else none

namespace Inet4Address

def ZERO : Inet4Address := valueOfInt 0

/-- `valueOf(byte[])`, for null too. -/
def valueOfNullable : Option Bytes → Except JavaException Inet4Address
  | none => .error .nullPointer
  | some address => valueOf address

end Inet4Address

/-- `Jxnet.OK`. -/
def OK : JInt := 0

/-- What `PcapFindAllDevs` returns, the list that it fills and the text that it leaves in the
buffer. -/
structure Devices where
  r : JInt
  ifs : List PcapIf
  errbuf : JString

section Reads

/-- A null reference raises where it is used. -/
def deref {α : Type} : Option α → Except JavaException α
  | some a => .ok a
  | none => .error .nullPointer

variable (sockaddr : Option SockAddr)

/-- `sockaddr.getData() == null`. -/
def noData : Except JavaException Bool := do
  let a ← deref sockaddr
  pure (a.data = none)

/-- `sockaddr.getSaFamily() == SockAddr.Family.AF_INET`. -/
def isInet : Except JavaException Bool := do
  let a ← deref sockaddr
  pure (a.getSaFamily = some .AF_INET)

/-- `Inet4Address.valueOf(sockaddr.getData())`. -/
def addressOf : Except JavaException Inet4Address := do
  let a ← deref sockaddr
  Inet4Address.valueOfNullable a.data

/-- `!Inet4Address.valueOf(sockaddr.getData()).equals(obj)`. -/
def differs (obj : Inet4Address) : Except JavaException Bool := do
  let address ← addressOf sockaddr
  pure (address ≠ obj)

end Reads

namespace AddrUtils

/-- The objects that the caller passes in; `none` is null. -/
structure Arguments where
  address : Option Inet4Address
  netmask : Option Inet4Address
  netaddr : Option Inet4Address
  broadaddr : Option Inet4Address
  dstaddr : Option Inet4Address
  macAddress : Option MacAddress
  description : Option JString

abbrev Code (α : Type) := Body (Except JavaException (Option JString)) Arguments α

/-- A value, or the exception that ends the method. -/
def eval {α : Type} (x : Except JavaException α) : Code α := Body.ofExcept .error x

/-- The test at the head of the inner loop. -/
def dataMissing (addr : PcapAddr) : Except JavaException Bool :=
  noData addr.addr <||> noData addr.broadaddr <||> noData addr.netmask

def isConnected (addr : PcapAddr) : Except JavaException Bool :=
  isInet addr.addr <&&> differs addr.addr Inet4Address.ZERO <&&>
    differs addr.addr Inet4Address.LOCALHOST <&&> differs addr.broadaddr Inet4Address.ZERO <&&>
    differs addr.netmask Inet4Address.ZERO

/-- The objects take the values of the entry; a destination without data is zero. -/
def fill (fromNicName : Option JString → Except JavaException (Option MacAddress)) (dev : PcapIf)
    (addr : PcapAddr) : Code Unit := do
  let address ← eval (addressOf addr.addr)
  Body.update fun args => { args with address := some address }
  let netmask ← eval (addressOf addr.netmask)
  Body.update fun args => { args with netmask := some netmask }
  let args ← Body.read id
  let address ← eval (deref args.address)
  let netmask ← eval (deref args.netmask)
  Body.update fun args => { args with
    netaddr := some (Inet4Address.networkAddress address netmask) }
  let broadaddr ← eval (addressOf addr.broadaddr)
  Body.update fun args => { args with broadaddr := some broadaddr }
  let noDst ← eval (noData addr.dstaddr)
  let dstaddr ← if noDst then pure Inet4Address.ZERO else eval (addressOf addr.dstaddr)
  Body.update fun args => { args with dstaddr := some dstaddr }
  let mac ← eval (fromNicName dev.name)
  let mac ← eval (deref mac)
  let macAddress ← Body.read Arguments.macAddress
  let _ ← eval (deref macAddress)
  Body.update fun args => { args with macAddress := some mac }
  match dev.description with
  | some text => Body.update fun args => { args with
      description := args.description.map (· ++ text) }
  | none => pure ()

/-- The body of the inner loop. -/
def lookupEntry (fromNicName : Option JString → Except JavaException (Option MacAddress))
    (dev : PcapIf) (addr : PcapAddr) : Code PUnit := do
  let missing ← eval (dataMissing addr)
  if missing then pure ⟨⟩
  else do
    let connected ← eval (isConnected addr)
    if connected then do
      fill fromNicName dev addr
      Body.exit (.ok dev.name)
    else pure ⟨⟩

/-- `macAddress` is not among the references that are checked. -/
def lookupNetworkInterface
    (fromNicName : Option JString → Except JavaException (Option MacAddress))
    (devices : Devices) : Code (Except JavaException (Option JString)) := do
  let args ← Body.read id
  let _ ← eval (deref args.address)
  let _ ← eval (deref args.netmask)
  let _ ← eval (deref args.netaddr)
  let _ ← eval (deref args.broadaddr)
  let _ ← eval (deref args.dstaddr)
  let _ ← eval (deref args.description)
  if devices.r ≠ OK then pure (.ok none)
  else do
    Body.update fun args => { args with description := some [] }
    forM devices.ifs fun dev => forM dev.addresses (lookupEntry fromNicName dev)
    pure (.ok none)

end AddrUtils

namespace Core

/-- The state is the text of `errbuf`; `none` is null. -/
abbrev Code (α : Type) := Body (Except JavaException (Option PcapIf)) (Option JString) α

def append (text : JString) : Code Unit := Body.update fun errbuf => errbuf.map (· ++ text)

/-- The variables of the inner loop. -/
structure Variables where
  address : Inet4Address
  netmask : Inet4Address
  bcastaddr : Inet4Address

/-- The block of the `try`, which an exception leaves with some of the variables assigned. -/
def assignAll (pcapAddr : PcapAddr) : Body JavaException Variables Unit := do
  let address ← Body.ofExcept id (addressOf pcapAddr.addr)
  Body.update fun v => { v with address := address }
  let netmask ← Body.ofExcept id (addressOf pcapAddr.netmask)
  Body.update fun v => { v with netmask := netmask }
  let bcastaddr ← Body.ofExcept id (addressOf pcapAddr.broadaddr)
  Body.update fun v => { v with bcastaddr := bcastaddr }

/-- The body of the inner loop; `message` is what `e.getMessage()` reads as in a text. -/
def lookupEntry (message : JavaException → JString) (pcapIf : PcapIf) (pcapAddr : PcapAddr) :
    Code PUnit := do
  let inet ← Body.ofExcept .error (isInet pcapAddr.addr)
  if inet then do
    let zero := Inet4Address.valueOfInt 0
    let (result, v) := assignAll pcapAddr ⟨zero, zero, zero⟩
    match result with
    | .ok () => pure ()
    | .error e => append (message e ++ chars "\n")
    if v.address ≠ Inet4Address.ZERO ∧ v.address ≠ Inet4Address.LOCALHOST ∧
        v.netmask ≠ Inet4Address.ZERO ∧ v.bcastaddr ≠ Inet4Address.ZERO then
      Body.exit (.ok (some pcapIf))
    else pure ⟨⟩
  else pure ⟨⟩

def lookupNetworkInterface (message : JavaException → JString) (devices : Devices) :
    Code (Except JavaException (Option PcapIf)) := do
  let errbuf ← Body.read id
  let _ ← Body.ofExcept .error (deref errbuf)
  Body.update fun _ => some devices.errbuf
  if devices.r ≠ OK then pure (.ok none)
  else do
    forM devices.ifs fun pcapIf => forM pcapIf.addresses (lookupEntry message pcapIf)
    append (chars "Check your network connection.\n")
    pure (.ok none)

end Core

/-! What both look for. -/

/-- The IPv4 address in the data. -/
def inet4Address (sockaddr : Option SockAddr) : Option Inet4Address :=
  sockaddr.bind fun a => a.data.bind fun data => (Inet4Address.valueOf data).toOption

/-- An AF_INET entry whose address is neither zero nor loopback, and whose netmask and broadcast
address are not zero. -/
structure Eligible (addr : PcapAddr) : Prop where
  family : addr.addr.bind SockAddr.getSaFamily = some .AF_INET
  address : ∃ a, inet4Address addr.addr = some a ∧ a.toBytes ≠ [0, 0, 0, 0] ∧
    a.toBytes ≠ [127, 0, 0, 1]
  netmask : ∃ a, inet4Address addr.netmask = some a ∧ a.toBytes ≠ [0, 0, 0, 0]
  broadaddr : ∃ a, inet4Address addr.broadaddr = some a ∧ a.toBytes ≠ [0, 0, 0, 0]

/-- No reference is null, and the data of an AF_INET entry is null or four bytes. -/
structure Sound (addr : PcapAddr) : Prop where
  notNull : ∀ s ∈ [addr.addr, addr.netmask, addr.broadaddr, addr.dstaddr], s ≠ none
  data : addr.addr.bind SockAddr.getSaFamily = some .AF_INET →
    ∀ s ∈ [addr.addr, addr.netmask, addr.broadaddr, addr.dstaddr],
      ∀ data, s.bind SockAddr.data = some data → data.length = 4

def HasEligible (dev : PcapIf) : Prop := ∃ addr ∈ dev.addresses, Eligible addr

/-- The first interface with an eligible entry, and null where there is none. -/
def Selects (ifs : List PcapIf) : Option PcapIf → Prop
  | some dev => ∃ before after, ifs = before ++ dev :: after ∧ HasEligible dev ∧
      ∀ d ∈ before, ¬HasEligible d
  | none => ∀ dev ∈ ifs, ¬HasEligible dev

open Classical in
noncomputable def firstEligible (ifs : List PcapIf) : Option PcapIf :=
  ifs.find? fun dev => dev.addresses.any fun addr => decide (Eligible addr)

theorem selects_firstEligible (ifs : List PcapIf) : Selects ifs (firstEligible ifs) := by
  have hany : ∀ dev : PcapIf, (dev.addresses.any fun addr =>
      @decide (Eligible addr) (Classical.propDecidable _)) = true ↔ HasEligible dev := by
    intro dev
    rw [List.any_eq_true]
    simp only [decide_eq_true_eq, HasEligible]
  cases hfirst : firstEligible ifs with
  | none =>
    intro dev hdev heligible
    exact List.find?_eq_none.mp hfirst dev hdev ((hany dev).mpr heligible)
  | some dev =>
    obtain ⟨hdev, before, after, heq, hbefore⟩ := List.find?_eq_some_iff_append.mp hfirst
    refine ⟨before, after, heq, (hany dev).mp hdev, ?_⟩
    intro d hd heligible
    have hnot := hbefore d hd
    rw [(hany d).mpr heligible] at hnot
    cases hnot

section Values

variable {a : SockAddr}

/-- Data that are null or an address, as `addressOf` and `inet4Address` read them. -/
theorem addressOf_cases (ha : ∀ data, a.data = some data → data.length = 4) :
    (a.data = none ∧ inet4Address (some a) = none ∧
      addressOf (some a) = .error .nullPointer) ∨
    ∃ x, a.data ≠ none ∧ inet4Address (some a) = some x ∧ addressOf (some a) = .ok x := by
  have haddress : addressOf (some a) = Inet4Address.valueOfNullable a.data := rfl
  cases hdata : a.data with
  | none =>
    left
    refine ⟨rfl, ?_, ?_⟩
    · simp only [inet4Address, Option.bind_some, hdata, Option.bind_none]
    · rw [haddress, hdata, Inet4Address.valueOfNullable]
  | some data =>
    right
    have hvalue : Inet4Address.valueOf data = .ok ⟨data, ha data hdata⟩ := dif_pos (ha data hdata)
    refine ⟨⟨data, ha data hdata⟩, by simp, ?_, ?_⟩
    · simp only [inet4Address, Option.bind_some, hdata, hvalue, Except.toOption]
    · rw [haddress, hdata, Inet4Address.valueOfNullable, hvalue]

theorem addressOf_of_some (ha : ∀ data, a.data = some data → data.length = 4)
    {x : Inet4Address} (hx : inet4Address (some a) = some x) : addressOf (some a) = .ok x := by
  obtain ⟨-, hnone, -⟩ | ⟨y, -, hy, haddress⟩ := addressOf_cases ha
  · rw [hx] at hnone
    cases hnone
  · rw [hx] at hy
    cases hy
    exact haddress

theorem ne_iff_toBytes_ne {n : Nat} {a b : Address n} : a ≠ b ↔ a.toBytes ≠ b.toBytes := by
  constructor
  · intro h heq
    exact h (Address.eq_of_toBytes_eq heq)
  · intro h heq
    exact h (congrArg Address.toBytes heq)

end Values

/-- The references of a sound entry, and what its addresses are if it is of AF_INET. -/
theorem Sound.exists_sockAddrs {addr : PcapAddr} (h : Sound addr) :
    ∃ a m b d, addr = ⟨some a, some m, some b, some d⟩ ∧
      (a.getSaFamily = some .AF_INET → ∀ s ∈ [a, m, b, d], ∀ data, s.data = some data →
        data.length = 4) := by
  obtain ⟨addr, netmask, broadaddr, dstaddr⟩ := addr
  obtain ⟨a, ha⟩ := Option.ne_none_iff_exists'.mp (h.notNull addr (by simp))
  obtain ⟨m, hm⟩ := Option.ne_none_iff_exists'.mp (h.notNull netmask (by simp))
  obtain ⟨b, hb⟩ := Option.ne_none_iff_exists'.mp (h.notNull broadaddr (by simp))
  obtain ⟨d, hd⟩ := Option.ne_none_iff_exists'.mp (h.notNull dstaddr (by simp))
  subst ha hm hb hd
  refine ⟨a, m, b, d, rfl, ?_⟩
  intro hfamily s hs data hdata
  apply h.data hfamily (some s) ?_ data hdata
  simpa using hs

/-- The four tests, on the addresses of the entry. -/
theorem eligible_iff {a m b d : SockAddr} :
    Eligible ⟨some a, some m, some b, some d⟩ ↔ a.getSaFamily = some .AF_INET ∧
      (∃ x, inet4Address (some a) = some x ∧ x ≠ Inet4Address.ZERO ∧
        x ≠ Inet4Address.LOCALHOST) ∧
      (∃ x, inet4Address (some m) = some x ∧ x ≠ Inet4Address.ZERO) ∧
      ∃ x, inet4Address (some b) = some x ∧ x ≠ Inet4Address.ZERO := by
  simp only [ne_iff_toBytes_ne]
  constructor
  · intro h
    exact ⟨h.family, h.address, h.netmask, h.broadaddr⟩
  · intro h
    exact ⟨h.1, h.2.1, h.2.2.1, h.2.2.2⟩

@[simp] theorem orM_ok (p q : Bool) :
    ((.ok p : Except JavaException Bool) <||> .ok q) = .ok (p || q) := by
  cases p <;> rfl

@[simp] theorem andM_ok (p q : Bool) :
    ((.ok p : Except JavaException Bool) <&&> .ok q) = .ok (p && q) := by
  cases p <;> rfl

@[simp] theorem andM_false (x : Except JavaException Bool) : (.ok false <&&> x) = .ok false := rfl

namespace AddrUtils

variable {a m b d : SockAddr}

/-- The three tests for null raise nothing. -/
theorem dataMissing_eq : dataMissing ⟨some a, some m, some b, some d⟩ =
    .ok (decide (a.data = none) || (decide (b.data = none) || decide (m.data = none))) := by
  have hnoData : ∀ s : SockAddr, noData (some s) = .ok (decide (s.data = none)) := fun _ => rfl
  simp only [dataMissing, hnoData, orM_ok]

theorem isConnected_of_not_inet (h : a.getSaFamily ≠ some .AF_INET) :
    isConnected ⟨some a, some m, some b, some d⟩ = .ok false := by
  have hinet : isInet (some a) = .ok false := congrArg Except.ok (decide_eq_false h)
  rw [isConnected, hinet, andM_false]

theorem isConnected_eq (h : a.getSaFamily = some .AF_INET) {x y z : Inet4Address}
    (ha : addressOf (some a) = .ok x) (hm : addressOf (some m) = .ok y)
    (hb : addressOf (some b) = .ok z) :
    isConnected ⟨some a, some m, some b, some d⟩ = .ok (decide (x ≠ Inet4Address.ZERO) &&
      (decide (x ≠ Inet4Address.LOCALHOST) && (decide (z ≠ Inet4Address.ZERO) &&
        decide (y ≠ Inet4Address.ZERO)))) := by
  have hinet : isInet (some a) = .ok true := congrArg Except.ok (decide_eq_true h)
  have hdiffers : ∀ {s : SockAddr} {v : Inet4Address} (obj : Inet4Address),
      addressOf (some s) = .ok v → differs (some s) obj = .ok (decide (v ≠ obj)) := by
    intro s v obj hv
    rw [differs, hv]
    rfl
  simp only [isConnected, hinet, hdiffers _ ha, hdiffers _ hm, hdiffers _ hb, andM_ok,
    Bool.true_and]

/-- The two tests together pass exactly the eligible entries, and raise nothing. -/
theorem tests_iff {addr : PcapAddr} (hsound : Sound addr) : ∃ missing connected,
    dataMissing addr = .ok missing ∧ (missing = false → isConnected addr = .ok connected) ∧
      (Eligible addr ↔ missing = false ∧ connected = true) := by
  obtain ⟨a, m, b, d, haddr, hdata⟩ := hsound.exists_sockAddrs
  subst haddr
  by_cases hfamily : a.getSaFamily = some .AF_INET
  · have hlength := hdata hfamily
    rw [dataMissing_eq, eligible_iff]
    obtain ⟨ha, hx, -⟩ | ⟨x, ha, hx, hx'⟩ := addressOf_cases (hlength a (by simp))
    · exact ⟨true, false, by simp [ha], by simp, by simp [hx]⟩
    obtain ⟨hb, hz, -⟩ | ⟨z, hb, hz, hz'⟩ := addressOf_cases (hlength b (by simp))
    · exact ⟨true, false, by simp [hb], by simp, by simp [hz]⟩
    obtain ⟨hm, hy, -⟩ | ⟨y, hm, hy, hy'⟩ := addressOf_cases (hlength m (by simp))
    · exact ⟨true, false, by simp [hm], by simp, by simp [hy]⟩
    refine ⟨false, _, by simp [ha, hb, hm], fun _ => isConnected_eq hfamily hx' hy' hz', ?_⟩
    simp only [hfamily, hx, hy, hz, Option.some.injEq, exists_eq_left', true_and,
      Bool.and_eq_true, decide_eq_true_eq]
    exact ⟨fun h => ⟨h.1.1, h.1.2, h.2.2, h.2.1⟩, fun h => ⟨⟨h.1, h.2.1⟩, h.2.2.2, h.2.2.1⟩⟩
  · refine ⟨_, false, dataMissing_eq, fun _ => isConnected_of_not_inet hfamily, ?_⟩
    rw [eligible_iff]
    simp [hfamily]

variable {fromNicName : Option JString → Except JavaException (Option MacAddress)}
  {dev : PcapIf} {addr : PcapAddr}

theorem lookupEntry_skip (hsound : Sound addr) (hnot : ¬Eligible addr) (args : Arguments) :
    lookupEntry fromNicName dev addr args = (.ok ⟨⟩, args) := by
  obtain ⟨missing, connected, hmissing, hconnected, heligible⟩ := tests_iff hsound
  unfold lookupEntry eval
  cases missing with
  | true => simp [hmissing]
  | false =>
    cases connected with
    | true => exact absurd (heligible.mpr ⟨rfl, rfl⟩) hnot
    | false => simp [hmissing, hconnected rfl]

/-- What the objects hold once they are filled: every value is there to be read. -/
theorem fill_eq {a m b d : SockAddr} {x y z : Inet4Address} (hx : addressOf (some a) = .ok x)
    (hy : addressOf (some m) = .ok y) (hz : addressOf (some b) = .ok z)
    (hd : ∀ data, d.data = some data → data.length = 4) {mac old : MacAddress}
    (hmac : fromNicName dev.name = .ok (some mac)) {args : Arguments}
    (hargs : args.macAddress = some old) :
    fill fromNicName dev ⟨some a, some m, some b, some d⟩ args =
      (.ok (), ⟨some x, some y, some (Inet4Address.networkAddress x y), some z,
        some ((inet4Address (some d)).getD Inet4Address.ZERO), some mac,
        args.description.map (· ++ dev.description.getD [])⟩) := by
  have hnoData : noData (some d) = .ok (decide (d.data = none)) := rfl
  unfold fill eval
  obtain ⟨hnone, hw, -⟩ | ⟨w, hsome, hw, hw'⟩ := addressOf_cases hd
  · cases dev.description <;> simp [hx, hy, hz, hnoData, hnone, hw, hmac, hargs, deref]
  · cases dev.description <;> simp [hx, hy, hz, hnoData, hsome, hw, hw', hmac, hargs, deref]

/-- The objects hold the values of the entry. -/
structure FilledFrom (fromNicName : Option JString → Except JavaException (Option MacAddress))
    (dev : PcapIf) (addr : PcapAddr) (args : Arguments) : Prop where
  address : args.address = inet4Address addr.addr
  netmask : args.netmask = inet4Address addr.netmask
  netaddr : args.netaddr =
    Option.map₂ Inet4Address.networkAddress (inet4Address addr.addr) (inet4Address addr.netmask)
  broadaddr : args.broadaddr = inet4Address addr.broadaddr
  dstaddr : args.dstaddr = some ((inet4Address addr.dstaddr).getD Inet4Address.ZERO)
  macAddress : fromNicName dev.name = .ok args.macAddress
  description : args.description = some (dev.description.getD [])

/-- The state throughout the loops: no object but the description has been touched. -/
structure Ready (args : Arguments) : Prop where
  macAddress : ∃ old, args.macAddress = some old
  description : args.description = some []

theorem fill_filledFrom (hsound : Sound addr) (heligible : Eligible addr) {mac : MacAddress}
    (hmac : fromNicName dev.name = .ok (some mac)) {args : Arguments} (hargs : Ready args) :
    (fill fromNicName dev addr args).1 = .ok () ∧
      FilledFrom fromNicName dev addr (fill fromNicName dev addr args).2 := by
  obtain ⟨a, m, b, d, haddr, hdata⟩ := hsound.exists_sockAddrs
  subst haddr
  obtain ⟨hfamily, ⟨x, hx, -, -⟩, ⟨y, hy, -⟩, ⟨z, hz, -⟩⟩ := eligible_iff.mp heligible
  obtain ⟨old, hold⟩ := hargs.macAddress
  have hlength := hdata hfamily
  rw [fill_eq (addressOf_of_some (hlength a (by simp)) hx)
    (addressOf_of_some (hlength m (by simp)) hy) (addressOf_of_some (hlength b (by simp)) hz)
    (hlength d (by simp)) hmac hold]
  refine ⟨rfl, hx.symm, hy.symm, ?_, hz.symm, rfl, hmac, ?_⟩
  · rw [hx, hy]
    rfl
  · rw [hargs.description]
    rfl

theorem lookupEntry_found (hsound : Sound addr) (heligible : Eligible addr) {mac : MacAddress}
    (hmac : fromNicName dev.name = .ok (some mac)) {args : Arguments} (hargs : Ready args) :
    (lookupEntry fromNicName dev addr args).1 = .error (.ok dev.name) ∧
      FilledFrom fromNicName dev addr (lookupEntry fromNicName dev addr args).2 := by
  obtain ⟨missing, connected, hmissing, hconnected, htests⟩ := tests_iff hsound
  obtain ⟨rfl, rfl⟩ := htests.mp heligible
  obtain ⟨hfill, hfilled⟩ := fill_filledFrom hsound heligible hmac hargs
  have hexit : (fill fromNicName dev addr >>= fun _ =>
      (Body.exit (.ok dev.name) : Code PUnit)) args =
        (.error (.ok dev.name), (fill fromNicName dev addr args).2) := Body.bind_of_ok hfill
  unfold lookupEntry eval
  simp only [hmissing, hconnected rfl, Body.ofExcept_ok, pure_bind, if_true, Bool.false_eq_true,
    if_false, hexit]
  exact ⟨trivial, hfilled⟩

open Classical in
/-- The two loops stop at the first interface that has an eligible entry. -/
theorem loops_find {ifs : List PcapIf} (hsound : ∀ dev ∈ ifs, ∀ addr ∈ dev.addresses, Sound addr)
    (hmac : ∀ dev ∈ ifs, ∃ mac, fromNicName dev.name = .ok (some mac)) {args : Arguments}
    (hargs : Ready args) :
    let result :=
      (forM ifs fun dev => forM dev.addresses (lookupEntry fromNicName dev) : Code PUnit) args
    (∀ dev, firstEligible ifs = some dev → result.1 = .error (.ok dev.name) ∧
      ∃ addr ∈ dev.addresses, decide (Eligible addr) = true ∧
        FilledFrom fromNicName dev addr result.2) ∧
    (firstEligible ifs = none → result.1 = .ok ⟨⟩ ∧ Ready result.2) := by
  apply Body.forM_forM_find ?_ ?_ hargs
  · intro dev hdev addr haddr hnot s hs
    rw [lookupEntry_skip (hsound dev hdev addr haddr) (of_decide_eq_false hnot)]
    exact ⟨rfl, hs⟩
  · intro dev hdev addr haddr heligible s hs
    obtain ⟨mac, hmac⟩ := hmac dev hdev
    exact lookupEntry_found (hsound dev hdev addr haddr) (of_decide_eq_true heligible) hmac hs

/-- With its arguments there, the method empties the description and enters the loops. -/
theorem lookupNetworkInterface_run (ifs : List PcapIf) (errbuf : JString)
    (address netmask netaddr broadaddr dstaddr : Inet4Address) (macAddress : Option MacAddress)
    (description : JString) :
    (lookupNetworkInterface fromNicName ⟨OK, ifs, errbuf⟩).run ⟨some address, some netmask,
        some netaddr, some broadaddr, some dstaddr, macAddress, some description⟩ =
      ((forM ifs fun dev => forM dev.addresses (lookupEntry fromNicName dev) : Code PUnit) >>=
        fun _ => pure (.ok none)).run ⟨some address, some netmask, some netaddr, some broadaddr,
          some dstaddr, macAddress, some []⟩ := rfl

end AddrUtils

namespace Core

/-- The test of the inner loop, on the variables as the `try` leaves them. -/
def Variables.IsConnected (v : Variables) : Prop :=
  v.address ≠ Inet4Address.ZERO ∧ v.address ≠ Inet4Address.LOCALHOST ∧
    v.netmask ≠ Inet4Address.ZERO ∧ v.bcastaddr ≠ Inet4Address.ZERO

/-- A variable that an exception leaves at zero fails the test. -/
theorem assignAll_isConnected_iff {addr : PcapAddr} (hsound : Sound addr)
    (hfamily : addr.addr.bind SockAddr.getSaFamily = some .AF_INET) :
    (assignAll addr ⟨Inet4Address.ZERO, Inet4Address.ZERO, Inet4Address.ZERO⟩).2.IsConnected ↔
      Eligible addr := by
  obtain ⟨a, m, b, d, haddr, hdata⟩ := hsound.exists_sockAddrs
  subst haddr
  have hinet : a.getSaFamily = some .AF_INET := hfamily
  have hlength := hdata hinet
  rw [eligible_iff]
  unfold assignAll Variables.IsConnected
  obtain ⟨-, hx, hx'⟩ | ⟨x, -, hx, hx'⟩ := addressOf_cases (hlength a (by simp))
  · simp [hx, hx']
  obtain ⟨-, hy, hy'⟩ | ⟨y, -, hy, hy'⟩ := addressOf_cases (hlength m (by simp))
  · simp [hx', hy, hy']
  obtain ⟨-, hz, hz'⟩ | ⟨z, -, hz, hz'⟩ := addressOf_cases (hlength b (by simp))
  · simp [hx', hy', hz, hz']
  · simp [hinet, hx, hx', hy, hy', hz, hz', and_assoc]

variable {message : JavaException → JString} {pcapIf : PcapIf} {addr : PcapAddr}

/-- Whether or not an exception is appended, the test decides. -/
theorem lookupEntry_of_inet (h : isInet addr.addr = .ok true) (errbuf : Option JString) :
    ((assignAll addr ⟨Inet4Address.ZERO, Inet4Address.ZERO, Inet4Address.ZERO⟩).2.IsConnected →
      (lookupEntry message pcapIf addr errbuf).1 = .error (.ok (some pcapIf))) ∧
    (¬(assignAll addr ⟨Inet4Address.ZERO, Inet4Address.ZERO, Inet4Address.ZERO⟩).2.IsConnected →
      (lookupEntry message pcapIf addr errbuf).1 = .ok ⟨⟩) := by
  unfold lookupEntry append
  rw [h]
  have hzero : Inet4Address.valueOfInt 0 = Inet4Address.ZERO := rfl
  simp only [Body.ofExcept_ok, pure_bind, if_true, hzero]
  rcases assignAll addr ⟨Inet4Address.ZERO, Inet4Address.ZERO, Inet4Address.ZERO⟩ with ⟨result, v⟩
  dsimp only
  constructor
  · intro hconnected
    unfold Variables.IsConnected at hconnected
    cases result with
    | ok => rw [if_pos hconnected]; rfl
    | error e => rw [if_pos hconnected]; rfl
  · intro hconnected
    unfold Variables.IsConnected at hconnected
    cases result with
    | ok => rw [if_neg hconnected]; rfl
    | error e => rw [if_neg hconnected]; rfl

theorem lookupEntry_fst (hsound : Sound addr) (errbuf : Option JString) :
    (Eligible addr → (lookupEntry message pcapIf addr errbuf).1 = .error (.ok (some pcapIf))) ∧
      (¬Eligible addr → (lookupEntry message pcapIf addr errbuf).1 = .ok ⟨⟩) := by
  obtain ⟨s, hs⟩ := Option.ne_none_iff_exists'.mp (hsound.notNull addr.addr (by simp))
  by_cases hfamily : s.getSaFamily = some .AF_INET
  · have hinet : isInet addr.addr = .ok true := by
      rw [hs]
      exact congrArg Except.ok (decide_eq_true hfamily)
    rw [← assignAll_isConnected_iff hsound (by rw [hs]; exact hfamily)]
    exact lookupEntry_of_inet hinet errbuf
  · have hinet : isInet addr.addr = .ok false := by
      rw [hs]
      exact congrArg Except.ok (decide_eq_false hfamily)
    constructor
    · intro heligible
      have hsome := heligible.family
      rw [hs] at hsome
      exact absurd hsome hfamily
    · intro _
      unfold lookupEntry
      rw [hinet]
      rfl

open Classical in
theorem loops_find {ifs : List PcapIf} (hsound : ∀ dev ∈ ifs, ∀ addr ∈ dev.addresses, Sound addr)
    (errbuf : Option JString) :
    let result := (forM ifs fun pcapIf =>
      forM pcapIf.addresses (lookupEntry message pcapIf) : Code PUnit) errbuf
    (∀ pcapIf, firstEligible ifs = some pcapIf → result.1 = .error (.ok (some pcapIf))) ∧
      (firstEligible ifs = none → result.1 = .ok ⟨⟩) := by
  -- nothing is asked of `errbuf`, which the exceptions of other entries change
  have hloops := Body.forM_forM_find (I := fun _ => True) (Q := fun _ _ _ => True)
    (f := lookupEntry message) (p := fun addr => decide (Eligible addr))
    (r := fun pcapIf => .ok (some pcapIf)) (l := ifs)
    (fun pcapIf hif addr haddr hnot s _ =>
      ⟨(lookupEntry_fst (hsound pcapIf hif addr haddr) s).2 (of_decide_eq_false hnot), trivial⟩)
    (fun pcapIf hif addr haddr heligible s _ =>
      ⟨(lookupEntry_fst (hsound pcapIf hif addr haddr) s).1 (of_decide_eq_true heligible),
        trivial⟩)
    (s := errbuf) trivial
  exact ⟨fun pcapIf hfirst => (hloops.1 pcapIf hfirst).1, fun hfirst => (hloops.2 hfirst).1⟩

theorem lookupNetworkInterface_run (ifs : List PcapIf) (text errbuf : JString) :
    (lookupNetworkInterface message ⟨OK, ifs, text⟩).run (some errbuf) =
      ((forM ifs fun pcapIf => forM pcapIf.addresses (lookupEntry message pcapIf) : Code PUnit) >>=
        fun _ => append (chars "Check your network connection.\n") >>=
          fun _ => pure (.ok none)).run (some text) := rfl

end Core

open AddrUtils in
/-- The two methods find the same interface: the first with an eligible entry. The older one
returns its name, with the values of that entry in the objects. -/
theorem lookups_select_same
    (fromNicName : Option JString → Except JavaException (Option MacAddress))
    (message : JavaException → JString) (ifs : List PcapIf)
    (hsound : ∀ dev ∈ ifs, ∀ addr ∈ dev.addresses, Sound addr)
    (hmac : ∀ dev ∈ ifs, ∃ mac, fromNicName dev.name = .ok (some mac))
    (address netmask netaddr broadaddr dstaddr : Inet4Address) (macAddress : MacAddress)
    (description text text' errbuf : JString) :
    ∃ selected, Selects ifs selected ∧
      let old := (AddrUtils.lookupNetworkInterface fromNicName ⟨OK, ifs, text⟩).run
        ⟨some address, some netmask, some netaddr, some broadaddr, some dstaddr, some macAddress,
          some description⟩
      let new := (Core.lookupNetworkInterface message ⟨OK, ifs, text'⟩).run (some errbuf)
      new.1 = .ok selected ∧ old.1 = .ok (selected.bind PcapIf.name) ∧
        ∀ dev, selected = some dev →
          ∃ addr ∈ dev.addresses, Eligible addr ∧ FilledFrom fromNicName dev addr old.2 := by
  refine ⟨firstEligible ifs, selects_firstEligible ifs, ?_⟩
  have hready : Ready ⟨some address, some netmask, some netaddr, some broadaddr, some dstaddr,
    some macAddress, some []⟩ := ⟨⟨macAddress, rfl⟩, rfl⟩
  have hold := AddrUtils.loops_find hsound hmac hready
  have hnew := @Core.loops_find message ifs hsound (some text')
  rw [AddrUtils.lookupNetworkInterface_run, Core.lookupNetworkInterface_run]
  cases hfirst : firstEligible ifs with
  | some dev =>
    obtain ⟨holdError, addr, haddr, heligible, hfilled⟩ := hold.1 dev hfirst
    rw [Body.run_of_error holdError, Body.run_of_error (hnew.1 dev hfirst)]
    refine ⟨rfl, rfl, ?_⟩
    intro dev' hdev
    cases hdev
    exact ⟨addr, haddr, by simpa using heligible, hfilled⟩
  | none =>
    obtain ⟨holdOk, -⟩ := hold.2 hfirst
    rw [Body.run_of_ok holdOk, Body.run_of_ok (hnew.2 hfirst)]
    refine ⟨rfl, rfl, ?_⟩
    intro dev hdev
    cases hdev

private def inet (data : Option Bytes) : Option SockAddr := some ⟨2, data⟩

/-- "lo", without a broadcast address, and "eth0". -/
private def lo : PcapIf :=
  ⟨some (chars "lo"), none, [⟨inet (some [127, 0, 0, 1]), inet (some [255, 0, 0, 0]), inet none,
    inet none⟩], 1⟩

private def eth0 : PcapIf :=
  ⟨some (chars "eth0"), none, [⟨inet (some [192, 168, 0, 2]), inet (some [255, 255, 255, 0]),
    inet (some [192, 168, 0, 255]), inet none⟩], 0⟩

theorem lookups_select_eth0 :
    let fromNicName := fun _ : Option JString => Except.ok (some MacAddress.ZERO)
    let zero := Inet4Address.ZERO
    let old := (AddrUtils.lookupNetworkInterface fromNicName ⟨OK, [lo, eth0], []⟩).run
      ⟨some zero, some zero, some zero, some zero, some zero, some MacAddress.ZERO, some []⟩
    let new := (Core.lookupNetworkInterface (fun _ => chars "null") ⟨OK, [lo, eth0], []⟩).run
      (some [])
    ∃ selected, Selects [lo, eth0] selected ∧ new.1 = .ok selected ∧
      old.1 = .ok (selected.bind PcapIf.name) := by
  intro fromNicName zero old new
  have hsound : ∀ dev ∈ [lo, eth0], ∀ addr ∈ dev.addresses, Sound addr := by
    simp only [List.forall_mem_cons, lo, eth0, List.not_mem_nil, false_imp_iff, implies_true,
      and_true]
    refine ⟨⟨by simp [inet], ?_⟩, ⟨by simp [inet], ?_⟩⟩
    · intro _
      simp [inet]
    · intro _
      simp [inet]
  obtain ⟨selected, hselects, hnew, hold, -⟩ := lookups_select_same fromNicName
    (fun _ => chars "null") [lo, eth0] hsound (fun _ _ => ⟨MacAddress.ZERO, rfl⟩) zero zero zero
    zero zero MacAddress.ZERO [] [] [] []
  exact ⟨selected, hselects, hnew, hold⟩

end Jxnet
