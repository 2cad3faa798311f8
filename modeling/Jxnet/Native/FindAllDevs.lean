import Jxnet.Core.Address
import Jxnet.Framework.JString
import Jxnet.Native.Jni

namespace Jxnet

open Java

namespace Native

/-- The bytes of a C string before its end. -/
abbrev CString := Bytes

/-! What `pcap_findalldevs` returns; `none` is NULL. -/

/-- The numbers that the headers of the system give to the families. -/
structure Families where
  AF_INET : BitVec 16
  AF_INET6 : BitVec 16
  distinct : AF_INET ≠ AF_INET6

/-- A `struct sockaddr`, with what it holds read as a `sockaddr_in` and as a `sockaddr_in6`. -/
structure Sockaddr where
  sa_family : BitVec 16
  sin_addr : Vector JByte 4
  sin6_addr : Vector JByte 16
  deriving DecidableEq

/-- `pcap_addr_t`, the next of which is the next of a list. -/
structure PcapAddrT where
  addr : Option Sockaddr
  netmask : Option Sockaddr
  broadaddr : Option Sockaddr
  dstaddr : Option Sockaddr
  deriving DecidableEq

/-- `pcap_if_t`, the next of which is the next of a list. -/
structure PcapIfT where
  name : Option CString
  description : Option CString
  addresses : List PcapAddrT
  flags : BitVec 32
  deriving DecidableEq

structure Found where
  r : JInt
  alldevsp : List PcapIfT
  errbuf : CString

/-! The Java objects; `none` is null. -/

structure PcapAddr where
  addr : Option SockAddr
  netmask : Option SockAddr
  broadaddr : Option SockAddr
  dstaddr : Option SockAddr
  deriving DecidableEq

structure PcapIf where
  name : Option JString
  description : Option JString
  addresses : List PcapAddr
  flags : JInt
  deriving DecidableEq

/-- `new SockAddr()`. -/
def emptySockAddr : SockAddr := ⟨0, none⟩

/-- `new PcapAddr()`. -/
def emptyPcapAddr : PcapAddr := ⟨none, none, none, none⟩

/-- `new PcapIf()`. -/
def emptyPcapIf : PcapIf := ⟨none, none, [], 0⟩

/-- The arguments of Java and the exceptions thrown so far. -/
structure Listing where
  list : List PcapIf
  errbuf : JString
  thrown : List Thrown
  deriving DecidableEq

abbrev Walk (α : Type) := Body JInt Listing α

/-- `(*env)->NewByteArray(env, n)`. -/
def newByteArray (n : Nat) : Bytes := List.replicate n 0

/-- `(*env)->SetByteArrayRegion(env, array, start, len, buf)`. -/
def setByteArrayRegion (array : Bytes) (start len : Nat) (buf : Bytes) : Bytes :=
  array.take start ++ (buf.take len ++ array.drop (start + len))

section Copy

variable (af : Families)

def newByteAddr : Option Sockaddr → Option Bytes
  | none => none
  | some addr =>
    if addr.sa_family = af.AF_INET then
      some (setByteArrayRegion (newByteArray 4) 0 4 addr.sin_addr.toList)
    else if addr.sa_family = af.AF_INET6 then
      some (setByteArrayRegion (newByteArray 16) 0 16 addr.sin6_addr.toList)
    else none

def newSockAddr : Option Sockaddr → SockAddr
  | none => emptySockAddr
  | some addr =>
    let sockaddr := { emptySockAddr with sa_family := addr.sa_family }
    { sockaddr with data := newByteAddr af (some addr) }

/-- The fields of a new `PcapAddr`, set one after another. -/
def newPcapAddr (addr : PcapAddrT) : PcapAddr :=
  let pcap_addr := { emptyPcapAddr with addr := some (newSockAddr af addr.addr) }
  let pcap_addr := { pcap_addr with netmask := some (newSockAddr af addr.netmask) }
  let pcap_addr := { pcap_addr with broadaddr := some (newSockAddr af addr.broadaddr) }
  { pcap_addr with dstaddr := some (newSockAddr af addr.dstaddr) }

/-- `NewStringUTF` of the environment, and `List.add` of the lists, which may refuse. -/
structure Environment where
  newStringUTF : CString → JString
  add : {α : Type} → List α → α → Bool × List α

variable (env : Environment)

/-- The walk along the addresses of an interface. -/
def walkAddresses (pcap_if : PcapIf) : List PcapAddrT → Walk PcapIf
  | [] => pure pcap_if
  | addr :: next => do
    let (added, list_pcap_addr) := env.add pcap_if.addresses (newPcapAddr af addr)
    if added = false then Body.exit (-1) else pure ()
    walkAddresses { pcap_if with addresses := list_pcap_addr } next

/-- The walk along the devices from `dev` on: the flags are those of the first of all. -/
def walkDevices (alldevsp : PcapIfT) : List PcapIfT → Walk Unit
  | [] => pure ()
  | dev :: next => do
    let pcap_if := { emptyPcapIf with name := dev.name.map env.newStringUTF }
    let pcap_if := { pcap_if with description := dev.description.map env.newStringUTF }
    let pcap_if ← walkAddresses af env pcap_if dev.addresses
    let pcap_if := { pcap_if with flags := alldevsp.flags }
    let (added, list) ← Body.read fun s => env.add s.list pcap_if
    Body.update fun s => { s with list := list }
    if added = false then Body.exit (-1) else pure ()
    walkDevices alldevsp next

/-- `if (CheckNotNull(env, jobj, NULL) == NULL) return -1;`. -/
def requireNotNull : Option Unit → Walk Unit
  | some _ => pure ()
  | none => do
    Body.update fun s => { s with thrown := s.thrown ++ [⟨.nullPointer, .null⟩] }
    Body.exit (-1)

def setStringBuilder (str : CString) : Walk Unit :=
  Body.update fun s => { s with errbuf := env.newStringUTF str }

/-- `PcapFindAllDevs`, with what `pcap_findalldevs` returns. -/
def pcapFindAllDevs (found : Found) (jlist_pcap_if jerrbuf : Option Unit) : Walk JInt := do
  requireNotNull jlist_pcap_if
  requireNotNull jerrbuf
  match found.alldevsp with
  | [] => do
    setStringBuilder env found.errbuf
    pure found.r
  | alldevsp :: next =>
    if found.r ≠ 0 then do
      setStringBuilder env found.errbuf
      pure found.r
    else do
      walkDevices af env alldevsp (alldevsp :: next)
      pure found.r

/-! What is expected of the copies. -/

structure CopiesSockaddr (addr : Option Sockaddr) (jaddr : SockAddr) : Prop where
  null : addr = none → jaddr = emptySockAddr
  sa_family : ∀ a, addr = some a → jaddr.sa_family = a.sa_family
  inet : ∀ a, addr = some a → a.sa_family = af.AF_INET → jaddr.data = some a.sin_addr.toList
  inet6 : ∀ a, addr = some a → a.sa_family = af.AF_INET6 → jaddr.data = some a.sin6_addr.toList
  other : ∀ a, addr = some a → a.sa_family ≠ af.AF_INET → a.sa_family ≠ af.AF_INET6 →
    jaddr.data = none

structure CopiesAddr (node : PcapAddrT) (jaddr : PcapAddr) : Prop where
  addr : ∃ a, jaddr.addr = some a ∧ CopiesSockaddr af node.addr a
  netmask : ∃ a, jaddr.netmask = some a ∧ CopiesSockaddr af node.netmask a
  broadaddr : ∃ a, jaddr.broadaddr = some a ∧ CopiesSockaddr af node.broadaddr a
  dstaddr : ∃ a, jaddr.dstaddr = some a ∧ CopiesSockaddr af node.dstaddr a

structure CopiesIf (dev : PcapIfT) (jif : PcapIf) : Prop where
  name : jif.name = dev.name.map env.newStringUTF
  description : jif.description = dev.description.map env.newStringUTF
  addresses : List.Forall₂ (CopiesAddr af) dev.addresses jif.addresses
  flags : jif.flags = dev.flags

/-- A copy of each device in order is appended to the list, and the call returns 0. -/
def ListsDevices (devs : List PcapIfT) (result : JInt × Listing) (before : Listing) : Prop :=
  result.1 = 0 ∧ result.2.thrown = before.thrown ∧
    ∃ js, result.2.list = before.list ++ js ∧ List.Forall₂ (CopiesIf af env) devs js

def Environment.Adds (env : Environment) : Prop :=
  ∀ {α : Type} (l : List α) (x : α), env.add l x = (true, l ++ [x])

section Proofs

variable {af env}

theorem setByteArrayRegion_full {n : Nat} (bytes : Vector JByte n) :
    setByteArrayRegion (newByteArray n) 0 n bytes.toList = bytes.toList := by
  simp [setByteArrayRegion, newByteArray]

theorem newSockAddr_copies (addr : Option Sockaddr) :
    CopiesSockaddr af addr (newSockAddr af addr) := by
  cases addr with
  | none => constructor <;> simp [newSockAddr]
  | some a =>
    have hdistinct := af.distinct
    constructor
    · simp
    · intro a ha
      cases ha
      rfl
    · intro a ha hfamily
      cases ha
      simp [newSockAddr, newByteAddr, hfamily, setByteArrayRegion_full]
    · intro a ha hfamily
      cases ha
      simp [newSockAddr, newByteAddr, hfamily, hdistinct.symm, setByteArrayRegion_full]
    · intro a ha hinet hinet6
      cases ha
      simp [newSockAddr, newByteAddr, hinet, hinet6]

theorem newPcapAddr_copies (addr : PcapAddrT) : CopiesAddr af addr (newPcapAddr af addr) :=
  ⟨⟨_, rfl, newSockAddr_copies _⟩, ⟨_, rfl, newSockAddr_copies _⟩,
    ⟨_, rfl, newSockAddr_copies _⟩, ⟨_, rfl, newSockAddr_copies _⟩⟩

/-- The object made for a device. -/
def newPcapIf (af : Families) (env : Environment) (flags : BitVec 32) (dev : PcapIfT) : PcapIf :=
  ⟨dev.name.map env.newStringUTF, dev.description.map env.newStringUTF,
    dev.addresses.map (newPcapAddr af), flags⟩

theorem newPcapIf_copies_iff {flags : BitVec 32} {dev : PcapIfT} :
    CopiesIf af env dev (newPcapIf af env flags dev) ↔ flags = dev.flags := by
  constructor
  · intro h
    exact h.flags
  · intro h
    refine ⟨rfl, rfl, ?_, h⟩
    rw [newPcapIf, List.forall₂_map_right_iff, List.forall₂_same]
    exact fun addr _ => newPcapAddr_copies addr

theorem walkAddresses_apply (hadd : env.Adds) (addrs : List PcapAddrT) (pcap_if : PcapIf)
    (s : Listing) : walkAddresses af env pcap_if addrs s =
      (.ok { pcap_if with
        addresses := pcap_if.addresses ++ addrs.map (newPcapAddr af) }, s) := by
  induction addrs generalizing pcap_if with
  | nil => simp [walkAddresses]
  | cons addr addrs ih =>
    rw [walkAddresses, hadd]
    simp [ih]

theorem walkDevices_apply (hadd : env.Adds) (alldevsp : PcapIfT) (devs : List PcapIfT)
    (s : Listing) : walkDevices af env alldevsp devs s =
      (.ok (), { s with list := s.list ++ devs.map (newPcapIf af env alldevsp.flags) }) := by
  induction devs generalizing s with
  | nil => simp [walkDevices]
  | cons dev devs ih =>
    rw [walkDevices]
    simp [walkAddresses_apply hadd, hadd _ _, ih, newPcapIf, emptyPcapIf]

theorem pcapFindAllDevs_run (hadd : env.Adds) (alldevsp : PcapIfT) (next : List PcapIfT)
    (errbuf : CString) (s : Listing) :
    (pcapFindAllDevs af env ⟨0, alldevsp :: next, errbuf⟩ (some ()) (some ())).run s =
      (0, { s with
        list := s.list ++ (alldevsp :: next).map (newPcapIf af env alldevsp.flags) }) := by
  simp [pcapFindAllDevs, requireNotNull, Body.run, Body.map_apply, walkDevices_apply hadd]

/-- Without a device the builder takes the text of the buffer. -/
theorem pcapFindAllDevs_run_nil (r : JInt) (errbuf : CString) (s : Listing) :
    (pcapFindAllDevs af env ⟨r, [], errbuf⟩ (some ()) (some ())).run s =
      (r, { s with errbuf := env.newStringUTF errbuf }) := rfl

theorem forall₂_copies_iff {flags : BitVec 32} {devs : List PcapIfT} :
    List.Forall₂ (CopiesIf af env) devs (devs.map (newPcapIf af env flags)) ↔
      ∀ dev ∈ devs, flags = dev.flags := by
  rw [List.forall₂_map_right_iff, List.forall₂_same]
  simp only [newPcapIf_copies_iff]

end Proofs

end Copy

theorem listsDevices_iff (af : Families) {env : Environment} (hadd : env.Adds)
    (devs : List PcapIfT) (errbuf : CString) (s : Listing) :
    ListsDevices af env devs
        ((pcapFindAllDevs af env ⟨0, devs, errbuf⟩ (some ()) (some ())).run s) s ↔
      ∀ dev ∈ devs, devs.head?.map PcapIfT.flags = some dev.flags := by
  cases devs with
  | nil =>
    rw [pcapFindAllDevs_run_nil]
    constructor
    · simp
    · intro _
      exact ⟨rfl, rfl, [], (List.append_nil _).symm, .nil⟩
  | cons alldevsp next =>
    have hhead : (∀ dev ∈ alldevsp :: next,
        (alldevsp :: next).head?.map PcapIfT.flags = some dev.flags) ↔
          ∀ dev ∈ alldevsp :: next, alldevsp.flags = dev.flags := by
      simp only [List.head?_cons, Option.map_some, Option.some.injEq]
    rw [pcapFindAllDevs_run hadd, hhead, ← forall₂_copies_iff]
    constructor
    · intro h
      obtain ⟨-, -, js, hlist, hcopies⟩ := h
      rw [List.append_cancel_left hlist]
      exact hcopies
    · intro h
      exact ⟨rfl, rfl, _, rfl, h⟩

/-- The families of Linux. -/
def linux : Families := ⟨2, 10, by decide⟩

/-- Texts of single bytes, and lists that take what they are given. -/
def plain : Environment := ⟨fun s => s.map (BitVec.setWidth 16), fun l x => (true, l ++ [x])⟩

theorem plain_adds : plain.Adds := fun _ _ => rfl

/-- "lo" with an IPv4 address and a link-layer address. -/
def loopback : PcapIfT :=
  ⟨some [0x6c, 0x6f], none, [⟨some ⟨2, #v[127, 0, 0, 1], .replicate 16 0⟩, none, none, none⟩,
    ⟨some ⟨17, .replicate 4 0, .replicate 16 0⟩, none, none, none⟩], 1⟩

/-- "any", which is not a loopback device. -/
def pseudo : PcapIfT := ⟨some [0x61, 0x6e, 0x79], none, [], 0⟩

theorem listsDevices_loopback :
    ListsDevices linux plain [loopback, { loopback with name := none }]
      ((pcapFindAllDevs linux plain ⟨0, [loopback, { loopback with name := none }], []⟩ (some ())
        (some ())).run ⟨[], [], []⟩) ⟨[], [], []⟩ := by
  apply (listsDevices_iff linux plain_adds [loopback, { loopback with name := none }] []
    ⟨[], [], []⟩).mpr
  intro dev hdev
  rw [List.mem_pair] at hdev
  obtain rfl | rfl := hdev <;> rfl

theorem flags_of_first :
    ¬ ListsDevices linux plain [loopback, pseudo]
      ((pcapFindAllDevs linux plain ⟨0, [loopback, pseudo], []⟩ (some ())
        (some ())).run ⟨[], [], []⟩) ⟨[], [], []⟩ := by
  rw [pcapFindAllDevs_run plain_adds]
  intro h
  obtain ⟨-, -, js, hlist, hcopies⟩ := h
  rw [← List.append_cancel_left hlist, forall₂_copies_iff] at hcopies
  exact absurd (hcopies pseudo (by simp)) (by decide)

end Native

end Jxnet
