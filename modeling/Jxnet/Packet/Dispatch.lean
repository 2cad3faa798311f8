import Jxnet.Packet.Packet

namespace Jxnet

open Java ByteBuffer

/-! The protocols behind a link layer. -/

/-- The network protocols that `ProtocolType` and `Ethernet.setPacket` both name. -/
inductive NetworkProtocol where
  | ipv4
  | arp
  | ipv6
  deriving DecidableEq, Repr

namespace NetworkProtocol

def type : NetworkProtocol → JShort
  | ipv4 => 0x0800
  | arp => 0x0806
  | ipv6 => 0x86dd

def clazz : NetworkProtocol → PacketClass
  | ipv4 => .IPv4
  | arp => .ARP
  | ipv6 => .IPv6

/-- The decoder of the protocol. -/
def newInstance (R : Registries) : NetworkProtocol → Bytes → Except JavaException Packet
  | ipv4, bytes => .ipv4 <$> IPv4.newInstance R bytes
  | arp, bytes => .arp <$> ARP.newInstance R bytes
  | ipv6, bytes => .ipv6 <$> IPv6.newInstance R bytes

variable {R : Registries} {n : NetworkProtocol}

theorem getClass_of_newInstance {bytes : Bytes} {x : Packet} (h : n.newInstance R bytes = .ok x) :
    x.getClass = n.clazz := by
  cases n with
  | ipv4 =>
    obtain ⟨p, -, rfl⟩ := ok_of_map h
    rfl
  | arp =>
    obtain ⟨p, -, rfl⟩ := ok_of_map h
    rfl
  | ipv6 =>
    obtain ⟨p, -, rfl⟩ := ok_of_map h
    rfl

theorem newInstance_nil (R : Registries) (n : NetworkProtocol) :
    n.newInstance R [] = .error .bufferUnderflow := by
  cases n <;> rfl

/-- The packets of the three classes. -/
theorem cases_of_getClass {q : Packet} (h : q.getClass = n.clazz) :
    (n = .ipv4 ∧ ∃ p, q = .ipv4 p) ∨ (n = .arp ∧ ∃ a, q = .arp a) ∨
      (n = .ipv6 ∧ ∃ p, q = .ipv6 p) := by
  cases n with
  | ipv4 => cases q <;> first | exact .inl ⟨rfl, _, rfl⟩ | cases h
  | arp => cases q <;> first | exact .inr (.inl ⟨rfl, _, rfl⟩) | cases h
  | ipv6 => cases q <;> first | exact .inr (.inr ⟨rfl, _, rfl⟩) | cases h

end NetworkProtocol

namespace ProtocolType

variable {R : Registries} {n : NetworkProtocol} {type : ProtocolType}

private theorem map_comp_some {α : Type} (f : α → Packet) (r : Except JavaException α) :
    (some ∘ f) <$> r = some <$> (f <$> r) := by
  cases r <;> rfl

/-- Of the three cases of the switch, the one whose label does not fit a `short` is dead. -/
theorem decode_network (h : type.value = n.type) {p : Bytes} (hp : p ≠ []) :
    type.decode R (some p) = if n = .ipv6 then .ok none else some <$> n.newInstance R p := by
  obtain ⟨x, xs, rfl⟩ := List.exists_cons_of_ne_nil hp
  rw [decode, h, decodeWith]
  cases n with
  | ipv4 => exact map_comp_some Packet.ipv4 _
  | arp => exact map_comp_some Packet.arp _
  | ipv6 => rfl

/-- What is returned is the decoder's own result, where that protocol has a live case. -/
theorem decode_network_iff (h : type.value = n.type) {p : Bytes} (hp : p ≠ []) :
    type.decode R (some p) = some <$> n.newInstance R p ↔ n ≠ .ipv6 := by
  rw [decode_network h hp]
  by_cases hn : n = .ipv6
  · rw [if_pos hn]
    cases n.newInstance R p <;> simp [hn, Functor.map, Except.map]
  · simp [hn]

theorem decode_network_some_iff (h : type.value = n.type) (p : Bytes) (x : Packet) :
    type.decode R (some p) = .ok (some x) ↔ n ≠ .ipv6 ∧ n.newInstance R p = .ok x := by
  by_cases hp : p = []
  · subst hp
    rw [NetworkProtocol.newInstance_nil]
    simp [decode, decodeWith]
  · rw [decode_network h hp]
    by_cases hn : n = .ipv6
    · simp [hn]
    · rw [if_neg hn]
      cases n.newInstance R p <;> simp [hn, Functor.map, Except.map]

end ProtocolType

namespace Ethernet

/-- The type that `setPacket` writes by the class name of the packet, and the bytes behind it. -/
theorem setPacket_network {n : NetworkProtocol} {e e' : Ethernet} {q q' : Packet}
    (hn : q.getClass = n.clazz) (h : e.setPacket q = .ok (e', q')) :
    ∃ bytes, q.toBytes = .ok (q', bytes) ∧ e'.ethernetType.value = n.type ∧
      e'.nextPacket = some bytes := by
  unfold setPacket at h
  cases hq : q.toBytes with
  | error e =>
    rw [hq] at h
    cases h
  | ok r =>
    rw [hq] at h
    cases h
    refine ⟨r.2, rfl, ?_, rfl⟩
    obtain ⟨rfl, p, rfl⟩ | ⟨rfl, a, rfl⟩ | ⟨rfl, p, rfl⟩ := NetworkProtocol.cases_of_getClass hn
    · rfl
    · rfl
    · rfl

end Ethernet

namespace IPv4

/-- A header of 20 bytes at least, and of as many words as its length nibble counts. -/
theorem newInstance_ok_iff (R : Registries) (b : Bytes) :
    (∃ p, newInstance R b = .ok p) ↔ headerSize b ≤ b.length := by
  rw [newInstance, newInstanceAt, decode_whole]
  exact (headerPayload R).exists_ok_iff rfl

/-- The length nibble counts the words of options modulo 16. -/
theorem setLengths_nibble (p : IPv4) :
    p.setLengths.getHeaderLength.toNat = (5 + (p.options.getD []).length / 4) % 16 := by
  have hh : p.setLengths.getHeaderLength =
      BitVec.ofNat 8 (5 + (p.options.getD []).length / 4) &&& 15#8 := by
    simp [setLengths, setHeaderLength, setTotalLength, getHeaderLength]
  have hmod : (5 + (p.options.getD []).length / 4) % 256 &&& 15 =
      (5 + (p.options.getD []).length / 4) % 256 % 16 := Nat.and_two_pow_sub_one_eq_mod _ 4
  have hmask : (15#8).toNat = 15 := rfl
  rw [hh, BitVec.toNat_and, BitVec.toNat_ofNat, hmask, hmod]
  omega

/-- Where the nibble is not 0, the bytes start with it and are as long as it says. -/
theorem toBytes_ok_of_nibble {p p' : IPv4} {bytes : Bytes} (h : p.toBytes = .ok (p', bytes))
    (h0 : p.setLengths.declaredSize ≠ 0) :
    ∃ tail, bytes = p.setLengths.versionByte :: tail ∧
      bytes.length = p.setLengths.declaredSize + (p.nextPacket.getD []).length ∧
      20 ≤ bytes.length := by
  have h20 : 20 ≤ p.setLengths.writtenSize := Nat.le_add_right _ _
  have hle := p.setLengths_declaredSize_le
  by_cases hc : p.setLengths.getChecksum = 0
  · have hfit := fits_of_fresh p hc h
    rw [toBytes_fresh p hc hfit] at h
    cases h
    obtain ⟨k, hk⟩ := Nat.exists_eq_succ_of_ne_zero h0
    have hlen := p.setLengths.headerBytes_length_eq p.setLengths.headerChecksum
    have hwritten := hfit.written
    refine ⟨_, by rw [hk, headerBytes, headerFront]; rfl, ?_, ?_⟩
    · rw [List.length_append, List.length_take, hlen, Nat.min_eq_left hle]
    · rw [List.length_append, List.length_take, hlen, Nat.min_eq_left hle]
      omega
  · obtain ⟨hfit, hfill⟩ := fits_of_stored p hc h
    rw [toBytes_stored p hc hfit hfill] at h
    cases h
    refine ⟨_, rfl, ?_, ?_⟩
    · rw [List.length_append, headerBytes_length_eq, hfill]
    · rw [List.length_append, headerBytes_length_eq]
      omega

/-- Where it is 0, the payload is put over the whole header. -/
theorem toBytes_ok_of_no_nibble {p p' : IPv4} {bytes : Bytes} (h : p.toBytes = .ok (p', bytes))
    (h0 : p.setLengths.declaredSize = 0) :
    bytes = p.nextPacket.getD [] ∧ 20 ≤ bytes.length := by
  have h20 : 20 ≤ p.setLengths.writtenSize := Nat.le_add_right _ _
  by_cases hc : p.setLengths.getChecksum = 0
  · have hfit := fits_of_fresh p hc h
    rw [toBytes_fresh p hc hfit] at h
    cases h
    have hwritten := hfit.written
    rw [h0, List.take_zero, List.nil_append]
    exact ⟨rfl, by omega⟩
  · have hfill := (fits_of_stored p hc h).2
    omega

/-- The bytes that a packet is written as are an IPv4 packet again. -/
def ReadBack (p : IPv4) : Prop :=
  (5 + (p.options.getD []).length / 4) % 16 ≠ 0 ∨
    4 * (byteAt (p.nextPacket.getD []) 0 &&& 15#8).toNat ≤ (p.nextPacket.getD []).length

theorem newInstance_toBytes_iff (R : Registries) {p p' : IPv4} {bytes : Bytes}
    (h : p.toBytes = .ok (p', bytes)) :
    (∃ x, newInstance R bytes = .ok x) ↔ p.ReadBack := by
  have hnibble := setLengths_nibble p
  rw [newInstance_ok_iff, ReadBack, ← hnibble]
  by_cases h0 : p.setLengths.getHeaderLength.toNat = 0
  · obtain ⟨rfl, h20⟩ := toBytes_ok_of_no_nibble h (by rw [declaredSize]; omega)
    simp only [h0, headerSize]
    omega
  · obtain ⟨tail, hbytes, hlen, h20⟩ := toBytes_ok_of_nibble h (by rw [declaredSize]; omega)
    have hbyte : byteAt bytes 0 &&& 15#8 = p.setLengths.getHeaderLength := by
      rw [hbytes]
      exact versionByte_low p.setLengths
    simp only [headerSize, hbyte, h0, ne_eq, not_false_eq_true, true_or, iff_true]
    rw [declaredSize] at hlen
    omega

end IPv4

namespace ARP

/-- The decoder takes back what was written with the lengths of its own two addresses. -/
theorem newInstance_toBytes_iff (R : Registries) {a : ARP} {bytes : Bytes}
    (h : a.toBytes = .ok bytes) :
    (∃ x, newInstance R bytes = .ok x) ↔
      a.getHardwareAddressLength = 6 ∧ a.getProtocolAddressLength = 4 := by
  cases hd : a.hardwareType with
  | none =>
    rw [toBytes, hd] at h
    cases h
  | some hardwareType =>
    rw [toBytes_eq a hardwareType hd] at h
    cases h
    have hlen : (a.bytes hardwareType).length = 28 := by simp [ARP.bytes]
    have h4 : byteAt (a.bytes hardwareType) 4 = a.getHardwareAddressLength := rfl
    have h5 : byteAt (a.bytes hardwareType) 5 = a.getProtocolAddressLength := rfl
    rw [newInstance_ok_iff, hlen, h4, h5]
    simp

end ARP

namespace Packet

/-- What the network layer is written as is decoded as a packet of its class. An IPv6 packet's
bytes are not looked at. -/
def ReadBack : Packet → Prop
  | ipv4 p => p.ReadBack
  | arp a => a.getHardwareAddressLength = 6 ∧ a.getProtocolAddressLength = 4
  | _ => False

theorem newInstance_toBytes_iff (R : Registries) {n : NetworkProtocol} {q q' : Packet}
    {bytes : Bytes} (hn : q.getClass = n.clazz) (h : q.toBytes = .ok (q', bytes)) :
    (n ≠ .ipv6 ∧ ∃ x, n.newInstance R bytes = .ok x) ↔ q.ReadBack := by
  obtain ⟨rfl, p, rfl⟩ | ⟨rfl, a, rfl⟩ | ⟨rfl, p, rfl⟩ := NetworkProtocol.cases_of_getClass hn
  · obtain ⟨⟨p', written⟩, hp, heq⟩ := ok_of_map h
    cases heq
    rw [NetworkProtocol.newInstance, exists_map_ok_iff, IPv4.newInstance_toBytes_iff R hp]
    simp [ReadBack]
  · obtain ⟨written, ha, heq⟩ := ok_of_map h
    cases heq
    rw [NetworkProtocol.newInstance, exists_map_ok_iff, ARP.newInstance_toBytes_iff R ha]
    simp [ReadBack]
  · simp [ReadBack]

/-- `getPacket()` of a link layer gives what the decoder of the type's protocol gives, the one
of IPv6 excepted; and after `setPacket` it gives the class that was set, for the packets whose
bytes are read back. -/
theorem getPacket_network_iff (R : Registries) (n : NetworkProtocol) :
    (∀ (e : Ethernet) (p : Bytes), p ≠ [] → e.ethernetType.value = n.type →
      e.nextPacket = some p →
      ((Packet.ethernet e).getPacket R = some <$> n.newInstance R p ↔ n ≠ .ipv6)) ∧
    (∀ (s : SLL) (type : ProtocolType) (p : Bytes), p ≠ [] → s.protocol = some type →
      type.value = n.type → s.nextPacket = some p →
      ((Packet.sll s).getPacket R = some <$> n.newInstance R p ↔ n ≠ .ipv6)) ∧
    ∀ (e e' : Ethernet) (q q' : Packet), q.getClass = n.clazz → e.setPacket q = .ok (e', q') →
      ((∃ x, (Packet.ethernet e').getPacket R = .ok (some x) ∧ x.getClass = q.getClass) ↔
        q.ReadBack) := by
  refine ⟨?_, ?_, ?_⟩
  · intro e p hp htype hnext
    rw [getPacket, hnext]
    exact ProtocolType.decode_network_iff htype hp
  · intro s type p hp hprotocol htype hnext
    rw [getPacket, hprotocol, hnext]
    exact ProtocolType.decode_network_iff htype hp
  · intro e e' q q' hn h
    obtain ⟨bytes, hbytes, htype, hnext⟩ := Ethernet.setPacket_network hn h
    rw [← newInstance_toBytes_iff R hn hbytes, getPacket, hnext, hn]
    constructor
    · intro hx
      obtain ⟨x, hx, -⟩ := hx
      obtain ⟨hne, hx⟩ := (ProtocolType.decode_network_some_iff htype bytes x).mp hx
      exact ⟨hne, x, hx⟩
    · intro hx
      obtain ⟨hne, x, hx⟩ := hx
      exact ⟨x, (ProtocolType.decode_network_some_iff htype bytes x).mpr ⟨hne, hx⟩,
        NetworkProtocol.getClass_of_newInstance hx⟩

/-- An Ethernet header of type IPv6 in front of an IPv6 header. -/
def ipv6Frame : Bytes := List.replicate 12 0 ++ [0x86, 0xdd] ++ 0x60 :: List.replicate 39 0

theorem ipv6Frame_is_not_decoded :
    (∃ e p, Ethernet.newInstance Registries.initial ipv6Frame = .ok e ∧ p ≠ [] ∧
      e.ethernetType.value = NetworkProtocol.ipv6.type ∧ e.nextPacket = some p ∧
      (Packet.ethernet e).getPacket Registries.initial ≠
        some <$> NetworkProtocol.ipv6.newInstance Registries.initial p) ∧
    ∃ e' q', Ethernet.new.setPacket (.ipv6 IPv6.new) = .ok (e', q') ∧
      (Packet.ethernet e').getPacket Registries.initial = .ok none :=
  ⟨⟨_, _, rfl, by decide, by decide, rfl, by decide⟩, _, _, rfl, rfl⟩

theorem arp_is_read_back :
    ∃ e' q' x, Ethernet.new.setPacket (.arp ARP.new) = .ok (e', q') ∧
      (Packet.ethernet e').getPacket Registries.initial = .ok (some x) ∧ x.getClass = .ARP := by
  obtain ⟨-, -, h⟩ := getPacket_network_iff Registries.initial .arp
  obtain ⟨x, hx, hclass⟩ := (h Ethernet.new _ (.arp ARP.new) _ rfl rfl).mpr ⟨rfl, rfl⟩
  exact ⟨_, _, x, rfl, hx, hclass⟩

end Packet

/-! The protocols behind an IPv6 header and behind a routing header. -/

namespace Packet

variable (R : Registries) {protocol : IPProtocolType} {p : Bytes}

/-- Where `Routing` has a case that `IPProtocolType` has too, they call the same decoder. -/
theorem decodeRouting_of_decode (h1 : protocol.value.toInt ≠ 1) (h58 : protocol.value.toInt ≠ 58)
    {x : Packet} (h : protocol.decode R (some p) = .ok (some x)) :
    decodeRouting R (some protocol) (some p) = .ok (some x) := by
  cases p with
  | nil => cases h
  | cons y ys =>
    simp only [IPProtocolType.decode, decodeWith, if_neg h1, if_neg h58] at h
    simp only [decodeRouting, decodeWith]
    split_ifs at h ⊢
    all_goals first | exact h | omega | cases h

/-- The two ICMP protocols have no case in `Routing`: the payload is taken for application
bytes. -/
theorem decodeRouting_icmp (h : protocol.value.toInt = 1 ∨ protocol.value.toInt = 58)
    (hp : p ≠ []) : decodeRouting R (some protocol) (some p) = .ok (some (.unknown ⟨p⟩)) := by
  obtain ⟨y, ys, rfl⟩ := List.exists_cons_of_ne_nil hp
  have hunknown : UnknownPacket.newInstance (y :: ys) = .ok ⟨y :: ys⟩ := by
    rw [UnknownPacket.newInstance_eq, if_neg hp]
  simp only [decodeRouting, decodeWith, hunknown]
  split_ifs
  all_goals first | rfl | omega

/-- Both ICMP protocols run the same body, and neither makes application bytes of it. -/
theorem decode_icmp (h : protocol.value.toInt = 1 ∨ protocol.value.toInt = 58) (hp : p ≠ []) :
    ∃ make : ICMP → Packet, (∀ i u, make i ≠ .unknown u) ∧
      protocol.decode R (some p) = (some ∘ make) <$> eval (ICMP.read R) ⟨[], p, []⟩ := by
  obtain ⟨y, ys, rfl⟩ := List.exists_cons_of_ne_nil hp
  rw [← decode_whole]
  rcases h with h | h
  · refine ⟨.icmpv4, ?_, ?_⟩
    · intro i u hu
      cases hu
    · simp only [IPProtocolType.decode, decodeWith, h]
      rfl
  · refine ⟨.icmpv6, ?_, ?_⟩
    · intro i u hu
      cases hu
    · simp only [IPProtocolType.decode, decodeWith, h]
      rfl

/-- A routing header passes on what the IPv6 header would have decoded, the two ICMP protocols
excepted. -/
theorem getPacket_routing_iff (v : IPv6) (r : Routing) (p : Bytes) (hp : p ≠ [])
    (hv : v.nextPacket = some p) (hr : r.payload = some p)
    (hn : r.nextHeader = some v.nextHeader) :
    (∀ x, (Packet.ipv6 v).getPacket R = .ok (some x) →
      (Packet.routing r).getPacket R = .ok (some x)) ↔
    (v.nextHeader.value ≠ 1 ∧ v.nextHeader.value ≠ 58) ∨ p.length < 4 := by
  have h1 : v.nextHeader.value.toInt = 1 ↔ v.nextHeader.value = 1 :=
    @BitVec.toInt_inj 8 v.nextHeader.value 1
  have h58 : v.nextHeader.value.toInt = 58 ↔ v.nextHeader.value = 58 :=
    @BitVec.toInt_inj 8 v.nextHeader.value 58
  rw [getPacket, getPacket, hv, hr, hn, ← not_or, ← h1, ← h58]
  by_cases h : v.nextHeader.value.toInt = 1 ∨ v.nextHeader.value.toInt = 58
  · obtain ⟨make, hmake, hdecode⟩ := decode_icmp R h hp
    have hread : (∃ i, eval (ICMP.read R) ⟨[], p, []⟩ = .ok i) ↔ 4 ≤ p.length :=
      (ICMP.headerPayload R).exists_ok_iff rfl
    rw [decodeRouting_icmp R h hp, hdecode]
    constructor
    · intro hall
      right
      by_contra hlong
      obtain ⟨i, hi⟩ := hread.mpr (by omega)
      have hx := hall (make i) (by rw [hi]; rfl)
      apply hmake i ⟨p⟩
      exact (Option.some.inj (Except.ok.inj hx)).symm
    · intro hshort x hx
      obtain ⟨i, hi, -⟩ := ok_of_map hx
      have h4 := hread.mp ⟨i, hi⟩
      rcases hshort with hother | hshort
      · exact absurd h hother
      · omega
  · constructor
    · exact fun _ => .inl h
    · intro _ x hx
      exact decodeRouting_of_decode R (fun h1 => h (.inl h1)) (fun h58 => h (.inr h58)) hx

/-- An echo request of four bytes behind a routing header. -/
theorem icmp_is_hidden :
    ∃ v r p x, p ≠ [] ∧ v.nextPacket = some p ∧ r.payload = some p ∧
      r.nextHeader = some v.nextHeader ∧
      (Packet.ipv6 v).getPacket Registries.initial = .ok (some x) ∧
      (Packet.routing r).getPacket Registries.initial ≠ .ok (some x) :=
  ⟨{ IPv6.new with nextHeader := IPProtocolType.IPV6_ICMP, nextPacket := some [0x80, 0, 0, 0] },
    { Routing.new with
      nextHeader := some IPProtocolType.IPV6_ICMP, payload := some [0x80, 0, 0, 0] },
    [0x80, 0, 0, 0], _, by decide, rfl, rfl, rfl, rfl, by decide⟩

/-- An IPv6 header and a routing header around an empty datagram. -/
def datagramCarrier : IPv6 :=
  { IPv6.new with nextHeader := IPProtocolType.UDP, nextPacket := some (List.replicate 8 0) }

def datagramRouting : Routing :=
  { Routing.new with
    nextHeader := some IPProtocolType.UDP, payload := some (List.replicate 8 0) }

theorem udp_is_passed_on :
    ∃ x, (Packet.ipv6 datagramCarrier).getPacket Registries.initial = .ok (some x) ∧
      (Packet.routing datagramRouting).getPacket Registries.initial = .ok (some x) := by
  obtain ⟨x, hx⟩ : ∃ x, (Packet.ipv6 datagramCarrier).getPacket Registries.initial =
    .ok (some x) := ⟨_, rfl⟩
  have hpassed := (getPacket_routing_iff Registries.initial datagramCarrier datagramRouting
    (List.replicate 8 0) (by decide) rfl rfl rfl).mpr (.inl (by decide))
  exact ⟨x, hx, hpassed x hx⟩

end Packet

end Jxnet
