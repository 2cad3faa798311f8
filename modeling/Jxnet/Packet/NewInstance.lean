import Jxnet.Packet.Packet

namespace Jxnet

open Java ByteBuffer

namespace Packet

variable (R : Registries)

/-- `newInstance(bytes, offset, length)` of each class that has one. -/
def newInstanceAt (c : PacketClass) (bytes : Bytes) (offset length : Nat) :
    Option (Except JavaException Packet) :=
  match c with
  | .Ethernet => some (.ethernet <$> Ethernet.newInstanceAt R bytes offset length)
  | .SLL => some (.sll <$> SLL.newInstanceAt R bytes offset length)
  | .RadioTap => some (.radioTap <$> RadioTap.newInstanceAt bytes offset length)
  | .ARP => some (.arp <$> ARP.newInstanceAt R bytes offset length)
  | .IPv4 => some (.ipv4 <$> IPv4.newInstanceAt R bytes offset length)
  | .IPv6 => some (.ipv6 <$> IPv6.newInstanceAt R bytes offset length)
  | .Routing => some (.routing <$> Routing.newInstanceAt R bytes offset length)
  | .Fragment => some (.fragment <$> Fragment.newInstanceAt R bytes offset length)
  | .TCP => some (.tcp <$> TCP.newInstanceAt bytes offset length)
  | .UDP => some (.udp <$> UDP.newInstanceAt bytes offset length)
  | .ICMPv4 => some (.icmpv4 <$> ICMPv4.newInstanceAt R bytes offset length)
  | .ICMPv6 => some (.icmpv6 <$> ICMPv6.newInstanceAt R bytes offset length)
  | .UnknownPacket => some (.unknown <$> UnknownPacket.newInstanceAt bytes offset length)
  | .other _ => none

/-- `newInstance(bytes)`. -/
def newInstance (c : PacketClass) (bytes : Bytes) : Option (Except JavaException Packet) :=
  newInstanceAt R c bytes 0 bytes.length

/-- The class stores a payload, and the bytes hold the header in front of it. -/
def HasPayload (c : PacketClass) (bytes : Bytes) : Prop :=
  match c with
  | .Ethernet => 14 ≤ bytes.length ∧ (Ethernet.Tagged R bytes → 18 ≤ bytes.length)
  | .SLL => 16 ≤ bytes.length
  | .RadioTap => 8 ≤ bytes.length
  | .IPv4 => IPv4.headerSize bytes ≤ bytes.length
  | .IPv6 => 40 ≤ bytes.length
  | .Routing => 4 ≤ bytes.length ∧ 0 ≤ (byteAt bytes 1).toInt ∧
      8 + 8 * (byteAt bytes 1).toNat ≤ bytes.length
  | .TCP => 20 ≤ bytes.length
  | .UDP => 8 ≤ bytes.length
  | .ICMPv4 | .ICMPv6 => 4 ≤ bytes.length
  | .UnknownPacket => 0 < bytes.length
  | .ARP | .Fragment | .other _ => False

variable {R} {bytes : Bytes} {offset length : Nat}

private theorem sameResult_map {α : Type} (f : α → Packet) (hf : Function.Injective f)
    (r r' : Except JavaException α) : SameResult (f <$> r) (f <$> r') ↔ SameResult r r' := by
  cases r with
  | ok a =>
    cases r' with
    | ok b => exact hf.eq_iff
    | error e => rfl
  | error e =>
    cases r' with
    | ok b => rfl
    | error e' => rfl

private theorem take_eq_nil (h : offset + length ≤ bytes.length) :
    bytes.take offset = [] ↔ offset = 0 := by
  rw [← List.length_eq_zero_iff, List.length_take]
  omega

/-- A decoder with header and payload, on a slice and on a copy of it. -/
private theorem slice_of_headerPayload {α : Type} {m : Op α} {payload : α → Option Bytes}
    {header : Bytes → Except JavaException Nat} (hm : HeaderPayload m payload header)
    (f : α → Packet) (hf : Function.Injective f) (h : offset + length ≤ bytes.length) {c : Prop}
    (hc : (∃ e, header ((bytes.drop offset).take length) = .error e) ↔ ¬ c) :
    SameResult (f <$> decode m bytes offset length)
      (f <$> decode m ((bytes.drop offset).take length) 0
        ((bytes.drop offset).take length).length) ↔
      offset = 0 ∨ ¬ c := by
  rw [sameResult_map f hf, decode_eq m bytes offset length h, decode_whole, hm.slice_iff,
    take_eq_nil h, hc]

private theorem slice_of_local {α : Type} {m : Op α} (hm : Local m) (f : α → Packet)
    (hf : Function.Injective f) (h : offset + length ≤ bytes.length) :
    SameResult (f <$> decode m bytes offset length)
      (f <$> decode m ((bytes.drop offset).take length) 0
        ((bytes.drop offset).take length).length) := by
  rw [sameResult_map f hf, decode_eq m bytes offset length h, decode_whole, hm.eval_eq]
  exact sameResult_refl _

private theorem ethernet_header_underflowsIff (b : Bytes) :
    UnderflowsIff (Ethernet.header R b)
      (¬ (14 ≤ b.length ∧ (Ethernet.Tagged R b → 18 ≤ b.length))) := by
  rw [Ethernet.header]
  split
  · next h => exact (fixedHeader_underflowsIff 18 b).congr (by simp [h.1, h.2])
  · next h =>
    refine (fixedHeader_underflowsIff 14 b).congr
      (not_congr ⟨fun h14 => ⟨h14, fun ht => ?_⟩, And.left⟩)
    exact absurd ⟨h14, ht⟩ h

private theorem tcp_header_underflowsIff (b : Bytes) :
    UnderflowsIff (TCP.header b) (¬ 20 ≤ b.length) := by
  by_cases h : 20 ≤ b.length
  · simp [UnderflowsIff, TCP.header, h]
  · simp [UnderflowsIff, TCP.header, h]

private theorem routing_header_error (b : Bytes) :
    (∃ e, Routing.header b = .error e) ↔ ¬ (4 ≤ b.length ∧ 0 ≤ (byteAt b 1).toInt ∧
      8 + 8 * (byteAt b 1).toNat ≤ b.length) := by
  rw [Routing.header]
  split_ifs with h4 h0
  · simp
    omega
  · simp
    omega
  · rw [(fixedHeader_underflowsIff _ b).1]
    omega

private theorem unknown_slice (h : offset + length ≤ bytes.length) :
    SameResult (Packet.unknown <$> UnknownPacket.newInstanceAt bytes offset length)
      (Packet.unknown <$> UnknownPacket.newInstance ((bytes.drop offset).take length)) ↔
      offset = 0 ∨ ¬ 0 < ((bytes.drop offset).take length).length := by
  have hlen : ((bytes.drop offset).take length).length = length := by simp; omega
  have hnil : (bytes.drop offset).take length = [] ↔ length = 0 := by
    rw [← List.length_eq_zero_iff, hlen]
  rw [sameResult_map _ (fun a b hab => Packet.unknown.inj hab), UnknownPacket.newInstance_eq,
    UnknownPacket.newInstanceAt, decode_eq _ _ _ _ h, UnknownPacket.read_eq, hlen]
  simp only [take_eq_nil h]
  by_cases h0 : length = 0
  · rw [if_pos (hnil.mpr h0)]
    by_cases hb : bytes.length = 0
    · simp [UnknownPacket.checkBounds, h0, hb, SameResult]
    · simp [UnknownPacket.checkBounds, h0, hb, SameResult]
  · have hcheck : UnknownPacket.checkBounds bytes offset length = .ok () := by
      rw [UnknownPacket.checkBounds, if_neg (by omega), if_neg h0, if_neg (by omega)]
    rw [hcheck, if_neg (fun hn => h0 (hnil.mp hn))]
    by_cases ho : offset = 0
    · simp [ho, SameResult]
    · simp [ho, SameResult, h0]

/-- A slice decodes like a copy of it exactly where it starts at offset 0, or no payload is
read from it. -/
theorem newInstanceAt_iff (R : Registries) (c : PacketClass) (bytes : Bytes)
    (offset length : Nat) (h : offset + length ≤ bytes.length)
    (r r' : Except JavaException Packet) (hr : newInstanceAt R c bytes offset length = some r)
    (hr' : newInstance R c ((bytes.drop offset).take length) = some r') :
    SameResult r r' ↔ offset = 0 ∨ ¬ HasPayload R c ((bytes.drop offset).take length) := by
  cases c with
  | Ethernet =>
    cases hr
    cases hr'
    exact slice_of_headerPayload (Ethernet.headerPayload R) _ (fun a b => Packet.ethernet.inj) h
      (ethernet_header_underflowsIff _).1
  | SLL =>
    cases hr
    cases hr'
    exact slice_of_headerPayload (SLL.headerPayload R) _ (fun a b => Packet.sll.inj) h
      (fixedHeader_underflowsIff 16 _).1
  | RadioTap =>
    cases hr
    cases hr'
    exact slice_of_headerPayload RadioTap.headerPayload _ (fun a b => Packet.radioTap.inj) h
      (fixedHeader_underflowsIff 8 _).1
  | ARP =>
    cases hr
    cases hr'
    exact iff_of_true (slice_of_local (ARP.read_local R) _ (fun a b => Packet.arp.inj) h)
      (.inr id)
  | IPv4 =>
    cases hr
    cases hr'
    exact slice_of_headerPayload (IPv4.headerPayload R) _ (fun a b => Packet.ipv4.inj) h
      (fixedHeader_underflowsIff _ _).1
  | IPv6 =>
    cases hr
    cases hr'
    exact slice_of_headerPayload (IPv6.headerPayload R) _ (fun a b => Packet.ipv6.inj) h
      (fixedHeader_underflowsIff 40 _).1
  | Routing =>
    cases hr
    cases hr'
    exact slice_of_headerPayload (Routing.headerPayload R) _ (fun a b => Packet.routing.inj) h
      (routing_header_error _)
  | Fragment =>
    cases hr
    cases hr'
    exact iff_of_true
      (slice_of_local (Fragment.read_local R) _ (fun a b => Packet.fragment.inj) h) (.inr id)
  | TCP =>
    cases hr
    cases hr'
    exact slice_of_headerPayload TCP.headerPayload _ (fun a b => Packet.tcp.inj) h
      (tcp_header_underflowsIff _).1
  | UDP =>
    cases hr
    cases hr'
    exact slice_of_headerPayload UDP.headerPayload _ (fun a b => Packet.udp.inj) h
      (fixedHeader_underflowsIff 8 _).1
  | ICMPv4 =>
    cases hr
    cases hr'
    exact slice_of_headerPayload (ICMP.headerPayload R) _ (fun a b => Packet.icmpv4.inj) h
      (fixedHeader_underflowsIff 4 _).1
  | ICMPv6 =>
    cases hr
    cases hr'
    exact slice_of_headerPayload (ICMP.headerPayload R) _ (fun a b => Packet.icmpv6.inj) h
      (fixedHeader_underflowsIff 4 _).1
  | UnknownPacket =>
    cases hr
    cases hr'
    exact unknown_slice h
  | other name => cases hr

/-- A datagram header behind one other byte: its slice underflows, a copy decodes. -/
def slicedDatagram : Bytes := [0, 0, 1, 0, 2, 0, 8, 0, 0]

theorem slice_differs :
    ∃ r r', newInstanceAt Registries.initial .UDP slicedDatagram 1 8 = some r ∧
      newInstance Registries.initial .UDP ((slicedDatagram.drop 1).take 8) = some r' ∧
      1 + 8 ≤ slicedDatagram.length ∧ ¬ SameResult r r' :=
  ⟨_, _, rfl, rfl, by decide, by decide⟩

theorem newInstanceAt_front :
    SameResult (Packet.udp <$> UDP.newInstanceAt slicedDatagram 0 8)
      (Packet.udp <$> UDP.newInstance (slicedDatagram.take 8)) :=
  (newInstanceAt_iff Registries.initial .UDP slicedDatagram 0 8 (by decide) _ _ rfl rfl).mpr
    (.inl rfl)

/-! Whole arrays: the lengths at which each decoder fails. -/

theorem tagged_initial (b : Bytes) :
    Ethernet.Tagged Registries.initial b ↔ shortAt b 12 = 0x8100 := by
  refine ⟨fun h => ProtocolType.getInstance_eq_dot1q .initial h, fun h => ?_⟩
  rw [Ethernet.Tagged, h]
  decide

private theorem whole_underflowsIff {α : Type} {m : Op α} {payload : α → Option Bytes}
    {header : Bytes → Except JavaException Nat} (hm : HeaderPayload m payload header)
    {b : Bytes} {p q : Prop} (hh : UnderflowsIff (header b) p) (hpq : p ↔ q) :
    UnderflowsIff (decode m b 0 b.length) q := by
  rw [decode_whole]
  exact (hm.underflowsIff hh).congr hpq

private theorem fixed_underflowsIff {α : Type} {m : Op α} {payload : α → Option Bytes} {n : Nat}
    (hm : HeaderPayload m payload (fixedHeader n)) (b : Bytes) :
    UnderflowsIff (decode m b 0 b.length) (b.length < n) :=
  whole_underflowsIff hm (fixedHeader_underflowsIff n b) not_le

/-- Each decoder fails on the arrays that are shorter than its header, and only by underflow. -/
theorem newInstance_underflowsIff (b : Bytes) :
    UnderflowsIff (Ethernet.newInstance Registries.initial b)
        (b.length < 14 ∨ b.length < 18 ∧ shortAt b 12 = 0x8100) ∧
      UnderflowsIff (IPv4.newInstance Registries.initial b)
        (b.length < max 20 (4 * (byteAt b 0 &&& 15#8).toNat)) ∧
      UnderflowsIff (IPv6.newInstance Registries.initial b) (b.length < 40) ∧
      UnderflowsIff (TCP.newInstance b) (b.length < 20) ∧
      UnderflowsIff (UDP.newInstance b) (b.length < 8) ∧
      UnderflowsIff (ICMPv4.newInstance Registries.initial b) (b.length < 4) ∧
      UnderflowsIff (ICMPv6.newInstance Registries.initial b) (b.length < 4) ∧
      UnderflowsIff (SLL.newInstance Registries.initial b) (b.length < 16) ∧
      UnderflowsIff (RadioTap.newInstance b) (b.length < 8) :=
  ⟨whole_underflowsIff (Ethernet.headerPayload _) (ethernet_header_underflowsIff b) (by
      rw [tagged_initial, not_and_or, not_le, Classical.not_imp, not_le, and_comm (b := _ < 18)]),
    whole_underflowsIff (IPv4.headerPayload _) (fixedHeader_underflowsIff _ b) not_le,
    fixed_underflowsIff (IPv6.headerPayload _) b,
    whole_underflowsIff TCP.headerPayload (tcp_header_underflowsIff b) not_le,
    fixed_underflowsIff UDP.headerPayload b, fixed_underflowsIff (ICMP.headerPayload _) b,
    fixed_underflowsIff (ICMP.headerPayload _) b, fixed_underflowsIff (SLL.headerPayload _) b,
    fixed_underflowsIff RadioTap.headerPayload b⟩

end Packet

end Jxnet
