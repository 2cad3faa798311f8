import Jxnet.Framework.Transition
import Jxnet.Packet.Checksum
import Jxnet.Packet.Registration

namespace Jxnet

open Java ByteBuffer

/-! What a carrier holds after packets have been attached to it. -/

namespace IPv6

/-- The words that the ICMPv6 branch sums: addresses, the number 40, next header, type and code. -/
def icmpSum (p : IPv6) (typeAndCode : ICMPTypeAndCode) : Nat := wordSum (p.icmpHeader typeAndCode)

theorem icmpSum_eq (p : IPv6) (typeAndCode : ICMPTypeAndCode) :
    p.icmpSum typeAndCode = wordSum p.sourceAddress.toBytes + wordSum p.destinationAddress.toBytes +
      40 + 58 + (shortOf typeAndCode.type typeAndCode.code).toNat := by
  have hlength : wordSum (intBytes 40) = 40 := by decide
  have hlast : wordSum [0, 0, 0, IPProtocolType.IPV6_ICMP.value, typeAndCode.getType,
      typeAndCode.getCode, 0, 0] = 58 + (shortOf typeAndCode.type typeAndCode.code).toNat := by
    rw [wordSum_zero_cons, wordSum_zero_cons, wordSum_cons_cons, wordSum_zero_cons, wordSum_nil]
    simp [IPProtocolType.IPV6_ICMP, ICMPTypeAndCode.getType, ICMPTypeAndCode.getCode]
  rw [icmpSum, icmpHeader, List.append_assoc, List.append_assoc, wordSum_address ⟨8, rfl⟩,
    wordSum_address ⟨8, rfl⟩, wordSum_append _ _ ⟨2, rfl⟩, hlength, hlast]
  omega

theorem icmpChecksum_eq (p : IPv6) (icmp : ICMPv6) (typeAndCode : ICMPTypeAndCode)
    (h : icmp.typeAndCode = some typeAndCode) :
    p.icmpChecksum icmp = .ok (foldChecksum (BitVec.ofNat 32 (p.icmpSum typeAndCode))) := by
  have hlen : (p.icmpHeader typeAndCode).length = 44 := by
    simp [icmpHeader]
  have hrun := checksumOver_eq 0 (p.icmpHeader typeAndCode)
  have hzero : ∀ x : JInt, 0 + x = x := BitVec.zero_add
  rw [hlen, hzero] at hrun
  simp only [icmpChecksum, ICMPv6.toBytes_eq icmp typeAndCode h, h]
  exact hrun

/-- The carrier takes the message with the checksum that was computed for it. -/
theorem setPacket_icmpv6_of_checksum (p : IPv6) (icmp : ICMPv6) (typeAndCode : ICMPTypeAndCode)
    (h : icmp.typeAndCode = some typeAndCode) (h0 : icmp.getChecksum = 0) {c : JShort}
    (hc : p.icmpChecksum icmp = .ok c) :
    p.setPacket (.icmpv6 icmp) = .ok
      ({ p with
        nextHeader := IPProtocolType.IPV6_ICMP
        nextPacket := some (ICMPv4.bytes (ICMP.setChecksum icmp c) typeAndCode) },
      .icmpv6 (ICMP.setChecksum icmp c)) := by
  have hset : (ICMP.setChecksum icmp c).typeAndCode = some typeAndCode := h
  simp only [setPacket, if_pos h0, hc]
  change (do let bytes ← ICMPv6.toBytes (ICMP.setChecksum icmp c); _) = _
  rw [ICMPv6.toBytes_eq _ typeAndCode hset]
  rfl

theorem icmpSum_lt (p : IPv6) (typeAndCode : ICMPTypeAndCode) :
    p.icmpSum typeAndCode < 2 ^ 32 := by
  have hsource := wordSum_le p.sourceAddress.toBytes
  have hdestination := wordSum_le p.destinationAddress.toBytes
  have htype := (shortOf typeAndCode.type typeAndCode.code).isLt
  rw [Address.toBytes_length] at hsource hdestination
  rw [icmpSum_eq]
  omega

/-- The stored message verifies iff its payload, its real length and the dropped carry make up
for the number 40 that was summed in place of the length. -/
theorem setPacket_icmpv6_verifies_iff (p : IPv6) (icmp : ICMPv6) (typeAndCode : ICMPTypeAndCode)
    (h : icmp.typeAndCode = some typeAndCode) (h0 : icmp.getChecksum = 0) :
    ∃ p' icmp' message, p.setPacket (.icmpv6 icmp) = .ok (p', .icmpv6 icmp') ∧
      p'.nextPacket = some message ∧
      message.length = 4 + (icmp.nextPacket.getD []).length ∧
      (Verifies (TCP.pseudoHeader6 p'.sourceAddress p'.destinationAddress 58 message.length ++
          message) ↔
        ((4 + (icmp.nextPacket.getD []).length) % 2 ^ 32 + wordSum (icmp.nextPacket.getD []) +
          droppedCarries (p.icmpSum typeAndCode)) % 0xffff = 40) := by
  have hlength : (ICMPv4.bytes (ICMP.setChecksum icmp (foldChecksum (BitVec.ofNat 32
      (p.icmpSum typeAndCode)))) typeAndCode).length = 4 + (icmp.nextPacket.getD []).length :=
    ICMPv4.bytes_length _ typeAndCode
  have hc := p.icmpChecksum_eq icmp typeAndCode h
  refine ⟨_, _, _, p.setPacket_icmpv6_of_checksum icmp typeAndCode h h0 hc, rfl, hlength, ?_⟩
  have hmod := (add_foldChecksum (p.icmpSum typeAndCode)).2
  have hone := droppedCarries_le (p.icmpSum_lt typeAndCode)
  have hmessage : wordSum (ICMPv4.bytes (ICMP.setChecksum icmp (foldChecksum (BitVec.ofNat 32
      (p.icmpSum typeAndCode)))) typeAndCode) =
      (shortOf typeAndCode.type typeAndCode.code).toNat +
        ((foldChecksum (BitVec.ofNat 32 (p.icmpSum typeAndCode))).toNat +
          wordSum (icmp.nextPacket.getD [])) := by
    rw [ICMPv4.bytes, wordSum_cons_cons, wordSum_append _ _ ⟨1, rfl⟩, wordSum_shortBytes]
    rfl
  have hpseudo := TCP.even_pseudoHeader6 p.sourceAddress p.destinationAddress 58
    (4 + (icmp.nextPacket.getD []).length)
  have hnext : (58 : JByte).toNat = 58 := rfl
  have hsum := p.icmpSum_eq typeAndCode
  rw [hlength, verifies_iff, wordSum_append _ _ hpseudo, TCP.wordSum_pseudoHeader6_mod,
    hmessage, hnext]
  omega

end IPv6

/-- An echo request with a payload of four bytes. -/
def echoMessage : ICMPv6 := ⟨some (.new .ICMPv6EchoRequest 0 "Echo request"), 0, some [1, 2, 3, 4]⟩

theorem echoMessage_rejected :
    echoMessage.typeAndCode.map (Registries.initial.icmpTypeAndCode.containsKey ·.getKey) =
        some true ∧ echoMessage.getChecksum = 0 ∧
      ∃ p' icmp' message, IPv6.new.setPacket (.icmpv6 echoMessage) = .ok (p', .icmpv6 icmp') ∧
        p'.nextPacket = some message ∧
        ¬ Verifies (TCP.pseudoHeader6 p'.sourceAddress p'.destinationAddress 58 message.length ++
          message) := by
  have hc := IPv6.new.icmpChecksum_eq echoMessage _ rfl
  refine ⟨by decide +kernel, rfl, _, _, _,
    IPv6.new.setPacket_icmpv6_of_checksum echoMessage _ rfl rfl hc, rfl, ?_⟩
  decide

theorem echoMessage_verifies_iff :
    ∃ p' icmp' message, IPv6.new.setPacket (.icmpv6 echoMessage) = .ok (p', .icmpv6 icmp') ∧
      p'.nextPacket = some message ∧
      message.length = 4 + (echoMessage.nextPacket.getD []).length ∧
      (Verifies (TCP.pseudoHeader6 p'.sourceAddress p'.destinationAddress 58 message.length ++
          message) ↔
        ((4 + (echoMessage.nextPacket.getD []).length) % 2 ^ 32 +
          wordSum (echoMessage.nextPacket.getD []) + droppedCarries (IPv6.new.icmpSum
            (.new .ICMPv6EchoRequest 0 "Echo request"))) % 0xffff = 40) :=
  IPv6.new.setPacket_icmpv6_verifies_iff echoMessage _ rfl rfl

namespace UDP

/-- The object with the length that `toBytes` stores. -/
def stored (u : UDP) : UDP :=
  { u with length := BitVec.ofNat 16 (8 + (u.nextPacket.getD []).length) }

theorem toBytes_stored (u : UDP) : u.toBytes = .ok (u.stored, u.stored.bytes) := toBytes_eq u

/-- The ports and the payload of a datagram come back from its bytes. -/
theorem newInstance_bytes (u : UDP) :
    ∃ d, newInstance u.bytes = .ok d ∧ d.getSourcePort = u.getSourcePort ∧
      d.getDestinationPort = u.getDestinationPort ∧
      d.nextPacket.getD [] = u.nextPacket.getD [] := by
  have hnew := newInstance_append u.getSourcePort u.getDestinationPort u.getLength u.getChecksum
    (u.nextPacket.getD [])
  exact ⟨_, hnew, mask16_eq _, mask16_eq _, rfl⟩

/-- What a receiver sums over addresses, protocol, length and a datagram without checksum. -/
def receiverSum (u : UDP) (source destination : Bytes) : Nat :=
  wordSum source + wordSum destination + 17 + 2 * (8 + (u.nextPacket.getD []).length) +
    u.getSourcePort.toNat + u.getDestinationPort.toNat + wordSum (u.nextPacket.getD [])

theorem stored_bytes_length (u : UDP) :
    u.stored.bytes.length = 8 + (u.nextPacket.getD []).length := by
  simp [bytes, stored]
  omega

theorem wordSum_stored (u : UDP) (h0 : u.getChecksum = 0)
    (h : (u.nextPacket.getD []).length ≤ 65527) :
    wordSum u.stored.bytes = u.getSourcePort.toNat + u.getDestinationPort.toNat +
      (8 + (u.nextPacket.getD []).length) + wordSum (u.nextPacket.getD []) := by
  have hchecksum : u.stored.getChecksum = 0 := h0
  have hlength : u.stored.getLength.toNat = 8 + (u.nextPacket.getD []).length := by
    rw [getLength, mask16_eq, stored, BitVec.toNat_ofNat]
    omega
  have hsource : u.stored.getSourcePort = u.getSourcePort := rfl
  have hdestination : u.stored.getDestinationPort = u.getDestinationPort := rfl
  have hpayload : u.stored.nextPacket = u.nextPacket := rfl
  rw [bytes, wordSum_append _ _ ⟨1, rfl⟩, wordSum_append _ _ ⟨1, rfl⟩, wordSum_append _ _ ⟨1, rfl⟩,
    wordSum_append _ _ ⟨1, rfl⟩]
  simp only [wordSum_shortBytes, hchecksum, hlength, hsource, hdestination, hpayload]
  have hzero : (0 : JShort).toNat = 0 := rfl
  omega

/-- Behind a pseudo header for protocol 17 a datagram without checksum verifies iff its words make
up a whole number of turns. -/
theorem stored_verifies_iff (u : UDP) (h0 : u.getChecksum = 0)
    (h : (u.nextPacket.getD []).length ≤ 65527) (pseudo source destination : Bytes)
    (heven : 2 ∣ pseudo.length)
    (hp : wordSum pseudo = wordSum source + wordSum destination + u.stored.bytes.length + 17) :
    Verifies (pseudo ++ u.stored.bytes) ↔ u.receiverSum source destination % 0xffff = 0 := by
  have hwords := u.wordSum_stored h0 h
  have hlength := u.stored_bytes_length
  rw [verifies_iff, wordSum_append _ _ heven, receiverSum]
  omega

end UDP

namespace Packet

/-- The carrier names UDP and holds the datagram `u` as it encodes after the call; it decodes to
the ports and the payload of `u`, and a datagram that came without a checksum verifies. -/
structure CarriesDatagram (R : Registries) (carrier : Packet) (protocol : IPProtocolType)
    (pseudo : Bytes) (u u' : UDP) (datagram : Bytes) : Prop where
  protocol : protocol = IPProtocolType.UDP
  payload : carrier.payload = some datagram
  encoded : Prod.snd <$> u'.toBytes = .ok datagram
  decoded : ∃ d, carrier.getPacket R = .ok (some (.udp d)) ∧ d.getSourcePort = u.getSourcePort ∧
    d.getDestinationPort = u.getDestinationPort ∧ d.nextPacket.getD [] = u.nextPacket.getD []
  verifies : u.getChecksum = 0 → Verifies (pseudo ++ datagram)

/-- A payload that UDP names decodes as the datagram that it is. -/
theorem decode_udp (R : Registries) (u : UDP) :
    ∃ d, IPProtocolType.UDP.decode R (some u.bytes) = .ok (some (.udp d)) ∧
      d.getSourcePort = u.getSourcePort ∧ d.getDestinationPort = u.getDestinationPort ∧
      d.nextPacket.getD [] = u.nextPacket.getD [] := by
  obtain ⟨d, hd, hsame⟩ := u.newInstance_bytes
  refine ⟨d, ?_, hsame⟩
  have hne : u.bytes ≠ [] := by
    simp [UDP.bytes, shortBytes]
  rw [IPProtocolType.decode, decodeWith_some _ hne]
  change (some ∘ Packet.udp) <$> UDP.newInstance u.bytes = _
  rw [hd]
  rfl

end Packet

namespace IPv4

/-- The carrier and the datagram that `setPacket` leaves. -/
def TakesDatagram (R : Registries) (p : IPv4) (u : UDP) : Prop :=
  ∃ p' u' datagram, p.setPacket (.udp u) = .ok (p', .udp u') ∧
    Packet.CarriesDatagram R (.ipv4 p') p'.protocol (TCP.pseudoHeader4 p'.sourceAddress
      p'.destinationAddress 17 datagram.length) u u' datagram

/-- The call does nothing, so the carrier must have held the datagram before. -/
theorem takesDatagram_iff (R : Registries) (p : IPv4) (u : UDP)
    (h : (u.nextPacket.getD []).length ≤ 65527) :
    p.TakesDatagram R u ↔ p.protocol = IPProtocolType.UDP ∧
      p.nextPacket = some u.stored.bytes ∧ (u.getChecksum = 0 →
        u.receiverSum p.sourceAddress.toBytes p.destinationAddress.toBytes % 0xffff = 0) := by
  have hle : u.stored.bytes.length ≤ 0xffff := by
    rw [u.stored_bytes_length]
    omega
  have hiff : u.getChecksum = 0 → (Verifies (TCP.pseudoHeader4 p.sourceAddress
      p.destinationAddress 17 u.stored.bytes.length ++ u.stored.bytes) ↔
        u.receiverSum p.sourceAddress.toBytes p.destinationAddress.toBytes % 0xffff = 0) :=
    fun h0 => u.stored_verifies_iff h0 h _ _ _ (TCP.even_pseudoHeader4 _ _ _ _)
      (TCP.wordSum_pseudoHeader4 _ _ _ _ hle)
  constructor
  · intro htakes
    obtain ⟨p', u', datagram, hset, hcarries⟩ := htakes
    obtain ⟨rfl, rfl⟩ : p = p' ∧ u = u' := by
      simpa [setPacket] using hset
    obtain rfl : u.stored.bytes = datagram := by
      simpa [u.toBytes_stored] using hcarries.encoded
    exact ⟨hcarries.protocol, hcarries.payload, fun h0 => (hiff h0).mp (hcarries.verifies h0)⟩
  · intro hbefore
    obtain ⟨hprotocol, hpayload, hsum⟩ := hbefore
    refine ⟨p, u, u.stored.bytes, rfl, hprotocol, hpayload, ?_, ?_, fun h0 =>
      (hiff h0).mpr (hsum h0)⟩
    · rw [u.toBytes_stored]
      rfl
    · rw [Packet.getPacket, hprotocol, hpayload]
      exact Packet.decode_udp R u.stored

end IPv4

namespace IPv6

/-- The carrier and the datagram that `setPacket` leaves. -/
def TakesDatagram (R : Registries) (p : IPv6) (u : UDP) : Prop :=
  ∃ p' u' datagram, p.setPacket (.udp u) = .ok (p', .udp u') ∧
    Packet.CarriesDatagram R (.ipv6 p') p'.nextHeader (TCP.pseudoHeader6 p'.sourceAddress
      p'.destinationAddress 17 datagram.length) u u' datagram

theorem setPacket_udp (p : IPv6) (u : UDP) :
    p.setPacket (.udp u) = .ok ({ p with nextPacket := some u.stored.bytes }, .udp u.stored) := by
  simp only [setPacket, Packet.toBytes, u.toBytes_stored]
  rfl

/-- The call stores the payload only, so the carrier must have named UDP before. -/
theorem takesDatagram_iff (R : Registries) (p : IPv6) (u : UDP)
    (h : (u.nextPacket.getD []).length ≤ 65527) :
    p.TakesDatagram R u ↔ p.nextHeader = IPProtocolType.UDP ∧ (u.getChecksum = 0 →
      u.receiverSum p.sourceAddress.toBytes p.destinationAddress.toBytes % 0xffff = 0) := by
  have hle : u.stored.bytes.length ≤ 0xffff := by
    rw [u.stored_bytes_length]
    omega
  have hiff : u.getChecksum = 0 → (Verifies (TCP.pseudoHeader6 p.sourceAddress
      p.destinationAddress 17 u.stored.bytes.length ++ u.stored.bytes) ↔
        u.receiverSum p.sourceAddress.toBytes p.destinationAddress.toBytes % 0xffff = 0) :=
    fun h0 => u.stored_verifies_iff h0 h _ _ _ (TCP.even_pseudoHeader6 _ _ _ _)
      (TCP.wordSum_pseudoHeader6 _ _ _ _ hle)
  constructor
  · intro htakes
    obtain ⟨p', u', datagram, hset, hcarries⟩ := htakes
    rw [setPacket_udp] at hset
    cases hset
    obtain rfl : u.stored.bytes = datagram := Option.some.inj hcarries.payload
    exact ⟨hcarries.protocol, fun h0 => (hiff h0).mp (hcarries.verifies h0)⟩
  · intro hbefore
    obtain ⟨hprotocol, hsum⟩ := hbefore
    refine ⟨_, _, u.stored.bytes, p.setPacket_udp u, hprotocol, rfl, ?_, ?_, fun h0 =>
      (hiff h0).mpr (hsum h0)⟩
    · rw [u.stored.toBytes_stored]
      rfl
    · rw [Packet.getPacket, hprotocol]
      exact Packet.decode_udp R u.stored

end IPv6

/-- Neither carrier takes a datagram unless it names UDP already; the IPv4 carrier must even hold
the bytes of the datagram. -/
theorem Packet.setPacket_udp_iff (R : Registries) (u : UDP)
    (h : (u.nextPacket.getD []).length ≤ 65527) :
    (∀ p : IPv4, p.TakesDatagram R u ↔ p.protocol = IPProtocolType.UDP ∧
      p.nextPacket = some u.stored.bytes ∧ (u.getChecksum = 0 →
        u.receiverSum p.sourceAddress.toBytes p.destinationAddress.toBytes % 0xffff = 0)) ∧
    ∀ p : IPv6, p.TakesDatagram R u ↔ p.nextHeader = IPProtocolType.UDP ∧ (u.getChecksum = 0 →
      u.receiverSum p.sourceAddress.toBytes p.destinationAddress.toBytes % 0xffff = 0) :=
  ⟨fun p => p.takesDatagram_iff R u h, fun p => p.takesDatagram_iff R u h⟩

/-- A datagram between two ports. -/
def queryDatagram : UDP := ⟨40000, 53, 0, 0, some [1, 2, 3, 4]⟩

theorem queryDatagram_is_lost :
    (queryDatagram.nextPacket.getD []).length ≤ 65527 ∧
      ¬ IPv4.new.TakesDatagram Registries.initial queryDatagram ∧
      ¬ IPv6.new.TakesDatagram Registries.initial queryDatagram := by
  have h : (queryDatagram.nextPacket.getD []).length ≤ 65527 := by decide
  refine ⟨h, ?_, ?_⟩
  · rw [IPv4.takesDatagram_iff _ _ _ h]
    decide
  · rw [IPv6.takesDatagram_iff _ _ _ h]
    decide

theorem queryDatagram_iff :
    (∀ p : IPv4, p.TakesDatagram Registries.initial queryDatagram ↔
      p.protocol = IPProtocolType.UDP ∧ p.nextPacket = some queryDatagram.stored.bytes ∧
      (queryDatagram.getChecksum = 0 → queryDatagram.receiverSum p.sourceAddress.toBytes
        p.destinationAddress.toBytes % 0xffff = 0)) ∧
    ∀ p : IPv6, p.TakesDatagram Registries.initial queryDatagram ↔
      p.nextHeader = IPProtocolType.UDP ∧
      (queryDatagram.getChecksum = 0 → queryDatagram.receiverSum p.sourceAddress.toBytes
        p.destinationAddress.toBytes % 0xffff = 0) :=
  Packet.setPacket_udp_iff Registries.initial queryDatagram (by decide)

namespace IPv6

/-- What is left of the carrier where `setPacket` throws: a message without type and code fails
after the next header has been set. -/
def refuse (p : IPv6) (packet : Packet) : IPv6 :=
  match packet with
  | .icmpv6 icmp => if icmp.getChecksum = 0 then p else p.setNextHeader IPProtocolType.IPV6_ICMP
  | _ => p

/-- A call of one of the methods that change the object. A packet of a class that has neither a
case of its own nor a decoder stands for what its `toBytes` gives. -/
inductive Call where
  | setVersion (version : JByte)
  | setTrafficClass (trafficClass : JByte)
  | setFlowLabel (flowLabel : JInt)
  | setPayloadLength (payloadLength : JShort)
  | setNextHeader (nextHeader : IPProtocolType)
  | setHopLimit (hopLimit : JByte)
  | setSourceAddress (sourceAddress : Inet6Address)
  | setDestinationAddress (destinationAddress : Inet6Address)
  | setPayload (payload : Option Bytes)
  | setPacket (packet : Option Packet)
  | setOtherPacket (encoded : Except JavaException Bytes)

/-- An object, and whether its length was set by hand since it got its payload. -/
structure Built where
  object : IPv6
  byHand : Bool

namespace Built

def new : Built := ⟨IPv6.new, false⟩

def call (s : Built) : Call → Built
  | .setVersion version => { s with object := s.object.setVersion version }
  | .setTrafficClass trafficClass => { s with object := s.object.setTrafficClass trafficClass }
  | .setFlowLabel flowLabel => { s with object := s.object.setFlowLabel flowLabel }
  | .setPayloadLength payloadLength => ⟨s.object.setPayloadLength payloadLength, true⟩
  | .setNextHeader nextHeader => { s with object := s.object.setNextHeader nextHeader }
  | .setHopLimit hopLimit => { s with object := s.object.setHopLimit hopLimit }
  | .setSourceAddress sourceAddress => { s with object := s.object.setSourceAddress sourceAddress }
  | .setDestinationAddress destinationAddress =>
    { s with object := s.object.setDestinationAddress destinationAddress }
  | .setPayload none => s
  | .setPayload (some payload) => ⟨s.object.setPayload (some payload), false⟩
  | .setPacket none => s
  | .setPacket (some packet) =>
    match s.object.setPacket packet with
    | .ok (p, _) => ⟨p, false⟩
    | .error _ => { s with object := s.object.refuse packet }
  | .setOtherPacket (.ok bytes) => ⟨{ s.object with nextPacket := some bytes }, false⟩
  | .setOtherPacket (.error _) => s

/-- The length field that `toBytes` writes counts the bytes behind the header. -/
def Told (s : Built) : Prop :=
  s.byHand = false → (s.object.nextPacket.getD []).length ≤ 65535 →
    ∃ b, s.object.toBytes = .ok b ∧ (shortAt b 4).toNat = b.length - 40

/-- A packet that is attached is as long as the length field says already. -/
def Agrees (s : Built) : Call → Prop
  | .setPacket (some packet) => ∀ taken, s.object.setPacket packet = .ok taken →
    ∀ encoded, packet.toBytes = .ok encoded → encoded.2.length ≤ 65535 →
      s.object.getPayloadLength.toNat = encoded.2.length
  | .setOtherPacket (.ok bytes) =>
    bytes.length ≤ 65535 → s.object.getPayloadLength.toNat = bytes.length
  | _ => True

theorem told_iff (s : Built) : s.Told ↔ (s.byHand = false →
    (s.object.nextPacket.getD []).length ≤ 65535 →
      s.object.getPayloadLength.toNat = (s.object.nextPacket.getD []).length) := by
  have hlength : s.object.bytes.length = 40 + (s.object.nextPacket.getD []).length := by
    simp [bytes]
    omega
  have hfield : shortAt s.object.bytes 4 = s.object.getPayloadLength :=
    shortAt_append (intBytes s.object.firstWord) _ _ (intBytes_length _)
  have hiff : (∃ b, s.object.toBytes = .ok b ∧ (shortAt b 4).toNat = b.length - 40) ↔
      s.object.getPayloadLength.toNat = (s.object.nextPacket.getD []).length := by
    rw [toBytes_eq]
    constructor
    · intro htold
      obtain ⟨b, hb, hl⟩ := htold
      cases hb
      rw [hfield] at hl
      omega
    · intro hl
      refine ⟨_, rfl, ?_⟩
      rw [hfield]
      omega
  rw [Told, hiff]

end Built

theorem setPacket_tcp_attaches {p p' : IPv6} {t : TCP} {packet' : Packet}
    (h : p.setPacket (.tcp t) = .ok (p', packet')) :
    (p'.nextPacket.getD []).length = t.bytes.length ∧ p'.payloadLength = p.payloadLength := by
  by_cases h0 : t.getChecksum = 0
  · cases hc : p.tcpChecksum t with
    | error e =>
      simp only [setPacket, if_pos h0, hc] at h
      cases h
    | ok c =>
      rw [p.setPacket_tcp_of_checksum t h0 hc] at h
      cases h
      simp [TCP.bytes_length, TCP.setChecksum]
  · simp only [setPacket, if_neg h0] at h
    change (do let bytes ← t.toBytes; _) = _ at h
    rw [TCP.toBytes_eq] at h
    cases h
    exact ⟨rfl, rfl⟩

theorem setPacket_icmpv6_attaches {p p' : IPv6} {m : ICMPv6} {packet' : Packet}
    (h : p.setPacket (.icmpv6 m) = .ok (p', packet')) :
    ∃ bytes, ICMPv6.toBytes m = .ok bytes ∧ (p'.nextPacket.getD []).length = bytes.length ∧
      p'.payloadLength = p.payloadLength := by
  cases hm : m.typeAndCode with
  | none =>
    -- a message without type and code is never encoded
    have hbytes : ICMPv6.toBytes m = .error .nullPointer := by
      simp only [ICMPv6.toBytes, hm]
    by_cases h0 : m.getChecksum = 0
    · simp only [setPacket, if_pos h0, icmpChecksum, hbytes] at h
      cases h
    · simp only [setPacket, if_neg h0] at h
      change (do let bytes ← ICMPv6.toBytes m; _) = _ at h
      rw [hbytes] at h
      cases h
  | some typeAndCode =>
    refine ⟨_, ICMPv6.toBytes_eq m typeAndCode hm, ?_⟩
    by_cases h0 : m.getChecksum = 0
    · rw [p.setPacket_icmpv6_of_checksum m typeAndCode hm h0 (p.icmpChecksum_eq m _ hm)] at h
      cases h
      refine ⟨?_, rfl⟩
      change (ICMPv4.bytes _ typeAndCode).length = _
      rw [ICMPv4.bytes_length, ICMPv4.bytes_length]
      rfl
    · simp only [setPacket, if_neg h0] at h
      change (do let bytes ← ICMPv6.toBytes m; _) = _ at h
      rw [ICMPv6.toBytes_eq m typeAndCode hm] at h
      cases h
      exact ⟨rfl, rfl⟩

/-- The default case takes what the packet encodes to. -/
theorem setPacket_other (p : IPv6) (packet : Packet) (ht : ∀ t, packet ≠ .tcp t)
    (hm : ∀ m, packet ≠ .icmpv6 m) :
    p.setPacket packet = (fun encoded =>
      ({ p with nextPacket := some encoded.2 }, encoded.1)) <$> packet.toBytes := by
  cases packet with
  | tcp t => exact absurd rfl (ht t)
  | icmpv6 m => exact absurd rfl (hm m)
  | _ => rfl

theorem setPacket_other_attaches {p p' : IPv6} {packet packet' : Packet}
    (ht : ∀ t, packet ≠ .tcp t) (hm : ∀ m, packet ≠ .icmpv6 m)
    (h : p.setPacket packet = .ok (p', packet')) :
    ∃ encoded, packet.toBytes = .ok encoded ∧
      (p'.nextPacket.getD []).length = encoded.2.length ∧
      p'.payloadLength = p.payloadLength := by
  rw [setPacket_other p packet ht hm] at h
  cases hencoded : packet.toBytes with
  | error e =>
    rw [hencoded] at h
    cases h
  | ok encoded =>
    rw [hencoded] at h
    cases h
    exact ⟨encoded, rfl, rfl, rfl⟩

/-- The carrier gets as many bytes as the packet encodes to, and keeps its length field. -/
theorem setPacket_attaches {p p' : IPv6} {packet packet' : Packet}
    (h : p.setPacket packet = .ok (p', packet')) :
    ∃ encoded, packet.toBytes = .ok encoded ∧
      (p'.nextPacket.getD []).length = encoded.2.length ∧
      p'.payloadLength = p.payloadLength := by
  cases packet with
  | tcp t =>
    refine ⟨(.tcp t, t.bytes), ?_, setPacket_tcp_attaches h⟩
    rw [Packet.toBytes, TCP.toBytes_eq]
    rfl
  | icmpv6 m =>
    obtain ⟨bytes, hbytes, hattached⟩ := setPacket_icmpv6_attaches h
    refine ⟨(.icmpv6 m, bytes), ?_, hattached⟩
    rw [Packet.toBytes, hbytes]
    rfl
  | _ => exact setPacket_other_attaches (by simp) (by simp) h

theorem refuse_nextPacket (p : IPv6) (packet : Packet) :
    (p.refuse packet).nextPacket = p.nextPacket ∧
      (p.refuse packet).payloadLength = p.payloadLength := by
  cases packet with
  | icmpv6 m =>
    rw [refuse]
    by_cases h0 : m.getChecksum = 0
    · rw [if_pos h0]
      exact ⟨rfl, rfl⟩
    · rw [if_neg h0]
      exact ⟨rfl, rfl⟩
  | _ => exact ⟨rfl, rfl⟩

namespace Built

/-- Calls that touch neither payload nor length leave it as it was. -/
theorem Told.of_same {s s' : Built} (h : s.Told) (hand : s'.byHand = s.byHand)
    (hpayload : s'.object.nextPacket = s.object.nextPacket)
    (hlength : s'.object.payloadLength = s.object.payloadLength) : s'.Told := by
  rw [told_iff] at h ⊢
  rw [hand, hpayload, getPayloadLength, hlength]
  exact h

theorem told_setPayload (s : Built) (payload : Bytes) :
    (s.call (.setPayload (some payload))).Told := by
  rw [told_iff]
  intro _ hle
  change payload.length ≤ 65535 at hle
  change (mask16 (mask16 (BitVec.ofNat 16 payload.length))).toNat = payload.length
  rw [mask16_eq, mask16_eq, BitVec.toNat_ofNat]
  omega

theorem call_setPacket (s : Built) {packet : Packet} {taken : IPv6 × Packet}
    (h : s.object.setPacket packet = .ok taken) :
    s.call (.setPacket (some packet)) = ⟨taken.1, false⟩ := by
  simp only [call, h]

theorem told_setPacket_iff (s : Built) (packet : Packet) (h : s.Told) :
    (s.call (.setPacket (some packet))).Told ↔ s.Agrees (.setPacket (some packet)) := by
  cases hset : s.object.setPacket packet with
  | error e =>
    have hcall : s.call (.setPacket (some packet)) =
        { s with object := s.object.refuse packet } := by
      simp only [call, hset]
    obtain ⟨hpayload, hlength⟩ := s.object.refuse_nextPacket packet
    rw [hcall, Agrees, hset]
    constructor
    · intro _ taken htaken
      cases htaken
    · exact fun _ => h.of_same rfl hpayload hlength
  | ok taken =>
    obtain ⟨encoded, hencoded, hattached, hlength⟩ := setPacket_attaches hset
    have hfield : taken.1.getPayloadLength = s.object.getPayloadLength := by
      rw [getPayloadLength, hlength, getPayloadLength]
    rw [s.call_setPacket hset, told_iff, hattached, hfield, Agrees, hset]
    constructor
    · intro htold taken' _ encoded' hencoded' hle
      rw [hencoded] at hencoded'
      cases hencoded'
      exact htold rfl hle
    · exact fun hagrees _ hle => hagrees taken rfl encoded hencoded hle

/-- One call keeps the length told iff a packet that it attaches agrees. -/
theorem told_call_iff (s : Built) (call : Call) (h : s.Told) :
    (s.call call).Told ↔ s.Agrees call := by
  cases call with
  | setPacket packet =>
    cases packet with
    | none => exact iff_of_true h trivial
    | some packet => exact s.told_setPacket_iff packet h
  | setOtherPacket encoded =>
    cases encoded with
    | error e => exact iff_of_true h trivial
    | ok bytes =>
      rw [told_iff]
      constructor
      · exact fun htold hle => htold rfl hle
      · exact fun hagrees _ hle => hagrees hle
  | setPayload payload =>
    cases payload with
    | none => exact iff_of_true h trivial
    | some payload => exact iff_of_true (s.told_setPayload payload) trivial
  | setPayloadLength payloadLength =>
    refine iff_of_true ?_ trivial
    intro hhand
    cases hhand
  | _ => exact iff_of_true (h.of_same rfl rfl rfl) trivial

theorem told_new : Built.new.Told := by
  rw [told_iff]
  exact fun _ _ => rfl

/-- Throughout a sequence of calls the length is told iff every packet agrees when it is
attached. -/
theorem run_told_iff (calls : List Call) :
    (∀ before, before <+: calls → (Transition.run Built.call Built.new before).Told) ↔
      ∀ before call, before ++ [call] <+: calls →
        (Transition.run Built.call Built.new before).Agrees call :=
  Transition.forall_prefix_iff told_call_iff told_new calls

/-- A segment of 20 bytes behind a header that says 0. -/
theorem segment_is_not_told :
    (Transition.run Built.call Built.new [.setPacket (some (.tcp bareSegment))]).byHand = false ∧
      ¬ (Transition.run Built.call Built.new [.setPacket (some (.tcp bareSegment))]).Told := by
  have hsum := IPv6.new.tcpChecksum_eq bareSegment (by decide) (by decide)
  have hset := IPv6.new.setPacket_tcp_of_checksum bareSegment (by decide) hsum
  have hencoded : Packet.toBytes (.tcp bareSegment) =
      .ok (.tcp bareSegment, bareSegment.bytes) := by
    rw [Packet.toBytes, TCP.toBytes_eq]
    rfl
  have hrun := Transition.run_append_singleton Built.call Built.new []
    (.setPacket (some (.tcp bareSegment)))
  rw [List.nil_append, Transition.run_nil] at hrun
  have hhand : (Built.new.call (.setPacket (some (.tcp bareSegment)))).byHand = false := by
    rw [Built.new.call_setPacket hset]
  rw [hrun, told_setPacket_iff _ _ told_new]
  refine ⟨hhand, ?_⟩
  intro hagrees
  exact absurd (hagrees _ hset _ hencoded (by decide)) (by decide)

end Built

end IPv6

end Jxnet
