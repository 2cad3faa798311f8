import Jxnet.Packet.PacketHelper

namespace Jxnet

open Java ByteBuffer

/-- The registries name the protocols of the stacks below by their own constants. -/
structure Registries.Standard (R : Registries) : Prop where
  ipv4 : ProtocolType.getInstance R.protocolType ProtocolType.IPV4.value = ProtocolType.IPV4
  arp : ProtocolType.getInstance R.protocolType ProtocolType.ARP.value = ProtocolType.ARP
  icmp : IPProtocolType.getInstance R.ipProtocolType IPProtocolType.ICMP.value =
    IPProtocolType.ICMP
  tcp : IPProtocolType.getInstance R.ipProtocolType IPProtocolType.TCP.value = IPProtocolType.TCP
  keyed : HashMap.Keyed ICMPTypeAndCode.getKey R.icmpTypeAndCode

theorem Registries.Standard.initial : Registries.Standard Registries.initial where
  ipv4 := by decide
  arp := by decide
  icmp := by decide
  tcp := by decide
  keyed := HashMap.keyed_ofList ICMPTypeAndCode.getKey _

namespace TCP

/-- Options of at most 40 bytes, and a data offset that counts them. -/
structure WellFormed (t : TCP) : Prop where
  dataOffset : 4 * t.getDataOffset.toNat = 20 + (t.options.getD []).length
  options_le : (t.options.getD []).length ≤ 40

theorem bytes_length (t : TCP) :
    t.bytes.length = 20 + (t.options.getD []).length + (t.nextPacket.getD []).length := by
  simp [bytes]
  omega

theorem segmentLength_eq (t : TCP) (h : t.WellFormed) : t.segmentLength = t.bytes.length := by
  have hoffset := h.dataOffset
  rw [segmentLength, getDataOffset_shift, bytes_length]
  omega

end TCP

namespace IPv4

theorem tcpChecksum_ok (p : IPv4) (t : TCP) (h : t.WellFormed) :
    ∃ c, p.tcpChecksum t = .ok c := by
  have hlength : t.segmentLength.toNat = t.bytes.length := by
    rw [TCP.segmentLength_eq t h, Int.toNat_natCast]
  simp only [tcpChecksum, TCP.toBytes_eq, hlength]
  exact ⟨_, checksumOver_eq _ _⟩

/-- The carrier takes the segment with the checksum that was computed for it. -/
theorem setPacket_tcp_of_checksum (p : IPv4) (t : TCP) (h0 : t.getChecksum = 0) {c : JShort}
    (hc : p.tcpChecksum t = .ok c) :
    p.setPacket (.tcp t) = .ok
      ({ p with protocol := IPProtocolType.TCP, nextPacket := some (t.setChecksum c).bytes },
      .tcp (t.setChecksum c)) := by
  simp only [setPacket, if_pos h0, hc]
  change (do let bytes ← (t.setChecksum c).toBytes; _) = _
  rw [TCP.toBytes_eq]
  rfl

/-- The carrier takes the segment; the segment takes a checksum. -/
theorem setPacket_tcp (p : IPv4) (t : TCP) (h : t.WellFormed) :
    ∃ c, p.setPacket (.tcp t) = .ok
      ({ p with
        protocol := IPProtocolType.TCP
        nextPacket := some (TCP.bytes { t with checksum := c }) },
      .tcp { t with checksum := c }) := by
  by_cases h0 : t.getChecksum = 0
  · obtain ⟨c, hc⟩ := tcpChecksum_ok p t h
    have hset : t.setChecksum c = { t with checksum := c } := by simp [TCP.setChecksum]
    refine ⟨c, ?_⟩
    rw [setPacket_tcp_of_checksum p t h0 hc, hset]
  · refine ⟨t.checksum, ?_⟩
    simp only [setPacket, if_neg h0]
    change (do let bytes ← t.toBytes; _) = _
    rw [TCP.toBytes_eq]
    rfl

theorem setPacket_icmpv4 (p : IPv4) (icmp : ICMPv4) (typeAndCode : ICMPTypeAndCode)
    (h : icmp.typeAndCode = some typeAndCode) :
    ∃ c, p.setPacket (.icmpv4 icmp) = .ok
      ({ p with
        protocol := IPProtocolType.ICMP
        nextPacket := some (ICMPv4.bytes { icmp with checksum := c } typeAndCode) },
      .icmpv4 { icmp with checksum := c }) := by
  obtain ⟨c, hc⟩ := ICMPv4.toBytes_eq icmp typeAndCode h
  refine ⟨c, ?_⟩
  simp only [setPacket, hc]
  rfl

end IPv4

namespace Ethernet

/-- Untagged and unpadded. -/
structure Plain (e : Ethernet) : Prop where
  untagged : e.getVlanIdentifier = 0xffff
  unpadded : e.padding = false

end Ethernet

namespace IPv4

/-- Options in whole words up to 40 bytes, and room for a payload of `n` bytes. -/
structure Carries (p : IPv4) (n : Nat) : Prop where
  words : 4 ∣ (p.options.getD []).length
  options_le : (p.options.getD []).length ≤ 40
  length_le : 20 + (p.options.getD []).length + n ≤ 32767

theorem Carries.encodable {p : IPv4} {payload : Bytes} (h : p.Carries payload.length)
    (protocol : IPProtocolType) :
    Encodable { p with protocol, nextPacket := some payload } :=
  ⟨h.words, h.options_le, h.length_le⟩

end IPv4

namespace ARP

/-- Codes that the registries know, and address lengths 6 and 4. -/
structure Registered (a : ARP) (R : Registries) : Prop where
  hardwareType : a.hardwareType.isSome
  protocolType :
    ProtocolType.getInstance R.protocolType a.protocolType.value = a.protocolType
  operationCode :
    ARPOperationCode.getInstance R.arpOperationCode a.operationCode.value = a.operationCode
  hardwareAddressLength : a.hardwareAddressLength = 6
  protocolAddressLength : a.protocolAddressLength = 4

end ARP

namespace Packet

open PacketHelper

variable {R : Registries}

theorem decodeWith_some (decoder : Bytes → Except JavaException (Option Packet)) {own : Bytes}
    (h : own ≠ []) : decodeWith decoder (some own) = decoder own := by
  cases own with
  | nil => exact absurd rfl h
  | cons x xs => rfl

/-- What `getPacket()` returns, with the chain that goes on from there. -/
def Decodes (R : Registries) (r : Except JavaException (Option Packet)) (ps : List Packet) : Prop :=
  (r = .ok none ∧ ps = []) ∨ ∃ q, r = .ok (some q) ∧ Chain R q ps .null

theorem Decodes.chain {p : Packet} {ps : List Packet} (h : Decodes R (p.getPacket R) ps) :
    Chain R p (p :: ps) .null := by
  rcases h with ⟨hr, rfl⟩ | ⟨q, hr, hc⟩
  · exact .last hr
  · exact .next hr hc

/-- A frame of a registered type comes back with its fields, and the chain goes on with the
payload. -/
theorem ethernet_decodes (e : Ethernet) (he : e.Plain) {payload : Bytes}
    (hpayload : e.nextPacket = some payload)
    (ht : ProtocolType.getInstance R.protocolType e.ethernetType.value = e.ethernetType)
    (hne : e.ethernetType ≠ ProtocolType.DOT1Q_VLAN_TAGGED_FRAMES) {ps : List Packet}
    (hps : Decodes R (e.ethernetType.decode R (some payload)) ps) :
    ∃ e', e.toBytes = .ok e.bytes ∧ firstLayer R .EN10MB e.bytes = some (.ok (.ethernet e')) ∧
      Ethernet.SameFields e e' ∧ Chain R (.ethernet e') (.ethernet e' :: ps) .null := by
  obtain ⟨e', hd, hsame, hnext⟩ := Ethernet.newInstance_bytes R e he.untagged he.unpadded ht hne
  rw [hpayload, Option.getD_some] at hnext
  refine ⟨e', Ethernet.toBytes_eq e he.unpadded, ?_, hsame, Decodes.chain ?_⟩
  · rw [firstLayer, hd]
    rfl
  · rw [getPacket, hsame.ethernetType, hnext]
    exact hps

theorem ipv4_decodes (p : IPv4) (h : p.Encodable) {payload : Bytes}
    (hpayload : p.nextPacket = some payload)
    (hr : IPProtocolType.getInstance R.ipProtocolType p.protocol.value = p.protocol)
    {ps : List Packet} (hps : Decodes R (p.protocol.decode R (some payload)) ps) :
    ∃ p' c bytes, p.toBytes = .ok ({ p.setLengths with checksum := c }, bytes) ∧ bytes ≠ [] ∧
      IPv4.newInstance R bytes = .ok p' ∧
      IPv4.SameFields { p.setLengths with checksum := c } p' ∧
      Chain R (.ipv4 p') (.ipv4 p' :: ps) .null := by
  obtain ⟨c, w, hc⟩ := IPv4.toBytes_eq p h
  rw [hpayload, Option.getD_some] at hc
  obtain ⟨p', hd, hsame, hnext⟩ := IPv4.newInstance_headerBytes R p.setLengths w payload
    (by change p.nextPacket.getD [] = payload; rw [hpayload]; rfl)
    (IPv4.setLengths_headerLength p h) hr
  refine ⟨p', c, _, hc, ?_, hd, ⟨hsame.version, hsame.headerLength, hsame.diffServ, hsame.expCon,
    hsame.totalLength, hsame.identification, hsame.flags, hsame.fragmentOffset, hsame.ttl,
    hsame.protocol, hsame.sourceAddress, hsame.destinationAddress, hsame.options, hsame.payload⟩,
    Decodes.chain ?_⟩
  · simp [IPv4.headerBytes, IPv4.headerFront]
  · rw [getPacket, hsame.protocol, hnext]
    exact hps

/-- The decoded layer holds what the stacked packet holds. -/
inductive SameLayer : Packet → Packet → Prop
  | ethernet {e e'} (h : Ethernet.SameFields e e') : SameLayer (.ethernet e) (.ethernet e')
  | ipv4 {p p'} (h : IPv4.SameFields p p') : SameLayer (.ipv4 p) (.ipv4 p')
  | tcp {t t'} (h : TCP.SameFields t t') : SameLayer (.tcp t) (.tcp t')
  | icmpv4 {i i'} (h : ICMPv4.SameFields i i') : SameLayer (.icmpv4 i) (.icmpv4 i')
  | arp (a) : SameLayer (.arp a) (.arp a)
  | unknown (u) : SameLayer (.unknown u) (.unknown u)

/-- The bytes that a packet carries for an application. -/
def applicationBytes : Packet → Option Bytes
  | unknown u => some u.data
  | icmpv4 i => some (i.nextPacket.getD [])
  | _ => none

/-- The stacks that come back from their bytes. -/
inductive Stackable (R : Registries) : List Packet → Prop
  | data {e p t u} (he : e.Plain) (ht : t.WellFormed) (hu : u.data ≠ [])
      (hp : p.Carries (20 + (t.options.getD []).length + u.data.length)) :
      Stackable R [.ethernet e, .ipv4 p, .tcp t, .unknown u]
  | tcp {e p t} (he : e.Plain) (ht : t.WellFormed) (hempty : t.nextPacket.getD [] = [])
      (hp : p.Carries (20 + (t.options.getD []).length)) :
      Stackable R [.ethernet e, .ipv4 p, .tcp t]
  | icmpv4 {e p i typeAndCode} (he : e.Plain) (hi : i.typeAndCode = some typeAndCode)
      (hr : R.icmpTypeAndCode.containsKey typeAndCode.getKey = true)
      (hp : p.Carries (4 + (i.nextPacket.getD []).length)) :
      Stackable R [.ethernet e, .ipv4 p, .icmpv4 i]
  | arp {e a} (he : e.Plain) (ha : a.Registered R) : Stackable R [.ethernet e, .arp a]

namespace PacketBuilder

theorem stack_cons {carrier packet carrier' packet' : Packet} {packets rest : List Packet}
    (hne : packets ≠ []) (h : stack packets = .ok (packet :: rest))
    (hs : carrier.setPacket packet = .ok (carrier', packet')) :
    stack (carrier :: packets) = .ok (carrier' :: packet' :: rest) := by
  cases packets with
  | nil => exact absurd rfl hne
  | cons q qs =>
    simp only [stack, h]
    change (do let r ← carrier.setPacket packet; _) = _
    rw [hs]
    rfl

end PacketBuilder

/-- `build().toBytes()` parses to the packets that were stacked. -/
structure RoundTrips (R : Registries) (packets : List Packet) (stacked ps : List Packet)
    (built : Packet) (bytes : Bytes) : Prop where
  stack : PacketBuilder.stack packets = .ok stacked
  toBytes : (PacketBuilder.build packets >>= toBytes) = .ok (built, bytes)
  parsePacket : parsePacket R (some .EN10MB) bytes = .ok (HashMap.ofList getClass ps)
  layers : ∃ first, firstLayer R .EN10MB bytes = some (.ok first) ∧ Chain R first ps .null
  classes : stacked.map getClass = packets.map getClass
  fields : List.Forall₂ SameLayer stacked ps
  application : ps.filterMap applicationBytes = packets.filterMap applicationBytes

theorem segment_decodes (t : TCP) (h : t.WellFormed) {ps : List Packet}
    (hps : Decodes R (decodeUnknown (some (t.nextPacket.getD []))) ps) :
    ∃ t', TCP.SameFields t t' ∧
      Decodes R (IPProtocolType.TCP.decode R (some t.bytes)) (.tcp t' :: ps) := by
  obtain ⟨t', hd, hsame, hnext⟩ := TCP.newInstance_bytes t h.dataOffset
  refine ⟨t', hsame, .inr ⟨_, ?_, Decodes.chain ?_⟩⟩
  · have hne : t.bytes ≠ [] := by
      apply List.ne_nil_of_length_pos
      rw [TCP.bytes_length]
      omega
    rw [IPProtocolType.decode, decodeWith_some _ hne]
    change (some ∘ Packet.tcp) <$> TCP.newInstance t.bytes = _
    rw [hd]
    rfl
  · rw [getPacket, hnext]
    exact hps

theorem RoundTrips.of_frame {packets rest ps : List Packet} {e : Ethernet} {first : Packet}
    {bytes : Bytes} (hs : PacketBuilder.stack packets = .ok (.ethernet e :: rest))
    (hb : e.toBytes = .ok bytes) (hfirst : firstLayer R .EN10MB bytes = some (.ok first))
    (hc : Chain R first ps .null)
    (hclasses : (ethernet e :: rest).map getClass = packets.map getClass)
    (hfields : List.Forall₂ SameLayer (.ethernet e :: rest) ps)
    (happlication : ps.filterMap applicationBytes = packets.filterMap applicationBytes) :
    RoundTrips R packets (.ethernet e :: rest) ps (.ethernet e) bytes := by
  refine ⟨hs, ?_, parsePacket_of_chain R hfirst hc, ⟨first, hfirst, hc⟩, hclasses, hfields,
    happlication⟩
  simp only [PacketBuilder.build, hs]
  change (fun bytes => (ethernet e, bytes)) <$> e.toBytes = _
  rw [hb]
  rfl

variable (hR : R.Standard)
include hR

theorem ipv4_frame (e : Ethernet) (he : e.Plain) (p : IPv4) (h : p.Encodable) {payload : Bytes}
    (hpayload : p.nextPacket = some payload)
    (hr : IPProtocolType.getInstance R.ipProtocolType p.protocol.value = p.protocol)
    {ps : List Packet} (hps : Decodes R (p.protocol.decode R (some payload)) ps) :
    ∃ e₂ p₂ e' p' bytes, setPacket (.ethernet e) (.ipv4 p) = .ok (.ethernet e₂, .ipv4 p₂) ∧
      e₂.toBytes = .ok bytes ∧ firstLayer R .EN10MB bytes = some (.ok (.ethernet e')) ∧
      Ethernet.SameFields e₂ e' ∧ IPv4.SameFields p₂ p' ∧
      Chain R (.ethernet e') (.ethernet e' :: .ipv4 p' :: ps) .null := by
  obtain ⟨p', c, bytes, hbytes, hne, hd, hsame, hc⟩ := ipv4_decodes p h hpayload hr hps
  have hdecode : Decodes R (ProtocolType.IPV4.decode R (some bytes)) (.ipv4 p' :: ps) := by
    refine .inr ⟨_, ?_, hc⟩
    rw [ProtocolType.decode, decodeWith_some _ hne]
    change (some ∘ Packet.ipv4) <$> IPv4.newInstance R bytes = _
    rw [hd]
    rfl
  obtain ⟨e', htoBytes, hfirst, hsame', hc'⟩ := ethernet_decodes
    { e with ethernetType := ProtocolType.IPV4, nextPacket := some bytes }
    ⟨he.untagged, he.unpadded⟩ rfl hR.ipv4
    (show ProtocolType.IPV4 ≠ ProtocolType.DOT1Q_VLAN_TAGGED_FRAMES by decide) hdecode
  refine ⟨_, _, e', p', _, ?_, htoBytes, hfirst, hsame', hsame, hc'⟩
  simp only [setPacket, Ethernet.setPacket, toBytes, hbytes]
  rfl

theorem message_decodes (i : ICMPv4) (typeAndCode : ICMPTypeAndCode)
    (h : i.typeAndCode = some typeAndCode)
    (hr : R.icmpTypeAndCode.containsKey typeAndCode.getKey = true) :
    ∃ i', ICMPv4.SameFields i i' ∧
      Decodes R (IPProtocolType.ICMP.decode R (some (i.bytes typeAndCode))) [.icmpv4 i'] := by
  obtain ⟨i', hd, hsame⟩ := ICMPv4.newInstance_bytes R i typeAndCode h hR.keyed hr
  refine ⟨i', hsame, .inr ⟨_, ?_, .last rfl⟩⟩
  have hne : i.bytes typeAndCode ≠ [] := List.cons_ne_nil _ _
  rw [IPProtocolType.decode, decodeWith_some _ hne]
  change (some ∘ Packet.icmpv4) <$> ICMPv4.newInstance R (i.bytes typeAndCode) = _
  rw [hd]
  rfl

/-- A segment under IPv4 and Ethernet, with or without application bytes behind it. -/
theorem segment_roundTrips {e : Ethernet} {p : IPv4} {t : TCP} {packets rest ps : List Packet}
    (he : e.Plain) (ht : t.WellFormed)
    (hp : p.Carries (20 + (t.options.getD []).length + (t.nextPacket.getD []).length))
    (hne : packets ≠ []) (hstack : PacketBuilder.stack packets = .ok (.tcp t :: rest))
    (hps : Decodes R (decodeUnknown (some (t.nextPacket.getD []))) ps)
    (hclasses : (.tcp t :: rest).map getClass = packets.map getClass)
    (hfields : List.Forall₂ SameLayer rest ps)
    (happlication : ps.filterMap applicationBytes = packets.filterMap applicationBytes) :
    ∃ stacked ps built bytes, RoundTrips R (.ethernet e :: .ipv4 p :: packets) stacked ps built
      bytes := by
  obtain ⟨c, hc⟩ := IPv4.setPacket_tcp p t ht
  obtain ⟨t', hsame, hdecode⟩ := segment_decodes (R := R) { t with checksum := c } ⟨ht.1, ht.2⟩ hps
  have hcarries : p.Carries (TCP.bytes { t with checksum := c }).length := by
    rw [TCP.bytes_length]
    exact hp
  obtain ⟨e₂, p₂, e', p', bytes, hset, hbytes, hfirst, he', hp', hchain⟩ := ipv4_frame hR e he _
    (hcarries.encodable IPProtocolType.TCP) rfl hR.tcp hdecode
  have hip : PacketBuilder.stack (.ipv4 p :: packets) =
      .ok (.ipv4 { p with
        protocol := IPProtocolType.TCP
        nextPacket := some (TCP.bytes { t with checksum := c }) } ::
          .tcp { t with checksum := c } :: rest) := by
    refine PacketBuilder.stack_cons hne hstack ?_
    simp only [setPacket, hc]
    rfl
  have hframe := PacketBuilder.stack_cons (List.cons_ne_nil _ _) hip hset
  refine ⟨_, _, _, _, .of_frame hframe hbytes hfirst hchain ?_ ?_ ?_⟩
  · simpa [getClass] using hclasses
  · exact .cons (.ethernet he') (.cons (.ipv4 hp') (.cons (.tcp hsame) hfields))
  · exact happlication

theorem message_roundTrips {e : Ethernet} {p : IPv4} {i : ICMPv4} {typeAndCode : ICMPTypeAndCode}
    (he : e.Plain) (hi : i.typeAndCode = some typeAndCode)
    (hr : R.icmpTypeAndCode.containsKey typeAndCode.getKey = true)
    (hp : p.Carries (4 + (i.nextPacket.getD []).length)) :
    ∃ stacked ps built bytes, RoundTrips R [.ethernet e, .ipv4 p, .icmpv4 i] stacked ps built
      bytes := by
  obtain ⟨c, hc⟩ := IPv4.setPacket_icmpv4 p i typeAndCode hi
  obtain ⟨i', hsame, hdecode⟩ := message_decodes hR { i with checksum := c } typeAndCode hi hr
  have hcarries : p.Carries (ICMPv4.bytes { i with checksum := c } typeAndCode).length := by
    rw [ICMPv4.bytes_length]
    exact hp
  obtain ⟨e₂, p₂, e', p', bytes, hset, hbytes, hfirst, he', hp', hchain⟩ := ipv4_frame hR e he _
    (hcarries.encodable IPProtocolType.ICMP) rfl hR.icmp hdecode
  have hip : PacketBuilder.stack [.ipv4 p, .icmpv4 i] =
      .ok [.ipv4 { p with
        protocol := IPProtocolType.ICMP
        nextPacket := some (ICMPv4.bytes { i with checksum := c } typeAndCode) },
          .icmpv4 { i with checksum := c }] := by
    refine PacketBuilder.stack_cons (List.cons_ne_nil _ _) rfl ?_
    simp only [setPacket, hc]
    rfl
  have hframe := PacketBuilder.stack_cons (List.cons_ne_nil _ _) hip hset
  refine ⟨_, _, _, _, .of_frame hframe hbytes hfirst hchain rfl ?_ ?_⟩
  · exact .cons (.ethernet he') (.cons (.ipv4 hp') (.cons (.icmpv4 hsame) .nil))
  · exact congrArg (fun bytes => [bytes]) hsame.payload

theorem arp_roundTrips {e : Ethernet} {a : ARP} (he : e.Plain) (ha : a.Registered R) :
    ∃ stacked ps built bytes, RoundTrips R [.ethernet e, .arp a] stacked ps built bytes := by
  obtain ⟨hardwareType, hh⟩ := Option.isSome_iff_exists.mp ha.hardwareType
  have hbytes := ARP.toBytes_eq a hardwareType hh
  have hd := ARP.newInstance_bytes R a hardwareType hh ha.protocolType ha.operationCode
    ha.hardwareAddressLength ha.protocolAddressLength
  have hdecode : Decodes R (ProtocolType.ARP.decode R (some (a.bytes hardwareType))) [.arp a] := by
    refine .inr ⟨_, ?_, .last rfl⟩
    have hne : a.bytes hardwareType ≠ [] := by simp [ARP.bytes, shortBytes]
    rw [ProtocolType.decode, decodeWith_some _ hne]
    change (some ∘ Packet.arp) <$> ARP.newInstance R (a.bytes hardwareType) = _
    rw [hd]
    rfl
  obtain ⟨e', htoBytes, hfirst, hsame, hc⟩ := ethernet_decodes
    { e with ethernetType := ProtocolType.ARP, nextPacket := some (a.bytes hardwareType) }
    ⟨he.untagged, he.unpadded⟩ rfl hR.arp
    (show ProtocolType.ARP ≠ ProtocolType.DOT1Q_VLAN_TAGGED_FRAMES by decide) hdecode
  have hset : setPacket (.ethernet e) (.arp a) = .ok (.ethernet { e with
      ethernetType := ProtocolType.ARP
      nextPacket := some (a.bytes hardwareType) }, .arp a) := by
    simp only [setPacket, Ethernet.setPacket, toBytes, hbytes]
    rfl
  have hframe := PacketBuilder.stack_cons (List.cons_ne_nil _ _)
    (rfl : PacketBuilder.stack [.arp a] = .ok [.arp a]) hset
  exact ⟨_, _, _, _, .of_frame hframe htoBytes hfirst hc rfl
    (.cons (.ethernet hsame) (.cons (.arp a) .nil)) rfl⟩

/-- Each stack of the four shapes comes back from its bytes, layer by layer. -/
theorem parsePacket_build (packets : List Packet) (h : Stackable R packets) :
    ∃ stacked ps built bytes, RoundTrips R packets stacked ps built bytes := by
  cases h with
  | @data e p t u he ht hu hp =>
    have hstack := PacketBuilder.stack_cons (List.cons_ne_nil _ _)
      (rfl : PacketBuilder.stack [.unknown u] = .ok [.unknown u])
      (rfl : setPacket (.tcp t) (.unknown u) =
        .ok (.tcp { t with nextPacket := some u.data }, .unknown u))
    have hunknown : Decodes R (decodeUnknown (some u.data)) [.unknown u] := by
      refine .inr ⟨_, ?_, .last rfl⟩
      rw [decodeUnknown, decodeWith_some _ hu, UnknownPacket.newInstance_eq, if_neg hu]
      rfl
    exact segment_roundTrips hR (t := { t with nextPacket := some u.data }) he ⟨ht.1, ht.2⟩ hp
      (List.cons_ne_nil _ _) hstack hunknown rfl (.cons (.unknown u) .nil) rfl
  | @tcp e p t he ht hempty hp =>
    have hstack : PacketBuilder.stack [.tcp t] = .ok [.tcp t] := rfl
    have hunknown : Decodes R (decodeUnknown (some (t.nextPacket.getD []))) [] := by
      rw [hempty]
      exact .inl ⟨rfl, rfl⟩
    exact segment_roundTrips hR he ht (by rw [hempty]; exact hp) (List.cons_ne_nil _ _) hstack
      hunknown rfl .nil rfl
  | icmpv4 he hi hr hp => exact message_roundTrips hR he hi hr hp
  | arp he ha => exact arp_roundTrips hR he ha

omit hR

/-- An untagged frame with priority 1, and a message whose numbers ICMPv6 registers as well. -/
def priorityStack : List Packet :=
  [.ethernet { Ethernet.new with priorityCodePoint := 1 }, .ipv4 IPv4.new,
    .icmpv4 ⟨some (.new .ICMPv4DestinationUnreachable 0 "Destination network unreachable"), 0,
      none⟩]

theorem priorityStack_stackable : Stackable Registries.initial priorityStack :=
  .icmpv4 ⟨by decide, rfl⟩ rfl (by decide +kernel) ⟨by decide, by decide, by decide⟩

/-- The layer of a class as the stack holds it, and as its bytes give it back. -/
def stackedLayer (packets : List Packet) (clazz : PacketClass) :
    Except JavaException (Option Packet) :=
  (fun ps => ps.find? (fun p => p.getClass = clazz)) <$> PacketBuilder.stack packets

def decodedLayer (R : Registries) (packets : List Packet) (clazz : PacketClass) :
    Except JavaException (Option Packet) := do
  let (_, bytes) ← PacketBuilder.build packets >>= toBytes
  let m ← PacketHelper.parsePacket R (some .EN10MB) bytes
  pure (m.get clazz)

def priority : Option Packet → Option JByte
  | some (.ethernet e) => some e.getPriorityCodePoint
  | _ => none

def message : Option Packet → Option ICMPv4
  | some (.icmpv4 i) => some i
  | _ => none

/-- The priority, the constant behind the numbers and the null payload do not come back. -/
theorem priority_is_not_carried :
    Stackable Registries.initial priorityStack ∧
      priority <$> stackedLayer priorityStack .Ethernet = .ok (some 1) ∧
      priority <$> decodedLayer Registries.initial priorityStack .Ethernet = .ok (some 0) ∧
      message <$> stackedLayer priorityStack .ICMPv4 = .ok (some
        ⟨some (.new .ICMPv4DestinationUnreachable 0 "Destination network unreachable"), 0xfcff,
          none⟩) ∧
      message <$> decodedLayer Registries.initial priorityStack .ICMPv4 = .ok (some
        ⟨some (.new .ICMPv6TimeExceeded 0 "Hop limit exceeded in transit"), 0xfcff, some []⟩) :=
  ⟨priorityStack_stackable, by decide +kernel, by decide +kernel, by decide +kernel,
    by decide +kernel⟩

theorem priorityStack_roundTrips :
    ∃ stacked ps built bytes, RoundTrips Registries.initial priorityStack stacked ps built bytes :=
  parsePacket_build .initial priorityStack priorityStack_stackable

end Packet

end Jxnet
