import Jxnet.Packet.Builder
import Jxnet.Packet.Reencode

namespace Jxnet

open Java ByteBuffer

/-! The lengths that a header declares, and where the payload then ends. -/

namespace TCP

/-- A call of one of the setters. -/
inductive Setter where
  | sourcePort (sourcePort : JShort)
  | destinationPort (destinationPort : JShort)
  | sequence (sequence : JInt)
  | acknowledge (acknowledge : JInt)
  | dataOffset (dataOffset : JByte)
  | flags (flags : TCPFlags)
  | windowSize (windowSize : JShort)
  | checksum (checksum : JShort)
  | urgentPointer (urgentPointer : JShort)
  | options (options : Option Bytes)
  | payload (payload : Option Bytes)

def set (t : TCP) : Setter → TCP
  | .sourcePort sourcePort => t.setSourcePort sourcePort
  | .destinationPort destinationPort => t.setDestinationPort destinationPort
  | .sequence sequence => t.setSequence sequence
  | .acknowledge acknowledge => t.setAcknowledge acknowledge
  | .dataOffset dataOffset => t.setDataOffset dataOffset
  | .flags flags => t.setFlags flags
  | .windowSize windowSize => t.setWindowSize windowSize
  | .checksum checksum => t.setChecksum checksum
  | .urgentPointer urgentPointer => t.setUrgentPointer urgentPointer
  | .options options => t.setOptions options
  | .payload payload => t.setPayload payload

/-- The constructor, then any setters. -/
def build (setters : List Setter) : TCP := setters.foldl set new

/-- `newInstance(t.toBytes())` has the options and the payload of `t`, null counted as empty. -/
def KeepsOptions (t : TCP) : Prop :=
  ∃ b t', t.toBytes = .ok b ∧ newInstance b = .ok t' ∧
    t'.options.getD [] = t.options.getD [] ∧ t'.nextPacket.getD [] = t.nextPacket.getD []

/-- The data offset ends where the options do; without options it may lie below the minimum,
and without a payload beyond the end. -/
def Delimits (t : TCP) : Prop :=
  4 * t.getDataOffset.toNat = 20 + (t.options.getD []).length ∨
    ((t.options.getD []).length = 0 ∧ t.getDataOffset.toNat ≤ 5) ∨
    ((t.nextPacket.getD []).length = 0 ∧
      20 + (t.options.getD []).length ≤ 4 * t.getDataOffset.toNat)

/-- Decoding splits options and payload where the data offset says, as far as they go. -/
theorem newInstance_bytes_split (t : TCP) :
    ∃ t', newInstance t.bytes = .ok t' ∧
      t'.options.getD [] = (t.options.getD [] ++ t.nextPacket.getD []).take
        (4 * t.getDataOffset.toNat - 20) ∧
      t'.nextPacket.getD [] = (t.options.getD [] ++ t.nextPacket.getD []).drop
        (4 * t.getDataOffset.toNat - 20) := by
  have hnibble : (t.offsetAndFlags.extractLsb' 8 8).toNat / 16 = t.getDataOffset.toNat := by
    have hlt := t.offsetAndFlags.isLt
    rw [← offsetAndFlags_topNibble, topNibble_toNat, BitVec.extractLsb'_toNat,
      Nat.shiftRight_eq_div_pow]
    omega
  obtain ⟨t', ht', hoptions, hpayload, -⟩ := newInstance_append t.getSourcePort
    t.getDestinationPort t.getSequence t.getAcknowledge (t.offsetAndFlags.extractLsb' 8 8)
    (t.offsetAndFlags.extractLsb' 0 8) t.getWindowSize t.getChecksum t.getUrgentPointer
    (t.options.getD [] ++ t.nextPacket.getD [])
  rw [hnibble] at hoptions hpayload
  refine ⟨t', ht', hoptions, ?_⟩
  rw [hpayload]
  rfl

theorem keepsOptions_iff (t : TCP) : t.KeepsOptions ↔ t.Delimits := by
  obtain ⟨t', ht', hoptions, hpayload⟩ := newInstance_bytes_split t
  have hkeeps : t.KeepsOptions ↔ t'.options.getD [] = t.options.getD [] ∧
      t'.nextPacket.getD [] = t.nextPacket.getD [] := by
    constructor
    · intro h
      obtain ⟨b, t₂, hb, ht₂, hsame⟩ := h
      rw [toBytes_eq] at hb
      cases hb
      rw [ht'] at ht₂
      cases ht₂
      exact hsame
    · intro h
      exact ⟨t.bytes, t', toBytes_eq t, ht', h⟩
  have hlength : ∀ n, ((t.options.getD [] ++ t.nextPacket.getD []).take n).length =
      min n ((t.options.getD []).length + (t.nextPacket.getD []).length) := by
    intro n
    rw [List.length_take, List.length_append]
  rw [hkeeps, hoptions, hpayload]
  constructor
  · intro h
    have hl := congrArg List.length h.1
    rw [hlength] at hl
    rw [Delimits]
    omega
  · intro h
    have hmin : min (4 * t.getDataOffset.toNat - 20)
        ((t.options.getD []).length + (t.nextPacket.getD []).length) =
        (t.options.getD []).length := by
      rw [Delimits] at h
      omega
    rw [← take_min_length, ← drop_min_length, List.length_append, hmin]
    exact ⟨List.take_left, List.drop_left⟩

/-- After any setters an object comes back with its options and payload iff the data offset
delimits the options. -/
theorem build_keepsOptions_iff (setters : List Setter) :
    (build setters).KeepsOptions ↔ (build setters).Delimits :=
  keepsOptions_iff (build setters)

/-- Timestamp options and no data offset. -/
def timestampSetters : List Setter :=
  [.flags (TCPFlags.newInstance 2),
    .options (some [0x01, 0x01, 0x08, 0x0a, 0x00, 0x0b, 0x22, 0x8e, 0x5c, 0x02, 0x67, 0x53])]

theorem timestampOptions_are_lost :
    4 ∣ ((build timestampSetters).options.getD []).length ∧
      ((build timestampSetters).options.getD []).length ≤ 40 ∧
      ¬ (build timestampSetters).KeepsOptions := by
  refine ⟨by decide, by decide, ?_⟩
  rw [keepsOptions_iff, Delimits]
  decide

end TCP

namespace IPv4

/-- A protocol whose number is registered, or `UNKNOWN`. -/
def Registered (R : Registries) (protocol : IPProtocolType) : Prop :=
  R.ipProtocolType.containsKey protocol.value = true ∨ protocol = IPProtocolType.UNKNOWN

/-- A lookup gives a protocol that `equals` the one asked for. -/
theorem Registered.getInstance_value {R : Registries} (hR : R.Reachable)
    {protocol : IPProtocolType} (h : Registered R protocol) :
    (IPProtocolType.getInstance R.ipProtocolType protocol.value).value = protocol.value := by
  apply IPProtocolType.getInstance_value hR
  rcases h with hkey | rfl
  · exact .inl hkey
  · exact .inr rfl

/-- The object that a call of `toBytes` leaves decodes from the bytes, and its two lengths are
the sizes of the header and of all the bytes. Protocols are compared as `equals` does, by their
numbers; one that the registry holds comes back itself. -/
structure DecodesBack (R : Registries) (p o p' : IPv4) (b : Bytes) : Prop where
  toBytes : p.toBytes = .ok (o, b)
  newInstance : newInstance R b = .ok p'
  same : SameFields { o with protocol := p'.protocol } p'
  protocol : p'.protocol.value = o.protocol.value
  registered : R.ipProtocolType.get o.protocol.value = some o.protocol → p'.protocol = o.protocol
  options : o.options = p.options
  payload : o.nextPacket = p.nextPacket
  headerLength : 4 * o.getHeaderLength.toNat = 20 + (p.options.getD []).length
  totalLength : o.getTotalLength.toInt =
    ((20 + (p.options.getD []).length + (p.nextPacket.getD []).length : Nat) : Int)
  length : b.length = 20 + (p.options.getD []).length + (p.nextPacket.getD []).length

/-- Every object whose sizes fit, whatever else its fields hold, comes back from its bytes. -/
theorem decodesBack (R : Registries) (hR : R.Reachable) (p : IPv4) (h : p.Encodable)
    (hr : Registered R p.protocol) : ∃ o p' b, DecodesBack R p o p' b := by
  obtain ⟨c, w, htoBytes⟩ := toBytes_eq p h
  have hlength := setLengths_headerLength p h
  have hvalue := hr.getInstance_value hR
  -- the bytes only tell the number of the protocol
  have hbytes : headerBytes { p.setLengths with
      protocol := IPProtocolType.getInstance R.ipProtocolType p.protocol.value } w =
      p.setLengths.headerBytes w := by
    rw [headerBytes, headerFront, hvalue]
    rfl
  obtain ⟨p', hdecode, hsame, -⟩ := newInstance_headerBytes R { p.setLengths with
    protocol := IPProtocolType.getInstance R.ipProtocolType p.protocol.value } w
    (p.nextPacket.getD []) rfl hlength (by rw [hvalue])
  have hprotocol : p'.protocol = IPProtocolType.getInstance R.ipProtocolType p.protocol.value :=
    hsame.protocol
  rw [hbytes] at hdecode
  refine ⟨_, p', _, htoBytes, hdecode, ?_, ?_, ?_, rfl, rfl, hlength, setLengths_totalLength p h,
    ?_⟩
  · exact ⟨hsame.version, hsame.headerLength, hsame.diffServ, hsame.expCon, hsame.totalLength,
      hsame.identification, hsame.flags, hsame.fragmentOffset, hsame.ttl, rfl,
      hsame.sourceAddress, hsame.destinationAddress, hsame.options, hsame.payload⟩
  · rw [hprotocol]
    exact hvalue
  · intro hget
    change R.ipProtocolType.get p.protocol.value = some p.protocol at hget
    rw [hprotocol, IPProtocolType.getInstance, hget]
    rfl
  · rw [List.length_append, headerBytes_length p h]

/-- Options of four bytes and a payload of three. -/
def optionPacket : IPv4 :=
  { new with
    protocol := IPProtocolType.UDP
    options := some [1, 1, 1, 0]
    nextPacket := some [1, 2, 3] }

theorem optionPacket_decodesBack :
    ∃ o p' b, DecodesBack Registries.initial optionPacket o p' b :=
  decodesBack Registries.initial .initial optionPacket ⟨by decide, by decide, by decide⟩
    (.inl (by decide))

/-- Options in whole words, at most ten, and at most the 65535 bytes of a datagram. -/
structure Datagram (p : IPv4) : Prop where
  words : 4 ∣ (p.options.getD []).length
  options_le : (p.options.getD []).length ≤ 40
  length_le : 20 + (p.options.getD []).length + (p.nextPacket.getD []).length ≤ 65535

theorem Datagram.declaredSize {p : IPv4} (h : p.Datagram) :
    p.setLengths.declaredSize = 20 + (p.options.getD []).length := by
  have hle := h.options_le
  have hbare : Encodable { p with nextPacket := none } := by
    refine ⟨h.words, h.options_le, ?_⟩
    simp only [Option.getD_none, List.length_nil]
    omega
  have hsame : p.setLengths.getHeaderLength =
      IPv4.getHeaderLength (setLengths { p with nextPacket := none }) := by
    simp only [setLengths, setHeaderLength, setTotalLength, getHeaderLength]
  rw [IPv4.declaredSize, hsame, setLengths_headerLength _ hbare]

/-- A call that returns has found a total length that a signed `short` holds. -/
theorem Datagram.of_toBytes {p : IPv4} (h : p.Datagram) {r : IPv4 × Bytes}
    (hr : p.toBytes = .ok r) : p.Encodable := by
  have hfits : p.Fits := by
    by_cases h0 : p.setLengths.getChecksum = 0
    · exact fits_of_fresh p h0 hr
    · exact (fits_of_stored p h0 hr).1
  have htotal := hfits.total
  have hlt := p.setLengths.getTotalLength.toInt_lt
  rw [h.declaredSize] at htotal
  exact ⟨h.words, h.options_le, by omega⟩

/-- The encoded packet, its length and the total length that stands in it. -/
theorem toBytes_length (p : IPv4) (h : p.Encodable) :
    ∃ o b, p.toBytes = .ok (o, b) ∧
      b.length = 4 * o.getHeaderLength.toNat + (p.nextPacket.getD []).length ∧
      (shortAt b 2).toNat = b.length := by
  obtain ⟨c, w, htoBytes⟩ := toBytes_eq p h
  have hlength := setLengths_headerLength p h
  have htotal := setLengths_totalLength p h
  have hb : (p.setLengths.headerBytes w ++ p.nextPacket.getD []).length =
      20 + (p.options.getD []).length + (p.nextPacket.getD []).length := by
    rw [List.length_append, headerBytes_length p h]
  have hshort : shortAt (p.setLengths.headerBytes w ++ p.nextPacket.getD []) 2 =
      p.setLengths.getTotalLength := by
    rw [headerBytes, headerFront]
    exact shortAt_append [p.setLengths.versionByte, p.setLengths.serviceByte] _
      p.setLengths.getTotalLength rfl
  refine ⟨_, _, htoBytes, ?_, ?_⟩
  · rw [hb, ← hlength]
    rfl
  · have hle := h.length_le
    rw [hshort, hb]
    rw [BitVec.toInt_eq_toNat_cond] at htotal
    split at htotal <;> omega

/-- Encoding a datagram returns with its length in the total length field iff that length is
one of a signed `short`. -/
theorem toBytes_totalLength_iff (p : IPv4) (h : p.Datagram) :
    (∃ o b, p.toBytes = .ok (o, b) ∧
      b.length = 4 * o.getHeaderLength.toNat + (p.nextPacket.getD []).length ∧
      (shortAt b 2).toNat = b.length) ↔
    20 + (p.options.getD []).length + (p.nextPacket.getD []).length ≤ 32767 := by
  constructor
  · intro hsome
    obtain ⟨o, b, hr, -⟩ := hsome
    exact (h.of_toBytes hr).length_le
  · intro hle
    exact toBytes_length p ⟨h.words, h.options_le, hle⟩

/-- A datagram of 32768 bytes. -/
def largePacket : IPv4 := { new with nextPacket := some (List.replicate 32748 0) }

theorem largePacket_payload : (largePacket.nextPacket.getD []).length = 32748 := by
  simp only [largePacket, Option.getD_some, List.length_replicate]

theorem largePacket_datagram : largePacket.Datagram := by
  have hoptions : (largePacket.options.getD []).length = 0 := rfl
  refine ⟨?_, ?_, ?_⟩
  · rw [hoptions]
    exact Nat.dvd_zero 4
  · rw [hoptions]
    exact Nat.zero_le 40
  · rw [hoptions, largePacket_payload]
    decide

theorem largePacket_throws :
    largePacket.Datagram ∧ largePacket.toBytes = .error .negativeArraySize ∧
      ¬ ∃ o b, largePacket.toBytes = .ok (o, b) ∧
        b.length = 4 * o.getHeaderLength.toNat + (largePacket.nextPacket.getD []).length ∧
        (shortAt b 2).toNat = b.length := by
  have htotal : largePacket.setLengths.getTotalLength.toInt = -32768 := by
    have hoptions : (largePacket.options.getD []).length = 0 := rfl
    rw [setLengths_getTotalLength, largePacket_datagram.declaredSize, hoptions,
      largePacket_payload]
    decide
  have hthrows : largePacket.toBytes = .error .negativeArraySize := by
    rw [toBytes, encodeWith, htotal, if_pos (by decide)]
  refine ⟨largePacket_datagram, hthrows, ?_⟩
  intro h
  obtain ⟨o, b, hr, -⟩ := h
  rw [hthrows] at hr
  cases hr

theorem largePacket_iff :
    (∃ o b, largePacket.toBytes = .ok (o, b) ∧
      b.length = 4 * o.getHeaderLength.toNat + (largePacket.nextPacket.getD []).length ∧
      (shortAt b 2).toNat = b.length) ↔
    20 + (largePacket.options.getD []).length + (largePacket.nextPacket.getD []).length ≤ 32767 :=
  toBytes_totalLength_iff largePacket largePacket_datagram

/-- The total length field, unsigned. -/
def totalLengthAt (b : Bytes) : Nat := (shortAt b 2).toNat

/-- The decoder takes all the bytes behind the header as payload. -/
theorem newInstance_payload (R : Registries) (b : Bytes) (h5 : 5 ≤ headerLengthAt b)
    (hle : 4 * headerLengthAt b ≤ b.length) :
    ∃ p, newInstance R b = .ok p ∧ p.nextPacket = some (b.drop (4 * headerLengthAt b)) := by
  have hmin : 20 ≤ 4 * headerLengthAt b := by omega
  have hsize : headerSize b = 4 * headerLengthAt b := Nat.max_eq_right hmin
  have hheader : header b = .ok (4 * headerLengthAt b) := by
    rw [header, fixedHeader, hsize, if_pos hle]
  obtain ⟨-, p, hp, hread⟩ := (headerPayload R).accepts hheader
  refine ⟨p, ?_, hp⟩
  rw [newInstance, newInstanceAt, decode_whole, hread, if_pos rfl]

end IPv4

namespace Packet

/-- The IPv4 layer of a frame takes what follows its header up to the end of the frame. -/
theorem getPacket_ipv4 (R : Registries) (hR : R.Reachable) (frame : Bytes) (n : Nat)
    (hn : Ethernet.header R frame = .ok n) (ht : Ethernet.frameType R frame = 0x0800)
    (h5 : 20 ≤ 4 * IPv4.headerLengthAt (frame.drop n))
    (hle : 4 * IPv4.headerLengthAt (frame.drop n) ≤ (frame.drop n).length) :
    ∃ e p, Ethernet.newInstance R frame = .ok e ∧
      getPacket R (.ethernet e) = .ok (some (.ipv4 p)) ∧
      p.nextPacket = some ((frame.drop n).drop (4 * IPv4.headerLengthAt (frame.drop n))) := by
  obtain ⟨e, he, htype, hnext⟩ := Ethernet.newInstance_of_header hn
  obtain ⟨p, hp, hpayload⟩ := IPv4.newInstance_payload R (frame.drop n) (by omega) hle
  have hvalue : e.ethernetType.value = 0x0800 := by
    rw [htype, ht]
    apply ProtocolType.getInstance_value hR.keyed.protocolType
    exact .inl (hR.keyed.protocolType.containsKey (by decide))
  have hne : frame.drop n ≠ [] := by
    apply List.ne_nil_of_length_pos
    omega
  refine ⟨e, p, he, ?_, hpayload⟩
  rw [getPacket, hnext, ProtocolType.decode, decodeWith_some _ hne, hvalue]
  change (some ∘ Packet.ipv4) <$> IPv4.newInstance R (frame.drop n) = _
  rw [hp]
  rfl

/-- The IPv4 layer of a frame has the payload that its total length tells iff the frame ends with
the datagram. -/
theorem getPacket_ipv4_payload_iff (R : Registries) (hR : R.Reachable) (frame : Bytes) (n : Nat)
    (hn : Ethernet.header R frame = .ok n) (ht : Ethernet.frameType R frame = 0x0800)
    (h5 : 20 ≤ 4 * IPv4.headerLengthAt (frame.drop n))
    (hle : 4 * IPv4.headerLengthAt (frame.drop n) ≤ IPv4.totalLengthAt (frame.drop n))
    (hend : IPv4.totalLengthAt (frame.drop n) ≤ (frame.drop n).length) :
    ∃ e p, Ethernet.newInstance R frame = .ok e ∧
      getPacket R (.ethernet e) = .ok (some (.ipv4 p)) ∧
      (p.nextPacket = some (((frame.drop n).drop (4 * IPv4.headerLengthAt (frame.drop n))).take
          (IPv4.totalLengthAt (frame.drop n) - 4 * IPv4.headerLengthAt (frame.drop n))) ↔
        (frame.drop n).length = IPv4.totalLengthAt (frame.drop n)) := by
  obtain ⟨e, p, he, hp, hpayload⟩ := getPacket_ipv4 R hR frame n hn ht h5 (by omega)
  refine ⟨e, p, he, hp, ?_⟩
  rw [hpayload, Option.some_inj, eq_comm, List.take_eq_self_iff, List.length_drop]
  omega

/-- A datagram of 20 bytes in a frame that is padded to 60. -/
def paddedFrame : Bytes :=
  List.replicate 12 0 ++ [0x08, 0x00, 0x45, 0, 0, 20, 0, 0, 0, 0, 64, 6, 0, 0] ++
    [127, 0, 0, 1, 127, 0, 0, 1] ++ List.replicate 26 0

theorem padding_is_payload :
    Ethernet.header Registries.initial paddedFrame = .ok 14 ∧
      Ethernet.frameType Registries.initial paddedFrame = 0x0800 ∧
      20 ≤ 4 * IPv4.headerLengthAt (paddedFrame.drop 14) ∧
      4 * IPv4.headerLengthAt (paddedFrame.drop 14) ≤ IPv4.totalLengthAt (paddedFrame.drop 14) ∧
      IPv4.totalLengthAt (paddedFrame.drop 14) ≤ (paddedFrame.drop 14).length ∧
      ∃ e p, Ethernet.newInstance Registries.initial paddedFrame = .ok e ∧
        getPacket Registries.initial (.ethernet e) = .ok (some (.ipv4 p)) ∧
        p.nextPacket ≠ some (((paddedFrame.drop 14).drop
          (4 * IPv4.headerLengthAt (paddedFrame.drop 14))).take
            (IPv4.totalLengthAt (paddedFrame.drop 14) -
              4 * IPv4.headerLengthAt (paddedFrame.drop 14))) := by
  refine ⟨by decide, by decide, by decide, by decide, by decide, ?_⟩
  obtain ⟨e, p, he, hp, hpayload⟩ := getPacket_ipv4 Registries.initial .initial paddedFrame 14
    (by decide) (by decide) (by decide) (by decide)
  refine ⟨e, p, he, hp, ?_⟩
  rw [hpayload]
  decide

theorem paddedFrame_payload :
    ∃ e p, Ethernet.newInstance Registries.initial paddedFrame = .ok e ∧
      getPacket Registries.initial (.ethernet e) = .ok (some (.ipv4 p)) ∧
      (p.nextPacket = some (((paddedFrame.drop 14).drop
          (4 * IPv4.headerLengthAt (paddedFrame.drop 14))).take
            (IPv4.totalLengthAt (paddedFrame.drop 14) -
              4 * IPv4.headerLengthAt (paddedFrame.drop 14))) ↔
        (paddedFrame.drop 14).length = IPv4.totalLengthAt (paddedFrame.drop 14)) :=
  getPacket_ipv4_payload_iff Registries.initial .initial paddedFrame 14 (by decide) (by decide)
    (by decide) (by decide) (by decide)

end Packet

end Jxnet
