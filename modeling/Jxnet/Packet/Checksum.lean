import Jxnet.Packet.Builder

namespace Jxnet

open Java ByteBuffer

/-! What a receiver makes of the checksums that the encoders write. -/

/-- An address of an even size ends with a word. -/
theorem wordSum_address {n : Nat} (h : 2 ∣ n) (a : Address n) (rest : Bytes) :
    wordSum (a.toBytes ++ rest) = wordSum a.toBytes + wordSum rest := by
  have heven : 2 ∣ a.toBytes.length := by
    rw [Address.toBytes_length]
    exact h
  exact wordSum_append _ _ heven

namespace IPv4

/-- The written header verifies iff the single fold of its sum had no carry. -/
theorem header_verifies_iff (p : IPv4) (h : p.Encodable) :
    Verifies (p.setLengths.headerBytes p.setLengths.headerChecksum) ↔
      droppedCarries p.setLengths.headerSum = 0 := by
  have hone := droppedCarries_le p.setLengths.headerSum_lt
  have hfront : 2 ∣ p.setLengths.headerFront.length := by
    rw [headerFront_length]
    decide
  have hiff := verifies_patch_iff p.setLengths.headerFront p.setLengths.headerBack hfront _
    h.headerSum_eq.symm
  rw [headerBytes, headerChecksum, hiff]
  omega

end IPv4

namespace ICMPv4

/-- The written message verifies iff the dropped carries make up whole turns of the sum. -/
theorem message_verifies_iff (p : ICMPv4) (typeAndCode : ICMPTypeAndCode) :
    Verifies (bytes { p with checksum := p.messageChecksum typeAndCode } typeAndCode) ↔
      0xffff ∣ droppedCarries (p.messageSum typeAndCode) :=
  verifies_patch_iff [typeAndCode.type, typeAndCode.code] (p.nextPacket.getD []) ⟨1, rfl⟩ _ rfl

end ICMPv4

/-- An encoded header or message passes the receiver's check iff its word sum, folded once in
32 bits, drops no carry. -/
theorem toBytes_verifies_iff (p : IPv4) (hp : p.Encodable) (hp0 : p.getChecksum = 0) (m : ICMPv4)
    (typeAndCode : ICMPTypeAndCode) (hm : m.typeAndCode = some typeAndCode)
    (hm0 : m.getChecksum = 0) :
    (∃ p' header payload, p.toBytes = .ok (p', header ++ payload) ∧
      header.length = 4 * p'.getHeaderLength.toNat ∧
      (Verifies header ↔ droppedCarries p.setLengths.headerSum = 0)) ∧
    (∃ m' bytes, m.toBytes = .ok (m', bytes) ∧
      (Verifies bytes ↔ 0xffff ∣ droppedCarries (m.messageSum typeAndCode))) := by
  constructor
  · have hlen : (p.setLengths.headerBytes p.setLengths.headerChecksum).length =
        4 * p.setLengths.getHeaderLength.toNat := by
      rw [IPv4.headerBytes_length_eq, hp.fits.2, IPv4.declaredSize]
    exact ⟨_, _, _, IPv4.toBytes_encodable p hp hp0, hlen, IPv4.header_verifies_iff p hp⟩
  · exact ⟨_, _, ICMPv4.toBytes_fresh m typeAndCode hm hm0,
      ICMPv4.message_verifies_iff m typeAndCode⟩

/-- A header whose words sum to 0x1ffff. -/
def carryHeader : IPv4 := { IPv4.new with identification := 31722 }

theorem carryHeader_encodable : carryHeader.Encodable := ⟨by decide, by decide, by decide⟩

theorem carryHeader_rejected :
    carryHeader.Encodable ∧ carryHeader.getChecksum = 0 ∧
      ∃ p' header, carryHeader.toBytes = .ok (p', header) ∧ header.length = 20 ∧
        ¬ Verifies header := by
  have hbytes := IPv4.toBytes_encodable carryHeader carryHeader_encodable (by decide)
  have hnil : carryHeader.nextPacket.getD [] = [] := rfl
  rw [hnil, List.append_nil] at hbytes
  refine ⟨carryHeader_encodable, by decide, _, _, hbytes, ?_, ?_⟩
  · rw [IPv4.headerBytes_length carryHeader carryHeader_encodable]
    rfl
  · rw [IPv4.header_verifies_iff carryHeader carryHeader_encodable]
    decide

theorem toBytes_verifies_carryHeader :
    (∃ p' header payload, carryHeader.toBytes = .ok (p', header ++ payload) ∧
      header.length = 4 * p'.getHeaderLength.toNat ∧
      (Verifies header ↔ droppedCarries carryHeader.setLengths.headerSum = 0)) ∧
    ∃ p' bytes, ICMPv4.toBytes ⟨some ICMPTypeAndCode.UNKNOWN, 0, none⟩ = .ok (p', bytes) ∧
      (Verifies bytes ↔ 0xffff ∣ droppedCarries (ICMPv4.messageSum
        ⟨some ICMPTypeAndCode.UNKNOWN, 0, none⟩ ICMPTypeAndCode.UNKNOWN)) :=
  toBytes_verifies_iff carryHeader carryHeader_encodable (by decide)
    ⟨some ICMPTypeAndCode.UNKNOWN, 0, none⟩ ICMPTypeAndCode.UNKNOWN rfl rfl

namespace TCP

/-- The pseudo header of an IPv4 segment: addresses, protocol and length. -/
def pseudoHeader4 (source destination : Inet4Address) (protocol : JByte) (length : Nat) : Bytes :=
  source.toBytes ++ (destination.toBytes ++ ([0, protocol] ++ shortBytes (BitVec.ofNat 16 length)))

/-- The pseudo header of an IPv6 segment: addresses, 32-bit length and next header. -/
def pseudoHeader6 (source destination : Inet6Address) (nextHeader : JByte) (length : Nat) : Bytes :=
  source.toBytes ++ (destination.toBytes ++ (intBytes (BitVec.ofNat 32 length) ++
    [0, 0, 0, nextHeader]))

/-- The segment in front of its checksum and behind it. -/
def checksumFront (t : TCP) : Bytes :=
  shortBytes t.getSourcePort ++ (shortBytes t.getDestinationPort ++ (intBytes t.getSequence ++
    (intBytes t.getAcknowledge ++ (shortBytes t.offsetAndFlags ++ shortBytes t.getWindowSize))))

def checksumBack (t : TCP) : Bytes :=
  shortBytes t.getUrgentPointer ++ (t.options.getD [] ++ t.nextPacket.getD [])

theorem checksumFront_length (t : TCP) : t.checksumFront.length = 16 := by
  simp [checksumFront]

theorem bytes_split (t : TCP) :
    t.bytes = t.checksumFront ++ (shortBytes t.getChecksum ++ t.checksumBack) := by
  simp [bytes, checksumFront, checksumBack]

theorem setChecksum_bytes (t : TCP) (c : JShort) :
    (t.setChecksum c).bytes = t.checksumFront ++ (shortBytes c ++ t.checksumBack) := by
  have hc : (t.setChecksum c).getChecksum = c := by simp [setChecksum, getChecksum]
  rw [bytes_split, hc]
  rfl

theorem wordSum_pseudoHeader4 (source destination : Inet4Address) (protocol : JByte)
    (length : Nat) (h : length ≤ 0xffff) :
    wordSum (pseudoHeader4 source destination protocol length) =
      wordSum source.toBytes + wordSum destination.toBytes + length + protocol.toNat := by
  rw [pseudoHeader4, wordSum_address ⟨2, rfl⟩, wordSum_address ⟨2, rfl⟩, List.cons_append,
    List.cons_append, List.nil_append, wordSum_zero_cons, wordSum_shortBytes, BitVec.toNat_ofNat]
  omega

/-- The length of the second pseudo header is a 32-bit number. -/
theorem wordSum_pseudoHeader6_mod (source destination : Inet6Address) (nextHeader : JByte)
    (length : Nat) :
    wordSum (pseudoHeader6 source destination nextHeader length) =
      wordSum source.toBytes + wordSum destination.toBytes + (length % 2 ^ 32 / 2 ^ 16 +
        length % 2 ^ 32 % 2 ^ 16) + nextHeader.toNat := by
  have hzero : wordSum [0, 0, 0, nextHeader] = nextHeader.toNat := by
    rw [wordSum_zero_cons, wordSum_zero_cons, wordSum_nil]
    simp
  rw [pseudoHeader6, wordSum_address ⟨8, rfl⟩, wordSum_address ⟨8, rfl⟩,
    wordSum_append _ _ ⟨2, rfl⟩, wordSum_intBytes, hzero, BitVec.toNat_ofNat]
  omega

theorem wordSum_pseudoHeader6 (source destination : Inet6Address) (nextHeader : JByte)
    (length : Nat) (h : length ≤ 0xffff) :
    wordSum (pseudoHeader6 source destination nextHeader length) =
      wordSum source.toBytes + wordSum destination.toBytes + length + nextHeader.toNat := by
  rw [wordSum_pseudoHeader6_mod]
  omega

/-- Both pseudo headers end with a word. -/
theorem even_pseudoHeader4 (source destination : Inet4Address) (protocol : JByte)
    (length : Nat) : 2 ∣ (pseudoHeader4 source destination protocol length).length := by
  simp [pseudoHeader4]

theorem even_pseudoHeader6 (source destination : Inet6Address) (nextHeader : JByte)
    (length : Nat) : 2 ∣ (pseudoHeader6 source destination nextHeader length).length := by
  simp [pseudoHeader6]

end TCP

namespace IPv4

/-- What the TCP branch sums: the pseudo header of the carrier as it stands, and the segment. -/
def segmentSum (p : IPv4) (t : TCP) : Nat :=
  wordSum (TCP.pseudoHeader4 p.sourceAddress p.destinationAddress p.protocol.value
    t.bytes.length) + wordSum t.bytes

theorem addressSum_eq (a : Inet4Address) :
    addressSum a = BitVec.ofNat 32 (wordSum a.toBytes) := by
  obtain ⟨w, x, y, z, rfl⟩ := Inet4Address.exists_bytes a
  have hhigh := (shortOf w x).isLt
  have hlow := (shortOf y z).isLt
  apply BitVec.eq_of_toNat_eq
  rw [addressSum, Inet4Address.toInt_eq, BitVec.toNat_add, high_toNat, low_toNat, intOf_toNat,
    Address.toBytes, wordSum_cons_cons, wordSum_cons_cons, wordSum_nil, BitVec.toNat_ofNat]
  omega

theorem tcpChecksum_eq (p : IPv4) (t : TCP) (h : t.segmentLength = t.bytes.length)
    (hl : t.bytes.length ≤ 0xffff) :
    p.tcpChecksum t = .ok (foldChecksum (BitVec.ofNat 32 (p.segmentSum t))) := by
  have hlength : t.segmentLength.toNat = t.bytes.length := by
    rw [h, Int.toNat_natCast]
  have hprotocol : promote p.protocol.value &&& 0xff#32 =
      BitVec.ofNat 32 p.protocol.value.toNat := by
    rw [promote_and_ff, BitVec.ofNat_toNat]
  have hlow : BitVec.ofNat 32 t.bytes.length &&& 0xffff#32 = BitVec.ofNat 32 t.bytes.length := by
    apply BitVec.eq_of_toNat_eq
    rw [low_toNat, BitVec.toNat_ofNat]
    omega
  have hsum : addressSum p.sourceAddress + addressSum p.destinationAddress +
      (promote p.protocol.value &&& 0xff#32) + (BitVec.ofNat 32 t.bytes.length &&& 0xffff#32) +
        BitVec.ofNat 32 (wordSum t.bytes) = BitVec.ofNat 32 (p.segmentSum t) := by
    rw [segmentSum, TCP.wordSum_pseudoHeader4 _ _ _ _ hl, addressSum_eq, addressSum_eq, hprotocol,
      hlow]
    simp only [← BitVec.ofNat_add]
    apply congrArg
    omega
  have hrun := checksumOver_eq (addressSum p.sourceAddress + addressSum p.destinationAddress +
    (promote p.protocol.value &&& 0xff#32) + (BitVec.ofNat 32 t.bytes.length &&& 0xffff#32)) t.bytes
  rw [hsum] at hrun
  simp only [tcpChecksum, TCP.toBytes_eq, hlength]
  exact hrun

end IPv4

namespace IPv6

/-- What the TCP branch sums: the pseudo header of the carrier as it stands, and the segment. -/
def segmentSum (p : IPv6) (t : TCP) : Nat :=
  wordSum (TCP.pseudoHeader6 p.sourceAddress p.destinationAddress p.nextHeader.value
    t.bytes.length) + wordSum t.bytes

/-- The two orders of the pseudo header's fields have the same sum. -/
theorem wordSum_pseudoHeader (p : IPv6) (length : Nat) (h : length ≤ 0xffff) :
    wordSum (p.pseudoHeader length) = wordSum (TCP.pseudoHeader6 p.sourceAddress
      p.destinationAddress p.nextHeader.value length) := by
  have hint : (BitVec.ofInt 32 (length : Int)).toNat = length := by
    rw [BitVec.ofInt_natCast, BitVec.toNat_ofNat]
    omega
  rw [TCP.wordSum_pseudoHeader6 _ _ _ _ h, pseudoHeader, List.append_assoc, List.append_assoc,
    wordSum_address ⟨8, rfl⟩, wordSum_address ⟨8, rfl⟩, List.cons_append,
    List.cons_append, List.nil_append, wordSum_zero_cons, wordSum_intBytes, hint]
  omega

theorem tcpChecksum_eq (p : IPv6) (t : TCP) (h : t.segmentLength = t.bytes.length)
    (hl : t.bytes.length ≤ 0xffff) :
    p.tcpChecksum t = .ok (foldChecksum (BitVec.ofNat 32 (p.segmentSum t))) := by
  have hlen : (p.pseudoHeader t.bytes.length).length = 2 * 19 := by
    simp [pseudoHeader]
  have hpseudo := sumShorts_eq 19 0 [] (p.pseudoHeader t.bytes.length) [] [] hlen
  have hzero : ∀ x : JInt, 0 + x = x := BitVec.zero_add
  rw [List.append_nil, hzero, p.wordSum_pseudoHeader _ hl] at hpseudo
  have hrun := checksumOver_eq (BitVec.ofNat 32 (wordSum (TCP.pseudoHeader6 p.sourceAddress
    p.destinationAddress p.nextHeader.value t.bytes.length))) t.bytes
  rw [← BitVec.ofNat_add] at hrun
  simp only [tcpChecksum, TCP.toBytes_eq, h]
  change (do
    let accumulation ← eval (sumShorts 19 0) ⟨[], p.pseudoHeader t.bytes.length, []⟩
    checksumOver accumulation (t.bytes.length : Int).toNat t.bytes) = _
  rw [eval_ok hpseudo, Int.toNat_natCast]
  exact hrun

/-- The carrier takes the segment with the checksum that was computed for it. -/
theorem setPacket_tcp_of_checksum (p : IPv6) (t : TCP) (h0 : t.getChecksum = 0) {c : JShort}
    (hc : p.tcpChecksum t = .ok c) :
    p.setPacket (.tcp t) = .ok
      ({ p with nextHeader := IPProtocolType.TCP, nextPacket := some (t.setChecksum c).bytes },
      .tcp (t.setChecksum c)) := by
  simp only [setPacket, if_pos h0, hc]
  change (do let bytes ← (t.setChecksum c).toBytes; _) = _
  rw [TCP.toBytes_eq]
  rfl

end IPv6

namespace TCP

/-- The segment with a computed checksum behind a pseudo header for protocol 6, whatever
protocol number the sum was taken with. -/
theorem segment_verifies_iff (t : TCP) (h0 : t.getChecksum = 0) (pseudo : Bytes)
    (hp : 2 ∣ pseudo.length) (base : Nat) (protocol : JByte) (hbase : wordSum pseudo = base + 6)
    (hlt : base + protocol.toNat + wordSum t.bytes < 2 ^ 32) :
    Verifies (pseudo ++ (t.setChecksum (foldChecksum (BitVec.ofNat 32
        (base + protocol.toNat + wordSum t.bytes)))).bytes) ↔
      protocol.toNat = 6 + droppedCarries (base + protocol.toNat + wordSum t.bytes) := by
  have hfront : 2 ∣ t.checksumFront.length := by
    rw [checksumFront_length]
    decide
  have hprotocol := protocol.isLt
  have hsplit : wordSum (t.checksumFront ++ (shortBytes 0 ++ t.checksumBack)) =
      wordSum t.bytes := by
    rw [bytes_split, h0]
  rw [setChecksum_bytes]
  exact verifies_pseudo_iff pseudo t.checksumFront t.checksumBack hp hfront base protocol.toNat 6
    _ hbase (by omega) (by decide) (by decide) (by rw [hsplit]) hlt

end TCP

/-- A segment takes a checksum in `setPacket`: it verifies for protocol 6 iff the protocol or
next header value that the carrier held before is 6 plus the carry of the single fold. -/
theorem setPacket_tcp_verifies_iff (t : TCP) (h0 : t.getChecksum = 0)
    (ho : 4 * t.getDataOffset.toNat = 20 + (t.options.getD []).length)
    (hl : t.bytes.length ≤ 0xffff) :
    (∀ p : IPv4, ∃ p' t' segment, p.setPacket (.tcp t) = .ok (p', .tcp t') ∧
      p'.nextPacket = some segment ∧
      (Verifies (TCP.pseudoHeader4 p'.sourceAddress p'.destinationAddress 6 segment.length ++
          segment) ↔
        p.protocol.value.toNat = 6 + droppedCarries (p.segmentSum t))) ∧
    (∀ p : IPv6, ∃ p' t' segment, p.setPacket (.tcp t) = .ok (p', .tcp t') ∧
      p'.nextPacket = some segment ∧
      (Verifies (TCP.pseudoHeader6 p'.sourceAddress p'.destinationAddress 6 segment.length ++
          segment) ↔
        p.nextHeader.value.toNat = 6 + droppedCarries (p.segmentSum t))) := by
  have hwell : t.WellFormed := by
    have hle := TCP.getDataOffset_le t
    exact ⟨ho, by omega⟩
  have hseg := TCP.segmentLength_eq t hwell
  have hlen : ∀ c, (t.setChecksum c).bytes.length = t.bytes.length := by
    intro c
    rw [TCP.bytes_length, TCP.bytes_length]
    rfl
  have hsum := wordSum_le t.bytes
  constructor
  · intro p
    have hsource := wordSum_le p.sourceAddress.toBytes
    have hdestination := wordSum_le p.destinationAddress.toBytes
    have hprotocol := p.protocol.value.isLt
    rw [Address.toBytes_length] at hsource hdestination
    have hbase := TCP.wordSum_pseudoHeader4 p.sourceAddress p.destinationAddress
    have heq : p.segmentSum t = wordSum p.sourceAddress.toBytes +
        wordSum p.destinationAddress.toBytes + t.bytes.length + p.protocol.value.toNat +
          wordSum t.bytes := by rw [IPv4.segmentSum, hbase _ _ hl]
    refine ⟨_, _, _, p.setPacket_tcp_of_checksum t h0 (p.tcpChecksum_eq t hseg hl), rfl, ?_⟩
    rw [hlen, heq]
    exact TCP.segment_verifies_iff t h0 _ (TCP.even_pseudoHeader4 _ _ _ _) _ _ (hbase 6 _ hl)
      (by omega)
  · intro p
    have hsource := wordSum_le p.sourceAddress.toBytes
    have hdestination := wordSum_le p.destinationAddress.toBytes
    have hprotocol := p.nextHeader.value.isLt
    rw [Address.toBytes_length] at hsource hdestination
    have hbase := TCP.wordSum_pseudoHeader6 p.sourceAddress p.destinationAddress
    have heq : p.segmentSum t = wordSum p.sourceAddress.toBytes +
        wordSum p.destinationAddress.toBytes + t.bytes.length + p.nextHeader.value.toNat +
          wordSum t.bytes := by rw [IPv6.segmentSum, hbase _ _ hl]
    refine ⟨_, _, _, p.setPacket_tcp_of_checksum t h0 (p.tcpChecksum_eq t hseg hl), rfl, ?_⟩
    rw [hlen, heq]
    exact TCP.segment_verifies_iff t h0 _ (TCP.even_pseudoHeader6 _ _ _ _) _ _ (hbase 6 _ hl)
      (by omega)

/-- A segment without options and payload. -/
def bareSegment : TCP := { TCP.new with dataOffset := 5 }

/-- A new carrier sums its UNKNOWN protocol number. -/
theorem bareSegment_rejected :
    bareSegment.getChecksum = 0 ∧
      4 * bareSegment.getDataOffset.toNat = 20 + (bareSegment.options.getD []).length ∧
      bareSegment.bytes.length ≤ 0xffff ∧
      ∃ p' t' segment, IPv4.new.setPacket (.tcp bareSegment) = .ok (p', .tcp t') ∧
        p'.nextPacket = some segment ∧
        ¬ Verifies (TCP.pseudoHeader4 p'.sourceAddress p'.destinationAddress 6 segment.length ++
          segment) := by
  have hsum := IPv4.new.tcpChecksum_eq bareSegment (by decide) (by decide)
  refine ⟨by decide, by decide, by decide, _, _, _,
    IPv4.new.setPacket_tcp_of_checksum bareSegment (by decide) hsum, rfl, ?_⟩
  decide

theorem bareSegment_verifies_iff :
    ∃ p' t' segment, IPv6.new.setPacket (.tcp bareSegment) = .ok (p', .tcp t') ∧
      p'.nextPacket = some segment ∧
      (Verifies (TCP.pseudoHeader6 p'.sourceAddress p'.destinationAddress 6 segment.length ++
          segment) ↔
        IPv6.new.nextHeader.value.toNat = 6 + droppedCarries (IPv6.new.segmentSum bareSegment)) :=
  (setPacket_tcp_verifies_iff bareSegment (by decide) (by decide) (by decide)).2 IPv6.new

end Jxnet
