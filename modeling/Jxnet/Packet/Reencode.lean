import Jxnet.Packet.IPv4
import Jxnet.Packet.IPv6
import Jxnet.Packet.Registration
import Jxnet.Packet.TCP

namespace Jxnet

open Java ByteBuffer

/-! What a decoder and its encoder, one after the other, make of the bytes. -/

/-- Masking one byte of an array. -/
theorem byteAt_mask (front back : Bytes) (x m : JByte) (i : Nat) :
    byteAt (front ++ (x &&& m) :: back) i = if i = front.length
      then byteAt (front ++ x :: back) i &&& m else byteAt (front ++ x :: back) i := by
  induction front generalizing i with
  | nil =>
    cases i with
    | zero => rfl
    | succ i => rfl
  | cons w front ih =>
    cases i with
    | zero => rfl
    | succ i => simpa [byteAt] using ih i

/-- A split behind the end is a split at the end. -/
theorem take_min_length (xs : Bytes) (n : Nat) : xs.take (min n xs.length) = xs.take n := by
  by_cases hn : n ≤ xs.length
  · rw [Nat.min_eq_left hn]
  · rw [Nat.min_eq_right (by omega), List.take_length, List.take_of_length_le (by omega)]

theorem drop_min_length (xs : Bytes) (n : Nat) : xs.drop (min n xs.length) = xs.drop n := by
  by_cases hn : n ≤ xs.length
  · rw [Nat.min_eq_left hn]
  · rw [Nat.min_eq_right (by omega), List.drop_length, List.drop_eq_nil_of_le (by omega)]

namespace TCP

/-- The nine flags and the data offset come back; the three bits between them are cleared. -/
theorem ofHeader_offsetAndFlags (sourcePort destinationPort : JShort)
    (sequence acknowledge : JInt) (word windowSize checksum urgentPointer : JShort) (t : TCP)
    (hd : t.dataOffset = (ofHeader sourcePort destinationPort sequence acknowledge word windowSize
      checksum urgentPointer).dataOffset)
    (hf : t.flags = (ofHeader sourcePort destinationPort sequence acknowledge word windowSize
      checksum urgentPointer).flags) : t.offsetAndFlags = word &&& 0xf1ff#16 := by
  apply BitVec.eq_of_getLsbD_eq
  intro i hi
  by_cases h9 : i < 9
  · rw [offsetAndFlags_getLsbD t i h9, hf, ofHeader, TCPFlags.toShort_newInstance _ i h9,
      BitVec.getLsbD_and, BitVec.getLsbD_and]
    interval_cases i <;> simp
  · have hoffset : t.getDataOffset = toByte ((promote word).sshiftRight 12) &&& 15#8 := by
      simp [getDataOffset, hd, ofHeader]
    rw [offsetAndFlags_high t i (by omega) hi, hoffset, BitVec.getLsbD_and, BitVec.getLsbD_and]
    by_cases h12 : 12 ≤ i
    · have hword : (toByte ((promote word).sshiftRight 12)).getLsbD (i - 12) = word.getLsbD i := by
        rw [getLsbD_toByte _ _ (by omega),
          getLsbD_promote_sshiftRight word 12 (i - 12) (by omega) (by decide)]
        congr 1
        omega
      rw [hword]
      interval_cases i <;> simp
    · interval_cases i <;> simp at h9 h12 ⊢

theorem shortOf_and_reserved (x y : JByte) :
    shortBytes (shortOf x y &&& 0xf1ff#16) = [x &&& ~~~0x0e#8, y] := by
  have hword : shortOf x y &&& 0xf1ff#16 = shortOf (x &&& ~~~0x0e#8) y := by
    apply BitVec.eq_of_getLsbD_eq
    intro i hi
    rw [shortOf, shortOf, BitVec.getLsbD_and, BitVec.getLsbD_append, BitVec.getLsbD_append]
    interval_cases i <;> simp
  rw [hword, shortBytes_shortOf]

/-- The data offset decides how many of the bytes behind the header are options. -/
theorem newInstance_append (sourcePort destinationPort : JShort) (sequence acknowledge : JInt)
    (x y : JByte) (windowSize checksum urgentPointer : JShort) (rest : Bytes) :
    ∃ t, newInstance (shortBytes sourcePort ++ (shortBytes destinationPort ++
        (intBytes sequence ++ (intBytes acknowledge ++ (x :: y :: (shortBytes windowSize ++
          (shortBytes checksum ++ (shortBytes urgentPointer ++ rest)))))))) = .ok t ∧
      t.options.getD [] = rest.take (4 * (x.toNat / 16) - 20) ∧
      t.nextPacket = some (rest.drop (4 * (x.toNat / 16) - 20)) ∧
      t.bytes = shortBytes sourcePort ++ (shortBytes destinationPort ++
        (intBytes sequence ++ (intBytes acknowledge ++ ((x &&& ~~~0x0e#8) :: y ::
          (shortBytes windowSize ++ (shortBytes checksum ++ (shortBytes urgentPointer ++
            rest))))))) := by
  have hread := read_append sourcePort destinationPort sequence acknowledge (shortOf x y)
    windowSize checksum urgentPointer [] rest []
  have hd := ofHeader_getDataOffset sourcePort destinationPort sequence acknowledge (shortOf x y)
    windowSize checksum urgentPointer
  have hword := ofHeader_offsetAndFlags sourcePort destinationPort sequence acknowledge
    (shortOf x y) windowSize checksum urgentPointer
  have hnat : (shortOf x y).toNat / 4096 = x.toNat / 16 := by
    have hy := y.isLt
    rw [shortOf, BitVec.toNat_append, ← Nat.shiftLeft_add_eq_or_of_lt hy, Nat.shiftLeft_eq]
    omega
  rw [hnat] at hd
  rw [readOptions_eq _ [] _ rest [] (by simp), if_pos rfl, shortBytes_shortOf, optionsSize,
    hd] at hread
  have hoptions : (if x.toNat / 16 > 5 then some (rest.take (4 * (x.toNat / 16) - 20)) else
      none).getD [] = rest.take (4 * (x.toNat / 16) - 20) := by
    split
    · rfl
    · next h5 =>
      have h0 : 4 * (x.toNat / 16) - 20 = 0 := by omega
      rw [h0, List.take_zero]
      rfl
  rw [take_min_length, drop_min_length] at hread
  obtain ⟨t, ht⟩ : ∃ t : TCP, t = { ofHeader sourcePort destinationPort sequence acknowledge
      (shortOf x y) windowSize checksum urgentPointer with
    options := if x.toNat / 16 > 5 then some (rest.take (4 * (x.toNat / 16) - 20)) else none
    nextPacket := some (rest.drop (4 * (x.toNat / 16) - 20)) } := ⟨_, rfl⟩
  rw [← ht] at hread
  have hwordt := hword t (by rw [ht]) (by rw [ht])
  refine ⟨t, ?_, ?_, ?_, ?_⟩
  · rw [newInstance, newInstanceAt, decode_whole]
    exact hread
  · rw [ht]
    exact hoptions
  · rw [ht]
  · rw [bytes, hwordt, shortOf_and_reserved, ht]
    simp only [hoptions, Option.getD_some, List.take_append_drop, getSourcePort, getDestinationPort,
      getSequence, getAcknowledge, getWindowSize, getChecksum, getUrgentPointer, mask16_eq,
      mask32_eq, ofHeader, List.cons_append, List.nil_append]

/-- A segment is written back with the reserved bits of byte 12 cleared, and nothing else of it
changes; the options are what the data offset takes of the bytes behind the header. -/
theorem toBytes_newInstance (b : Bytes) (h : 20 ≤ b.length) :
    ∃ t b', newInstance b = .ok t ∧ t.toBytes = .ok b' ∧
      t.options.getD [] = (b.drop 20).take (4 * ((byteAt b 12).toNat / 16) - 20) ∧
      t.nextPacket = some ((b.drop 20).drop (4 * ((byteAt b 12).toNat / 16) - 20)) ∧
      b'.length = b.length ∧
      ∀ i, byteAt b' i = if i = 12 then byteAt b i &&& ~~~0x0e#8 else byteAt b i := by
  obtain ⟨sourcePort, destinationPort, sequence, acknowledge, word, windowSize, checksum,
    urgentPointer, rest, rfl⟩ := exists_fields h
  obtain ⟨x, y, rfl⟩ : ∃ x y, word = shortOf x y := ⟨_, _, (shortOf_bytes word).symm⟩
  rw [shortBytes_shortOf]
  obtain ⟨t, ht, hoptions, hpayload, hbytes⟩ := newInstance_append sourcePort destinationPort
    sequence acknowledge x y windowSize checksum urgentPointer rest
  refine ⟨t, t.bytes, ht, toBytes_eq t, hoptions, hpayload, ?_, ?_⟩
  · rw [hbytes]
    simp
  · intro i
    have hmask := byteAt_mask (shortBytes sourcePort ++ (shortBytes destinationPort ++
      (intBytes sequence ++ intBytes acknowledge))) (y :: (shortBytes windowSize ++
        (shortBytes checksum ++ (shortBytes urgentPointer ++ rest)))) x (~~~0x0e#8) i
    rw [hbytes]
    exact hmask

/-- A segment of 24 bytes whose data offset says 60, with all reserved bits set. -/
def cutSegment : Bytes := List.replicate 12 0 ++ [0xfe, 0x02] ++ List.replicate 10 1

theorem cutSegment_reencode :
    ∃ t b', newInstance cutSegment = .ok t ∧ t.toBytes = .ok b' ∧
      t.options.getD [] = (cutSegment.drop 20).take
        (4 * ((byteAt cutSegment 12).toNat / 16) - 20) ∧
      t.nextPacket = some ((cutSegment.drop 20).drop
        (4 * ((byteAt cutSegment 12).toNat / 16) - 20)) ∧
      b'.length = cutSegment.length ∧
      ∀ i, byteAt b' i = if i = 12 then byteAt cutSegment i &&& ~~~0x0e#8
        else byteAt cutSegment i :=
  toBytes_newInstance cutSegment (by decide)

end TCP

namespace IPv4

variable (R : Registries)

/-- `newInstance(b).toBytes()`. -/
def reencode (b : Bytes) : Except JavaException Bytes :=
  (newInstance R b).bind fun p => Prod.snd <$> p.toBytes

theorem versionByte_of_nibbles (version : JByte) :
    toByte ((promote (toByte ((promote version).sshiftRight 4) &&& 15#8) &&& 0xf#32) <<< 4 |||
      (promote (version &&& 15#8) &&& 0xf#32)) = version := by
  revert version
  decide

theorem fragmentWord_of_parts (sscratch : JShort) :
    toShort ((promote (toByte ((promote sscratch).sshiftRight 13) &&& 7#8) &&& 0x7#32) <<< 13 |||
      (promote (sscratch &&& 0x1fff#16) &&& 0x1fff#32)) = sscratch := by
  apply BitVec.eq_of_getLsbD_eq
  intro i hi
  rw [getLsbD_toShort _ i hi, BitVec.getLsbD_or, BitVec.getLsbD_shiftLeft]
  by_cases h13 : i < 13
  · interval_cases i <;> simp [promote, BitVec.getElem_signExtend]
  · have hflag : (toByte ((promote sscratch).sshiftRight 13)).getLsbD (i - 13) =
        sscratch.getLsbD i := by
      rw [getLsbD_toByte _ _ (by omega),
        getLsbD_promote_sshiftRight sscratch 13 (i - 13) (by omega) (by decide)]
      congr 1
      omega
    interval_cases i <;> simp [promote, BitVec.getElem_signExtend] at hflag h13 ⊢ <;> simp [hflag]

/-- What decodes from a header in parts and options as long as the header length says. -/
def ofBytes (version tos : JByte) (totalLength identification sscratch : JShort)
    (ttl protocol : JByte) (sourceAddress destinationAddress : Inet4Address)
    (options payload : Bytes) : IPv4 :=
  { ofHeader R version tos totalLength identification sscratch ttl protocol sourceAddress
      destinationAddress with
    options := if (version &&& 15#8).toNat > 5 then some options else none
    nextPacket := some payload }

section Parts

variable (version tos : JByte) (totalLength identification sscratch : JShort)
  (ttl protocol : JByte) (checksum : JShort) (sourceAddress destinationAddress : Inet4Address)
  (options payload : Bytes) (h : 20 + options.length = 4 * (version &&& 15#8).toNat)
include h

theorem newInstance_append :
    newInstance R (version :: tos :: (shortBytes totalLength ++
        (shortBytes identification ++ (shortBytes sscratch ++ (ttl :: protocol ::
          (shortBytes checksum ++ (sourceAddress.toBytes ++ (destinationAddress.toBytes ++
            (options ++ payload))))))))) =
      .ok (ofBytes R version tos totalLength identification sscratch ttl protocol sourceAddress
        destinationAddress options payload) := by
  have hlength : (ofHeader R version tos totalLength identification sscratch ttl protocol
      sourceAddress destinationAddress).getHeaderLength = version &&& 15#8 := by
    simp [getHeaderLength, ofHeader]
  have hsize : options.length = (ofHeader R version tos totalLength identification sscratch ttl
      protocol sourceAddress destinationAddress).optionsSize := by
    rw [optionsSize, hlength]
    omega
  rw [newInstance, newInstanceAt, decode_whole, read_append,
    readOptions_append _ [] _ _ _ _ (by simp) hsize, if_pos rfl, hlength]
  rfl

theorem ofBytes_options :
    (ofBytes R version tos totalLength identification sscratch ttl protocol sourceAddress
      destinationAddress options payload).options.getD [] = options := by
  change (if (version &&& 15#8).toNat > 5 then some options else none).getD [] = options
  split
  · rfl
  · exact (List.eq_nil_of_length_eq_zero (by omega)).symm

theorem ofBytes_encodable (hl : 20 + options.length + payload.length ≤ 32767) :
    (ofBytes R version tos totalLength identification sscratch ttl protocol sourceAddress
      destinationAddress options payload).Encodable := by
  have hoptions := ofBytes_options R version tos totalLength identification sscratch ttl protocol
    sourceAddress destinationAddress options payload h
  have hnibble := and_15_le version
  refine ⟨?_, ?_, ?_⟩
  · rw [hoptions]
    omega
  · rw [hoptions]
    omega
  · rw [hoptions]
    exact hl

/-- The header that is written: the six service bits are 0, all else is as it was read. -/
theorem ofBytes_headerBytes (hl : 20 + options.length + payload.length ≤ 32767)
    (ht : totalLength.toNat = 20 + options.length + payload.length)
    (hk : (IPProtocolType.getInstance R.ipProtocolType protocol).value = protocol) (w : JShort) :
    (ofBytes R version tos totalLength identification sscratch ttl protocol sourceAddress
      destinationAddress options payload).setLengths.headerBytes w =
      version :: (tos &&& 3#8) :: (shortBytes totalLength ++ (shortBytes identification ++
        (shortBytes sscratch ++ (ttl :: protocol :: (shortBytes w ++ (sourceAddress.toBytes ++
          (destinationAddress.toBytes ++ options))))))) := by
  have hencodable := ofBytes_encodable R version tos totalLength identification sscratch ttl
    protocol sourceAddress destinationAddress options payload h hl
  have hoptions := ofBytes_options R version tos totalLength identification sscratch ttl protocol
    sourceAddress destinationAddress options payload h
  obtain ⟨p, hp⟩ : ∃ p, p = ofBytes R version tos totalLength identification sscratch ttl protocol
    sourceAddress destinationAddress options payload := ⟨_, rfl⟩
  rw [← hp] at hencodable hoptions ⊢
  have hlength : p.setLengths.getHeaderLength = version &&& 15#8 := by
    have h4 := setLengths_headerLength p hencodable
    rw [hoptions] at h4
    exact BitVec.eq_of_toNat_eq (by omega)
  have htotal : p.setLengths.getTotalLength = totalLength := by
    have hpayload : p.nextPacket.getD [] = payload := by
      rw [hp]
      rfl
    rw [setLengths_getTotalLength, declaredSize, setLengths_headerLength p hencodable, hoptions,
      hpayload, ← ht, BitVec.ofNat_toNat, BitVec.setWidth_eq]
  have hversion : p.setLengths.versionByte = version := by
    rw [versionByte, hlength]
    have hv : p.setLengths.getVersion = toByte ((promote version).sshiftRight 4) &&& 15#8 := by
      rw [hp]
      simp [getVersion, setLengths, setHeaderLength, setTotalLength, ofBytes, ofHeader]
    rw [hv, versionByte_of_nibbles]
  have hservice : p.setLengths.serviceByte = tos &&& 3#8 := by
    rw [serviceByte_eq, hp]
    simp [getExpCon, setLengths, setHeaderLength, setTotalLength, ofBytes, ofHeader]
  have hfragment : p.setLengths.fragmentWord = sscratch := by
    have hflags : p.setLengths.getFlags = toByte ((promote sscratch).sshiftRight 13) &&& 7#8 := by
      rw [hp]
      simp [getFlags, setLengths, setHeaderLength, setTotalLength, ofBytes, ofHeader]
    have hoffset : p.setLengths.getFragmentOffset = sscratch &&& 0x1fff#16 := by
      rw [hp]
      simp [getFragmentOffset, setLengths, setHeaderLength, setTotalLength, ofBytes, ofHeader]
    rw [fragmentWord, hflags, hoffset, fragmentWord_of_parts]
  have hback : p.setLengths.headerBack =
      sourceAddress.toBytes ++ (destinationAddress.toBytes ++ options) := by
    rw [headerBack_eq _ (setLengths_headerLength p hencodable)]
    change p.sourceAddress.toBytes ++ (p.destinationAddress.toBytes ++ p.options.getD []) = _
    rw [hoptions, hp]
    rfl
  have hidentification : p.setLengths.getIdentification = identification := by
    rw [hp]
    exact mask16_eq identification
  have httl : p.setLengths.getTtl = ttl := by
    rw [hp]
    exact mask8_eq ttl
  have hprotocol : p.setLengths.protocol.value = protocol := by
    rw [hp]
    exact hk
  rw [headerBytes, headerFront, hversion, hservice, htotal, hidentification, hfragment, httl,
    hprotocol, hback]
  simp

/-- Re-encoding clears the six service bits and computes the checksum of the header anew. -/
theorem reencode_append (hl : 20 + options.length + payload.length ≤ 32767)
    (ht : totalLength.toNat = 20 + options.length + payload.length)
    (hk : (IPProtocolType.getInstance R.ipProtocolType protocol).value = protocol) :
    reencode R (version :: tos :: (shortBytes totalLength ++
        (shortBytes identification ++ (shortBytes sscratch ++ (ttl :: protocol ::
          (shortBytes checksum ++ (sourceAddress.toBytes ++ (destinationAddress.toBytes ++
            (options ++ payload))))))))) =
      .ok (version :: (tos &&& 3#8) :: (shortBytes totalLength ++
        (shortBytes identification ++ (shortBytes sscratch ++ (ttl :: protocol ::
          (shortBytes (foldChecksum (BitVec.ofNat 32 (wordSum (version :: (tos &&& 3#8) ::
            (shortBytes totalLength ++ (shortBytes identification ++ (shortBytes sscratch ++
              (ttl :: protocol :: (shortBytes 0 ++ (sourceAddress.toBytes ++
                (destinationAddress.toBytes ++ options))))))))))) ++
            (sourceAddress.toBytes ++ (destinationAddress.toBytes ++
              (options ++ payload)))))))))  := by
  have hencodable := ofBytes_encodable R version tos totalLength identification sscratch ttl
    protocol sourceAddress destinationAddress options payload h hl
  have hheader := ofBytes_headerBytes R version tos totalLength identification sscratch ttl
    protocol sourceAddress destinationAddress options payload h hl ht hk
  have hd := newInstance_append R version tos totalLength identification sscratch ttl protocol
    checksum sourceAddress destinationAddress options payload h
  obtain ⟨p, hp⟩ : ∃ p, p = ofBytes R version tos totalLength identification sscratch ttl protocol
    sourceAddress destinationAddress options payload := ⟨_, rfl⟩
  rw [← hp] at hencodable hheader hd
  have h0 : p.getChecksum = 0 := by
    rw [hp]
    exact mask16_eq 0
  have hpayload : p.nextPacket.getD [] = payload := by
    rw [hp]
    rfl
  have hsum : p.setLengths.headerChecksum = foldChecksum (BitVec.ofNat 32 (wordSum
      (p.setLengths.headerBytes 0))) := by
    rw [headerChecksum, hencodable.headerSum_eq]
  rw [reencode, hd]
  change Prod.snd <$> p.toBytes = _
  rw [toBytes_encodable p hencodable h0, hsum, hpayload, hheader, hheader]
  simp [Functor.map, Except.map]

end Parts

/-- The header length nibble. -/
def headerLengthAt (b : Bytes) : Nat := (byteAt b 0 &&& 15#8).toNat

/-- A packet with nothing behind it, whose header checksum is right and not 0. -/
structure Complete (b : Bytes) : Prop where
  length : 20 ≤ b.length
  headerLength_ge : 5 ≤ headerLengthAt b
  headerLength_le : 4 * headerLengthAt b ≤ b.length
  totalLength : (shortAt b 2).toNat = b.length
  totalLength_le : b.length ≤ 32767
  protocol : R.ipProtocolType.containsKey (byteAt b 9) = true
  checksum_ne : shortAt b 10 ≠ 0
  checksum : Verifies (b.take (4 * headerLengthAt b))

/-- The sum of the header's words without its checksum. -/
def sumAt (b : Bytes) : Nat := wordSum (b.take (4 * headerLengthAt b)) - (shortAt b 10).toNat

/-- Around the two service and checksum fields, everything is written back as it was read. -/
theorem exists_parts (hR : R.Reachable) (b : Bytes) (h : Complete R b) :
    ∃ version tos front checksum back payload,
      b = version :: tos :: (front ++ (shortBytes checksum ++ (back ++ payload))) ∧
      front.length = 8 ∧ 12 + back.length = 4 * headerLengthAt b ∧
      reencode R b = .ok (version :: (tos &&& 3#8) :: (front ++ (shortBytes (foldChecksum
        (BitVec.ofNat 32 (wordSum (version :: (tos &&& 3#8) :: (front ++
          (shortBytes 0 ++ back)))))) ++ (back ++ payload)))) := by
  obtain ⟨version, tos, totalLength, identification, sscratch, ttl, protocol, checksum, source,
    destination, rest, rfl⟩ := exists_fields h.length
  have hihl : headerLengthAt (version :: tos :: (shortBytes totalLength ++
      (shortBytes identification ++ (shortBytes sscratch ++ (ttl :: protocol ::
        (shortBytes checksum ++ (source.toBytes ++ (destination.toBytes ++ rest)))))))) =
      (version &&& 15#8).toNat := rfl
  have hlen : (version :: tos :: (shortBytes totalLength ++ (shortBytes identification ++
      (shortBytes sscratch ++ (ttl :: protocol :: (shortBytes checksum ++ (source.toBytes ++
        (destination.toBytes ++ rest)))))))).length = 20 + rest.length := by
    simp
    omega
  have htotalAt : shortAt (version :: tos :: (shortBytes totalLength ++
      (shortBytes identification ++ (shortBytes sscratch ++ (ttl :: protocol ::
        (shortBytes checksum ++ (source.toBytes ++ (destination.toBytes ++ rest)))))))) 2 =
      totalLength := shortAt_append [version, tos] _ totalLength rfl
  have hge := h.headerLength_ge
  have hle := h.headerLength_le
  have htotal := h.totalLength
  have hmax := h.totalLength_le
  have hprotocol : R.ipProtocolType.containsKey protocol = true := h.protocol
  clear h
  rw [hihl] at hge
  rw [hihl, hlen] at hle
  rw [htotalAt, hlen] at htotal
  rw [hlen] at hmax
  rw [hihl]
  clear hihl hlen htotalAt
  have hrest : 0 + (4 * (version &&& 15#8).toNat - 20) ≤ rest.length := by omega
  obtain ⟨options, payload, rfl, hoptions, -⟩ := exists_chunk _ hrest
  rw [List.length_append] at htotal hmax
  have hk := IPProtocolType.getInstance_value hR (.inl hprotocol)
  have hre := reencode_append R version tos totalLength identification sscratch ttl protocol
    checksum source destination options payload (by omega) (by omega) (by omega) hk
  refine ⟨version, tos, shortBytes totalLength ++ (shortBytes identification ++
    (shortBytes sscratch ++ [ttl, protocol])), checksum, source.toBytes ++
      (destination.toBytes ++ options), payload, by simp, by simp, ?_, ?_⟩
  · rw [List.length_append, List.length_append, Address.toBytes_length, Address.toBytes_length]
    omega
  · simpa using hre

/-- A complete packet is written back as it was read iff its six service bits are 0 and the one
fold of the checksum loop leaves less than all ones. -/
theorem reencode_complete_iff (hR : R.Reachable) (b : Bytes) (h : Complete R b) :
    reencode R b = .ok b ↔
      byteAt b 1 &&& 0xfc#8 = 0#8 ∧ OnesComplement.fold 0xffff (sumAt b) < 0xffff := by
  obtain ⟨version, tos, front, checksum, back, payload, hb, hfront, hback, hre⟩ :=
    exists_parts R hR b h
  have hne := h.checksum_ne
  have hverifies := h.checksum
  have hnibble := and_15_le (byteAt b 0)
  have htos : byteAt b 1 = tos := by
    rw [hb]
    rfl
  have hchecksum : shortAt b 10 = checksum := by
    rw [hb]
    exact shortAt_append (version :: tos :: front) (back ++ payload) checksum (by simp [hfront])
  have hsize : ((version :: tos :: front) ++ (shortBytes checksum ++ back)).length =
      4 * headerLengthAt b := by
    rw [← hback]
    simp [hfront]
    omega
  have hheader : b.take (4 * headerLengthAt b) =
      (version :: tos :: front) ++ (shortBytes checksum ++ back) := by
    rw [← hsize]
    conv_lhs => rw [hb]
    simpa using @List.take_left _ ((version :: tos :: front) ++ (shortBytes checksum ++ back))
      payload
  have hsum : wordSum (b.take (4 * headerLengthAt b)) =
      wordSum ((version :: tos :: front) ++ (shortBytes 0 ++ back)) + checksum.toNat := by
    rw [hheader]
    exact wordSum_patch _ _ checksum (by simp [hfront])
  have hsumAt : sumAt b = wordSum ((version :: tos :: front) ++ (shortBytes 0 ++ back)) := by
    rw [sumAt, hsum, hchecksum, Nat.add_sub_cancel]
  have hlt : sumAt b < 2 ^ 32 := by
    have hle := wordSum_le (b.take (4 * headerLengthAt b))
    rw [hheader, hsize, ← hheader, hsum, ← hsumAt, headerLengthAt] at hle
    omega
  have hmod : (sumAt b + checksum.toNat) % 0xffff = 0 := by
    rw [hsumAt, ← hsum]
    exact ((verifies_iff _).mp hverifies).2
  rw [hchecksum] at hne
  have hsame := foldChecksum_eq_iff hlt hne hmod
  have hmask : tos &&& 3#8 = tos ↔ tos &&& 0xfc#8 = 0#8 := and_eq_self_iff tos 3#8
  rw [htos, ← hmask, ← hsame, hsumAt, hre]
  conv_lhs => rw [hb]
  by_cases hservice : tos &&& 3#8 = tos
  · rw [hservice]
    simp
  · simp [hservice]

/-- A complete header marked for expedited forwarding. -/
def markedPacket : Bytes :=
  [0x45, 0xb8, 0x00, 0x14, 0, 0, 0, 0, 0x40, 0x06, 0x7c, 0x2a, 127, 0, 0, 1, 127, 0, 0, 1]

theorem markedPacket_complete : Complete Registries.initial markedPacket :=
  ⟨by decide, by decide, by decide, by decide, by decide, by decide, by decide, by decide⟩

theorem service_is_lost :
    Complete Registries.initial markedPacket ∧
      reencode Registries.initial markedPacket ≠ .ok markedPacket :=
  ⟨markedPacket_complete, by decide +kernel⟩

theorem markedPacket_reencode :
    reencode Registries.initial markedPacket = .ok markedPacket ↔
      byteAt markedPacket 1 &&& 0xfc#8 = 0#8 ∧
        OnesComplement.fold 0xffff (sumAt markedPacket) < 0xffff :=
  reencode_complete_iff Registries.initial .initial markedPacket markedPacket_complete

end IPv4

namespace IPv6

variable (R : Registries)

/-- `newInstance(b).toBytes()`. -/
def reencode (b : Bytes) : Except JavaException Bytes := (newInstance R b).bind toBytes

theorem word_of_parts (word : JInt) :
    (promote (toByte (word.sshiftRight 28) &&& 15#8) &&& 0xf#32) <<< 28 |||
      (promote (toByte (word.sshiftRight 20)) &&& 0xff#32) <<< 20 ||| (word &&& 0xfffff#32) =
      word := by
  apply BitVec.eq_of_getLsbD_eq
  intro i hi
  rw [BitVec.getLsbD_or, BitVec.getLsbD_or, BitVec.getLsbD_shiftLeft, BitVec.getLsbD_shiftLeft,
    promote_and_ff]
  interval_cases i <;> simp [promote, toByte, BitVec.getElem_signExtend, BitVec.getElem_sshiftRight]

/-- Re-encoding clears the hop limit and writes the source address in both places. -/
theorem reencode_append (word : JInt) (payloadLength : JShort) (nextHeader hopLimit : JByte)
    (sourceAddress destinationAddress : Inet6Address) (rest : Bytes)
    (hk : (IPProtocolType.getInstance R.ipProtocolType nextHeader).value = nextHeader) :
    reencode R (intBytes word ++ (shortBytes payloadLength ++ (nextHeader :: hopLimit ::
      (sourceAddress.toBytes ++ (destinationAddress.toBytes ++ rest))))) =
      .ok (intBytes word ++ (shortBytes payloadLength ++ (nextHeader :: 0 ::
        (sourceAddress.toBytes ++ (sourceAddress.toBytes ++ rest))))) := by
  have hd := read_append R word payloadLength nextHeader hopLimit sourceAddress destinationAddress
    [] rest []
  rw [if_pos rfl] at hd
  rw [reencode, newInstance, newInstanceAt, decode_whole, hd]
  refine (toBytes_eq _).trans ?_
  have hword := congrArg intBytes (word_of_parts word)
  simpa [bytes, firstWord, getVersion, getTrafficClass, getFlowLabel, getPayloadLength,
    getHopLimit, new, hk] using hword

/-- A packet is written back as it was read iff its hop limit is 0 and its two addresses are
equal. -/
theorem reencode_registered_iff (hR : R.Reachable) (b : Bytes) (h : 40 ≤ b.length)
    (hn : R.ipProtocolType.containsKey (byteAt b 6) = true) :
    reencode R b = .ok b ↔ byteAt b 7 = 0 ∧ (b.drop 8).take 16 = (b.drop 24).take 16 := by
  obtain ⟨word, payloadLength, nextHeader, hopLimit, source, destination, rest, rfl⟩ :=
    exists_fields h
  have hk := IPProtocolType.getInstance_value hR (.inl hn)
  have hhop : byteAt (intBytes word ++ (shortBytes payloadLength ++ (nextHeader :: hopLimit ::
      (source.toBytes ++ (destination.toBytes ++ rest))))) 7 = hopLimit := rfl
  have hsource : ((intBytes word ++ (shortBytes payloadLength ++ (nextHeader :: hopLimit ::
      (source.toBytes ++ (destination.toBytes ++ rest))))).drop 8).take 16 = source.toBytes :=
    List.take_left' source.toBytes_length
  have hdestination : ((intBytes word ++ (shortBytes payloadLength ++ (nextHeader :: hopLimit ::
      (source.toBytes ++ (destination.toBytes ++ rest))))).drop 24).take 16 =
      destination.toBytes := by
    change ((source.toBytes ++ (destination.toBytes ++ rest)).drop 16).take 16 = _
    rw [List.drop_left' source.toBytes_length, List.take_left' destination.toBytes_length]
  rw [reencode_append R word payloadLength nextHeader hopLimit source destination rest hk, hhop,
    hsource, hdestination, Except.ok.injEq, List.append_cancel_left_eq, List.append_cancel_left_eq,
    List.cons.injEq, List.cons.injEq, List.append_cancel_left_eq, List.append_cancel_right_eq,
    and_iff_right rfl]
  exact and_congr eq_comm Iff.rfl

/-- A packet from ::1 to ::2 with hop limit 64. -/
def routedPacket : Bytes :=
  [0x60, 0, 0, 0, 0, 0, 58, 64] ++ (List.replicate 15 0 ++ [1]) ++ (List.replicate 15 0 ++ [2])

theorem hopLimit_is_lost :
    40 ≤ routedPacket.length ∧
      Registries.initial.ipProtocolType.containsKey (byteAt routedPacket 6) = true ∧
      reencode Registries.initial routedPacket ≠ .ok routedPacket :=
  ⟨by decide, by decide, by decide +kernel⟩

theorem routedPacket_reencode :
    reencode Registries.initial routedPacket = .ok routedPacket ↔
      byteAt routedPacket 7 = 0 ∧
        (routedPacket.drop 8).take 16 = (routedPacket.drop 24).take 16 :=
  reencode_registered_iff Registries.initial .initial routedPacket (by decide) (by decide)

end IPv6

end Jxnet
