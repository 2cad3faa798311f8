import Jxnet.Packet.Registry

namespace Jxnet

open Java ByteBuffer

/-- `setHopLimit` stores the old value again, so the field keeps the constructor's 0. -/
structure IPv6 where
  version : JByte
  trafficClass : JByte
  flowLabel : JInt
  payloadLength : JShort
  nextHeader : IPProtocolType
  hopLimit : JByte
  sourceAddress : Inet6Address
  destinationAddress : Inet6Address
  nextPacket : Option Bytes
  hopLimit_eq : hopLimit = 0#8
  deriving DecidableEq, Repr

namespace IPv6

def IPV6_HEADER_LENGTH : Nat := 40

theorem hopLimit_zero : (0 : JByte) = 0#8 := rfl

/-- The constructor. -/
def new : IPv6 where
  version := 6
  trafficClass := 0
  flowLabel := 0
  payloadLength := 0
  nextHeader := IPProtocolType.UNKNOWN
  hopLimit := 0
  sourceAddress := Inet6Address.LOCALHOST
  destinationAddress := Inet6Address.LOCALHOST
  nextPacket := none
  hopLimit_eq := hopLimit_zero

def getVersion (p : IPv6) : JByte := toByte (promote p.version &&& 0xf#32)

def setVersion (p : IPv6) (version : JByte) : IPv6 :=
  { p with version := toByte (promote version &&& 0xf#32) }

def getTrafficClass (p : IPv6) : JByte := mask8 p.trafficClass

def setTrafficClass (p : IPv6) (trafficClass : JByte) : IPv6 :=
  { p with trafficClass := mask8 trafficClass }

def getFlowLabel (p : IPv6) : JInt := p.flowLabel &&& 0xfffff#32

def setFlowLabel (p : IPv6) (flowLabel : JInt) : IPv6 :=
  { p with flowLabel := flowLabel &&& 0xfffff#32 }

def getPayloadLength (p : IPv6) : JShort := mask16 p.payloadLength

def setPayloadLength (p : IPv6) (payloadLength : JShort) : IPv6 :=
  { p with payloadLength := mask16 payloadLength }

def getHopLimit (p : IPv6) : JByte := mask8 p.hopLimit

def setHopLimit (p : IPv6) (_hopLimit : JByte) : IPv6 :=
  { p with
    hopLimit := mask8 p.hopLimit
    hopLimit_eq := by simp [p.hopLimit_eq] }

def setNextHeader (p : IPv6) (nextHeader : IPProtocolType) : IPv6 := { p with nextHeader }

def setSourceAddress (p : IPv6) (sourceAddress : Inet6Address) : IPv6 := { p with sourceAddress }

def setDestinationAddress (p : IPv6) (destinationAddress : Inet6Address) : IPv6 :=
  { p with destinationAddress }

/-- The deprecated setter, which alone stores the length too; null is ignored. -/
def setPayload (p : IPv6) (payload : Option Bytes) : IPv6 :=
  match payload with
  | none => p
  | some payload =>
    { p.setPayloadLength (BitVec.ofNat 16 payload.length) with nextPacket := some payload }

def read (R : Registries) : Op IPv6 := do
  let ipv6 := new
  let iscratch ← getInt
  let ipv6 := ipv6.setVersion (toByte (iscratch.sshiftRight 28 &&& 0xf#32))
  let ipv6 := ipv6.setTrafficClass (toByte (iscratch.sshiftRight 20 &&& 0xff#32))
  let ipv6 := ipv6.setFlowLabel (iscratch &&& 0xfffff#32)
  let ipv6 := ipv6.setPayloadLength (← getShort)
  let ipv6 := { ipv6 with
    nextHeader := IPProtocolType.getInstance R.ipProtocolType (← ByteBuffer.get) }
  let ipv6 := ipv6.setHopLimit (← ByteBuffer.get)
  let sourceAddress ← Address.read Inet6Address.IPV6_ADDRESS_LENGTH
  let destinationAddress ← Address.read Inet6Address.IPV6_ADDRESS_LENGTH
  let nextPacket ← getUpToLimit IPV6_HEADER_LENGTH
  pure { ipv6 with sourceAddress, destinationAddress, nextPacket := some nextPacket }

def newInstanceAt (R : Registries) (bytes : Bytes) (offset length : Nat) :
    Except JavaException IPv6 :=
  decode (read R) bytes offset length

def newInstance (R : Registries) (bytes : Bytes) : Except JavaException IPv6 :=
  newInstanceAt R bytes 0 bytes.length

/-- The source address is written in both places. -/
def toBytes (p : IPv6) : Except JavaException Bytes :=
  encode (IPV6_HEADER_LENGTH + (p.nextPacket.getD []).length : Nat) do
    putInt ((promote p.getVersion &&& 0xf#32) <<< 28 |||
      (promote p.getTrafficClass &&& 0xff#32) <<< 20 ||| (p.getFlowLabel &&& 0xfffff#32))
    putShort p.getPayloadLength
    put p.nextHeader.value
    put p.getHopLimit
    putBytes p.sourceAddress.toBytes
    putBytes p.sourceAddress.toBytes
    putOptional p.nextPacket

theorem read_needs (R : Registries) : Needs (read R) 40 :=
  .bind .getInt fun _ => .bind .getShort fun _ => .bind .get fun _ => .bind .get fun _ =>
    .bind (Address.read_consumes 16) fun _ => .bind (Address.read_consumes 16) fun _ => .zero _

theorem read_append (R : Registries) (word : JInt) (payloadLength : JShort)
    (nextHeader hopLimit : JByte) (sourceAddress destinationAddress : Inet6Address)
    (pre rest post : Bytes) :
    eval (read R) ⟨pre, intBytes word ++ (shortBytes payloadLength ++ (nextHeader :: hopLimit ::
      (sourceAddress.toBytes ++ (destinationAddress.toBytes ++ rest)))), post⟩ =
      if pre = [] then .ok { new with
        version := toByte (word.sshiftRight 28) &&& 15#8
        trafficClass := toByte (word.sshiftRight 20)
        flowLabel := word &&& 0xfffff#32
        payloadLength
        nextHeader := IPProtocolType.getInstance R.ipProtocolType nextHeader
        sourceAddress
        destinationAddress
        nextPacket := some rest }
      else .error .bufferUnderflow := by
  have h255 : ∀ x : JByte, x &&& 255#8 = x := fun x => BitVec.and_allOnes
  simp [read, new, setVersion, setTrafficClass, setFlowLabel, setPayloadLength, setHopLimit, h255,
    Inet6Address.IPV6_ADDRESS_LENGTH, IPV6_HEADER_LENGTH]

theorem exists_fields {bytes : Bytes} (h : 40 ≤ bytes.length) :
    ∃ (word : JInt) (payloadLength : JShort) (nextHeader hopLimit : JByte)
      (source destination : Inet6Address) (rest : Bytes),
      bytes = intBytes word ++ (shortBytes payloadLength ++ (nextHeader :: hopLimit ::
        (source.toBytes ++ (destination.toBytes ++ rest)))) := by
  obtain ⟨word, b1, rfl, h1⟩ := exists_int (n := 36) h
  obtain ⟨payloadLength, b2, rfl, h2⟩ := exists_short (n := 34) h1
  obtain ⟨nextHeader, b3, rfl, h3⟩ := exists_byte (n := 33) h2
  obtain ⟨hopLimit, b4, rfl, h4⟩ := exists_byte (n := 32) h3
  obtain ⟨source, b5, rfl, h5⟩ := Address.exists_toBytes (n := 16) (k := 16) h4
  obtain ⟨destination, rest, rfl, h6⟩ := Address.exists_toBytes (n := 16) (k := 0) h5
  exact ⟨word, payloadLength, nextHeader, hopLimit, source, destination, rest, rfl⟩

theorem headerPayload (R : Registries) :
    HeaderPayload (read R) nextPacket (fixedHeader 40) := by
  refine .of_fixed (read_needs R) fun bytes h => ?_
  obtain ⟨word, payloadLength, nextHeader, hopLimit, source, destination, rest, rfl⟩ :=
    exists_fields h
  exact ⟨intBytes word ++ (shortBytes payloadLength ++ (nextHeader :: hopLimit ::
    (source.toBytes ++ destination.toBytes))), rest, _, by simp, by simp, rfl, fun pre post =>
    read_append R word payloadLength nextHeader hopLimit source destination pre rest post⟩

/-- The word of version, traffic class and flow label as `toBytes` composes it. -/
def firstWord (p : IPv6) : JInt :=
  (promote p.getVersion &&& 0xf#32) <<< 28 ||| (promote p.getTrafficClass &&& 0xff#32) <<< 20 |||
    (p.getFlowLabel &&& 0xfffff#32)

def bytes (p : IPv6) : Bytes :=
  intBytes p.firstWord ++ (shortBytes p.getPayloadLength ++ (p.nextHeader.value :: p.getHopLimit ::
    (p.sourceAddress.toBytes ++ (p.sourceAddress.toBytes ++ p.nextPacket.getD []))))

theorem toBytes_eq (p : IPv6) : p.toBytes = .ok p.bytes := by
  have hw : Writes (do
      putInt p.firstWord
      putShort p.getPayloadLength
      put p.nextHeader.value
      put p.getHopLimit
      putBytes p.sourceAddress.toBytes
      putBytes p.sourceAddress.toBytes
      putOptional p.nextPacket) p.bytes :=
    .bind (.putInt _) <| .bind (.putShort _) <| .bind (.put _) <| .bind (.put _) <|
      .bind (.putBytes _) <| .bind (.putBytes _) (.putOptional _)
  refine hw.encode_exact ?_
  simp [bytes, IPV6_HEADER_LENGTH]
  omega

end IPv6

structure Routing where
  nextHeader : Option IPProtocolType
  extensionLength : JByte
  routingType : JByte
  segmentLeft : JByte
  routingData : Option Bytes
  payload : Option Bytes
  deriving DecidableEq, Repr

namespace Routing

def FIXED_ROUTING_HEADER_LENGTH : Nat := 4

def FIXED_ROUTING_DATA_LENGTH : Nat := 4

def new : Routing := ⟨none, 0, 0, 0, none, none⟩

/-- The extension length is a signed byte, so the size of the data may be negative. -/
def read (R : Registries) : Op Routing := do
  let nextHeader := IPProtocolType.getInstance R.ipProtocolType (← ByteBuffer.get)
  let extensionLength ← ByteBuffer.get
  let routingType ← ByteBuffer.get
  let segmentLeft ← ByteBuffer.get
  let dataLength : Int := FIXED_ROUTING_DATA_LENGTH + 8 * extensionLength.toInt
  let routingData ← getArray dataLength
  let payload ← getUpToLimit (FIXED_ROUTING_HEADER_LENGTH + dataLength.toNat)
  pure ⟨nextHeader, extensionLength, routingType, segmentLeft, routingData, payload⟩

def newInstanceAt (R : Registries) (bytes : Bytes) (offset length : Nat) :
    Except JavaException Routing :=
  decode (read R) bytes offset length

def newInstance (R : Registries) (bytes : Bytes) : Except JavaException Routing :=
  newInstanceAt R bytes 0 bytes.length

def toBytes (r : Routing) : Except JavaException Bytes :=
  encode (FIXED_ROUTING_HEADER_LENGTH + FIXED_ROUTING_DATA_LENGTH + 8 * r.extensionLength.toInt +
      (r.payload.getD []).length) do
    match r.nextHeader with
    | none => throw .nullPointer
    | some nextHeader => put nextHeader.value
    put r.extensionLength
    put r.routingType
    put r.segmentLeft
    match r.routingData with
    | none => throw .nullPointer
    | some routingData => putBytes routingData
    putOptional r.payload

/-- The size of the header, or the exception of the size computation or of a short array. -/
def header (bytes : Bytes) : Except JavaException Nat :=
  if bytes.length < 4 then .error .bufferUnderflow
  else if (byteAt bytes 1).toInt < 0 then .error .negativeArraySize
  else fixedHeader (8 + 8 * (byteAt bytes 1).toNat) bytes

theorem read_needs (R : Registries) : Needs (read R) 4 :=
  .bind .get fun _ => .bind .get fun _ => .bind .get fun _ => .bind .get fun _ => .zero _

theorem read_negative (R : Registries) (nextHeader extensionLength routingType segmentLeft : JByte)
    (pre rest post : Bytes) (h : extensionLength.toInt < 0) :
    eval (read R) ⟨pre, nextHeader :: extensionLength :: routingType :: segmentLeft :: rest, post⟩ =
      .error .negativeArraySize := by
  have hneg : (4 : Int) + 8 * extensionLength.toInt < 0 := by omega
  simp [read, getArray, hneg, FIXED_ROUTING_DATA_LENGTH]

theorem newInstance_negative (R : Registries)
    (nextHeader extensionLength routingType segmentLeft : JByte) (rest : Bytes)
    (h : extensionLength.toInt < 0) :
    newInstance R (nextHeader :: extensionLength :: routingType :: segmentLeft :: rest) =
      .error .negativeArraySize := by
  rw [newInstance, newInstanceAt, decode_whole,
    read_negative R nextHeader extensionLength routingType segmentLeft [] rest [] h]

private theorem dataLength_eq (extensionLength : JByte) (h : ¬ extensionLength.toInt < 0) :
    ((FIXED_ROUTING_DATA_LENGTH : Nat) : Int) + 8 * extensionLength.toInt =
      ((4 + 8 * extensionLength.toNat : Nat) : Int) := by
  have hint : extensionLength.toInt = extensionLength.toNat := by
    rw [BitVec.toInt_eq_toNat_cond]
    rw [BitVec.toInt_eq_toNat_cond] at h
    split at h <;> omega
  rw [hint, FIXED_ROUTING_DATA_LENGTH]
  omega

theorem read_short (R : Registries) (nextHeader extensionLength routingType segmentLeft : JByte)
    (pre rest post : Bytes) (h : ¬ extensionLength.toInt < 0)
    (hl : rest.length < 4 + 8 * extensionLength.toNat) :
    eval (read R) ⟨pre, nextHeader :: extensionLength :: routingType :: segmentLeft :: rest, post⟩ =
      .error .bufferUnderflow := by
  have hlt : ¬ 4 + 8 * extensionLength.toNat ≤ rest.length := by omega
  simp only [read, eval_bind, get_cons, dataLength_eq extensionLength h, getArray_natCast, getBytes,
    if_neg hlt]

theorem read_append (R : Registries) (nextHeader extensionLength routingType segmentLeft : JByte)
    (pre routingData rest post : Bytes) (h : ¬ extensionLength.toInt < 0)
    (hl : routingData.length = 4 + 8 * extensionLength.toNat) :
    eval (read R) ⟨pre, nextHeader :: extensionLength :: routingType :: segmentLeft ::
      (routingData ++ rest), post⟩ =
      if pre = [] then .ok ⟨IPProtocolType.getInstance R.ipProtocolType nextHeader,
        extensionLength, routingType, segmentLeft, some routingData, some rest⟩
      else .error .bufferUnderflow := by
  simp only [read, eval_bind, get_cons, dataLength_eq extensionLength h, getArray_natCast,
    getBytes_append _ _ routingData rest _ hl, Int.toNat_natCast]
  have hhdr : ([nextHeader] ++ ([extensionLength] ++ ([routingType] ++ ([segmentLeft] ++
      routingData)))).length = FIXED_ROUTING_HEADER_LENGTH + (4 + 8 * extensionLength.toNat) := by
    simp [hl, FIXED_ROUTING_HEADER_LENGTH]
    omega
  simp only [List.append_assoc, getUpToLimit_apply pre _ rest post _ hhdr]
  by_cases hp : pre = [] <;> simp [hp]

theorem headerPayload (R : Registries) : HeaderPayload (read R) payload header := by
  refine .of_cases fun bytes => ?_
  by_cases h : 4 ≤ bytes.length
  · obtain ⟨nextHeader, extensionLength, routingType, segmentLeft, rest, rfl, -⟩ :=
      exists_four (n := 0) (by simpa using h)
    have hext : byteAt (nextHeader :: extensionLength :: routingType :: segmentLeft :: rest) 1 =
        extensionLength := rfl
    rw [header, if_neg (by omega), hext]
    by_cases hneg : extensionLength.toInt < 0
    · exact .inl ⟨_, if_pos hneg, fun pre post => read_negative R _ _ _ _ pre rest post hneg⟩
    · rw [if_neg hneg, fixedHeader]
      by_cases hl : 4 + 8 * extensionLength.toNat ≤ rest.length
      · obtain ⟨routingData, payload, rfl, hd, -⟩ := exists_chunk _ (n := 0) (by simpa using hl)
        refine .inr ⟨nextHeader :: extensionLength :: routingType :: segmentLeft :: routingData,
          payload, _, by simp, ?_, rfl, fun pre post =>
          read_append R nextHeader extensionLength routingType segmentLeft pre routingData payload
            post hneg hd⟩
        rw [if_pos (by simp [hd]; omega)]
        simp [hd]
        omega
      · refine .inl ⟨_, if_neg ?_, fun pre post =>
          read_short R _ _ _ _ pre rest post hneg (by omega)⟩
        simp
        omega
  · exact .inl ⟨.bufferUnderflow, by rw [header, if_pos (by omega)], fun pre post =>
      (read_needs R).eval pre bytes post (by omega)⟩

end Routing

structure Fragment where
  nextHeader : Option IPProtocolType
  fragmentOffset : JShort
  moreFragment : JByte
  identification : JInt
  payload : Option Bytes
  deriving DecidableEq, Repr

namespace Fragment

def FIXED_FRAGMENT_HEADER_LENGTH : Nat := 8

def new : Fragment := ⟨none, 0, 0, 0, none⟩

/-- The reserved byte of the header is not skipped and no payload is read. -/
def read (R : Registries) : Op Fragment := do
  let nextHeader := IPProtocolType.getInstance R.ipProtocolType (← ByteBuffer.get)
  let sscratch ← getShort
  let identification ← getInt
  pure { new with
    nextHeader := some nextHeader
    fragmentOffset := toShort ((promote sscratch).sshiftRight 3 &&& 0x1fff#32)
    moreFragment := toByte (promote sscratch &&& 0x1#32)
    identification }

def newInstanceAt (R : Registries) (bytes : Bytes) (offset length : Nat) :
    Except JavaException Fragment :=
  decode (read R) bytes offset length

def newInstance (R : Registries) (bytes : Bytes) : Except JavaException Fragment :=
  newInstanceAt R bytes 0 bytes.length

def toBytes (f : Fragment) : Except JavaException Bytes :=
  encode (FIXED_FRAGMENT_HEADER_LENGTH + (f.payload.getD []).length : Nat) do
    match f.nextHeader with
    | none => throw .nullPointer
    | some nextHeader => put nextHeader.value
    put 0
    putShort (toShort ((promote f.fragmentOffset &&& 0x1fff#32) <<< 3 |||
      (promote f.moreFragment &&& 0x1#32)))
    putInt f.identification
    putOptional f.payload

theorem read_consumes (R : Registries) : Consumes (read R) 7 :=
  .bind .get fun _ => .bind .getShort fun _ => .bind .getInt fun _ => .pure _

theorem read_local (R : Registries) : Local (read R) :=
  .bind .get fun _ => .bind .getShort fun _ => .bind .getInt fun _ => .pure _

theorem read_payload (R : Registries) {b : ByteBuffer} {f : Fragment}
    (h : eval (read R) b = .ok f) : f.payload = none := by
  simp only [read, eval_bind, eval_pure] at h
  split at h
  · split at h
    · split at h
      · cases h
        rfl
      · cases h
    · cases h
  · cases h

end Fragment

end Jxnet
