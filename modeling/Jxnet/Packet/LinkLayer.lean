import Jxnet.Packet.Registry

namespace Jxnet

open Java ByteBuffer

structure SLL where
  packetType : JShort
  hardwareAddressType : JShort
  hardwareAddressLength : JShort
  address : Bytes
  protocol : Option ProtocolType
  nextPacket : Option Bytes
  deriving DecidableEq, Repr

namespace SLL

def SLL_HEADER_LENGTH : Nat := 16

def new : SLL := ⟨0, 0, 0, List.replicate 8 0, none, none⟩

def getPacketType (s : SLL) : JShort := mask16 s.packetType

def setPacketType (s : SLL) (packetType : JShort) : SLL :=
  { s with packetType := mask16 packetType }

def getHardwareAddressType (s : SLL) : JShort := mask16 s.hardwareAddressType

def setHardwareAddressType (s : SLL) (hardwareAddressType : JShort) : SLL :=
  { s with hardwareAddressType := mask16 hardwareAddressType }

def getHardwareAddressLength (s : SLL) : JShort := mask16 s.hardwareAddressLength

def setHardwareAddressLength (s : SLL) (hardwareAddressLength : JShort) : SLL :=
  { s with hardwareAddressLength := mask16 hardwareAddressLength }

def read (R : Registries) : Op SLL := do
  let sll := new
  let sll := sll.setPacketType (← getShort)
  let sll := sll.setHardwareAddressType (← getShort)
  let sll := sll.setHardwareAddressLength (← getShort)
  let address ← getBytes 8
  let protocol := ProtocolType.getInstance R.protocolType (← getShort)
  let nextPacket ← getUpToLimit SLL_HEADER_LENGTH
  pure { sll with address, protocol := some protocol, nextPacket := some nextPacket }

def newInstanceAt (R : Registries) (bytes : Bytes) (offset length : Nat) :
    Except JavaException SLL :=
  decode (read R) bytes offset length

def newInstance (R : Registries) (bytes : Bytes) : Except JavaException SLL :=
  newInstanceAt R bytes 0 bytes.length

/-- The size expression has its two branches the wrong way round: it dereferences a null
payload, and leaves no room for one that is there. -/
def toBytes (s : SLL) : Except JavaException Bytes :=
  match s.nextPacket, s.protocol with
  | none, _ => .error .nullPointer
  | some nextPacket, protocol => encode (SLL_HEADER_LENGTH + 0 : Nat) do
    putShort s.getPacketType
    putShort s.getHardwareAddressType
    putShort s.getHardwareAddressLength
    putBytes s.address
    match protocol with
    | none => throw .nullPointer
    | some protocol => putShort (mask16 protocol.value)
    putBytes nextPacket

theorem read_needs (R : Registries) : Needs (read R) 16 :=
  .bind .getShort fun _ => .bind .getShort fun _ => .bind .getShort fun _ =>
    .bind (.getBytes 8) fun _ => .bind .getShort fun _ => .zero _

theorem read_append (R : Registries) (packetType hardwareAddressType hardwareAddressLength : JShort)
    (address : Bytes) (protocol : JShort) (pre rest post : Bytes) (h : address.length = 8) :
    eval (read R) ⟨pre, shortBytes packetType ++ (shortBytes hardwareAddressType ++
      (shortBytes hardwareAddressLength ++ (address ++ (shortBytes protocol ++ rest)))), post⟩ =
      if pre = [] then .ok ⟨packetType, hardwareAddressType, hardwareAddressLength, address,
        ProtocolType.getInstance R.protocolType protocol, some rest⟩
      else .error .bufferUnderflow := by
  simp [read, new, setPacketType, setHardwareAddressType, setHardwareAddressLength,
    getBytes_append, h, SLL_HEADER_LENGTH]

theorem newInstance_append (R : Registries) (packetType addressType addressLength : JShort)
    (address : Bytes) (protocol : JShort) (rest : Bytes) (h : address.length = 8) :
    newInstance R (shortBytes packetType ++ (shortBytes addressType ++
      (shortBytes addressLength ++ (address ++ (shortBytes protocol ++ rest))))) =
      .ok ⟨packetType, addressType, addressLength, address,
        ProtocolType.getInstance R.protocolType protocol, some rest⟩ := by
  rw [newInstance, newInstanceAt, decode_whole,
    read_append R packetType addressType addressLength address protocol [] rest [] h, if_pos rfl]

/-- Sixteen bytes are the five header fields, and the payload follows. -/
theorem exists_fields {bytes : Bytes} (h : 16 ≤ bytes.length) :
    ∃ (packetType addressType addressLength : JShort) (address : Bytes) (protocol : JShort)
      (rest : Bytes), address.length = 8 ∧ bytes = shortBytes packetType ++
        (shortBytes addressType ++ (shortBytes addressLength ++ (address ++
          (shortBytes protocol ++ rest)))) := by
  obtain ⟨packetType, b1, rfl, h1⟩ := exists_short (n := 14) h
  obtain ⟨addressType, b2, rfl, h2⟩ := exists_short (n := 12) h1
  obtain ⟨addressLength, b3, rfl, h3⟩ := exists_short (n := 10) h2
  obtain ⟨address, b4, rfl, ha, h4⟩ := exists_chunk 8 (n := 2) h3
  obtain ⟨protocol, rest, rfl, h5⟩ := exists_short (n := 0) h4
  exact ⟨packetType, addressType, addressLength, address, protocol, rest, ha, rfl⟩

theorem headerPayload (R : Registries) :
    HeaderPayload (read R) nextPacket (fixedHeader 16) := by
  refine .of_fixed (read_needs R) fun bytes h => ?_
  obtain ⟨packetType, addressType, addressLength, address, protocol, rest, ha, rfl⟩ :=
    exists_fields h
  exact ⟨shortBytes packetType ++ (shortBytes addressType ++ (shortBytes addressLength ++
    (address ++ shortBytes protocol))), rest, _, by simp, by simp [ha], rfl, fun pre post =>
    read_append R packetType addressType addressLength address protocol pre rest post ha⟩

theorem newInstance_short {R : Registries} (b : Bytes) (h : b.length < 16) :
    newInstance R b = .error .bufferUnderflow := by
  rw [newInstance, newInstanceAt, decode_whole, (read_needs R).eval [] b [] h]

theorem eq_of_newInstance {R : Registries} {b : Bytes} {s : SLL} (h : newInstance R b = .ok s) :
    ∃ (packetType addressType addressLength : JShort) (address : Bytes) (protocol : JShort)
      (rest : Bytes), address.length = 8 ∧ b = shortBytes packetType ++
        (shortBytes addressType ++ (shortBytes addressLength ++ (address ++
          (shortBytes protocol ++ rest)))) ∧
      s = ⟨packetType, addressType, addressLength, address,
        ProtocolType.getInstance R.protocolType protocol, some rest⟩ := by
  by_cases h16 : 16 ≤ b.length
  · obtain ⟨packetType, addressType, addressLength, address, protocol, rest, ha, rfl⟩ :=
      exists_fields h16
    rw [newInstance_append R packetType addressType addressLength address protocol rest ha] at h
    cases h
    exact ⟨packetType, addressType, addressLength, address, protocol, rest, ha, rfl, rfl⟩
  · rw [newInstance_short b (by omega)] at h
    cases h

end SLL

structure RadioTap where
  version : JByte
  padding : JByte
  length : JShort
  present : JInt
  nextPacket : Option Bytes
  deriving DecidableEq, Repr

namespace RadioTap

def RADIO_TAP_HEADER : Nat := 8

def new : RadioTap := ⟨0, 0, 0, 0, none⟩

def getVersion (r : RadioTap) : JByte := mask8 r.version

def setVersion (r : RadioTap) (version : JByte) : RadioTap := { r with version := mask8 version }

def getPadding (r : RadioTap) : JByte := mask8 r.padding

def setPadding (r : RadioTap) (padding : JByte) : RadioTap := { r with padding := mask8 padding }

def getLength (r : RadioTap) : JShort := mask16 r.length

def setLength (r : RadioTap) (length : JShort) : RadioTap := { r with length := mask16 length }

/-- The cast to `byte` keeps the low byte of the word. -/
def getPresent (r : RadioTap) : JInt := promote (toByte (mask32 r.present))

def setPresent (r : RadioTap) (present : JInt) : RadioTap :=
  { r with present := promote (toByte (mask32 present)) }

def read : Op RadioTap := do
  let radioTap := new
  let radioTap := radioTap.setVersion (← ByteBuffer.get)
  let radioTap := radioTap.setPadding (← ByteBuffer.get)
  let radioTap := radioTap.setLength (← getShort)
  let radioTap := radioTap.setPresent (← getInt)
  let nextPacket ← getUpToLimit RADIO_TAP_HEADER
  pure { radioTap with nextPacket := some nextPacket }

def newInstanceAt (bytes : Bytes) (offset length : Nat) : Except JavaException RadioTap :=
  decode read bytes offset length

def newInstance (bytes : Bytes) : Except JavaException RadioTap :=
  newInstanceAt bytes 0 bytes.length

def toBytes (r : RadioTap) : Except JavaException Bytes :=
  encode (RADIO_TAP_HEADER + (r.nextPacket.getD []).length : Nat) do
    put r.getVersion
    put r.getPadding
    putShort r.getLength
    putInt r.getPresent
    putOptional r.nextPacket

theorem read_needs : Needs read 8 :=
  .bind .get fun _ => .bind .get fun _ => .bind .getShort fun _ => .bind .getInt fun _ => .zero _

theorem read_append (version padding : JByte) (length : JShort) (present : JInt)
    (pre rest post : Bytes) :
    eval read ⟨pre, version :: padding :: (shortBytes length ++ (intBytes present ++ rest)), post⟩ =
      if pre = [] then .ok ⟨version, padding, length, promote (toByte present), some rest⟩
      else .error .bufferUnderflow := by
  simp [read, new, setVersion, setPadding, setLength, setPresent, RADIO_TAP_HEADER]

theorem exists_fields {bytes : Bytes} (h : 8 ≤ bytes.length) :
    ∃ (version padding : JByte) (length : JShort) (present : JInt) (rest : Bytes),
      bytes = version :: padding :: (shortBytes length ++ (intBytes present ++ rest)) := by
  obtain ⟨version, b1, rfl, h1⟩ := exists_byte (n := 7) h
  obtain ⟨padding, b2, rfl, h2⟩ := exists_byte (n := 6) h1
  obtain ⟨length, b3, rfl, h3⟩ := exists_short (n := 4) h2
  obtain ⟨present, rest, rfl, h4⟩ := exists_int (n := 0) h3
  exact ⟨version, padding, length, present, rest, rfl⟩

theorem headerPayload : HeaderPayload read nextPacket (fixedHeader 8) := by
  refine .of_fixed read_needs fun bytes h => ?_
  obtain ⟨version, padding, length, present, rest, rfl⟩ := exists_fields h
  exact ⟨version :: padding :: (shortBytes length ++ intBytes present), rest, _, by simp, by simp,
    rfl, fun pre post => read_append version padding length present pre rest post⟩

theorem newInstance_append (version padding : JByte) (length : JShort) (present : JInt)
    (rest : Bytes) :
    newInstance (version :: padding :: (shortBytes length ++ (intBytes present ++ rest))) =
      .ok ⟨version, padding, length, promote (toByte present), some rest⟩ := by
  rw [newInstance, newInstanceAt, decode_whole,
    read_append version padding length present [] rest [], if_pos rfl]

theorem newInstance_cons (version padding a b c d e f : JByte) (rest : Bytes) :
    newInstance (version :: padding :: a :: b :: c :: d :: e :: f :: rest) =
      .ok ⟨version, padding, shortOf a b, promote f, some rest⟩ := by
  have hnew := newInstance_append version padding (shortOf a b) (intOf c d e f) rest
  rw [shortBytes_shortOf, intBytes_intOf, toByte_intOf] at hnew
  exact hnew

theorem newInstance_short (b : Bytes) (h : b.length < 8) :
    newInstance b = .error .bufferUnderflow := by
  rw [newInstance, newInstanceAt, decode_whole, read_needs.eval [] b [] h]

end RadioTap

end Jxnet
