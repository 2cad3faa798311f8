import Jxnet.Framework.Checksum
import Jxnet.Packet.Registry

namespace Jxnet

open Java ByteBuffer

/-- Application bytes. -/
structure UnknownPacket where
  data : Bytes
  deriving DecidableEq, Repr

namespace UnknownPacket

/-- `CheckBounds(bytes, offset, length)`, for an offset and a length that are not negative. -/
def checkBounds (bytes : Bytes) (offset length : Nat) : Except JavaException Unit :=
  if bytes.length = 0 then .error .illegalArgument
  else if length = 0 then .error .illegalArgument
  else if length > bytes.length ∨ offset > bytes.length then .error .indexOutOfBounds
  else .ok ()

/-- The body of `newInstance` on the wrapped buffer. -/
def read : Op UnknownPacket := do
  let data ← getUpToLimit 0
  pure { data }

def newInstanceAt (bytes : Bytes) (offset length : Nat) : Except JavaException UnknownPacket :=
  match checkBounds bytes offset length with
  | .error e => .error e
  | .ok () => decode read bytes offset length

def newInstance (bytes : Bytes) : Except JavaException UnknownPacket :=
  newInstanceAt bytes 0 bytes.length

def toBytes (p : UnknownPacket) : Bytes := p.data

theorem read_eq (pre rest post : Bytes) :
    eval read ⟨pre, rest, post⟩ = if pre = [] then .ok ⟨rest⟩ else .error .bufferUnderflow := by
  simpa [read] using eval_getUpToLimit UnknownPacket.mk pre [] rest post 0 rfl

theorem newInstance_eq (bytes : Bytes) :
    newInstance bytes = if bytes = [] then .error .illegalArgument else .ok ⟨bytes⟩ := by
  rw [newInstance, newInstanceAt, decode_whole, read_eq]
  cases bytes with
  | nil => rfl
  | cons x xs => simp [checkBounds]

end UnknownPacket

structure UDP where
  sourcePort : JShort
  destinationPort : JShort
  length : JShort
  checksum : JShort
  nextPacket : Option Bytes
  deriving DecidableEq, Repr

namespace UDP

def UDP_HEADER_LENGTH : Nat := 8

def new : UDP := ⟨0, 0, 0, 0, none⟩

def getSourcePort (u : UDP) : JShort := mask16 u.sourcePort

def setSourcePort (u : UDP) (sourcePort : JShort) : UDP :=
  { u with sourcePort := mask16 sourcePort }

def getDestinationPort (u : UDP) : JShort := mask16 u.destinationPort

def setDestinationPort (u : UDP) (destinationPort : JShort) : UDP :=
  { u with destinationPort := mask16 destinationPort }

def getLength (u : UDP) : JShort := mask16 u.length

/-- The argument is not used: the field keeps its value. -/
def setLength (u : UDP) (_length : JShort) : UDP := { u with length := mask16 u.length }

def getChecksum (u : UDP) : JShort := mask16 u.checksum

def setChecksum (u : UDP) (checksum : JShort) : UDP := { u with checksum := mask16 checksum }

def read : Op UDP := do
  let udp := new
  let udp := udp.setSourcePort (← getShort)
  let udp := udp.setDestinationPort (← getShort)
  let udp := udp.setLength (← getShort)
  let udp := udp.setChecksum (← getShort)
  let nextPacket ← getUpToLimit UDP_HEADER_LENGTH
  pure { udp with nextPacket := some nextPacket }

def newInstanceAt (bytes : Bytes) (offset length : Nat) : Except JavaException UDP :=
  decode read bytes offset length

def newInstance (bytes : Bytes) : Except JavaException UDP := newInstanceAt bytes 0 bytes.length

/-- The bytes, and the object with the length that `toBytes` stores. -/
def toBytes (u : UDP) : Except JavaException (UDP × Bytes) :=
  let size := UDP_HEADER_LENGTH + (u.nextPacket.getD []).length
  encodeWith size do
    putShort u.getSourcePort
    putShort u.getDestinationPort
    let u := { u with length := BitVec.ofNat 16 size }
    putShort u.getLength
    putShort u.getChecksum
    putOptional u.nextPacket
    pure u

theorem read_needs : Needs read 8 :=
  .bind .getShort fun _ => .bind .getShort fun _ => .bind .getShort fun _ =>
    .bind .getShort fun _ => .zero _

theorem read_append (sourcePort destinationPort length checksum : JShort) (pre rest post : Bytes) :
    eval read ⟨pre, shortBytes sourcePort ++ (shortBytes destinationPort ++ (shortBytes length ++
      (shortBytes checksum ++ rest))), post⟩ =
      if pre = [] then
        .ok { new with sourcePort, destinationPort, checksum, nextPacket := some rest }
      else .error .bufferUnderflow := by
  simp [read, new, setSourcePort, setDestinationPort, setLength, setChecksum, UDP_HEADER_LENGTH]

theorem newInstance_append (sourcePort destinationPort length checksum : JShort) (rest : Bytes) :
    newInstance (shortBytes sourcePort ++ (shortBytes destinationPort ++ (shortBytes length ++
      (shortBytes checksum ++ rest)))) =
      .ok { new with sourcePort, destinationPort, checksum, nextPacket := some rest } := by
  rw [newInstance, newInstanceAt, decode_whole,
    read_append sourcePort destinationPort length checksum [] rest [], if_pos rfl]

def bytes (u : UDP) : Bytes :=
  shortBytes u.getSourcePort ++ (shortBytes u.getDestinationPort ++ (shortBytes u.getLength ++
    (shortBytes u.getChecksum ++ u.nextPacket.getD [])))

/-- The length word is computed from the payload and stored. -/
theorem toBytes_eq (u : UDP) :
    u.toBytes = .ok ({ u with length := BitVec.ofNat 16 (8 + (u.nextPacket.getD []).length) },
      bytes { u with length := BitVec.ofNat 16 (8 + (u.nextPacket.getD []).length) }) := by
  have hw : Writes (do
      putShort u.getSourcePort
      putShort u.getDestinationPort
      putShort (mask16 (BitVec.ofNat 16 (8 + (u.nextPacket.getD []).length)))
      putShort u.getChecksum
      putOptional u.nextPacket) (bytes
        { u with length := BitVec.ofNat 16 (8 + (u.nextPacket.getD []).length) }) :=
    .bind (.putShort _) <| .bind (.putShort _) <| .bind (.putShort _) <| .bind (.putShort _)
      (.putOptional _)
  have hlen : (bytes { u with
      length := BitVec.ofNat 16 (8 + (u.nextPacket.getD []).length) }).length =
      8 + (u.nextPacket.getD []).length := by
    simp [bytes]
    omega
  have hrun := hw.encodeWith_exact hlen
    { u with length := BitVec.ofNat 16 (8 + (u.nextPacket.getD []).length) }
  simp only [bind_assoc] at hrun
  exact hrun

theorem headerPayload : HeaderPayload read nextPacket (fixedHeader 8) := by
  refine .of_fixed read_needs fun bytes h => ?_
  obtain ⟨sourcePort, b1, rfl, h1⟩ := exists_short (n := 6) h
  obtain ⟨destinationPort, b2, rfl, h2⟩ := exists_short (n := 4) h1
  obtain ⟨length, b3, rfl, h3⟩ := exists_short (n := 2) h2
  obtain ⟨checksum, rest, rfl, h4⟩ := exists_short (n := 0) h3
  exact ⟨shortBytes sourcePort ++ (shortBytes destinationPort ++ (shortBytes length ++
    shortBytes checksum)), rest, _, by simp, by simp, rfl, fun pre post =>
    read_append sourcePort destinationPort length checksum pre rest post⟩

end UDP

/-- The fields of the abstract class `ICMP`, shared by `ICMPv4` and `ICMPv6`. -/
structure ICMP where
  typeAndCode : Option ICMPTypeAndCode
  checksum : JShort
  nextPacket : Option Bytes
  deriving DecidableEq, Repr

namespace ICMP

def ICMP_HEADER_LENGTH : Nat := 4

def new : ICMP := ⟨none, 0, none⟩

def setTypeAndCode (p : ICMP) (typeAndCode : Option ICMPTypeAndCode) : ICMP :=
  { p with typeAndCode }

def getChecksum (p : ICMP) : JShort := p.checksum

def setChecksum (p : ICMP) (checksum : JShort) : ICMP := { p with checksum }

/-- The body that `ICMPv4.newInstance` and `ICMPv6.newInstance` have in common. -/
def read (R : Registries) : Op ICMP := do
  let icmp := new
  let type ← ByteBuffer.get
  let code ← ByteBuffer.get
  let icmp := icmp.setTypeAndCode (ICMPTypeAndCode.getTypeAndCode R.icmpTypeAndCode type code)
  let icmp := icmp.setChecksum (← getShort)
  let nextPacket ← getUpToLimit ICMP_HEADER_LENGTH
  pure { icmp with nextPacket := some nextPacket }

/-- The header and payload that both `toBytes` put. -/
def write (p : ICMP) (typeAndCode : ICMPTypeAndCode) : Op Unit := do
  put typeAndCode.getType
  put typeAndCode.getCode
  putShort p.getChecksum
  putOptional p.nextPacket

def size (p : ICMP) : Nat := ICMP_HEADER_LENGTH + (p.nextPacket.getD []).length

theorem read_needs (R : Registries) : Needs (read R) 4 :=
  .bind .get fun _ => .bind .get fun _ => .bind .getShort fun _ => .zero _

theorem read_append (R : Registries) (type code : JByte) (checksum : JShort)
    (pre rest post : Bytes) :
    eval (read R) ⟨pre, type :: code :: (shortBytes checksum ++ rest), post⟩ =
      if pre = [] then .ok
        ⟨ICMPTypeAndCode.getTypeAndCode R.icmpTypeAndCode type code, checksum, some rest⟩
      else .error .bufferUnderflow := by
  simp [read, new, setTypeAndCode, setChecksum, ICMP_HEADER_LENGTH]

theorem exists_fields {bytes : Bytes} (h : 4 ≤ bytes.length) :
    ∃ type code checksum rest, bytes = type :: code :: (shortBytes checksum ++ rest) := by
  obtain ⟨type, b1, rfl, h1⟩ := exists_byte (n := 3) h
  obtain ⟨code, b2, rfl, h2⟩ := exists_byte (n := 2) h1
  obtain ⟨checksum, rest, rfl, h3⟩ := exists_short (n := 0) h2
  exact ⟨type, code, checksum, rest, rfl⟩

theorem headerPayload (R : Registries) : HeaderPayload (read R) nextPacket (fixedHeader 4) := by
  refine .of_fixed (read_needs R) fun bytes h => ?_
  obtain ⟨type, code, checksum, rest, rfl⟩ := exists_fields h
  exact ⟨type :: code :: shortBytes checksum, rest, _, by simp, by simp, rfl, fun pre post =>
    read_append R type code checksum pre rest post⟩

end ICMP

abbrev ICMPv4 := ICMP

namespace ICMPv4

def newInstanceAt (R : Registries) (bytes : Bytes) (offset length : Nat) :
    Except JavaException ICMPv4 :=
  decode (ICMP.read R) bytes offset length

def newInstance (R : Registries) (bytes : Bytes) : Except JavaException ICMPv4 :=
  newInstanceAt R bytes 0 bytes.length

/-- The checksum branch of `toBytes`: sum the message and patch it. -/
def writeChecksum (p : ICMPv4) : Op ICMPv4 :=
  if p.getChecksum = 0 then do
    rewind
    let accumulation ← sumShorts (p.size / 2) 0
    let accumulation ← sumOddByte p.size accumulation
    let p := p.setChecksum (foldChecksum accumulation)
    putShortAt 2 p.getChecksum
    pure p
  else pure p

/-- The bytes, and the object with the checksum that `toBytes` stores. -/
def toBytes (p : ICMPv4) : Except JavaException (ICMPv4 × Bytes) :=
  match p.typeAndCode with
  | none => .error .nullPointer
  | some typeAndCode => encodeWith p.size do
    p.write typeAndCode
    p.writeChecksum

def bytes (p : ICMPv4) (typeAndCode : ICMPTypeAndCode) : Bytes :=
  typeAndCode.type :: typeAndCode.code :: (shortBytes p.checksum ++ p.nextPacket.getD [])

theorem write_writes (p : ICMPv4) (typeAndCode : ICMPTypeAndCode) :
    Writes (p.write typeAndCode) (p.bytes typeAndCode) := by
  have h : Writes (p.write typeAndCode) _ :=
    .bind (.put _) <| .bind (.put _) <| .bind (.putShort _) (.putOptional _)
  simpa [bytes, ICMPTypeAndCode.getType, ICMPTypeAndCode.getCode, ICMP.getChecksum] using h

theorem bytes_length (p : ICMPv4) (typeAndCode : ICMPTypeAndCode) :
    (p.bytes typeAndCode).length = p.size := by
  simp [bytes, ICMP.size, ICMP.ICMP_HEADER_LENGTH]
  omega

/-- The sum of the words of the message, the checksum counted as 0. -/
def messageSum (p : ICMPv4) (typeAndCode : ICMPTypeAndCode) : Nat :=
  wordSum (bytes { p with checksum := 0 } typeAndCode)

/-- The checksum that `toBytes` computes. -/
def messageChecksum (p : ICMPv4) (typeAndCode : ICMPTypeAndCode) : JShort :=
  foldChecksum (BitVec.ofNat 32 (p.messageSum typeAndCode))

theorem writeChecksum_eq (p : ICMPv4) (typeAndCode : ICMPTypeAndCode) (h0 : p.getChecksum = 0) :
    p.writeChecksum ⟨p.bytes typeAndCode, [], []⟩ =
      .ok ({ p with checksum := p.messageChecksum typeAndCode },
        ⟨bytes { p with checksum := p.messageChecksum typeAndCode } typeAndCode, [], []⟩) := by
  have hp : { p with checksum := 0 } = p := by
    rw [← h0]
    rfl
  have hlen := bytes_length p typeAndCode
  have hzero : ∀ x : JInt, 0 + x = x := BitVec.zero_add
  have hchecksum : foldChecksum (0 + BitVec.ofNat 32 (wordSum (p.bytes typeAndCode))) =
      p.messageChecksum typeAndCode := by
    rw [hzero, messageChecksum, messageSum, hp]
  have hput := putShortAt_append 2 (p.messageChecksum typeAndCode)
    [typeAndCode.type, typeAndCode.code] (shortBytes p.checksum) (p.nextPacket.getD []) [] [] rfl
    (shortBytes_length _)
  have hsum := sum_bind (fun accumulation => (do
    let p := p.setChecksum (foldChecksum accumulation)
    putShortAt 2 p.getChecksum
    pure p : Op ICMPv4)) p.size 0 [] (p.bytes typeAndCode) [] [] hlen
  rw [List.append_nil, List.nil_append, hchecksum] at hsum
  rw [writeChecksum, if_pos h0, bind_apply]
  simp only [rewind, List.append_nil]
  refine hsum.trans ?_
  simp only [ICMP.setChecksum, ICMP.getChecksum, bind_apply, pure_apply]
  change (match putShortAt 2 (p.messageChecksum typeAndCode) ⟨[typeAndCode.type,
    typeAndCode.code] ++ (shortBytes p.checksum ++ p.nextPacket.getD []), [], []⟩ with
    | .ok (_, b) => Except.ok ({ p with checksum := p.messageChecksum typeAndCode }, b)
    | .error e => .error e) = _
  rw [hput]
  rfl

/-- A first call: the checksum is computed and stored. -/
theorem toBytes_fresh (p : ICMPv4) (typeAndCode : ICMPTypeAndCode)
    (h : p.typeAndCode = some typeAndCode) (h0 : p.getChecksum = 0) :
    p.toBytes = .ok ({ p with checksum := p.messageChecksum typeAndCode },
      bytes { p with checksum := p.messageChecksum typeAndCode } typeAndCode) := by
  have hneg : ¬ (p.size : Int) < 0 := by omega
  have hw := (write_writes p typeAndCode).allocate 0
  rw [Nat.add_zero, bytes_length, List.replicate_zero] at hw
  have hc := writeChecksum_eq p typeAndCode h0
  simp only [toBytes, h, encodeWith, if_neg hneg, Int.toNat_natCast, bind_apply, hw, hc]
  simp [array]

/-- A later call: the stored checksum is written. -/
theorem toBytes_stored (p : ICMPv4) (typeAndCode : ICMPTypeAndCode)
    (h : p.typeAndCode = some typeAndCode) (h0 : p.getChecksum ≠ 0) :
    p.toBytes = .ok (p, p.bytes typeAndCode) := by
  have hneg : ¬ (p.size : Int) < 0 := by omega
  have hw := (write_writes p typeAndCode).allocate 0
  rw [Nat.add_zero, bytes_length, List.replicate_zero] at hw
  simp only [toBytes, h, encodeWith, if_neg hneg, Int.toNat_natCast, bind_apply, hw,
    writeChecksum, if_neg h0, pure_apply]
  simp [array]

/-- The object keeps the checksum that stands in the bytes; nothing else of it changes. -/
theorem toBytes_eq (p : ICMPv4) (typeAndCode : ICMPTypeAndCode)
    (h : p.typeAndCode = some typeAndCode) :
    ∃ c, p.toBytes = .ok ({ p with checksum := c },
      bytes { p with checksum := c } typeAndCode) := by
  by_cases h0 : p.getChecksum = 0
  · exact ⟨_, toBytes_fresh p typeAndCode h h0⟩
  · exact ⟨p.checksum, toBytes_stored p typeAndCode h h0⟩

/-- The numbers of the type, the checksum, and the payload with null counted as empty. -/
structure SameFields (p p' : ICMPv4) : Prop where
  typeAndCode : p'.typeAndCode.map ICMPTypeAndCode.getKey =
    p.typeAndCode.map ICMPTypeAndCode.getKey
  checksum : p'.getChecksum = p.getChecksum
  payload : p'.nextPacket.getD [] = p.nextPacket.getD []

theorem newInstance_append (R : Registries) (type code : JByte) (checksum : JShort)
    (rest : Bytes) :
    newInstance R (type :: code :: (shortBytes checksum ++ rest)) =
      .ok ⟨ICMPTypeAndCode.getTypeAndCode R.icmpTypeAndCode type code, checksum, some rest⟩ := by
  rw [newInstance, newInstanceAt, decode_whole,
    ICMP.read_append R type code checksum [] rest [], if_pos rfl]

theorem newInstance_bytes (R : Registries) (p : ICMPv4) (typeAndCode : ICMPTypeAndCode)
    (h : p.typeAndCode = some typeAndCode)
    (hk : HashMap.Keyed ICMPTypeAndCode.getKey R.icmpTypeAndCode)
    (hr : R.icmpTypeAndCode.containsKey typeAndCode.getKey = true) :
    ∃ p', newInstance R (p.bytes typeAndCode) = .ok p' ∧ SameFields p p' := by
  rw [HashMap.containsKey_eq] at hr
  obtain ⟨found, hfound⟩ := Option.isSome_iff_exists.mp hr
  have hkey := hk _ _ hfound
  have hget : ICMPTypeAndCode.getTypeAndCode R.icmpTypeAndCode typeAndCode.type
      typeAndCode.code = found := by
    change (R.icmpTypeAndCode.get typeAndCode.getKey).getD _ = found
    rw [hfound]
    rfl
  refine ⟨_, newInstance_append R _ _ _ _, ⟨?_, rfl, rfl⟩⟩
  simp [h, hget, hkey]

end ICMPv4

abbrev ICMPv6 := ICMP

namespace ICMPv6

def newInstanceAt (R : Registries) (bytes : Bytes) (offset length : Nat) :
    Except JavaException ICMPv6 :=
  decode (ICMP.read R) bytes offset length

def newInstance (R : Registries) (bytes : Bytes) : Except JavaException ICMPv6 :=
  newInstanceAt R bytes 0 bytes.length

def toBytes (p : ICMPv6) : Except JavaException Bytes :=
  match p.typeAndCode with
  | none => .error .nullPointer
  | some typeAndCode => encode p.size (p.write typeAndCode)

/-- The two versions read alike. -/
theorem newInstance_eq (R : Registries) (bytes : Bytes) :
    newInstance R bytes = ICMPv4.newInstance R bytes := rfl

/-- The stored checksum is written, also where it is 0. -/
theorem toBytes_eq (p : ICMPv6) (typeAndCode : ICMPTypeAndCode)
    (h : p.typeAndCode = some typeAndCode) :
    toBytes p = .ok (ICMPv4.bytes p typeAndCode) := by
  simp only [toBytes, h]
  exact (ICMPv4.write_writes p typeAndCode).encode_exact (ICMPv4.bytes_length p typeAndCode)

end ICMPv6

end Jxnet
