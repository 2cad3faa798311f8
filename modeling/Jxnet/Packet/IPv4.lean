import Jxnet.Framework.Checksum
import Jxnet.Packet.Registry

namespace Jxnet

open Java ByteBuffer

/-- `setDiffServ` stores the old value again, so the field keeps the constructor's 0. -/
structure IPv4 where
  version : JByte
  headerLength : JByte
  diffServ : JByte
  expCon : JByte
  totalLength : JShort
  identification : JShort
  flags : JByte
  fragmentOffset : JShort
  ttl : JByte
  protocol : IPProtocolType
  checksum : JShort
  sourceAddress : Inet4Address
  destinationAddress : Inet4Address
  options : Option Bytes
  nextPacket : Option Bytes
  diffServ_eq : diffServ = 0
  deriving DecidableEq, Repr

namespace IPv4

def IPV4_HEADER_LENGTH : Nat := 20

/-- The constructor. -/
def new : IPv4 where
  version := 4
  headerLength := 5
  diffServ := 0
  expCon := 0
  totalLength := 0
  identification := 0
  flags := 2
  fragmentOffset := 0
  ttl := 0
  protocol := IPProtocolType.UNKNOWN
  checksum := 0
  sourceAddress := Inet4Address.LOCALHOST
  destinationAddress := Inet4Address.LOCALHOST
  options := none
  nextPacket := none
  diffServ_eq := rfl

def getVersion (p : IPv4) : JByte := toByte (promote p.version &&& 0xf#32)

def setVersion (p : IPv4) (version : JByte) : IPv4 :=
  { p with version := toByte (promote version &&& 0xf#32) }

def getHeaderLength (p : IPv4) : JByte := toByte (promote p.headerLength &&& 0xf#32)

def setHeaderLength (p : IPv4) (headerLength : JByte) : IPv4 :=
  { p with headerLength := toByte (promote headerLength &&& 0xf#32) }

def getDiffServ (p : IPv4) : JByte := toByte (promote p.diffServ &&& 0x3f#32)

def setDiffServ (p : IPv4) (_diffServ : JByte) : IPv4 :=
  { p with
    diffServ := toByte (promote p.diffServ &&& 0x3f#32)
    diffServ_eq := by simp [p.diffServ_eq] }

def getExpCon (p : IPv4) : JByte := toByte (promote p.expCon &&& 0x3#32)

def setExpCon (p : IPv4) (expCon : JByte) : IPv4 :=
  { p with expCon := toByte (promote expCon &&& 0x3#32) }

def getTotalLength (p : IPv4) : JShort := mask16 p.totalLength

def setTotalLength (p : IPv4) (totalLength : JShort) : IPv4 :=
  { p with totalLength := mask16 totalLength }

def getIdentification (p : IPv4) : JShort := mask16 p.identification

def setIdentification (p : IPv4) (identification : JShort) : IPv4 :=
  { p with identification := mask16 identification }

def getFlags (p : IPv4) : JByte := toByte (promote p.flags &&& 0x7#32)

def setFlags (p : IPv4) (flags : JByte) : IPv4 :=
  { p with flags := toByte (promote flags &&& 0x7#32) }

def getFragmentOffset (p : IPv4) : JShort := toShort (promote p.fragmentOffset &&& 0x1fff#32)

def setFragmentOffset (p : IPv4) (fragmentOffset : JShort) : IPv4 :=
  { p with fragmentOffset := toShort (promote fragmentOffset &&& 0x1fff#32) }

def getTtl (p : IPv4) : JByte := mask8 p.ttl

def setTtl (p : IPv4) (ttl : JByte) : IPv4 := { p with ttl := mask8 ttl }

def getChecksum (p : IPv4) : JShort := mask16 p.checksum

/-- The argument is not used: the field keeps its value. -/
def setChecksum (p : IPv4) (_checksum : JShort) : IPv4 := { p with checksum := mask16 p.checksum }

/-- The options and payload of `newInstance`. -/
def readOptions (ipv4 : IPv4) : Op IPv4 := do
  if ipv4.getHeaderLength.toInt > 5 then
    let optionsLength := (ipv4.getHeaderLength.toInt - 5) * 4
    let options ← getArray optionsLength
    let nextPacket ← getUpToLimit (optionsLength.toNat + IPV4_HEADER_LENGTH)
    pure { ipv4 with options := some options, nextPacket := some nextPacket }
  else
    let nextPacket ← getUpToLimit IPV4_HEADER_LENGTH
    pure { ipv4 with nextPacket := some nextPacket }

def read (R : Registries) : Op IPv4 := do
  let ipv4 := { new with version := ← ByteBuffer.get }
  let ipv4 := ipv4.setHeaderLength (toByte (promote ipv4.version &&& 0xf#32))
  let ipv4 := ipv4.setVersion (toByte ((promote ipv4.version).sshiftRight 4 &&& 0xf#32))
  let tmp ← ByteBuffer.get
  let ipv4 := ipv4.setDiffServ (toByte ((promote tmp).sshiftRight 2 &&& 0x3f#32))
  let ipv4 := ipv4.setExpCon (toByte (promote tmp &&& 0x3#32))
  let ipv4 := ipv4.setTotalLength (← getShort)
  let ipv4 := ipv4.setIdentification (← getShort)
  let sscratch ← getShort
  let ipv4 := ipv4.setFlags (toByte ((promote sscratch).sshiftRight 13 &&& 0x7#32))
  let ipv4 := ipv4.setFragmentOffset (toShort (promote sscratch &&& 0x1fff#32))
  let ipv4 := ipv4.setTtl (← ByteBuffer.get)
  let ipv4 := { ipv4 with
    protocol := IPProtocolType.getInstance R.ipProtocolType (← ByteBuffer.get) }
  let ipv4 := ipv4.setChecksum (← getShort)
  let sourceAddress ← Address.read Inet4Address.IPV4_ADDRESS_LENGTH
  let destinationAddress ← Address.read Inet4Address.IPV4_ADDRESS_LENGTH
  readOptions { ipv4 with sourceAddress, destinationAddress }

def newInstanceAt (R : Registries) (bytes : Bytes) (offset length : Nat) :
    Except JavaException IPv4 :=
  decode (read R) bytes offset length

def newInstance (R : Registries) (bytes : Bytes) : Except JavaException IPv4 :=
  newInstanceAt R bytes 0 bytes.length

/-- The version byte, the service byte and the fragment word as `toBytes` composes them. -/
def versionByte (p : IPv4) : JByte :=
  toByte ((promote p.getVersion &&& 0xf#32) <<< 4 ||| (promote p.getHeaderLength &&& 0xf#32))

def serviceByte (p : IPv4) : JByte :=
  toByte ((promote p.getDiffServ <<< 2 &&& 0x3f#32) ||| (promote p.getExpCon &&& 0x3#32))

def fragmentWord (p : IPv4) : JShort :=
  toShort ((promote p.getFlags &&& 0x7#32) <<< 13 ||| (promote p.getFragmentOffset &&& 0x1fff#32))

def writeHeader (p : IPv4) : Op Unit := do
  put p.versionByte
  put p.serviceByte
  putShort p.getTotalLength
  putShort p.getIdentification
  putShort p.fragmentWord
  put p.getTtl
  put p.protocol.value
  putShort ((toByte (promote p.getChecksum &&& 0xffff#32)).signExtend 16)
  putBytes p.sourceAddress.toBytes
  putBytes p.destinationAddress.toBytes
  (if p.getHeaderLength.toInt > 5 then putOptional p.options else pure ())

/-- The checksum branch of `toBytes`: sum the header and patch it. -/
def writeChecksum (p : IPv4) : Op IPv4 :=
  if p.getChecksum = 0 then do
    rewind
    let accumulation ← sumShorts (p.getHeaderLength.toNat * 2) 0
    let p := { p with checksum := foldChecksum accumulation }
    putShortAt 10 (mask16 p.getChecksum)
    pure p
  else pure p

/-- The object with the two lengths that `toBytes` stores before it writes. -/
def setLengths (p : IPv4) : IPv4 :=
  let optionsLength := (p.options.getD []).length / 4
  let p := p.setHeaderLength (BitVec.ofNat 8 (5 + optionsLength))
  p.setTotalLength
    (BitVec.ofNat 16 (p.getHeaderLength.toNat * 4 + (p.nextPacket.getD []).length))

/-- The bytes, and the object with the lengths and the checksum that `toBytes` stores. -/
def toBytes (p : IPv4) : Except JavaException (IPv4 × Bytes) :=
  encodeWith p.setLengths.getTotalLength.toInt do
    p.setLengths.writeHeader
    let p ← p.setLengths.writeChecksum
    putOptional p.nextPacket
    pure p

section Decode

variable (R : Registries)

theorem getHeaderLength_toInt (p : IPv4) :
    p.getHeaderLength.toInt = p.getHeaderLength.toNat := by
  simpa [getHeaderLength] using and_15_toInt p.headerLength

theorem getHeaderLength_le (p : IPv4) : p.getHeaderLength.toNat ≤ 15 := by
  simpa [getHeaderLength] using and_15_le p.headerLength

/-- The bytes of options that a header length stands for. -/
def optionsSize (p : IPv4) : Nat := 4 * p.getHeaderLength.toNat - 20

theorem readOptions_append (ipv4 : IPv4) (pre hdr options rest post : Bytes)
    (h : hdr.length = 20) (ho : options.length = ipv4.optionsSize) :
    eval (readOptions ipv4) ⟨pre ++ hdr, options ++ rest, post⟩ =
      if pre = [] then .ok { ipv4 with
        options := if ipv4.getHeaderLength.toNat > 5 then some options else ipv4.options
        nextPacket := some rest }
      else .error .bufferUnderflow := by
  have hint := getHeaderLength_toInt ipv4
  by_cases h5 : ipv4.getHeaderLength.toNat > 5
  · have h5' : ipv4.getHeaderLength.toInt > 5 := by omega
    have hsize : (ipv4.getHeaderLength.toInt - 5) * 4 = (ipv4.optionsSize : Int) := by
      rw [optionsSize]
      omega
    have hhdr : (hdr ++ options).length = ipv4.optionsSize + IPV4_HEADER_LENGTH := by
      simp [h, ho, IPV4_HEADER_LENGTH]
      omega
    simp only [readOptions, if_pos h5', if_pos h5, eval_bind, hsize, getArray_natCast,
      getBytes_append (pre ++ hdr) post options rest _ ho, Int.toNat_natCast, List.append_assoc,
      getUpToLimit_apply pre (hdr ++ options) rest post _ hhdr]
    by_cases hp : pre = [] <;> simp [hp]
  · have h5' : ¬ ipv4.getHeaderLength.toInt > 5 := by omega
    have hnil : options = [] := List.eq_nil_of_length_eq_zero (by rw [ho, optionsSize]; omega)
    simp [readOptions, h5, h5', hnil, h, IPV4_HEADER_LENGTH]

theorem readOptions_short (ipv4 : IPv4) (pre rest post : Bytes)
    (h : rest.length < ipv4.optionsSize) :
    eval (readOptions ipv4) ⟨pre, rest, post⟩ = .error .bufferUnderflow := by
  have hint := getHeaderLength_toInt ipv4
  have h5' : ipv4.getHeaderLength.toInt > 5 := by
    rw [optionsSize] at h
    omega
  have hsize : (ipv4.getHeaderLength.toInt - 5) * 4 = (ipv4.optionsSize : Int) := by
    rw [optionsSize]
    omega
  simp only [readOptions, if_pos h5', eval_bind, hsize, getArray_natCast]
  rw [getBytes, if_neg (by simpa using h)]

theorem read_needs : Needs (read R) 20 :=
  .bind .get fun _ => .bind .get fun _ => .bind .getShort fun _ => .bind .getShort fun _ =>
    .bind .getShort fun _ => .bind .get fun _ => .bind .get fun _ => .bind .getShort fun _ =>
      .bind (Address.read_consumes 4) fun _ => .bind (Address.read_consumes 4) fun _ => .zero _

/-- What the fixed header decodes to. -/
def ofHeader (version tos : JByte) (totalLength identification sscratch : JShort)
    (ttl protocol : JByte) (sourceAddress destinationAddress : Inet4Address) : IPv4 :=
  { new with
    version := toByte ((promote version).sshiftRight 4) &&& 15#8
    headerLength := version &&& 15#8
    expCon := tos &&& 3#8
    totalLength
    identification
    flags := toByte ((promote sscratch).sshiftRight 13) &&& 7#8
    fragmentOffset := sscratch &&& 0x1fff#16
    ttl
    protocol := IPProtocolType.getInstance R.ipProtocolType protocol
    sourceAddress
    destinationAddress }

theorem read_append (version tos : JByte) (totalLength identification sscratch : JShort)
    (ttl protocol : JByte) (checksum : JShort) (sourceAddress destinationAddress : Inet4Address)
    (pre rest post : Bytes) :
    eval (read R) ⟨pre, version :: tos :: (shortBytes totalLength ++ (shortBytes identification ++
      (shortBytes sscratch ++ (ttl :: protocol :: (shortBytes checksum ++
        (sourceAddress.toBytes ++ (destinationAddress.toBytes ++ rest))))))), post⟩ =
      eval (readOptions (ofHeader R version tos totalLength identification sscratch ttl protocol
        sourceAddress destinationAddress)) ⟨pre ++ (version :: tos :: (shortBytes totalLength ++
          (shortBytes identification ++ (shortBytes sscratch ++ (ttl :: protocol ::
            (shortBytes checksum ++ (sourceAddress.toBytes ++ destinationAddress.toBytes))))))),
        rest, post⟩ := by
  simp [read, new, ofHeader, setHeaderLength, setVersion, setDiffServ, setExpCon, setTotalLength,
    setIdentification, setFlags, setFragmentOffset, setTtl, setChecksum,
    Inet4Address.IPV4_ADDRESS_LENGTH]

/-- The header length nibble decides, except where it is below the minimum. -/
def headerSize (bytes : Bytes) : Nat := max 20 (4 * (byteAt bytes 0 &&& 15#8).toNat)

def header (bytes : Bytes) : Except JavaException Nat := fixedHeader (headerSize bytes) bytes

theorem ofHeader_optionsSize (version tos : JByte)
    (totalLength identification sscratch : JShort) (ttl protocol : JByte)
    (sourceAddress destinationAddress : Inet4Address) (rest : Bytes) :
    20 + (ofHeader R version tos totalLength identification sscratch ttl protocol sourceAddress
      destinationAddress).optionsSize = headerSize (version :: rest) := by
  have h : (ofHeader R version tos totalLength identification sscratch ttl protocol sourceAddress
      destinationAddress).getHeaderLength = version &&& 15#8 := by
    simp [getHeaderLength, ofHeader]
  rw [optionsSize, h, headerSize, byteAt, List.getD_cons_zero]
  omega

theorem exists_fields {bytes : Bytes} (h : 20 ≤ bytes.length) :
    ∃ (version tos : JByte) (totalLength identification sscratch : JShort) (ttl protocol : JByte)
      (checksum : JShort) (source destination : Inet4Address) (rest : Bytes),
      bytes = version :: tos :: (shortBytes totalLength ++ (shortBytes identification ++
        (shortBytes sscratch ++ (ttl :: protocol :: (shortBytes checksum ++
          (source.toBytes ++ (destination.toBytes ++ rest))))))) := by
  obtain ⟨version, b1, rfl, h1⟩ := exists_byte (n := 19) h
  obtain ⟨tos, b2, rfl, h2⟩ := exists_byte (n := 18) h1
  obtain ⟨totalLength, b3, rfl, h3⟩ := exists_short (n := 16) h2
  obtain ⟨identification, b4, rfl, h4⟩ := exists_short (n := 14) h3
  obtain ⟨sscratch, b5, rfl, h5⟩ := exists_short (n := 12) h4
  obtain ⟨ttl, b6, rfl, h6⟩ := exists_byte (n := 11) h5
  obtain ⟨protocol, b7, rfl, h7⟩ := exists_byte (n := 10) h6
  obtain ⟨checksum, b8, rfl, h8⟩ := exists_short (n := 8) h7
  obtain ⟨source, b9, rfl, h9⟩ := Address.exists_toBytes (n := 4) (k := 4) h8
  obtain ⟨destination, rest, rfl, h10⟩ := Address.exists_toBytes (n := 4) (k := 0) h9
  exact ⟨version, tos, totalLength, identification, sscratch, ttl, protocol, checksum, source,
    destination, rest, rfl⟩

theorem headerPayload : HeaderPayload (read R) nextPacket header := by
  refine .of_cases fun bytes => ?_
  by_cases h : 20 ≤ bytes.length
  · obtain ⟨version, tos, totalLength, identification, sscratch, ttl, protocol, checksum, source,
      destination, rest, rfl⟩ := exists_fields h
    have hsize := ofHeader_optionsSize R version tos totalLength identification sscratch ttl
      protocol source destination (tos :: (shortBytes totalLength ++ (shortBytes identification ++
        (shortBytes sscratch ++ (ttl :: protocol :: (shortBytes checksum ++
          (source.toBytes ++ (destination.toBytes ++ rest))))))))
    by_cases ho : (ofHeader R version tos totalLength identification sscratch ttl protocol source
        destination).optionsSize ≤ rest.length
    · obtain ⟨options, payload, rfl, hl, -⟩ := exists_chunk _ (n := 0) (by simpa using ho)
      refine .inr ⟨(version :: tos :: (shortBytes totalLength ++ (shortBytes identification ++
        (shortBytes sscratch ++ (ttl :: protocol :: (shortBytes checksum ++
          (source.toBytes ++ destination.toBytes))))))) ++ options, payload, _, by simp, ?_, rfl,
        fun pre post => (read_append R _ _ _ _ _ _ _ _ _ _ pre _ post).trans
          (readOptions_append _ pre _ options payload post (by simp) hl)⟩
      rw [header, fixedHeader, ← hsize, if_pos]
      · simp
        omega
      · simp
        omega
    · refine .inl ⟨.bufferUnderflow, ?_, fun pre post =>
        (read_append R _ _ _ _ _ _ _ _ _ _ pre _ post).trans
          (readOptions_short _ _ rest post (by omega))⟩
      rw [header, fixedHeader, ← hsize, if_neg]
      simp
      omega
  · refine .inl ⟨.bufferUnderflow, ?_,
      fun pre post => (read_needs R).eval pre bytes post (by omega)⟩
    rw [header, fixedHeader, if_neg]
    have h20 : 20 ≤ headerSize bytes := Nat.le_max_left _ _
    omega

end Decode

section Encode

/-- The header bytes in front of the checksum and behind it. -/
def headerFront (p : IPv4) : Bytes :=
  p.versionByte :: p.serviceByte :: (shortBytes p.getTotalLength ++
    (shortBytes p.getIdentification ++ (shortBytes p.fragmentWord ++ [p.getTtl, p.protocol.value])))

def headerBack (p : IPv4) : Bytes :=
  p.sourceAddress.toBytes ++ (p.destinationAddress.toBytes ++
    (if p.getHeaderLength.toInt > 5 then p.options.getD [] else []))

def headerBytes (p : IPv4) (checksum : JShort) : Bytes :=
  p.headerFront ++ (shortBytes checksum ++ p.headerBack)

theorem headerFront_length (p : IPv4) : p.headerFront.length = 10 := by
  simp [headerFront]

/-- The size that the header length stands for. -/
def declaredSize (p : IPv4) : Nat := 4 * p.getHeaderLength.toNat

/-- The number of header bytes that `toBytes` puts. -/
def writtenSize (p : IPv4) : Nat :=
  20 + if p.getHeaderLength.toInt > 5 then (p.options.getD []).length else 0

theorem headerBytes_length_eq (p : IPv4) (w : JShort) :
    (p.headerBytes w).length = p.writtenSize := by
  rw [headerBytes, headerBack, writtenSize]
  by_cases h5 : p.getHeaderLength.toInt > 5
  · simp [headerFront_length, h5]
    omega
  · simp [headerFront_length, h5]

theorem writeHeader_puts (p : IPv4) : Puts p.writeHeader
    (p.headerBytes ((toByte (promote p.getChecksum &&& 0xffff#32)).signExtend 16)) := by
  have h : Puts p.writeHeader _ :=
    .bind (.put _) <| .bind (.put _) <| .bind (.putShort _) <| .bind (.putShort _) <|
      .bind (.putShort _) <| .bind (.put _) <| .bind (.put _) <| .bind (.putShort _) <|
        .bind (.putBytes _) <| .bind (.putBytes _) <| .ite (.putOptional _)
  simpa [headerBytes, headerFront, headerBack] using h

/-- The sum of the words that the header length covers, the checksum counted as 0. -/
def headerSum (p : IPv4) : Nat := wordSum ((p.headerBytes 0).take p.declaredSize)

/-- The checksum that `toBytes` computes. -/
def headerChecksum (p : IPv4) : JShort := foldChecksum (BitVec.ofNat 32 p.headerSum)

/-- At most thirty words. -/
theorem headerSum_lt (p : IPv4) : p.headerSum < 2 ^ 32 := by
  have hle := wordSum_le ((p.headerBytes 0).take p.declaredSize)
  have hnibble := getHeaderLength_le p
  have hlen : ((p.headerBytes 0).take p.declaredSize).length ≤ 60 := by
    rw [List.length_take, declaredSize]
    omega
  rw [headerSum]
  omega

/-- The checksum branch patches the checksum of the object and of the header, and leaves the
position behind the declared size. -/
theorem writeChecksum_eq (p : IPv4) (rest after : Bytes) (h0 : p.getChecksum = 0)
    (h : p.declaredSize ≤ p.writtenSize) :
    p.writeChecksum ⟨p.headerBytes 0, rest, after⟩ =
      .ok ({ p with checksum := p.headerChecksum },
        ⟨(p.headerBytes p.headerChecksum).take p.declaredSize,
          (p.headerBytes p.headerChecksum).drop p.declaredSize ++ rest, after⟩) := by
  have hlen := p.headerBytes_length_eq
  have htake : ((p.headerBytes 0).take p.declaredSize).length =
      2 * (p.getHeaderLength.toNat * 2) := by
    rw [List.length_take, hlen, Nat.min_eq_left h, declaredSize]
    omega
  have hsplit : p.headerBytes 0 ++ rest = (p.headerBytes 0).take p.declaredSize ++
      ((p.headerBytes 0).drop p.declaredSize ++ rest) := by
    rw [← List.append_assoc, List.take_append_drop]
  have hsum := sumShorts_eq (p.getHeaderLength.toNat * 2) 0 [] _
    ((p.headerBytes 0).drop p.declaredSize ++ rest) after htake
  have hzero : ∀ x : JInt, 0 + x = x := BitVec.zero_add
  rw [List.nil_append, hzero] at hsum
  have hsize : ((p.headerBytes 0).take p.declaredSize).length = p.declaredSize := by
    rw [List.length_take, hlen, Nat.min_eq_left h]
  have hbuffer : (p.headerBytes 0).take p.declaredSize ++
      ((p.headerBytes 0).drop p.declaredSize ++ rest) =
        p.headerFront ++ (shortBytes 0 ++ (p.headerBack ++ rest)) := by
    rw [← hsplit, headerBytes, List.append_assoc, List.append_assoc]
  have hput := putShortAt_eq 10 p.headerChecksum
    ⟨(p.headerBytes 0).take p.declaredSize, (p.headerBytes 0).drop p.declaredSize ++ rest, after⟩
    p.headerFront (shortBytes 0) (p.headerBack ++ rest) hbuffer p.headerFront_length
    (shortBytes_length 0)
  have hpatched : p.headerFront ++ (shortBytes p.headerChecksum ++ (p.headerBack ++ rest)) =
      p.headerBytes p.headerChecksum ++ rest := by
    rw [headerBytes, List.append_assoc, List.append_assoc]
  have hle : p.declaredSize ≤ (p.headerBytes p.headerChecksum).length := by
    rw [hlen]
    exact h
  rw [hpatched, position, hsize, List.take_append_of_le_length hle,
    List.drop_append_of_le_length hle] at hput
  have hchecksum : foldChecksum (BitVec.ofNat 32 (wordSum ((p.headerBytes 0).take
      p.declaredSize))) = p.headerChecksum := rfl
  rw [writeChecksum, if_pos h0]
  simp only [bind_apply, rewind, hsplit, hsum, hchecksum, getChecksum, mask16_eq, hput, pure_apply]

theorem setLengths_declaredSize_le (p : IPv4) :
    p.setLengths.declaredSize ≤ p.setLengths.writtenSize := by
  have hint := getHeaderLength_toInt p.setLengths
  have hopt : p.setLengths.options = p.options := rfl
  have hh : p.setLengths.getHeaderLength =
      BitVec.ofNat 8 (5 + (p.options.getD []).length / 4) &&& 15#8 := by
    simp [setLengths, setHeaderLength, setTotalLength, getHeaderLength]
  have hle : p.setLengths.getHeaderLength.toNat ≤ 5 + (p.options.getD []).length / 4 := by
    rw [hh, BitVec.toNat_and, BitVec.toNat_ofNat]
    exact Nat.and_le_left.trans (Nat.mod_le _ _)
  rw [declaredSize, writtenSize, hopt]
  split <;> omega

theorem setLengths_getTotalLength (p : IPv4) :
    p.setLengths.getTotalLength =
      BitVec.ofNat 16 (p.setLengths.declaredSize + (p.nextPacket.getD []).length) := by
  simp [setLengths, setTotalLength, getTotalLength, getHeaderLength, setHeaderLength, declaredSize,
    Nat.mul_comm]

/-- The lengths are a function of the options and the payload. -/
theorem setLengths_setLengths (p : IPv4) : p.setLengths.setLengths = p.setLengths := by
  simp [setLengths, setHeaderLength, setTotalLength, getHeaderLength]

/-- The sizes with which `toBytes` returns: the total length fits a signed `short`, and the
header that is written fits the total length. -/
structure Fits (p : IPv4) : Prop where
  total : p.setLengths.getTotalLength.toInt =
    ((p.setLengths.declaredSize + (p.nextPacket.getD []).length : Nat) : Int)
  written : p.setLengths.writtenSize ≤ p.setLengths.declaredSize + (p.nextPacket.getD []).length

/-- Options in whole words, at most ten, and a total length that a signed `short` holds. -/
structure Encodable (p : IPv4) : Prop where
  words : 4 ∣ (p.options.getD []).length
  options_le : (p.options.getD []).length ≤ 40
  length_le : 20 + (p.options.getD []).length + (p.nextPacket.getD []).length ≤ 32767

theorem setLengths_headerLength (p : IPv4) (h : p.Encodable) :
    4 * p.setLengths.getHeaderLength.toNat = 20 + (p.options.getD []).length := by
  obtain ⟨k, hk⟩ := h.words
  have hle := h.options_le
  have hd : (p.options.getD []).length / 4 = k := by omega
  have hh : p.setLengths.getHeaderLength = BitVec.ofNat 8 (5 + k) &&& 15#8 := by
    simp [setLengths, setHeaderLength, setTotalLength, getHeaderLength, hd]
  have hn : (BitVec.ofNat 8 (5 + k) &&& 15#8).toNat = 5 + k := by
    have hk10 : k ≤ 10 := by omega
    clear hk hd hh
    interval_cases k <;> rfl
  rw [hh, hn]
  omega

theorem setLengths_totalLength (p : IPv4) (h : p.Encodable) :
    p.setLengths.getTotalLength.toInt =
      ((20 + (p.options.getD []).length + (p.nextPacket.getD []).length : Nat) : Int) := by
  have hh := setLengths_headerLength p h
  have hle := h.length_le
  have ht : p.setLengths.getTotalLength = BitVec.ofNat 16
      (p.setLengths.getHeaderLength.toNat * 4 + (p.nextPacket.getD []).length) := by
    simp [setLengths, setTotalLength, getTotalLength, getHeaderLength, setHeaderLength]
  rw [ht, Nat.mul_comm, hh, BitVec.toInt_ofNat', Int.bmod_def]
  omega

theorem headerBytes_length (p : IPv4) (h : p.Encodable) (w : JShort) :
    (p.setLengths.headerBytes w).length = 20 + (p.options.getD []).length := by
  have hh := setLengths_headerLength p h
  have hint := getHeaderLength_toInt p.setLengths
  have hopt : p.setLengths.options = p.options := rfl
  by_cases h5 : p.setLengths.getHeaderLength.toInt > 5
  · simp [headerBytes, headerFront_length, headerBack, h5, hopt]
    omega
  · have h0 : (p.options.getD []).length = 0 := by omega
    simp [headerBytes, headerFront_length, headerBack, h5, h0]

/-- A header that is written and found to fit. -/
private theorem run_header (p : IPv4) (hT : p.Fits) :
    p.setLengths.writeHeader (allocate p.setLengths.getTotalLength.toInt.toNat) =
      .ok ((), ⟨p.setLengths.headerBytes
        ((toByte (promote p.setLengths.getChecksum &&& 0xffff#32)).signExtend 16),
        List.replicate (p.setLengths.declaredSize + (p.nextPacket.getD []).length -
          p.setLengths.writtenSize) 0, []⟩) := by
  have hlen := p.setLengths.headerBytes_length_eq
    ((toByte (promote p.setLengths.getChecksum &&& 0xffff#32)).signExtend 16)
  have hsum : p.setLengths.declaredSize + (p.nextPacket.getD []).length =
      (p.setLengths.headerBytes
        ((toByte (promote p.setLengths.getChecksum &&& 0xffff#32)).signExtend 16)).length +
        (p.setLengths.declaredSize + (p.nextPacket.getD []).length -
          p.setLengths.writtenSize) := by
    have hfit := hT.written
    omega
  rw [hT.total, Int.toNat_natCast]
  conv_lhs => rw [hsum]
  exact p.setLengths.writeHeader_puts.writes.allocate _

/-- The object that a first call leaves. -/
def stored (p : IPv4) : IPv4 := { p.setLengths with checksum := p.setLengths.headerChecksum }

/-- A first call: the checksum is computed and stored. -/
theorem toBytes_fresh (p : IPv4) (h0 : p.setLengths.getChecksum = 0) (hT : p.Fits) :
    p.toBytes = .ok (p.stored,
      (p.setLengths.headerBytes p.setLengths.headerChecksum).take p.setLengths.declaredSize ++
        p.nextPacket.getD []) := by
  have hneg : ¬ p.setLengths.getTotalLength.toInt < 0 := by
    rw [hT.total]
    omega
  have hrun := run_header p hT
  have hw : (toByte (promote (0 : JShort) &&& 0xffff#32)).signExtend 16 = (0 : JShort) := by decide
  rw [h0, hw] at hrun
  have hsum := p.setLengths.writeChecksum_eq (List.replicate (p.setLengths.declaredSize +
    (p.nextPacket.getD []).length - p.setLengths.writtenSize) 0) [] h0
    p.setLengths_declaredSize_le
  have hrest : ((p.setLengths.headerBytes p.setLengths.headerChecksum).drop
      p.setLengths.declaredSize ++ List.replicate (p.setLengths.declaredSize +
        (p.nextPacket.getD []).length - p.setLengths.writtenSize) (0 : JByte)).length =
      (p.nextPacket.getD []).length := by
    have hle := p.setLengths_declaredSize_le
    have hfit := hT.written
    rw [List.length_append, List.length_drop, List.length_replicate, headerBytes_length_eq]
    omega
  have hput := Writes.putOptional p.nextPacket ⟨(p.setLengths.headerBytes
    p.setLengths.headerChecksum).take p.setLengths.declaredSize, _, []⟩ (Nat.le_of_eq hrest.symm)
  have hnext : p.setLengths.nextPacket = p.nextPacket := rfl
  have hnil := List.drop_eq_nil_of_le (Nat.le_of_eq hrest)
  rw [toBytes, encodeWith, if_neg hneg]
  simp only [bind_apply, hrun, hsum, hnext, hput, pure_apply, hnil]
  refine congrArg Except.ok (Prod.ext rfl ?_)
  simp [array]

/-- A later call: the low byte of the stored checksum is written, sign-extended. -/
theorem toBytes_stored (p : IPv4) (h0 : p.setLengths.getChecksum ≠ 0) (hT : p.Fits)
    (hfill : p.setLengths.writtenSize = p.setLengths.declaredSize) :
    p.toBytes = .ok (p.setLengths, p.setLengths.headerBytes
      ((toByte (promote p.setLengths.getChecksum &&& 0xffff#32)).signExtend 16) ++
        p.nextPacket.getD []) := by
  have hneg : ¬ p.setLengths.getTotalLength.toInt < 0 := by
    rw [hT.total]
    omega
  have hrun := run_header p hT
  have hk : p.setLengths.declaredSize + (p.nextPacket.getD []).length -
      p.setLengths.writtenSize = (p.nextPacket.getD []).length := by omega
  rw [hk] at hrun
  have hput := Writes.putOptional p.nextPacket ⟨p.setLengths.headerBytes ((toByte (promote
    p.setLengths.getChecksum &&& 0xffff#32)).signExtend 16),
    List.replicate (p.nextPacket.getD []).length 0, []⟩ (by simp)
  have hnext : p.setLengths.nextPacket = p.nextPacket := rfl
  rw [toBytes, encodeWith, if_neg hneg]
  simp only [bind_apply, hrun, writeChecksum, if_neg h0, hnext, hput, pure_apply]
  simp [array]

/-- The buffer of the header, when writing it does not overflow. -/
private theorem exists_room (p : IPv4) {r : IPv4 × Bytes} (h : p.toBytes = .ok r) :
    ∃ k : Nat, p.setLengths.getTotalLength.toInt = ((p.setLengths.writtenSize + k : Nat) : Int) ∧
      ∃ b, (do
        let p' ← p.setLengths.writeChecksum
        putOptional p'.nextPacket
        pure p') ⟨p.setLengths.headerBytes ((toByte (promote p.setLengths.getChecksum &&&
          0xffff#32)).signExtend 16), List.replicate k 0, []⟩ = .ok (r.1, b) := by
  rw [toBytes, encodeWith] at h
  split at h
  · cases h
  · next hneg =>
    obtain ⟨n, hn⟩ := Int.eq_ofNat_of_zero_le (Int.not_lt.mp hneg)
    rw [hn, Int.toNat_natCast, bind_apply] at h
    cases hw : p.setLengths.writeHeader (allocate n) with
    | error e =>
      rw [hw] at h
      cases h
    | ok out =>
      obtain ⟨u, b⟩ := out
      obtain ⟨hfit, rfl⟩ := p.setLengths.writeHeader_puts.of_ok hw
      rw [headerBytes_length_eq] at hfit
      have hroom : p.setLengths.writtenSize ≤ n := by simpa [allocate] using hfit
      refine ⟨n - p.setLengths.writtenSize, by rw [hn, Nat.add_sub_cancel' hroom], ?_⟩
      rw [hw] at h
      simp only [allocate, List.nil_append, List.drop_replicate, headerBytes_length_eq] at h
      split at h
      · next a b hrun =>
        cases h
        exact ⟨b, hrun⟩
      · cases h

/-- A total length that has room for header and payload has not wrapped. -/
private theorem total_eq (p : IPv4) {n : Nat}
    (hn : p.setLengths.getTotalLength.toInt = (n : Int))
    (hle : p.setLengths.declaredSize + (p.nextPacket.getD []).length ≤ n) :
    n = p.setLengths.declaredSize + (p.nextPacket.getD []).length := by
  rw [setLengths_getTotalLength, BitVec.toInt_ofNat', Int.bmod_def] at hn
  omega

theorem fits_of_fresh (p : IPv4) (h0 : p.setLengths.getChecksum = 0) {r : IPv4 × Bytes}
    (h : p.toBytes = .ok r) : p.Fits := by
  obtain ⟨k, hk, b, hrun⟩ := exists_room p h
  have hw : (toByte (promote (0 : JShort) &&& 0xffff#32)).signExtend 16 = (0 : JShort) := by decide
  have hle := p.setLengths_declaredSize_le
  rw [h0, hw] at hrun
  simp only [bind_apply, p.setLengths.writeChecksum_eq _ _ h0 hle] at hrun
  cases hput : putOptional p.setLengths.nextPacket ⟨(p.setLengths.headerBytes
      p.setLengths.headerChecksum).take p.setLengths.declaredSize, (p.setLengths.headerBytes
        p.setLengths.headerChecksum).drop p.setLengths.declaredSize ++ List.replicate k 0, []⟩ with
  | error e =>
    rw [hput] at hrun
    cases hrun
  | ok out =>
    have hroom := ((Puts.putOptional p.setLengths.nextPacket).of_ok hput).1
    have hnext : p.setLengths.nextPacket = p.nextPacket := rfl
    rw [hnext, List.length_append, List.length_drop, List.length_replicate,
      headerBytes_length_eq] at hroom
    have htotal := total_eq p hk (by omega)
    exact ⟨by rw [hk, htotal], by omega⟩

theorem fits_of_stored (p : IPv4) (h0 : p.setLengths.getChecksum ≠ 0) {r : IPv4 × Bytes}
    (h : p.toBytes = .ok r) : p.Fits ∧ p.setLengths.writtenSize = p.setLengths.declaredSize := by
  obtain ⟨k, hk, b, hrun⟩ := exists_room p h
  have hle := p.setLengths_declaredSize_le
  simp only [bind_apply, writeChecksum, if_neg h0, pure_apply] at hrun
  cases hput : putOptional p.setLengths.nextPacket ⟨p.setLengths.headerBytes ((toByte (promote
      p.setLengths.getChecksum &&& 0xffff#32)).signExtend 16), List.replicate k 0, []⟩ with
  | error e =>
    rw [hput] at hrun
    cases hrun
  | ok out =>
    have hroom := ((Puts.putOptional p.setLengths.nextPacket).of_ok hput).1
    have hnext : p.setLengths.nextPacket = p.nextPacket := rfl
    rw [hnext, List.length_replicate] at hroom
    have htotal := total_eq p hk (by omega)
    exact ⟨⟨by rw [hk, htotal], by omega⟩, by omega⟩

theorem Encodable.fits {p : IPv4} (h : p.Encodable) :
    p.Fits ∧ p.setLengths.writtenSize = p.setLengths.declaredSize := by
  have hh := setLengths_headerLength p h
  have hb := headerBytes_length p h 0
  rw [headerBytes_length_eq] at hb
  have ht := setLengths_totalLength p h
  rw [← hh] at ht
  have heq : p.setLengths.writtenSize = p.setLengths.declaredSize := by rw [hb, declaredSize, hh]
  exact ⟨⟨ht, by omega⟩, heq⟩

/-- The checksum loop sums the whole header. -/
theorem Encodable.headerSum_eq {p : IPv4} (h : p.Encodable) :
    p.setLengths.headerSum = wordSum (p.setLengths.headerBytes 0) := by
  have hsize : p.setLengths.declaredSize = (p.setLengths.headerBytes 0).length := by
    rw [headerBytes_length_eq, h.fits.2]
  rw [headerSum, hsize, List.take_length]

/-- Options in whole words: the checksum is patched into a complete header. -/
theorem toBytes_encodable (p : IPv4) (h : p.Encodable) (h0 : p.getChecksum = 0) :
    p.toBytes = .ok (p.stored,
      p.setLengths.headerBytes p.setLengths.headerChecksum ++ p.nextPacket.getD []) := by
  obtain ⟨hT, hfill⟩ := h.fits
  have hlen : (p.setLengths.headerBytes p.setLengths.headerChecksum).length =
      p.setLengths.declaredSize := by rw [headerBytes_length_eq, hfill]
  rw [toBytes_fresh p h0 hT, ← hlen, List.take_length]

theorem toBytes_eq (p : IPv4) (h : p.Encodable) :
    ∃ c w, p.toBytes = .ok ({ p.setLengths with checksum := c },
      p.setLengths.headerBytes w ++ p.nextPacket.getD []) := by
  obtain ⟨hT, hfill⟩ := h.fits
  by_cases h0 : p.setLengths.getChecksum = 0
  · exact ⟨_, _, toBytes_encodable p h h0⟩
  · exact ⟨p.setLengths.checksum, _, toBytes_stored p h0 hT hfill⟩

end Encode

section RoundTrip

theorem versionByte_high (p : IPv4) :
    toByte ((promote p.versionByte).sshiftRight 4) &&& 15#8 = p.getVersion := by
  apply BitVec.eq_of_getLsbD_eq
  intro i hi
  rw [BitVec.getLsbD_and, getLsbD_toByte _ i hi]
  by_cases h4 : i < 4
  · rw [getLsbD_promote_sshiftRight _ 4 i (by omega) (by decide), versionByte,
      getLsbD_toByte _ _ (by omega)]
    interval_cases i <;> simp [getVersion, promote, BitVec.getElem_signExtend]
  · interval_cases i <;> simp [getVersion] at h4 ⊢

theorem versionByte_low (p : IPv4) : p.versionByte &&& 15#8 = p.getHeaderLength := by
  apply BitVec.eq_of_getLsbD_eq
  intro i hi
  rw [BitVec.getLsbD_and, versionByte, getLsbD_toByte _ i hi]
  interval_cases i <;> simp [getHeaderLength, promote, BitVec.getElem_signExtend]

/-- The service field of every object is 0. -/
theorem serviceByte_eq (p : IPv4) : p.serviceByte = p.getExpCon := by
  have h0 : p.getDiffServ = 0#8 := by simp [getDiffServ, p.diffServ_eq]
  have hp : promote 0#8 = 0#32 := by decide
  rw [serviceByte, h0, hp]
  simp [getExpCon]

theorem fragmentWord_flags (p : IPv4) :
    toByte ((promote p.fragmentWord).sshiftRight 13) &&& 7#8 = p.getFlags := by
  apply BitVec.eq_of_getLsbD_eq
  intro i hi
  rw [BitVec.getLsbD_and, getLsbD_toByte _ i hi]
  by_cases h3 : i < 3
  · rw [getLsbD_promote_sshiftRight _ 13 i (by omega) (by decide), fragmentWord,
      getLsbD_toShort _ _ (by omega)]
    interval_cases i <;> simp [getFlags, promote, BitVec.getElem_signExtend]
  · interval_cases i <;> simp [getFlags] at h3 ⊢

theorem fragmentWord_offset (p : IPv4) : p.fragmentWord &&& 0x1fff#16 = p.getFragmentOffset := by
  apply BitVec.eq_of_getLsbD_eq
  intro i hi
  rw [BitVec.getLsbD_and, fragmentWord, getLsbD_toShort _ i hi]
  interval_cases i <;> simp [getFragmentOffset, promote, BitVec.getElem_signExtend]

/-- The fields as the getters return them, the checksum excepted, and null counted as empty. -/
structure SameFields (p p' : IPv4) : Prop where
  version : p'.getVersion = p.getVersion
  headerLength : p'.getHeaderLength = p.getHeaderLength
  diffServ : p'.getDiffServ = p.getDiffServ
  expCon : p'.getExpCon = p.getExpCon
  totalLength : p'.getTotalLength = p.getTotalLength
  identification : p'.getIdentification = p.getIdentification
  flags : p'.getFlags = p.getFlags
  fragmentOffset : p'.getFragmentOffset = p.getFragmentOffset
  ttl : p'.getTtl = p.getTtl
  protocol : p'.protocol = p.protocol
  sourceAddress : p'.sourceAddress = p.sourceAddress
  destinationAddress : p'.destinationAddress = p.destinationAddress
  options : p'.options.getD [] = p.options.getD []
  payload : p'.nextPacket.getD [] = p.nextPacket.getD []

/-- Where the header length counts the options, they are written. -/
theorem headerBack_eq (p : IPv4)
    (hl : 4 * p.getHeaderLength.toNat = 20 + (p.options.getD []).length) :
    p.headerBack =
      p.sourceAddress.toBytes ++ (p.destinationAddress.toBytes ++ p.options.getD []) := by
  have hint := getHeaderLength_toInt p
  have hopt : (if p.getHeaderLength.toInt > 5 then p.options.getD [] else []) =
      p.options.getD [] := by
    split
    · rfl
    · exact (List.eq_nil_of_length_eq_zero (by omega)).symm
  rw [headerBack, hopt]

theorem newInstance_headerBytes (R : Registries) (p : IPv4) (w : JShort) (payload : Bytes)
    (hp : p.nextPacket.getD [] = payload)
    (hl : 4 * p.getHeaderLength.toNat = 20 + (p.options.getD []).length)
    (hr : IPProtocolType.getInstance R.ipProtocolType p.protocol.value = p.protocol) :
    ∃ p', newInstance R (p.headerBytes w ++ payload) = .ok p' ∧ SameFields p p' ∧
      p'.nextPacket = some payload := by
  have hbytes : p.headerBytes w ++ payload = p.versionByte :: p.serviceByte ::
      (shortBytes p.getTotalLength ++ (shortBytes p.getIdentification ++
        (shortBytes p.fragmentWord ++ (p.getTtl :: p.protocol.value :: (shortBytes w ++
          (p.sourceAddress.toBytes ++ (p.destinationAddress.toBytes ++
            (p.options.getD [] ++ payload)))))))) := by
    simp [headerBytes, headerFront, p.headerBack_eq hl]
  have hh : (ofHeader R p.versionByte p.serviceByte p.getTotalLength p.getIdentification
      p.fragmentWord p.getTtl p.protocol.value p.sourceAddress
      p.destinationAddress).getHeaderLength = p.getHeaderLength := by
    simp [ofHeader, versionByte_low, getHeaderLength]
  have hsize : (p.options.getD []).length = (ofHeader R p.versionByte p.serviceByte
      p.getTotalLength p.getIdentification p.fragmentWord p.getTtl p.protocol.value
      p.sourceAddress p.destinationAddress).optionsSize := by
    rw [optionsSize, hh]
    omega
  rw [newInstance, newInstanceAt, decode_whole, hbytes, read_append,
    readOptions_append _ [] _ _ _ _ (by simp) hsize, if_pos rfl]
  refine ⟨_, rfl, ⟨?_, hh, ?_, ?_, ?_, ?_, ?_, ?_, ?_, hr, rfl, rfl, ?_, ?_⟩, rfl⟩
  · simp [ofHeader, getVersion, versionByte_high]
  · simp [ofHeader, new, getDiffServ, p.diffServ_eq]
  · simp [ofHeader, getExpCon, serviceByte_eq]
  · simp [ofHeader, getTotalLength]
  · simp [ofHeader, getIdentification]
  · simp [ofHeader, getFlags, fragmentWord_flags]
  · simp [ofHeader, getFragmentOffset, fragmentWord_offset]
  · simp [ofHeader, getTtl]
  · rw [hh]
    by_cases h5 : p.getHeaderLength.toNat > 5
    · simp [h5]
    · have hnil : p.options.getD [] = [] := List.eq_nil_of_length_eq_zero (by omega)
      simp [h5, hnil, ofHeader, new]
  · simp [hp]

end RoundTrip

end IPv4

end Jxnet
