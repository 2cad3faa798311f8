import Jxnet.Packet.Registry

namespace Jxnet

open Java ByteBuffer

structure TCPFlags where
  NS : JByte
  CWR : JByte
  ECE : JByte
  URG : JByte
  ACK : JByte
  PSH : JByte
  RST : JByte
  SYN : JByte
  FIN : JByte
  deriving DecidableEq, Repr

namespace TCPFlags

/-- `(byte) (x & 0x1)`, the form of every accessor of the class. -/
def bit (x : JByte) : JByte := toByte (promote x &&& 0x1#32)

def new : TCPFlags := ⟨0, 0, 0, 0, 0, 0, 0, 0, 0⟩

/-- `(byte) ((flags >> i) & 0x1)`. -/
def flagAt (flags : JShort) (i : Nat) : JByte := toByte ((promote flags).sshiftRight i &&& 0x1#32)

/-- `newInstance(short)`. -/
def newInstance (flags : JShort) : TCPFlags where
  FIN := flagAt flags 0
  SYN := flagAt flags 1
  RST := flagAt flags 2
  PSH := flagAt flags 3
  ACK := flagAt flags 4
  URG := flagAt flags 5
  ECE := flagAt flags 6
  CWR := flagAt flags 7
  NS := flagAt flags 8

/-- `if (x == (byte) 0x1) flags += weight`. -/
def add (flags : JShort) (x : JByte) (weight : JShort) : JShort :=
  if bit x = 1 then flags + weight else flags

def toShort (f : TCPFlags) : JShort :=
  let flags := add 0 f.NS 256
  let flags := add flags f.CWR 128
  let flags := add flags f.ECE 64
  let flags := add flags f.URG 32
  let flags := add flags f.ACK 16
  let flags := add flags f.PSH 8
  let flags := add flags f.RST 4
  let flags := add flags f.SYN 2
  add flags f.FIN 1

/-- The values that the nine getters return. -/
def fields (f : TCPFlags) : TCPFlags :=
  ⟨bit f.NS, bit f.CWR, bit f.ECE, bit f.URG, bit f.ACK, bit f.PSH, bit f.RST, bit f.SYN,
    bit f.FIN⟩

theorem bit_eq (x : JByte) : bit x = if x.getLsbD 0 then 1 else 0 := by
  revert x
  decide

theorem bit_bit (x : JByte) : bit (bit x) = bit x := by
  revert x
  decide

theorem flagAt_eq (flags : JShort) (i : Nat) (h : i < 16) :
    flagAt flags i = if flags.getLsbD i then 1 else 0 := by
  have hbit : flagAt flags i = bit (toByte ((promote flags).sshiftRight i)) := by
    simp [flagAt, bit]
  rw [hbit, bit_eq, getLsbD_toByte _ 0 (by decide),
    getLsbD_promote_sshiftRight flags i 0 h (by decide), Nat.add_zero]

theorem add_eq (flags : JShort) (x : JByte) (weight : JShort) :
    add flags x weight = flags + if x.getLsbD 0 then weight else 0 := by
  rw [add, bit_eq]
  cases x.getLsbD 0 <;> simp

/-- The weights are distinct powers of two: each flag is one bit of the sum. -/
private theorem getLsbD_sum : ∀ ns cwr ece urg ack psh rst syn fin : Bool,
    let flags : JShort := 0 + (if ns then 256 else 0) + (if cwr then 128 else 0) +
      (if ece then 64 else 0) + (if urg then 32 else 0) + (if ack then 16 else 0) +
      (if psh then 8 else 0) + (if rst then 4 else 0) + (if syn then 2 else 0) +
      (if fin then 1 else 0)
    flags.getLsbD 8 = ns ∧ flags.getLsbD 7 = cwr ∧ flags.getLsbD 6 = ece ∧
      flags.getLsbD 5 = urg ∧ flags.getLsbD 4 = ack ∧ flags.getLsbD 3 = psh ∧
      flags.getLsbD 2 = rst ∧ flags.getLsbD 1 = syn ∧ flags.getLsbD 0 = fin := by
  decide +kernel

/-- Each low bit of `toShort` is the low bit of one flag. -/
private theorem toShort_bits (f : TCPFlags) :
    f.toShort.getLsbD 8 = f.NS.getLsbD 0 ∧ f.toShort.getLsbD 7 = f.CWR.getLsbD 0 ∧
      f.toShort.getLsbD 6 = f.ECE.getLsbD 0 ∧ f.toShort.getLsbD 5 = f.URG.getLsbD 0 ∧
      f.toShort.getLsbD 4 = f.ACK.getLsbD 0 ∧ f.toShort.getLsbD 3 = f.PSH.getLsbD 0 ∧
      f.toShort.getLsbD 2 = f.RST.getLsbD 0 ∧ f.toShort.getLsbD 1 = f.SYN.getLsbD 0 ∧
      f.toShort.getLsbD 0 = f.FIN.getLsbD 0 := by
  have hsum := getLsbD_sum (f.NS.getLsbD 0) (f.CWR.getLsbD 0) (f.ECE.getLsbD 0) (f.URG.getLsbD 0)
    (f.ACK.getLsbD 0) (f.PSH.getLsbD 0) (f.RST.getLsbD 0) (f.SYN.getLsbD 0) (f.FIN.getLsbD 0)
  simp only [← add_eq] at hsum
  exact hsum

/-- Decoding the low nine bits and adding the weights up again gives the same bits. -/
theorem toShort_newInstance (flags : JShort) (i : Nat) (h : i < 9) :
    (newInstance flags).toShort.getLsbD i = flags.getLsbD i := by
  have hflag : ∀ i < 9, (flagAt flags i).getLsbD 0 = flags.getLsbD i := by
    intro i hi
    rw [flagAt_eq flags i (by omega)]
    cases flags.getLsbD i <;> rfl
  obtain ⟨h8, h7, h6, h5, h4, h3, h2, h1, h0⟩ := toShort_bits (newInstance flags)
  rw [← hflag i h]
  interval_cases i
  · exact h0
  · exact h1
  · exact h2
  · exact h3
  · exact h4
  · exact h5
  · exact h6
  · exact h7
  · exact h8

/-- A word whose low nine bits are those of `toShort` decodes to the same flags. -/
theorem newInstance_of_bits (f : TCPFlags) (flags : JShort)
    (h : ∀ i < 9, flags.getLsbD i = f.toShort.getLsbD i) : newInstance flags = f.fields := by
  obtain ⟨h8, h7, h6, h5, h4, h3, h2, h1, h0⟩ := toShort_bits f
  simp only [newInstance, fields, flagAt_eq _ _ (by decide : 0 < 16),
    flagAt_eq _ _ (by decide : 1 < 16), flagAt_eq _ _ (by decide : 2 < 16),
    flagAt_eq _ _ (by decide : 3 < 16), flagAt_eq _ _ (by decide : 4 < 16),
    flagAt_eq _ _ (by decide : 5 < 16), flagAt_eq _ _ (by decide : 6 < 16),
    flagAt_eq _ _ (by decide : 7 < 16), flagAt_eq _ _ (by decide : 8 < 16), bit_eq,
    h 0 (by decide), h 1 (by decide), h 2 (by decide), h 3 (by decide), h 4 (by decide),
    h 5 (by decide), h 6 (by decide), h 7 (by decide), h 8 (by decide),
    h0, h1, h2, h3, h4, h5, h6, h7, h8]

theorem fields_fields (f : TCPFlags) : f.fields.fields = f.fields := by
  simp only [fields, bit_bit]

end TCPFlags

structure TCP where
  sourcePort : JShort
  destinationPort : JShort
  sequence : JInt
  acknowledge : JInt
  dataOffset : JByte
  flags : TCPFlags
  windowSize : JShort
  checksum : JShort
  urgentPointer : JShort
  options : Option Bytes
  nextPacket : Option Bytes
  deriving DecidableEq, Repr

namespace TCP

def TCP_HEADER_LENGTH : Nat := 20

def new : TCP := ⟨0, 0, 0, 0, 0, TCPFlags.new, 0, 0, 0, none, none⟩

def getSourcePort (t : TCP) : JShort := mask16 t.sourcePort

def setSourcePort (t : TCP) (sourcePort : JShort) : TCP :=
  { t with sourcePort := mask16 sourcePort }

def getDestinationPort (t : TCP) : JShort := mask16 t.destinationPort

def setDestinationPort (t : TCP) (destinationPort : JShort) : TCP :=
  { t with destinationPort := mask16 destinationPort }

def getSequence (t : TCP) : JInt := mask32 t.sequence

def setSequence (t : TCP) (sequence : JInt) : TCP := { t with sequence := mask32 sequence }

def getAcknowledge (t : TCP) : JInt := mask32 t.acknowledge

def setAcknowledge (t : TCP) (acknowledge : JInt) : TCP :=
  { t with acknowledge := mask32 acknowledge }

def getDataOffset (t : TCP) : JByte := toByte (promote t.dataOffset &&& 0xf#32)

def setDataOffset (t : TCP) (dataOffset : JByte) : TCP :=
  { t with dataOffset := toByte (promote dataOffset &&& 0xf#32) }

def getFlags (t : TCP) : TCPFlags := t.flags

def setFlags (t : TCP) (flags : TCPFlags) : TCP := { t with flags }

def getWindowSize (t : TCP) : JShort := mask16 t.windowSize

def setWindowSize (t : TCP) (windowSize : JShort) : TCP :=
  { t with windowSize := mask16 windowSize }

def getChecksum (t : TCP) : JShort := mask16 t.checksum

def setChecksum (t : TCP) (checksum : JShort) : TCP := { t with checksum := mask16 checksum }

def getUrgentPointer (t : TCP) : JShort := mask16 t.urgentPointer

def setUrgentPointer (t : TCP) (urgentPointer : JShort) : TCP :=
  { t with urgentPointer := mask16 urgentPointer }

def setOptions (t : TCP) (options : Option Bytes) : TCP := { t with options }

def setPayload (t : TCP) (payload : Option Bytes) : TCP := { t with nextPacket := payload }

/-- The options and payload of `newInstance`. The options are cut at the limit. -/
def readOptions (tcp : TCP) : Op TCP := do
  if tcp.getDataOffset.toInt > 5 then
    let optionLength : Int := (promote tcp.getDataOffset <<< 2).toInt - TCP_HEADER_LENGTH
    let limit ← getLimit
    let position ← getPosition
    let optionLength := if (limit : Int) < position + optionLength then (limit : Int) - position
      else optionLength
    let options ← getArray optionLength
    let nextPacket ← getUpToLimit (TCP_HEADER_LENGTH + optionLength.toNat)
    pure { tcp with options := some options, nextPacket := some nextPacket }
  else
    let nextPacket ← getUpToLimit TCP_HEADER_LENGTH
    pure { tcp with options := none, nextPacket := some nextPacket }

def read : Op TCP := do
  let tcp := new
  let tcp := tcp.setSourcePort (← getShort)
  let tcp := tcp.setDestinationPort (← getShort)
  let tcp := tcp.setSequence (← getInt)
  let tcp := tcp.setAcknowledge (← getInt)
  let flags ← getShort
  let tcp := tcp.setDataOffset (toByte ((promote flags).sshiftRight 12 &&& 0xf#32))
  let tcp := tcp.setFlags (TCPFlags.newInstance (Java.toShort (promote flags &&& 0x1ff#32)))
  let tcp := tcp.setWindowSize (← getShort)
  let tcp := tcp.setChecksum (← getShort)
  let tcp := tcp.setUrgentPointer (← getShort)
  readOptions tcp

def newInstanceAt (bytes : Bytes) (offset length : Nat) : Except JavaException TCP :=
  decode read bytes offset length

def newInstance (bytes : Bytes) : Except JavaException TCP := newInstanceAt bytes 0 bytes.length

/-- The data offset and flags word of the header. -/
def offsetAndFlags (t : TCP) : JShort :=
  Java.toShort ((promote t.getFlags.toShort &&& 0x1ff#32) |||
    (promote t.getDataOffset &&& 0xf#32) <<< 12)

def write (t : TCP) : Op Unit := do
  putShort t.getSourcePort
  putShort t.getDestinationPort
  putInt t.getSequence
  putInt t.getAcknowledge
  putShort t.offsetAndFlags
  putShort t.getWindowSize
  putShort t.getChecksum
  putShort t.getUrgentPointer
  putOptional t.options
  putOptional t.nextPacket

def toBytes (t : TCP) : Except JavaException Bytes :=
  encode (TCP_HEADER_LENGTH + (t.options.getD []).length + (t.nextPacket.getD []).length : Nat)
    t.write

section Decode

/-- The bytes of options that decoding takes where `available` bytes follow the header. -/
def optionsSize (dataOffset : JByte) (available : Nat) : Nat :=
  min (4 * dataOffset.toNat - 20) available

theorem getDataOffset_toInt (t : TCP) : t.getDataOffset.toInt = t.getDataOffset.toNat := by
  simpa [getDataOffset] using and_15_toInt t.dataOffset

theorem getDataOffset_le (t : TCP) : t.getDataOffset.toNat ≤ 15 := by
  simpa [getDataOffset] using and_15_le t.dataOffset

theorem getDataOffset_shift (t : TCP) :
    (promote t.getDataOffset <<< 2).toInt = 4 * t.getDataOffset.toNat := by
  simp only [getDataOffset]
  generalize t.dataOffset = x
  revert x
  decide

/-- The clamped length, both ends of the buffer being absolute positions. -/
private theorem optionLength_eq (tcp : TCP) (h5 : tcp.getDataOffset.toNat > 5)
    (position available : Nat) :
    (if ((position + available : Nat) : Int) < position +
        ((promote tcp.getDataOffset <<< 2).toInt - (TCP_HEADER_LENGTH : Nat))
      then ((position + available : Nat) : Int) - position
      else (promote tcp.getDataOffset <<< 2).toInt - (TCP_HEADER_LENGTH : Nat)) =
      (optionsSize tcp.getDataOffset available : Int) := by
  rw [getDataOffset_shift, optionsSize, TCP_HEADER_LENGTH]
  split <;> omega

theorem readOptions_eq (tcp : TCP) (pre hdr rest post : Bytes) (h : hdr.length = 20) :
    eval (readOptions tcp) ⟨pre ++ hdr, rest, post⟩ =
      if pre = [] then .ok { tcp with
        options := if tcp.getDataOffset.toNat > 5 then
          some (rest.take (optionsSize tcp.getDataOffset rest.length)) else none
        nextPacket := some (rest.drop (optionsSize tcp.getDataOffset rest.length)) }
      else .error .bufferUnderflow := by
  have hint := getDataOffset_toInt tcp
  by_cases h5 : tcp.getDataOffset.toNat > 5
  · have h5' : tcp.getDataOffset.toInt > 5 := by omega
    have hlen := optionLength_eq tcp h5 (pre ++ hdr).length rest.length
    have hle : optionsSize tcp.getDataOffset rest.length ≤ rest.length := Nat.min_le_right _ _
    revert hlen hle
    generalize optionsSize tcp.getDataOffset rest.length = n
    intro hlen hle
    have hbytes : getBytes n ⟨pre ++ hdr, rest, post⟩ =
        .ok (rest.take n, ⟨pre ++ (hdr ++ rest.take n), rest.drop n, post⟩) := by
      rw [getBytes, if_pos hle]
      simp [skip]
    have hhdr : (hdr ++ rest.take n).length = TCP_HEADER_LENGTH + n := by
      simp [h, hle, TCP_HEADER_LENGTH]
    simp only [readOptions, if_pos h5', if_pos h5, eval_bind, getLimit_apply, getPosition_apply,
      limit, position, hlen, getArray_natCast, hbytes, Int.toNat_natCast,
      getUpToLimit_apply pre _ _ post _ hhdr]
    by_cases hp : pre = [] <;> simp [hp]
  · have h5' : ¬ tcp.getDataOffset.toInt > 5 := by omega
    have h0 : optionsSize tcp.getDataOffset rest.length = 0 := by
      rw [optionsSize]
      omega
    simp [readOptions, h5, h5', h0, h, TCP_HEADER_LENGTH]

theorem read_needs : Needs read 20 :=
  .bind .getShort fun _ => .bind .getShort fun _ => .bind .getInt fun _ => .bind .getInt fun _ =>
    .bind .getShort fun _ => .bind .getShort fun _ => .bind .getShort fun _ =>
      .bind .getShort fun _ => .zero _

/-- What the fixed header decodes to. -/
def ofHeader (sourcePort destinationPort : JShort) (sequence acknowledge : JInt)
    (word windowSize checksum urgentPointer : JShort) : TCP where
  sourcePort := sourcePort
  destinationPort := destinationPort
  sequence := sequence
  acknowledge := acknowledge
  dataOffset := toByte ((promote word).sshiftRight 12) &&& 15#8
  flags := TCPFlags.newInstance (word &&& 0x1ff#16)
  windowSize := windowSize
  checksum := checksum
  urgentPointer := urgentPointer
  options := none
  nextPacket := none

theorem read_append (sourcePort destinationPort : JShort) (sequence acknowledge : JInt)
    (word windowSize checksum urgentPointer : JShort) (pre rest post : Bytes) :
    eval read ⟨pre, shortBytes sourcePort ++ (shortBytes destinationPort ++ (intBytes sequence ++
      (intBytes acknowledge ++ (shortBytes word ++ (shortBytes windowSize ++
        (shortBytes checksum ++ (shortBytes urgentPointer ++ rest))))))), post⟩ =
      eval (readOptions (ofHeader sourcePort destinationPort sequence acknowledge word windowSize
        checksum urgentPointer)) ⟨pre ++ (shortBytes sourcePort ++ (shortBytes destinationPort ++
          (intBytes sequence ++ (intBytes acknowledge ++ (shortBytes word ++
            (shortBytes windowSize ++ (shortBytes checksum ++ shortBytes urgentPointer))))))),
        rest, post⟩ := by
  simp [read, new, ofHeader, setSourcePort, setDestinationPort, setSequence, setAcknowledge,
    setDataOffset, setFlags, setWindowSize, setChecksum, setUrgentPointer]

/-- The data offset of the segment, and the header size that decoding makes of it. -/
def header (bytes : Bytes) : Except JavaException Nat :=
  if 20 ≤ bytes.length then
    .ok (20 + min (4 * ((shortAt bytes 12).toNat / 4096) - 20) (bytes.length - 20))
  else .error .bufferUnderflow

theorem ofHeader_getDataOffset (sourcePort destinationPort : JShort) (sequence acknowledge : JInt)
    (word windowSize checksum urgentPointer : JShort) :
    (ofHeader sourcePort destinationPort sequence acknowledge word windowSize checksum
      urgentPointer).getDataOffset.toNat = word.toNat / 4096 := by
  have h : (ofHeader sourcePort destinationPort sequence acknowledge word windowSize checksum
      urgentPointer).getDataOffset = toByte ((promote word).sshiftRight 12) &&& 15#8 := by
    simp [getDataOffset, ofHeader]
  rw [h, topNibble_toNat]

theorem exists_fields {bytes : Bytes} (h : 20 ≤ bytes.length) :
    ∃ (sourcePort destinationPort : JShort) (sequence acknowledge : JInt)
      (word windowSize checksum urgentPointer : JShort) (rest : Bytes),
      bytes = shortBytes sourcePort ++ (shortBytes destinationPort ++ (intBytes sequence ++
        (intBytes acknowledge ++ (shortBytes word ++ (shortBytes windowSize ++
          (shortBytes checksum ++ (shortBytes urgentPointer ++ rest))))))) := by
  obtain ⟨sourcePort, b1, rfl, h1⟩ := exists_short (n := 18) h
  obtain ⟨destinationPort, b2, rfl, h2⟩ := exists_short (n := 16) h1
  obtain ⟨sequence, b3, rfl, h3⟩ := exists_int (n := 12) h2
  obtain ⟨acknowledge, b4, rfl, h4⟩ := exists_int (n := 8) h3
  obtain ⟨word, b5, rfl, h5⟩ := exists_short (n := 6) h4
  obtain ⟨windowSize, b6, rfl, h6⟩ := exists_short (n := 4) h5
  obtain ⟨checksum, b7, rfl, h7⟩ := exists_short (n := 2) h6
  obtain ⟨urgentPointer, rest, rfl, h8⟩ := exists_short (n := 0) h7
  exact ⟨sourcePort, destinationPort, sequence, acknowledge, word, windowSize, checksum,
    urgentPointer, rest, rfl⟩

theorem headerPayload : HeaderPayload read nextPacket header := by
  refine .of_cases fun bytes => ?_
  by_cases h : 20 ≤ bytes.length
  · obtain ⟨sourcePort, destinationPort, sequence, acknowledge, word, windowSize, checksum,
      urgentPointer, rest, rfl⟩ := exists_fields h
    have hword := shortAt_append (i := 12) (shortBytes sourcePort ++ (shortBytes destinationPort ++
      (intBytes sequence ++ intBytes acknowledge))) (shortBytes windowSize ++
        (shortBytes checksum ++ (shortBytes urgentPointer ++ rest))) word (by simp)
    have hd := ofHeader_getDataOffset sourcePort destinationPort sequence acknowledge word
      windowSize checksum urgentPointer
    simp only [List.append_assoc] at hword
    refine .inr ⟨(shortBytes sourcePort ++ (shortBytes destinationPort ++ (intBytes sequence ++
      (intBytes acknowledge ++ (shortBytes word ++ (shortBytes windowSize ++
        (shortBytes checksum ++ shortBytes urgentPointer))))))) ++ rest.take (optionsSize
          (ofHeader sourcePort destinationPort sequence acknowledge word windowSize checksum
            urgentPointer).getDataOffset rest.length), _, _, ?_, ?_, rfl, fun pre post =>
      (read_append _ _ _ _ _ _ _ _ pre rest post).trans
        (readOptions_eq _ pre _ rest post (by simp))⟩
    · simp
    · rw [header, if_pos h, hword, optionsSize, hd]
      simp
      omega
  · exact .inl ⟨.bufferUnderflow, by rw [header, if_neg h], fun pre post =>
      read_needs.eval pre bytes post (by omega)⟩

end Decode

section Encode

def bytes (t : TCP) : Bytes :=
  shortBytes t.getSourcePort ++ (shortBytes t.getDestinationPort ++ (intBytes t.getSequence ++
    (intBytes t.getAcknowledge ++ (shortBytes t.offsetAndFlags ++ (shortBytes t.getWindowSize ++
      (shortBytes t.getChecksum ++ (shortBytes t.getUrgentPointer ++ (t.options.getD [] ++
        t.nextPacket.getD []))))))))

theorem writes (t : TCP) : Writes t.write t.bytes :=
  .bind (.putShort _) <| .bind (.putShort _) <| .bind (.putInt _) <| .bind (.putInt _) <|
    .bind (.putShort _) <| .bind (.putShort _) <| .bind (.putShort _) <| .bind (.putShort _) <|
      .bind (.putOptional _) (.putOptional _)

theorem toBytes_eq (t : TCP) : t.toBytes = .ok t.bytes := by
  refine t.writes.encode_exact ?_
  simp [bytes, TCP_HEADER_LENGTH]
  omega

/-- The data offset is shifted above the nine flag bits. -/
theorem offsetAndFlags_getLsbD (t : TCP) (i : Nat) (h : i < 9) :
    t.offsetAndFlags.getLsbD i = t.flags.toShort.getLsbD i := by
  rw [offsetAndFlags, getLsbD_toShort _ i (by omega)]
  interval_cases i <;> simp [getFlags, promote, BitVec.getElem_signExtend]

/-- The three bits between the flags and the data offset are 0. -/
theorem offsetAndFlags_high (t : TCP) (i : Nat) (h9 : 9 ≤ i) (h : i < 16) :
    t.offsetAndFlags.getLsbD i = (decide (12 ≤ i) && t.getDataOffset.getLsbD (i - 12)) := by
  rw [offsetAndFlags, getLsbD_toShort _ i h]
  interval_cases i <;> simp [getDataOffset, promote, BitVec.getElem_signExtend]

theorem offsetAndFlags_topNibble (t : TCP) :
    toByte ((promote t.offsetAndFlags).sshiftRight 12) &&& 15#8 = t.getDataOffset := by
  apply BitVec.eq_of_getLsbD_eq
  intro i hi
  rw [BitVec.getLsbD_and, getLsbD_toByte _ i hi]
  by_cases h4 : i < 4
  · rw [getLsbD_promote_sshiftRight _ 12 i (by omega) (by decide), offsetAndFlags,
      getLsbD_toShort _ _ (by omega)]
    interval_cases i <;>
      simp [getDataOffset, getFlags, promote, BitVec.getElem_signExtend]
  · interval_cases i <;> simp [getDataOffset] at h4 ⊢

/-- The fields as the getters return them, and the payload with null counted as empty. -/
structure SameFields (t t' : TCP) : Prop where
  sourcePort : t'.getSourcePort = t.getSourcePort
  destinationPort : t'.getDestinationPort = t.getDestinationPort
  sequence : t'.getSequence = t.getSequence
  acknowledge : t'.getAcknowledge = t.getAcknowledge
  dataOffset : t'.getDataOffset = t.getDataOffset
  flags : t'.getFlags.fields = t.getFlags.fields
  windowSize : t'.getWindowSize = t.getWindowSize
  checksum : t'.getChecksum = t.getChecksum
  urgentPointer : t'.getUrgentPointer = t.getUrgentPointer
  options : t'.options.getD [] = t.options.getD []
  payload : t'.nextPacket.getD [] = t.nextPacket.getD []

theorem newInstance_bytes (t : TCP)
    (h : 4 * t.getDataOffset.toNat = 20 + (t.options.getD []).length) :
    ∃ t', newInstance t.bytes = .ok t' ∧ SameFields t t' ∧
      t'.nextPacket = some (t.nextPacket.getD []) := by
  have hd : (ofHeader t.getSourcePort t.getDestinationPort t.getSequence t.getAcknowledge
      t.offsetAndFlags t.getWindowSize t.getChecksum t.getUrgentPointer).getDataOffset =
      t.getDataOffset := by
    simp only [getDataOffset, ofHeader, offsetAndFlags_topNibble]
    simp
  have hsize : optionsSize t.getDataOffset (t.options.getD [] ++ t.nextPacket.getD []).length =
      (t.options.getD []).length := by
    rw [optionsSize, List.length_append]
    omega
  have hflags := TCPFlags.newInstance_of_bits t.flags (t.offsetAndFlags &&& 0x1ff#16) (by
    intro i hi
    rw [BitVec.getLsbD_and, offsetAndFlags_getLsbD t i hi]
    interval_cases i <;> simp)
  rw [newInstance, newInstanceAt, decode_whole, bytes, read_append, readOptions_eq _ [] _ _ _
    (by simp), if_pos rfl, hd, hsize]
  refine ⟨_, rfl, ⟨?_, ?_, ?_, ?_, hd, ?_, ?_, ?_, ?_, ?_, ?_⟩, ?_⟩
  · simp [ofHeader, getSourcePort]
  · simp [ofHeader, getDestinationPort]
  · simp [ofHeader, getSequence]
  · simp [ofHeader, getAcknowledge]
  · simp [ofHeader, getFlags, hflags, TCPFlags.fields_fields]
  · simp [ofHeader, getWindowSize]
  · simp [ofHeader, getChecksum]
  · simp [ofHeader, getUrgentPointer]
  · by_cases h5 : t.getDataOffset.toNat > 5
    · simp [h5]
    · have hnil : t.options.getD [] = [] := List.eq_nil_of_length_eq_zero (by omega)
      simp [h5, hnil]
  · simp
  · simp

end Encode

end TCP

end Jxnet
