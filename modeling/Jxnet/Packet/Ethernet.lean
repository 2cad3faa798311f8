import Jxnet.Packet.Registry

namespace Jxnet

open Java ByteBuffer

structure Ethernet where
  destinationMacAddress : MacAddress
  sourceMacAddress : MacAddress
  priorityCodePoint : JByte
  canonicalFormatIndicator : JByte
  vlanIdentifier : JShort
  ethernetType : ProtocolType
  padding : Bool
  nextPacket : Option Bytes
  deriving DecidableEq, Repr

namespace Ethernet

def ETHERNET_HEADER_LENGTH : Nat := 14

def VLAN_HEADER_LENGTH : Nat := 4

def getPriorityCodePoint (e : Ethernet) : JByte := toByte (promote e.priorityCodePoint &&& 0x07#32)

def getCanonicalFormatIndicator (e : Ethernet) : JByte :=
  toByte (promote e.canonicalFormatIndicator &&& 0x01#32)

def getVlanIdentifier (e : Ethernet) : JShort := mask16 e.vlanIdentifier

def setPriorityCodePoint (e : Ethernet) (priorityCodePoint : JByte) : Ethernet :=
  { e with priorityCodePoint := toByte (promote priorityCodePoint &&& 0x07#32) }

def setCanonicalFormatIndicator (e : Ethernet) (canonicalFormatIndicator : JByte) : Ethernet :=
  { e with canonicalFormatIndicator := toByte (promote canonicalFormatIndicator &&& 0x01#32) }

def setVlanIdentifier (e : Ethernet) (vlanIdentifier : JShort) : Ethernet :=
  { e with vlanIdentifier := mask16 vlanIdentifier }

/-- The constructor. -/
def new : Ethernet where
  destinationMacAddress := MacAddress.ZERO
  sourceMacAddress := MacAddress.ZERO
  priorityCodePoint := 0
  canonicalFormatIndicator := 0
  vlanIdentifier := 0xffff
  ethernetType := ProtocolType.UNKNOWN
  padding := false
  nextPacket := none

/-- The branch of `newInstance` behind the tag protocol identifier. -/
def readTag (R : Registries) (ethernet : Ethernet) : Op Ethernet := do
  let tci ← getShort
  let ethernet := ethernet.setPriorityCodePoint (toByte ((promote tci).sshiftRight 13 &&& 0x07#32))
  let ethernet := ethernet.setCanonicalFormatIndicator
    (toByte ((promote tci).sshiftRight 14 &&& 0x01#32))
  let ethernet := ethernet.setVlanIdentifier (toShort (promote tci &&& 0x0fff#32))
  let type ← getShort
  pure { ethernet with ethernetType := ProtocolType.getInstance R.protocolType type }

/-- The body of `newInstance` on the wrapped buffer. -/
def read (R : Registries) : Op Ethernet := do
  let destinationMacAddress ← Address.read MacAddress.MAC_ADDRESS_LENGTH
  let sourceMacAddress ← Address.read MacAddress.MAC_ADDRESS_LENGTH
  let ethernet := { new with destinationMacAddress, sourceMacAddress }
  let type ← getShort
  let ethernetType := ProtocolType.getInstance R.protocolType type
  let ethernet ← if ethernetType = ProtocolType.DOT1Q_VLAN_TAGGED_FRAMES then readTag R ethernet
    else pure { ethernet.setVlanIdentifier 0xffff with ethernetType }
  let nextPacket ← getUpToLimit (if ethernet.getVlanIdentifier ≠ 0xffff
    then ETHERNET_HEADER_LENGTH + VLAN_HEADER_LENGTH else ETHERNET_HEADER_LENGTH)
  pure { ethernet with nextPacket := some nextPacket }

/-- `newInstance(bytes, offset, length)`. -/
def newInstanceAt (R : Registries) (bytes : Bytes) (offset length : Nat) :
    Except JavaException Ethernet :=
  decode (read R) bytes offset length

def newInstance (R : Registries) (bytes : Bytes) : Except JavaException Ethernet :=
  newInstanceAt R bytes 0 bytes.length

/-- The tag word as `toBytes` composes it. -/
def tagControlInformation (e : Ethernet) : JShort :=
  toShort ((promote e.getPriorityCodePoint <<< 13 &&& 0x07#32) |||
    (promote e.getCanonicalFormatIndicator <<< 14 &&& 0x01#32) |||
    (promote e.getVlanIdentifier &&& 0x0fff#32))

/-- The body of `toBytes` on the wrapped array. -/
def write (e : Ethernet) : Op Unit := do
  putBytes e.destinationMacAddress.toBytes
  putBytes e.sourceMacAddress.toBytes
  (if e.getVlanIdentifier ≠ 0xffff then do
    putShort ProtocolType.DOT1Q_VLAN_TAGGED_FRAMES.value
    putShort e.tagControlInformation
  else pure ())
  putShort (mask16 e.ethernetType.value)
  putOptional e.nextPacket

def toBytes (e : Ethernet) : Except JavaException Bytes :=
  let headerLength := ETHERNET_HEADER_LENGTH +
    (if e.getVlanIdentifier ≠ 0xffff then VLAN_HEADER_LENGTH else 0) +
    (e.nextPacket.getD []).length
  let headerLength := if e.padding = true ∧ headerLength < 60 then 60 else headerLength
  encode headerLength e.write

section Decode

variable (R : Registries) (dst src : MacAddress) (type tci : JShort) (pre rest post : Bytes)

private theorem vlanIdentifier_ne : tci &&& 0xfff#16 ≠ 0xffff#16 := by
  intro h
  have hbit := congrArg (fun x => x.getLsbD 15) h
  simp at hbit

theorem read_untagged
    (h : ProtocolType.getInstance R.protocolType type ≠ ProtocolType.DOT1Q_VLAN_TAGGED_FRAMES) :
    eval (read R) ⟨pre, dst.toBytes ++ (src.toBytes ++ (shortBytes type ++ rest)), post⟩ =
      if pre = [] then .ok { new with
        destinationMacAddress := dst
        sourceMacAddress := src
        ethernetType := ProtocolType.getInstance R.protocolType type
        nextPacket := some rest }
      else .error .bufferUnderflow := by
  simp [read, h, new, setVlanIdentifier, getVlanIdentifier,
    MacAddress.MAC_ADDRESS_LENGTH, ETHERNET_HEADER_LENGTH]

theorem read_tagged (inner : JShort)
    (h : ProtocolType.getInstance R.protocolType type = ProtocolType.DOT1Q_VLAN_TAGGED_FRAMES) :
    eval (read R) ⟨pre, dst.toBytes ++ (src.toBytes ++ (shortBytes type ++ (shortBytes tci ++
      (shortBytes inner ++ rest)))), post⟩ =
      if pre = [] then .ok { new with
        destinationMacAddress := dst
        sourceMacAddress := src
        priorityCodePoint := toByte ((promote tci).sshiftRight 13) &&& 7#8
        canonicalFormatIndicator := toByte ((promote tci).sshiftRight 14) &&& 1#8
        vlanIdentifier := tci &&& 0xfff#16
        ethernetType := ProtocolType.getInstance R.protocolType inner
        nextPacket := some rest }
      else .error .bufferUnderflow := by
  simp [read, readTag, h, new, setVlanIdentifier, getVlanIdentifier,
    setPriorityCodePoint, setCanonicalFormatIndicator, vlanIdentifier_ne,
    MacAddress.MAC_ADDRESS_LENGTH, ETHERNET_HEADER_LENGTH, VLAN_HEADER_LENGTH]

/-- A whole array without a tag, and with one. -/
theorem newInstance_of_plain
    (h : ProtocolType.getInstance R.protocolType type ≠ ProtocolType.DOT1Q_VLAN_TAGGED_FRAMES) :
    newInstance R (dst.toBytes ++ (src.toBytes ++ (shortBytes type ++ rest))) = .ok { new with
      destinationMacAddress := dst
      sourceMacAddress := src
      ethernetType := ProtocolType.getInstance R.protocolType type
      nextPacket := some rest } := by
  rw [newInstance, newInstanceAt, decode_whole, read_untagged R dst src type [] rest [] h,
    if_pos rfl]

theorem newInstance_of_tag (inner : JShort)
    (h : ProtocolType.getInstance R.protocolType type = ProtocolType.DOT1Q_VLAN_TAGGED_FRAMES) :
    newInstance R (dst.toBytes ++ (src.toBytes ++ (shortBytes type ++ (shortBytes tci ++
      (shortBytes inner ++ rest))))) = .ok { new with
      destinationMacAddress := dst
      sourceMacAddress := src
      priorityCodePoint := toByte ((promote tci).sshiftRight 13) &&& 7#8
      canonicalFormatIndicator := toByte ((promote tci).sshiftRight 14) &&& 1#8
      vlanIdentifier := tci &&& 0xfff#16
      ethernetType := ProtocolType.getInstance R.protocolType inner
      nextPacket := some rest } := by
  rw [newInstance, newInstanceAt, decode_whole, read_tagged R dst src type tci [] rest [] inner h,
    if_pos rfl]

/-- The outer type is the tag protocol's own constant. -/
def Tagged (bytes : Bytes) : Prop :=
  ProtocolType.getInstance R.protocolType (shortAt bytes 12) =
    ProtocolType.DOT1Q_VLAN_TAGGED_FRAMES

instance (bytes : Bytes) : Decidable (Tagged R bytes) :=
  inferInstanceAs (Decidable (_ = _))

def header (bytes : Bytes) : Except JavaException Nat :=
  if 14 ≤ bytes.length ∧ Tagged R bytes then fixedHeader 18 bytes else fixedHeader 14 bytes

theorem read_needs : Needs (read R) 14 :=
  .bind (Address.read_consumes 6) fun _ => .bind (Address.read_consumes 6) fun _ =>
    .bind .getShort fun _ => .zero _

theorem readTag_needs (ethernet : Ethernet) : Needs (readTag R ethernet) 4 :=
  .bind .getShort fun _ => .bind .getShort fun _ => .zero _

theorem read_tagged_short
    (h : ProtocolType.getInstance R.protocolType type = ProtocolType.DOT1Q_VLAN_TAGGED_FRAMES)
    (hl : rest.length < 4) :
    eval (read R) ⟨pre, dst.toBytes ++ (src.toBytes ++ (shortBytes type ++ rest)), post⟩ =
      .error .bufferUnderflow := by
  simp only [read, eval_bind, MacAddress.MAC_ADDRESS_LENGTH, Address.read_append,
    getShort_append, if_pos h]
  rw [readTag_needs R _ _ hl]

theorem shortAt_type (bytes : Bytes) :
    shortAt (dst.toBytes ++ (src.toBytes ++ (shortBytes type ++ bytes))) 12 = type := by
  rw [← List.append_assoc]
  exact shortAt_append _ _ _ (by simp)

theorem shortAt_inner (tci inner : JShort) (bytes : Bytes) :
    shortAt (dst.toBytes ++ (src.toBytes ++ (shortBytes type ++ (shortBytes tci ++
      (shortBytes inner ++ bytes))))) 16 = inner := by
  simpa using shortAt_append (i := 16) (dst.toBytes ++ (src.toBytes ++ (shortBytes type ++
    shortBytes tci))) bytes inner (by simp)

/-- The two addresses and the type of a frame, and the tag that may follow them. -/
theorem exists_fields {bytes : Bytes} (h : 14 ≤ bytes.length) :
    ∃ (dst src : MacAddress) (type : JShort) (rest : Bytes),
      bytes = dst.toBytes ++ (src.toBytes ++ (shortBytes type ++ rest)) := by
  obtain ⟨dst, b1, rfl, h1⟩ := Address.exists_toBytes (n := 6) (k := 8) h
  obtain ⟨src, b2, rfl, h2⟩ := Address.exists_toBytes (n := 6) (k := 2) h1
  obtain ⟨type, rest, rfl, h3⟩ := exists_short (n := 0) h2
  exact ⟨dst, src, type, rest, rfl⟩

theorem exists_tag {bytes : Bytes} (h : 4 ≤ bytes.length) :
    ∃ (tci inner : JShort) (rest : Bytes),
      bytes = shortBytes tci ++ (shortBytes inner ++ rest) := by
  obtain ⟨tci, b1, rfl, h1⟩ := exists_short (n := 2) h
  obtain ⟨inner, rest, rfl, h2⟩ := exists_short (n := 0) h1
  exact ⟨tci, inner, rest, rfl⟩

theorem headerPayload : HeaderPayload (read R) nextPacket (header R) := by
  refine .of_cases fun bytes => ?_
  by_cases h14 : 14 ≤ bytes.length
  · obtain ⟨dst, src, type, b3, rfl⟩ := exists_fields h14
    have htype := shortAt_type dst src type b3
    by_cases ht : Tagged R (dst.toBytes ++ (src.toBytes ++ (shortBytes type ++ b3)))
    · have ht' := ht
      rw [Tagged, htype] at ht'
      rw [header, if_pos ⟨h14, ht⟩, fixedHeader]
      by_cases h18 : 4 ≤ b3.length
      · obtain ⟨tci, inner, rest, rfl⟩ := exists_tag h18
        refine .inr ⟨dst.toBytes ++ (src.toBytes ++ (shortBytes type ++ (shortBytes tci ++
          shortBytes inner))), rest, _, by simp, ?_, rfl, fun pre post =>
          read_tagged R dst src type tci pre rest post inner ht'⟩
        rw [if_pos (by simp; omega)]
        simp
      · refine .inl ⟨.bufferUnderflow, ?_, fun pre post =>
          read_tagged_short R dst src type pre b3 post ht' (by omega)⟩
        rw [if_neg (by simp; omega)]
    · have ht' := ht
      rw [Tagged, htype] at ht'
      rw [header, if_neg (fun h => ht h.2), fixedHeader, if_pos h14]
      exact .inr ⟨dst.toBytes ++ (src.toBytes ++ shortBytes type), b3, _, by simp, by simp, rfl,
        fun pre post => read_untagged R dst src type pre b3 post ht'⟩
  · refine .inl ⟨.bufferUnderflow, ?_,
      fun pre post => (read_needs R).eval pre bytes post (by omega)⟩
    rw [header, if_neg (fun h => h14 h.1), fixedHeader, if_neg h14]

theorem newInstance_ok {R : Registries} (hR : ProtocolType.Reachable R.protocolType) (b : Bytes)
    (h14 : 14 ≤ b.length) (h18 : shortAt b 12 = 0x8100 → 18 ≤ b.length) :
    ∃ e, newInstance R b = .ok e := by
  have hh : ∃ n, header R b = .ok n := by
    by_cases ht : Tagged R b
    · have hl := h18 (ProtocolType.getInstance_eq_dot1q hR ht)
      exact ⟨18, by rw [header, if_pos ⟨h14, ht⟩, fixedHeader, if_pos hl]⟩
    · exact ⟨14, by rw [header, if_neg (fun h => ht h.2), fixedHeader, if_pos h14]⟩
  obtain ⟨n, hn⟩ := hh
  obtain ⟨-, e, -, he⟩ := (headerPayload R).accepts hn
  refine ⟨e, ?_⟩
  rw [newInstance, newInstanceAt, decode_whole, he, if_pos rfl]

theorem newInstance_short {R : Registries} (b : Bytes) (h : b.length < 14) :
    newInstance R b = .error .bufferUnderflow := by
  rw [newInstance, newInstanceAt, decode_whole, (read_needs R).eval [] b [] h]

/-- A frame without a tag is two addresses, a type and the payload. -/
theorem eq_of_newInstance {R : Registries} {b : Bytes} {e : Ethernet}
    (h : newInstance R b = .ok e) (hv : e.vlanIdentifier = 0xffff#16) :
    ∃ (dst src : MacAddress) (type : JShort) (rest : Bytes),
      b = dst.toBytes ++ (src.toBytes ++ (shortBytes type ++ rest)) ∧
      e = { new with
        destinationMacAddress := dst
        sourceMacAddress := src
        ethernetType := ProtocolType.getInstance R.protocolType type
        nextPacket := some rest } := by
  by_cases h14 : 14 ≤ b.length
  · obtain ⟨dst, src, type, rest, rfl⟩ := exists_fields h14
    refine ⟨dst, src, type, rest, rfl, ?_⟩
    by_cases ht : ProtocolType.getInstance R.protocolType type =
        ProtocolType.DOT1Q_VLAN_TAGGED_FRAMES
    · by_cases h18 : 4 ≤ rest.length
      · obtain ⟨tci, inner, rest, rfl⟩ := exists_tag h18
        rw [newInstance_of_tag R dst src type tci rest inner ht] at h
        cases h
        exact absurd hv (vlanIdentifier_ne tci)
      · rw [newInstance, newInstanceAt, decode_whole,
          read_tagged_short R dst src type [] rest [] ht (by omega)] at h
        cases h
    · rw [newInstance_of_plain R dst src type rest ht] at h
      cases h
      rfl
  · rw [newInstance_short b (by omega)] at h
    cases h

end Decode

section Encode

/-- The bytes that an object without padding is written as. -/
def bytes (e : Ethernet) : Bytes :=
  e.destinationMacAddress.toBytes ++ (e.sourceMacAddress.toBytes ++
    ((if e.getVlanIdentifier ≠ 0xffff then
      shortBytes ProtocolType.DOT1Q_VLAN_TAGGED_FRAMES.value ++
        shortBytes e.tagControlInformation else []) ++
    (shortBytes (mask16 e.ethernetType.value) ++ e.nextPacket.getD [])))

theorem writes (e : Ethernet) : Writes e.write e.bytes :=
  .bind (.putBytes _) <| .bind (.putBytes _) <|
    .bind (.ite (.bind (.putShort _) (.putShort _))) <| .bind (.putShort _) (.putOptional _)

theorem toBytes_eq (e : Ethernet) (h : e.padding = false) : e.toBytes = .ok e.bytes := by
  simp only [toBytes, h, Bool.false_eq_true, false_and, if_false]
  refine e.writes.encode_exact ?_
  by_cases hv : e.getVlanIdentifier ≠ 0xffff
  · simp only [bytes, if_pos hv, ETHERNET_HEADER_LENGTH, VLAN_HEADER_LENGTH]
    simp
    omega
  · simp only [bytes, if_neg hv, ETHERNET_HEADER_LENGTH]
    simp
    omega

/-- Every bit that the two shifts move lies outside the mask that follows: only the VLAN
identifier reaches the tag. -/
theorem tagControlInformation_eq (e : Ethernet) :
    e.tagControlInformation = e.vlanIdentifier &&& 0xfff#16 := by
  have h13 := shiftLeft_and_eq_zero (promote e.getPriorityCodePoint) 0x07#32 13 (by decide)
  have h14 := shiftLeft_and_eq_zero (promote e.getCanonicalFormatIndicator) 0x01#32 14 (by decide)
  simp [tagControlInformation, h13, h14, getVlanIdentifier]

end Encode

section RoundTrip

/-- `newInstance(b).toBytes()`. -/
def reencode (R : Registries) (b : Bytes) : Except JavaException Bytes :=
  (newInstance R b).bind toBytes

/-- The type of the frame, for a tagged frame the inner one. -/
def frameType (R : Registries) (b : Bytes) : JShort :=
  if Tagged R b then shortAt b 16 else shortAt b 12

/-- A frame whose header is complete: its type, and all the bytes behind the header. -/
theorem newInstance_of_header {R : Registries} {b : Bytes} {n : Nat} (h : header R b = .ok n) :
    ∃ e, newInstance R b = .ok e ∧
      e.ethernetType = ProtocolType.getInstance R.protocolType (frameType R b) ∧
      e.nextPacket = some (b.drop n) := by
  by_cases ht : 14 ≤ b.length ∧ Tagged R b
  · rw [header, if_pos ht] at h
    obtain ⟨rfl, h18⟩ := fixedHeader_ok h
    obtain ⟨dst, src, type, b3, rfl⟩ := exists_fields ht.1
    have hb3 : 4 ≤ b3.length := by
      simp at h18
      omega
    obtain ⟨tci, inner, rest, rfl⟩ := exists_tag hb3
    have ht' := ht.2
    rw [Tagged, shortAt_type] at ht'
    have hinner := shortAt_inner dst src type tci inner rest
    have hdrop : (dst.toBytes ++ (src.toBytes ++ (shortBytes type ++ (shortBytes tci ++
        (shortBytes inner ++ rest))))).drop 18 = rest := by
      simpa using @List.drop_left' _ (dst.toBytes ++ (src.toBytes ++ (shortBytes type ++
        (shortBytes tci ++ shortBytes inner)))) rest 18 (by simp)
    rw [newInstance_of_tag R dst src type tci rest inner ht', frameType, if_pos ht.2, hinner, hdrop]
    exact ⟨_, rfl, rfl, rfl⟩
  · rw [header, if_neg ht] at h
    obtain ⟨rfl, h14⟩ := fixedHeader_ok h
    have hplain : ¬ Tagged R b := fun htag => ht ⟨h14, htag⟩
    obtain ⟨dst, src, type, rest, rfl⟩ := exists_fields h14
    have hplain' := hplain
    rw [Tagged, shortAt_type] at hplain'
    have hdrop : (dst.toBytes ++ (src.toBytes ++ (shortBytes type ++ rest))).drop 14 = rest := by
      simpa using @List.drop_left' _ (dst.toBytes ++ (src.toBytes ++ shortBytes type)) rest 14
        (by simp)
    rw [newInstance_of_plain R dst src type rest hplain', frameType, if_neg hplain, shortAt_type,
      hdrop]
    exact ⟨_, rfl, rfl, rfl⟩

/-- The fields as the getters return them, the two that an untagged frame has no room for
excepted, and null counted as empty. -/
structure SameFields (e e' : Ethernet) : Prop where
  destinationMacAddress : e'.destinationMacAddress = e.destinationMacAddress
  sourceMacAddress : e'.sourceMacAddress = e.sourceMacAddress
  vlanIdentifier : e'.getVlanIdentifier = e.getVlanIdentifier
  ethernetType : e'.ethernetType = e.ethernetType
  padding : e'.padding = e.padding
  payload : e'.nextPacket.getD [] = e.nextPacket.getD []

theorem newInstance_bytes (R : Registries) (e : Ethernet) (hv : e.getVlanIdentifier = 0xffff)
    (hp : e.padding = false)
    (ht : ProtocolType.getInstance R.protocolType e.ethernetType.value = e.ethernetType)
    (hne : e.ethernetType ≠ ProtocolType.DOT1Q_VLAN_TAGGED_FRAMES) :
    ∃ e', newInstance R e.bytes = .ok e' ∧ SameFields e e' ∧
      e'.nextPacket = some (e.nextPacket.getD []) := by
  have hbytes : e.bytes = e.destinationMacAddress.toBytes ++ (e.sourceMacAddress.toBytes ++
      (shortBytes e.ethernetType.value ++ e.nextPacket.getD [])) := by
    simp [bytes, hv]
  have hnew := newInstance_of_plain R e.destinationMacAddress e.sourceMacAddress
    e.ethernetType.value (e.nextPacket.getD []) (by rwa [ht])
  rw [hbytes]
  refine ⟨_, hnew, ⟨rfl, rfl, ?_, ht, hp.symm, rfl⟩, rfl⟩
  simpa [getVlanIdentifier, new] using hv.symm

variable {R : Registries} (hR : ProtocolType.Reachable R.protocolType)
include hR

theorem reencode_untagged (dst src : MacAddress) (type : JShort) (rest : Bytes)
    (hk : ProtocolType.Known R.protocolType type)
    (ht : ProtocolType.getInstance R.protocolType type ≠ ProtocolType.DOT1Q_VLAN_TAGGED_FRAMES) :
    reencode R (dst.toBytes ++ (src.toBytes ++ (shortBytes type ++ rest))) =
      .ok (dst.toBytes ++ (src.toBytes ++ (shortBytes type ++ rest))) := by
  have hv := ProtocolType.getInstance_value hR hk
  rw [reencode, newInstance_of_plain R dst src type rest ht]
  refine (toBytes_eq _ rfl).trans ?_
  simp [bytes, getVlanIdentifier, hv, new]

/-- The encoder writes the low 12 bits of the tag. -/
theorem reencode_tagged (dst src : MacAddress) (type tci inner : JShort) (rest : Bytes)
    (hk : ProtocolType.Known R.protocolType inner)
    (ht : ProtocolType.getInstance R.protocolType type = ProtocolType.DOT1Q_VLAN_TAGGED_FRAMES) :
    reencode R (dst.toBytes ++ (src.toBytes ++ (shortBytes type ++ (shortBytes tci ++
      (shortBytes inner ++ rest))))) =
    .ok (dst.toBytes ++ (src.toBytes ++ (shortBytes type ++ (shortBytes (tci &&& 0xfff#16) ++
      (shortBytes inner ++ rest))))) := by
  have hv := ProtocolType.getInstance_value hR hk
  have htype := ProtocolType.getInstance_eq_dot1q hR ht
  rw [reencode, newInstance_of_tag R dst src type tci rest inner ht]
  refine (toBytes_eq _ rfl).trans ?_
  simp [bytes, tagControlInformation_eq, getVlanIdentifier, vlanIdentifier_ne, hv, htype,
    ProtocolType.DOT1Q_VLAN_TAGGED_FRAMES]

end RoundTrip

/-- A decoded frame is written back as it was read iff it has no tag, or a tag whose priority
and format bits are 0. -/
theorem toBytes_newInstance_iff (R : Registries) (hR : ProtocolType.Reachable R.protocolType)
    (b : Bytes) (h14 : 14 ≤ b.length) (h18 : shortAt b 12 = 0x8100 → 18 ≤ b.length)
    (hk : ProtocolType.Known R.protocolType (frameType R b)) :
    reencode R b = .ok b ↔ ¬ Tagged R b ∨ shortAt b 14 &&& 0xf000#16 = 0#16 := by
  obtain ⟨dst, src, type, b3, rfl⟩ := exists_fields h14
  have htype := shortAt_type dst src type b3
  by_cases ht : Tagged R (dst.toBytes ++ (src.toBytes ++ (shortBytes type ++ b3)))
  · have ht' := ht
    rw [Tagged, htype] at ht'
    have hb3 : 4 ≤ b3.length := by
      have hl := h18 (htype.trans (ProtocolType.getInstance_eq_dot1q hR ht'))
      simp at hl
      omega
    obtain ⟨tci, inner, rest, rfl⟩ := exists_tag hb3
    have htci : shortAt (dst.toBytes ++ (src.toBytes ++ (shortBytes type ++ (shortBytes tci ++
        (shortBytes inner ++ rest))))) 14 = tci := by
      simpa using shortAt_append (i := 14) (dst.toBytes ++ (src.toBytes ++ shortBytes type))
        (shortBytes inner ++ rest) tci (by simp)
    have hinner := shortAt_inner dst src type tci inner rest
    rw [frameType, if_pos ht, hinner] at hk
    have hmask : tci &&& 0xfff#16 = tci ↔ tci &&& 0xf000#16 = 0#16 := and_eq_self_iff tci 0xfff#16
    simp [reencode_tagged hR dst src type tci inner rest hk ht', ht, htci, hmask]
  · have ht' := ht
    rw [Tagged, htype] at ht'
    rw [frameType, if_neg ht, htype] at hk
    simp [reencode_untagged hR dst src type b3 hk ht', ht]

/-- A frame with priority 7, tagged for VLAN 5. -/
def priorityFrame : Bytes :=
  [0, 0, 0, 0, 0, 1, 0, 0, 0, 0, 0, 2, 0x81, 0x00, 0xe0, 0x05, 0x08, 0x00]

theorem priority_is_lost :
    14 ≤ priorityFrame.length ∧ 18 ≤ priorityFrame.length ∧
      ProtocolType.Known ProtocolType.initial (frameType Registries.initial priorityFrame) ∧
      reencode Registries.initial priorityFrame ≠ .ok priorityFrame :=
  ⟨by decide, by decide, by decide, by decide⟩

theorem priorityFrame_reencode :
    reencode Registries.initial priorityFrame = .ok priorityFrame ↔
      ¬ Tagged Registries.initial priorityFrame ∨ shortAt priorityFrame 14 &&& 0xf000#16 = 0#16 :=
  toBytes_newInstance_iff Registries.initial .initial priorityFrame (by decide) (by decide)
    (by decide)

end Ethernet

end Jxnet
