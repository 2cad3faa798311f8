import Jxnet.Packet.Ethernet
import Jxnet.Packet.LinkLayer
import Jxnet.Packet.ARP
import Jxnet.Packet.Registration

namespace Jxnet

open Java ByteBuffer

namespace Ethernet

/-- The size of the frame, with the minimum of 60 bytes where it is padded. -/
def frameSize (e : Ethernet) : Nat :=
  if e.padding then max (14 + (e.nextPacket.getD []).length) 60
  else 14 + (e.nextPacket.getD []).length

theorem le_frameSize (e : Ethernet) : 14 + (e.nextPacket.getD []).length ≤ e.frameSize := by
  rw [frameSize]
  split
  · exact Nat.le_max_left _ _
  · exact Nat.le_refl _

/-- The zeros that the array keeps behind the payload. -/
def trailer (e : Ethernet) : Bytes :=
  List.replicate (e.frameSize - (14 + (e.nextPacket.getD []).length)) 0

theorem bytes_untagged (e : Ethernet) (hv : e.getVlanIdentifier = 0xffff) :
    e.bytes = e.destinationMacAddress.toBytes ++ (e.sourceMacAddress.toBytes ++
      (shortBytes e.ethernetType.value ++ e.nextPacket.getD [])) := by
  simp [bytes, hv]

/-- The encoder leaves the padding as it was allocated. -/
theorem toBytes_untagged (e : Ethernet) (hv : e.getVlanIdentifier = 0xffff) :
    e.toBytes = .ok (e.bytes ++ e.trailer) := by
  have hlen : e.bytes.length = 14 + (e.nextPacket.getD []).length := by
    rw [bytes_untagged e hv]
    simp
    omega
  have hsize : (if e.padding = true ∧ 14 + 0 + (e.nextPacket.getD []).length < 60 then 60
      else 14 + 0 + (e.nextPacket.getD []).length) = e.frameSize := by
    rw [frameSize]
    cases e.padding with
    | false => simp
    | true =>
      simp only [true_and, if_true]
      split <;> omega
  have hle := e.le_frameSize
  rw [← hlen] at hle
  have hencode := e.writes.encode_padded hle
  rw [hlen] at hencode
  simp only [toBytes, ETHERNET_HEADER_LENGTH, if_neg (not_not.mpr hv), hsize]
  exact hencode

/-- An untagged frame comes back with its addresses, its type number and its payload, and with
nothing else than zeros behind that. -/
theorem newInstance_untagged (R : Registries) (hR : ProtocolType.Reachable R.protocolType)
    (e : Ethernet) (hv : e.getVlanIdentifier = 0xffff)
    (hk : ProtocolType.Known R.protocolType e.ethernetType.value ∨
      e.ethernetType.value = ProtocolType.UNKNOWN.value)
    (hne : e.ethernetType.value ≠ 0x8100) :
    ∃ bytes e', e.toBytes = .ok bytes ∧
      bytes.length = (if e.padding then max (14 + (e.nextPacket.getD []).length) 60
        else 14 + (e.nextPacket.getD []).length) ∧
      newInstance R bytes = .ok e' ∧
      e'.destinationMacAddress = e.destinationMacAddress ∧
      e'.sourceMacAddress = e.sourceMacAddress ∧
      e'.ethernetType.value = e.ethernetType.value ∧ e'.getVlanIdentifier = 0xffff ∧
      e'.nextPacket = some (e.nextPacket.getD [] ++
        List.replicate (bytes.length - (14 + (e.nextPacket.getD []).length)) 0) := by
  have hlen : (e.bytes ++ e.trailer).length = e.frameSize := by
    have hle := e.le_frameSize
    rw [bytes_untagged e hv, trailer]
    simp
    omega
  have hvalue := ((ProtocolType.looksUp hR).value_iff e.ethernetType.value).mpr hk
  have hplain : ProtocolType.getInstance R.protocolType e.ethernetType.value ≠
      ProtocolType.DOT1Q_VLAN_TAGGED_FRAMES :=
    fun h => hne (ProtocolType.getInstance_eq_dot1q hR h)
  have hnew := newInstance_of_plain R e.destinationMacAddress e.sourceMacAddress
    e.ethernetType.value (e.nextPacket.getD [] ++ e.trailer) hplain
  have hbytes : e.bytes ++ e.trailer = e.destinationMacAddress.toBytes ++
      (e.sourceMacAddress.toBytes ++ (shortBytes e.ethernetType.value ++
        (e.nextPacket.getD [] ++ e.trailer))) := by
    simp [bytes_untagged e hv]
  rw [← hbytes] at hnew
  refine ⟨_, _, toBytes_untagged e hv, hlen, hnew, rfl, rfl, hvalue, ?_, ?_⟩
  · simp [getVlanIdentifier, new]
  · rw [hlen, trailer]

/-- A short IPv4 frame that is to be padded. -/
def shortFrame : Ethernet :=
  { new with ethernetType := ProtocolType.IPV4, padding := true, nextPacket := some [1, 2, 3] }

theorem shortFrame_comes_back :
    ∃ bytes e', shortFrame.toBytes = .ok bytes ∧ bytes.length = 60 ∧
      newInstance Registries.initial bytes = .ok e' ∧
      e'.nextPacket = some ([1, 2, 3] ++ List.replicate 43 0) := by
  obtain ⟨bytes, e', hbytes, hlen, he', -, -, -, -, hpayload⟩ := newInstance_untagged
    Registries.initial .initial shortFrame (by decide) (.inl (by decide)) (by decide)
  refine ⟨bytes, e', hbytes, hlen, he', ?_⟩
  rw [hlen] at hpayload
  exact hpayload

end Ethernet

namespace ARP

section Message

variable (hardwareType protocolType operationCode : JShort) (senderHardware : MacAddress)
  (senderProtocol : Inet4Address) (targetHardware : MacAddress) (targetProtocol : Inet4Address)
  (rest : Bytes)

/-- A message with the lengths that the decoder accepts, and what follows it. -/
def message : Bytes :=
  shortBytes hardwareType ++ (shortBytes protocolType ++ (6 :: 4 :: (shortBytes operationCode ++
    (senderHardware.toBytes ++ (senderProtocol.toBytes ++ (targetHardware.toBytes ++
      (targetProtocol.toBytes ++ rest)))))))

theorem message_hardwareType : shortAt (message hardwareType protocolType operationCode
    senderHardware senderProtocol targetHardware targetProtocol rest) 0 = hardwareType :=
  shortAt_append [] _ hardwareType rfl

theorem message_protocolType : shortAt (message hardwareType protocolType operationCode
    senderHardware senderProtocol targetHardware targetProtocol rest) 2 = protocolType :=
  shortAt_append (shortBytes hardwareType) _ protocolType (shortBytes_length _)

theorem message_operationCode : shortAt (message hardwareType protocolType operationCode
    senderHardware senderProtocol targetHardware targetProtocol rest) 6 = operationCode := by
  have h := @shortAt_append 6 (shortBytes hardwareType ++ (shortBytes protocolType ++ [6, 4]))
    (senderHardware.toBytes ++ (senderProtocol.toBytes ++ (targetHardware.toBytes ++
      (targetProtocol.toBytes ++ rest)))) operationCode (by simp)
  simpa [message] using h

theorem message_take : (message hardwareType protocolType operationCode senderHardware
    senderProtocol targetHardware targetProtocol rest).take 28 = message hardwareType protocolType
      operationCode senderHardware senderProtocol targetHardware targetProtocol [] := by
  have hlen : (message hardwareType protocolType operationCode senderHardware senderProtocol
      targetHardware targetProtocol []).length = 28 := by
    simp [message]
  have hsplit : message hardwareType protocolType operationCode senderHardware senderProtocol
      targetHardware targetProtocol rest = message hardwareType protocolType operationCode
        senderHardware senderProtocol targetHardware targetProtocol [] ++ rest := by
    simp [message]
  rw [hsplit, List.take_left' hlen]

end Message

theorem exists_message {b : Bytes} (h28 : 28 ≤ b.length) (h6 : byteAt b 4 = 6)
    (h4 : byteAt b 5 = 4) :
    ∃ hardwareType protocolType operationCode senderHardware senderProtocol targetHardware
      targetProtocol rest, b = message hardwareType protocolType operationCode senderHardware
        senderProtocol targetHardware targetProtocol rest := by
  obtain ⟨hardwareType, b1, rfl, h1⟩ := exists_short (n := 26) h28
  obtain ⟨protocolType, b2, rfl, h2⟩ := exists_short (n := 24) h1
  obtain ⟨x, b3, rfl, h3⟩ := exists_byte (n := 23) h2
  obtain ⟨y, b4, rfl, h4'⟩ := exists_byte (n := 22) h3
  obtain ⟨operationCode, b5, rfl, h5⟩ := exists_short (n := 20) h4'
  obtain ⟨senderHardware, b6, rfl, h6'⟩ := Address.exists_toBytes (n := 6) (k := 14) h5
  obtain ⟨senderProtocol, b7, rfl, h7⟩ := Address.exists_toBytes (n := 4) (k := 10) h6'
  obtain ⟨targetHardware, b8, rfl, h8⟩ := Address.exists_toBytes (n := 6) (k := 4) h7
  obtain ⟨targetProtocol, rest, rfl, h9⟩ := Address.exists_toBytes (n := 4) (k := 0) h8
  have hx : x = 6 := h6
  have hy : y = 4 := h4
  exact ⟨hardwareType, protocolType, operationCode, senderHardware, senderProtocol,
    targetHardware, targetProtocol, rest, by rw [hx, hy, message]⟩

theorem getValue_of_valueOf {value : JShort} {d : DataLinkType}
    (h : DataLinkType.valueOf value = some d) : d.getValue = value := by
  simpa using List.find?_some h

/-- The decoder takes a message iff it carries an Ethernet and an IPv4 address, and where its
three numbers are known the encoder writes the same 28 bytes. -/
theorem newInstance_iff_toBytes_take {R : Registries} (hR : R.Reachable) (b : Bytes) :
    ((∃ a, newInstance R b = .ok a) ↔ 28 ≤ b.length ∧ byteAt b 4 = 6 ∧ byteAt b 5 = 4) ∧
    ∀ a, newInstance R b = .ok a → DataLinkType.valueOf (shortAt b 0) ≠ none →
      R.protocolType.containsKey (shortAt b 2) = true →
      R.arpOperationCode.containsKey (shortAt b 6) = true → a.toBytes = .ok (b.take 28) := by
  refine ⟨newInstance_ok_iff R b, ?_⟩
  intro a ha hd hp ho
  obtain ⟨h28, h6, h4⟩ := (newInstance_ok_iff R b).mp ⟨a, ha⟩
  obtain ⟨hardwareType, protocolType, operationCode, senderHardware, senderProtocol,
    targetHardware, targetProtocol, rest, rfl⟩ := exists_message h28 h6 h4
  rw [message_hardwareType] at hd
  rw [message_protocolType] at hp
  rw [message_operationCode] at ho
  obtain ⟨d, hd⟩ := Option.ne_none_iff_exists'.mp hd
  rw [newInstance, newInstanceAt, decode_whole, message, read_append] at ha
  cases ha
  have hpvalue := ProtocolType.getInstance_value hR.keyed.protocolType (.inl hp)
  have hovalue := ((LooksUp.getD hR.keyed.arpOperationCode ARPOperationCode.UNKNOWN).value_iff
    operationCode).mpr (.inl ho)
  rw [toBytes_eq _ d hd, message_take]
  refine congrArg Except.ok ?_
  simp [bytes, message, getValue_of_valueOf hd, hpvalue, ARPOperationCode.getInstance, hovalue,
    getHardwareAddressLength, getProtocolAddressLength]

/-- A request of 28 bytes and a trailer of two. -/
def paddedRequest : Bytes :=
  [0, 1, 8, 0, 6, 4, 0, 1] ++ List.replicate 20 7 ++ [9, 9]

theorem paddedRequest_comes_back :
    ∃ a, newInstance Registries.initial paddedRequest = .ok a ∧
      a.toBytes = .ok (paddedRequest.take 28) := by
  obtain ⟨hok, hbytes⟩ := newInstance_iff_toBytes_take (R := Registries.initial) .initial
    paddedRequest
  obtain ⟨a, ha⟩ := hok.mpr (by decide)
  exact ⟨a, ha, hbytes a ha (by decide) (by decide) (by decide)⟩

end ARP

namespace SLL

/-- `newInstance(b).toBytes()`. -/
def reencode (R : Registries) (b : Bytes) : Except JavaException Bytes :=
  (newInstance R b).bind toBytes

/-- The header bytes that `toBytes` puts in front of the payload. -/
def headerBytes (s : SLL) (protocol : ProtocolType) : Bytes :=
  shortBytes s.packetType ++ (shortBytes s.hardwareAddressType ++
    (shortBytes s.hardwareAddressLength ++ (s.address ++ shortBytes protocol.value)))

/-- The array has room for the header only. -/
theorem toBytes_eq (s : SLL) {protocol : ProtocolType} {payload : Bytes}
    (hp : s.protocol = some protocol) (hn : s.nextPacket = some payload)
    (ha : s.address.length = 8) :
    s.toBytes = if payload = [] then .ok (s.headerBytes protocol)
      else .error .bufferOverflow := by
  have hputs : Puts (do
      putShort s.packetType
      putShort s.hardwareAddressType
      putShort s.hardwareAddressLength
      putBytes s.address
      putShort protocol.value
      putBytes payload) _ :=
    .bind (.putShort _) <| .bind (.putShort _) <| .bind (.putShort _) <| .bind (.putBytes _) <|
      .bind (.putShort _) (.putBytes _)
  have hlen : (s.headerBytes protocol).length = 16 := by simp [headerBytes, ha]
  have hassoc : shortBytes s.packetType ++ (shortBytes s.hardwareAddressType ++
      (shortBytes s.hardwareAddressLength ++ (s.address ++ (shortBytes protocol.value ++
        payload)))) = s.headerBytes protocol ++ payload := by
    simp [headerBytes]
  rw [hassoc] at hputs
  simp only [toBytes, hn, hp, getPacketType, getHardwareAddressType, getHardwareAddressLength,
    mask16_eq]
  by_cases h : payload = []
  · subst h
    rw [List.append_nil] at hputs
    rw [if_pos rfl]
    exact hputs.writes.encode_exact hlen
  · have hpos := List.length_pos_iff.mpr h
    rw [if_neg h]
    refine hputs.encode_overflow ?_
    rw [List.length_append, hlen]
    exact Nat.lt_add_of_pos_right hpos

/-- A decoded frame is written back iff there is nothing behind its header. -/
theorem reencode_iff {R : Registries} (hR : ProtocolType.Reachable R.protocolType) (b : Bytes)
    (h : 16 ≤ b.length) (hk : R.protocolType.containsKey (shortAt b 14) = true) :
    reencode R b = .ok b ↔ b.length = 16 := by
  obtain ⟨packetType, addressType, addressLength, address, protocol, rest, ha, rfl⟩ :=
    exists_fields h
  have hprotocol := @shortAt_append 14 (shortBytes packetType ++ (shortBytes addressType ++
    (shortBytes addressLength ++ address))) rest protocol (by simp [ha])
  simp only [List.append_assoc] at hprotocol
  rw [hprotocol] at hk
  have hvalue := ProtocolType.getInstance_value hR (.inl hk)
  have hnew := newInstance_append R packetType addressType addressLength address protocol rest ha
  have hbytes := toBytes_eq ⟨packetType, addressType, addressLength, address,
    ProtocolType.getInstance R.protocolType protocol, some rest⟩ rfl rfl ha
  rw [reencode, hnew, Except.bind, hbytes]
  by_cases hrest : rest = []
  · subst hrest
    simp [headerBytes, hvalue, ha]
  · have hpos := List.length_pos_iff.mpr hrest
    simp only [if_neg hrest, reduceCtorEq, false_iff]
    simp [ha]
    omega

end SLL

namespace RadioTap

/-- `newInstance(b).toBytes()`. -/
def reencode (b : Bytes) : Except JavaException Bytes := (newInstance b).bind toBytes

theorem toBytes_eq (r : RadioTap) :
    r.toBytes = .ok (r.version :: r.padding :: (shortBytes r.length ++
      (intBytes (promote (toByte r.present)) ++ r.nextPacket.getD []))) := by
  have hw : Writes (do
      put r.getVersion
      put r.getPadding
      putShort r.getLength
      putInt r.getPresent
      putOptional r.nextPacket) _ :=
    .bind (.put _) <| .bind (.put _) <| .bind (.putShort _) <| .bind (.putInt _) (.putOptional _)
  have hencode := hw.encode_exact (n := 8 + (r.nextPacket.getD []).length) (by simp; omega)
  simp only [getVersion, getPadding, getLength, getPresent, mask8_eq, mask16_eq, mask32_eq,
    List.singleton_append] at hencode
  rw [toBytes, RADIO_TAP_HEADER]
  simp only [getVersion, getPadding, getLength, getPresent, mask8_eq, mask16_eq, mask32_eq]
  exact hencode

/-- The word that is kept and written is the one that was read, where a `byte` holds it. -/
theorem reencode_iff (b : Bytes) (h : 8 ≤ b.length) :
    (reencode b = .ok b ∧ ∃ r, newInstance b = .ok r ∧ r.getPresent = intAt b 4) ↔
      -128 ≤ (intAt b 4).toInt ∧ (intAt b 4).toInt ≤ 127 := by
  obtain ⟨version, padding, length, present, rest, rfl⟩ := exists_fields h
  have hpresent := @intAt_append 4 (version :: padding :: shortBytes length) rest present (by simp)
  simp only [List.cons_append] at hpresent
  have hnew := newInstance_append version padding length present rest
  rw [hpresent, ← promote_toByte_eq_iff, reencode, hnew]
  constructor
  · intro hr
    obtain ⟨-, r, hr, heq⟩ := hr
    cases hr
    simpa [getPresent] using heq
  · intro heq
    refine ⟨?_, _, rfl, by simpa [getPresent] using heq⟩
    refine (toBytes_eq _).trans ?_
    simp [heq]

end RadioTap

/-- A frame is written back as it was read: of a cooked frame the header only, of a radio frame
a word of flags that a `byte` holds. -/
theorem reencode_link_iff {R : Registries} (hR : ProtocolType.Reachable R.protocolType) :
    (∀ b : Bytes, 16 ≤ b.length → R.protocolType.containsKey (shortAt b 14) = true →
      (SLL.reencode R b = .ok b ↔ b.length = 16)) ∧
    ∀ b : Bytes, 8 ≤ b.length →
      ((RadioTap.reencode b = .ok b ∧
          ∃ r, RadioTap.newInstance b = .ok r ∧ r.getPresent = intAt b 4) ↔
        -128 ≤ (intAt b 4).toInt ∧ (intAt b 4).toInt ≤ 127) :=
  ⟨fun b h hk => SLL.reencode_iff hR b h hk, fun b h => RadioTap.reencode_iff b h⟩

/-- A cooked IPv4 frame with one byte behind the header, and a radio frame with two flags. -/
def cookedFrame : Bytes := List.replicate 14 0 ++ [8, 0, 1]

def radioFrame : Bytes := [0, 0, 8, 0, 0x2f, 0x40, 0, 0]

theorem link_frames_are_lost :
    (16 ≤ cookedFrame.length ∧
      Registries.initial.protocolType.containsKey (shortAt cookedFrame 14) = true ∧
      SLL.reencode Registries.initial cookedFrame = .error .bufferOverflow) ∧
    8 ≤ radioFrame.length ∧ RadioTap.reencode radioFrame ≠ .ok radioFrame ∧
      ∀ r, RadioTap.newInstance radioFrame = .ok r → r.getPresent ≠ intAt radioFrame 4 := by
  refine ⟨⟨by decide, by decide, by decide⟩, by decide, by decide, ?_⟩
  intro r hr
  cases hr
  decide

theorem cooked_header_comes_back :
    SLL.reencode Registries.initial (cookedFrame.take 16) = .ok (cookedFrame.take 16) :=
  ((reencode_link_iff (R := Registries.initial) .initial).1 (cookedFrame.take 16) (by decide)
    (by decide)).mpr (by decide)

end Jxnet
