import Jxnet.Packet.Registry

namespace Jxnet

open Java ByteBuffer

structure ARP where
  hardwareType : Option DataLinkType
  protocolType : ProtocolType
  hardwareAddressLength : JByte
  protocolAddressLength : JByte
  operationCode : ARPOperationCode
  senderHardwareAddress : MacAddress
  senderProtocolAddress : Inet4Address
  targetHardwareAddress : MacAddress
  targetProtocolAddress : Inet4Address
  deriving DecidableEq, Repr

namespace ARP

def ARP_HEADER_LENGTH : Nat := 28

/-- The constructor. -/
def new : ARP where
  hardwareType := DataLinkType.UNKNOWN
  protocolType := ProtocolType.ARP
  hardwareAddressLength := 6
  protocolAddressLength := 4
  operationCode := ARPOperationCode.UNKNOWN
  senderHardwareAddress := MacAddress.ZERO
  senderProtocolAddress := Inet4Address.LOCALHOST
  targetHardwareAddress := MacAddress.ZERO
  targetProtocolAddress := Inet4Address.LOCALHOST

def getHardwareAddressLength (a : ARP) : JByte := mask8 a.hardwareAddressLength

def setHardwareAddressLength (a : ARP) (hardwareAddressLength : JByte) : ARP :=
  { a with hardwareAddressLength := mask8 hardwareAddressLength }

def getProtocolAddressLength (a : ARP) : JByte := mask8 a.protocolAddressLength

def setProtocolAddressLength (a : ARP) (protocolAddressLength : JByte) : ARP :=
  { a with protocolAddressLength := mask8 protocolAddressLength }

/-- The sender's lengths are read as unsigned bytes, the target's as signed ones. -/
def read (R : Registries) : Op ARP := do
  let arp := new
  let hardwareType := DataLinkType.valueOf (← getShort)
  let protocolType := ProtocolType.getInstance R.protocolType (← getShort)
  let arp := arp.setHardwareAddressLength (← ByteBuffer.get)
  let arp := arp.setProtocolAddressLength (← ByteBuffer.get)
  let operationCode := ARPOperationCode.getInstance R.arpOperationCode (← getShort)
  let hwAddrBuf ← getArray (promote arp.getHardwareAddressLength &&& 0xff#32).toInt
  let senderHardwareAddress ← lift (MacAddress.valueOf hwAddrBuf)
  let addrBuf ← getArray (promote arp.getProtocolAddressLength &&& 0xff#32).toInt
  let senderProtocolAddress ← lift (Inet4Address.valueOf addrBuf)
  let hwAddrBuf ← getArray arp.getHardwareAddressLength.toInt
  let targetHardwareAddress ← lift (MacAddress.valueOf hwAddrBuf)
  let addrBuf ← getArray arp.getProtocolAddressLength.toInt
  let targetProtocolAddress ← lift (Inet4Address.valueOf addrBuf)
  pure { arp with
    hardwareType
    protocolType
    operationCode
    senderHardwareAddress
    senderProtocolAddress
    targetHardwareAddress
    targetProtocolAddress }

def newInstanceAt (R : Registries) (bytes : Bytes) (offset length : Nat) :
    Except JavaException ARP :=
  decode (read R) bytes offset length

def newInstance (R : Registries) (bytes : Bytes) : Except JavaException ARP :=
  newInstanceAt R bytes 0 bytes.length

def write (a : ARP) (hardwareType : DataLinkType) : Op Unit := do
  putShort hardwareType.getValue
  putShort a.protocolType.value
  put a.getHardwareAddressLength
  put a.getProtocolAddressLength
  putShort a.operationCode.value
  putBytes a.senderHardwareAddress.toBytes
  putBytes a.senderProtocolAddress.toBytes
  putBytes a.targetHardwareAddress.toBytes
  putBytes a.targetProtocolAddress.toBytes

def toBytes (a : ARP) : Except JavaException Bytes :=
  match a.hardwareType with
  | none => .error .nullPointer
  | some hardwareType => encode (ARP_HEADER_LENGTH : Nat) (a.write hardwareType)

section Decode

variable (R : Registries)

theorem read_local : Local (read R) :=
  .bind .getShort fun _ => .bind .getShort fun _ => .bind .get fun _ => .bind .get fun _ =>
    .bind .getShort fun _ => .bind (.getArray _) fun _ => .bind (.lift _) fun _ =>
      .bind (.getArray _) fun _ => .bind (.lift _) fun _ => .bind (.getArray _) fun _ =>
        .bind (.lift _) fun _ => .bind (.getArray _) fun _ => .bind (.lift _) fun _ => .pure _

theorem read_append (hardwareType protocolType : JShort) (operationCode : JShort)
    (senderHardware : MacAddress) (senderProtocol : Inet4Address) (targetHardware : MacAddress)
    (targetProtocol : Inet4Address) (pre rest post : Bytes) :
    eval (read R) ⟨pre, shortBytes hardwareType ++ (shortBytes protocolType ++ (6 :: 4 ::
      (shortBytes operationCode ++ (senderHardware.toBytes ++ (senderProtocol.toBytes ++
        (targetHardware.toBytes ++ (targetProtocol.toBytes ++ rest))))))), post⟩ =
      .ok ⟨DataLinkType.valueOf hardwareType, ProtocolType.getInstance R.protocolType protocolType,
        6, 4, ARPOperationCode.getInstance R.arpOperationCode operationCode, senderHardware,
        senderProtocol, targetHardware, targetProtocol⟩ := by
  have h6 : (promote (6 : JByte) &&& 0xff#32).toInt = ((6 : Nat) : Int) := by decide
  have h4 : (promote (4 : JByte) &&& 0xff#32).toInt = ((4 : Nat) : Int) := by decide
  have h6' : (6 : JByte).toInt = ((6 : Nat) : Int) := by decide
  have h4' : (4 : JByte).toInt = ((4 : Nat) : Int) := by decide
  simp only [read, eval_bind, getShort_append, get_cons, setHardwareAddressLength,
    setProtocolAddressLength, getHardwareAddressLength, getProtocolAddressLength, mask8_eq, h6, h4,
    h6', h4', getArray_natCast, getBytes_append _ _ _ _ _ (Address.toBytes_length _),
    MacAddress.valueOf, Inet4Address.valueOf, Address.valueOf_toBytes, lift_ok, eval_pure]

/-- What `read` does behind the operation code. -/
def readAddresses (hardwareAddressLength protocolAddressLength : JByte)
    (arp : MacAddress → Inet4Address → MacAddress → Inet4Address → ARP) : Op ARP := do
  let hwAddrBuf ← getArray (promote hardwareAddressLength &&& 0xff#32).toInt
  let senderHardwareAddress ← lift (MacAddress.valueOf hwAddrBuf)
  let addrBuf ← getArray (promote protocolAddressLength &&& 0xff#32).toInt
  let senderProtocolAddress ← lift (Inet4Address.valueOf addrBuf)
  let hwAddrBuf ← getArray hardwareAddressLength.toInt
  let targetHardwareAddress ← lift (MacAddress.valueOf hwAddrBuf)
  let addrBuf ← getArray protocolAddressLength.toInt
  let targetProtocolAddress ← lift (Inet4Address.valueOf addrBuf)
  pure (arp senderHardwareAddress senderProtocolAddress targetHardwareAddress
    targetProtocolAddress)

section Addresses

variable (arp : MacAddress → Inet4Address → MacAddress → Inet4Address → ARP)

/-- The sender's addresses are validated first, with the lengths as unsigned bytes. -/
theorem readAddresses_error {hardwareAddressLength protocolAddressLength : JByte}
    (h : ¬ (hardwareAddressLength = 6 ∧ protocolAddressLength = 4)) (b : ByteBuffer) :
    ∃ e, readAddresses hardwareAddressLength protocolAddressLength arp b = .error e := by
  have hne : ∀ (x y : JByte), x ≠ y → (promote x &&& 0xff#32).toInt ≠ (y.toNat : Int) := by
    intro x y hxy heq
    rw [promote_and_ff_toInt] at heq
    exact hxy (BitVec.eq_of_toNat_eq (by omega))
  by_cases h6 : hardwareAddressLength = 6
  · have h4 : protocolAddressLength ≠ 4 := fun h4 => h ⟨h6, h4⟩
    have hsender : (promote hardwareAddressLength &&& 0xff#32).toInt = ((6 : Nat) : Int) := by
      rw [h6]
      decide
    rw [readAddresses, Address.getArray_valueOf hsender, bind_apply]
    cases Address.read 6 b with
    | error e => exact ⟨e, rfl⟩
    | ok r => exact Address.getArray_valueOf_error (hne _ 4 h4) _ r.2
  · exact Address.getArray_valueOf_error (hne _ 6 h6) _ b

theorem readAddresses_consumes : Consumes (readAddresses 6 4 arp) 20 := by
  have h6 : (promote (6 : JByte) &&& 0xff#32).toInt = ((6 : Nat) : Int) := by decide
  have h4 : (promote (4 : JByte) &&& 0xff#32).toInt = ((4 : Nat) : Int) := by decide
  have h6' : (6 : JByte).toInt = ((6 : Nat) : Int) := by decide
  have h4' : (4 : JByte).toInt = ((4 : Nat) : Int) := by decide
  rw [readAddresses]
  simp only [Address.getArray_valueOf h6, Address.getArray_valueOf h4,
    Address.getArray_valueOf h6', Address.getArray_valueOf h4']
  exact .bind (Address.read_consumes 6) fun _ => .bind (Address.read_consumes 4) fun _ =>
    .bind (Address.read_consumes 6) fun _ => .bind (Address.read_consumes 4) fun _ => .pure _

theorem readAddresses_ok_iff (hardwareAddressLength protocolAddressLength : JByte)
    (b : ByteBuffer) :
    (∃ a, eval (readAddresses hardwareAddressLength protocolAddressLength arp) b = .ok a) ↔
      20 ≤ b.rest.length ∧ hardwareAddressLength = 6 ∧ protocolAddressLength = 4 := by
  by_cases h : hardwareAddressLength = 6 ∧ protocolAddressLength = 4
  · obtain ⟨hok, hshort⟩ := readAddresses_consumes arp b
    by_cases h20 : 20 ≤ b.rest.length
    · obtain ⟨a, ha⟩ := hok h20
      rw [h.1, h.2, eval_ok ha]
      exact ⟨fun _ => ⟨h20, rfl, rfl⟩, fun _ => ⟨a, rfl⟩⟩
    · rw [h.1, h.2, eval_error (hshort (by omega))]
      simp [h20]
  · obtain ⟨e, he⟩ := readAddresses_error arp h b
    rw [eval_error he]
    constructor
    · intro ha
      obtain ⟨a, ha⟩ := ha
      cases ha
    · intro hl
      exact absurd hl.2 h

end Addresses

theorem read_needs : Needs (read R) 8 :=
  .bind .getShort fun _ => .bind .getShort fun _ => .bind .get fun _ => .bind .get fun _ =>
    .bind .getShort fun _ => .zero _

theorem read_cons (x0 x1 x2 x3 hardware protocol x6 x7 : JByte) (rest : Bytes) :
    read R ⟨[], x0 :: x1 :: x2 :: x3 :: hardware :: protocol :: x6 :: x7 :: rest, []⟩ =
      readAddresses hardware protocol (fun senderHardware senderProtocol targetHardware
        targetProtocol => ⟨DataLinkType.valueOf (shortOf x0 x1), ProtocolType.getInstance
          R.protocolType (shortOf x2 x3), hardware, protocol, ARPOperationCode.getInstance
            R.arpOperationCode (shortOf x6 x7), senderHardware, senderProtocol, targetHardware,
              targetProtocol⟩)
        ⟨[x0, x1, x2, x3, hardware, protocol, x6, x7], rest, []⟩ := by
  simp only [read, readAddresses, bind_apply, getShort_cons, get_cons, setHardwareAddressLength,
    setProtocolAddressLength, getHardwareAddressLength, getProtocolAddressLength, mask8_eq,
    List.nil_append, List.cons_append]

/-- The decoder accepts the lengths of an Ethernet and an IPv4 address only. -/
theorem newInstance_ok_iff (b : Bytes) :
    (∃ a, newInstance R b = .ok a) ↔ 28 ≤ b.length ∧ byteAt b 4 = 6 ∧ byteAt b 5 = 4 := by
  rw [newInstance, newInstanceAt, decode_whole]
  by_cases h8 : 8 ≤ b.length
  · obtain ⟨x0, x1, x2, x3, hardware, protocol, x6, x7, rest, rfl⟩ := exists_eight h8
    have hbytes : byteAt (x0 :: x1 :: x2 :: x3 :: hardware :: protocol :: x6 :: x7 :: rest) 4 =
        hardware ∧ byteAt (x0 :: x1 :: x2 :: x3 :: hardware :: protocol :: x6 :: x7 :: rest) 5 =
          protocol := ⟨rfl, rfl⟩
    have hlen : 28 ≤ (x0 :: x1 :: x2 :: x3 :: hardware :: protocol :: x6 :: x7 :: rest).length ↔
        20 ≤ rest.length := by
      simp only [List.length_cons]
      omega
    rw [hbytes.1, hbytes.2, hlen, eval, read_cons]
    exact readAddresses_ok_iff _ hardware protocol _
  · rw [(read_needs R).eval [] b [] (by omega)]
    constructor
    · intro h
      obtain ⟨a, h⟩ := h
      cases h
    · intro h
      omega

end Decode

section RoundTrip

def bytes (a : ARP) (hardwareType : DataLinkType) : Bytes :=
  shortBytes hardwareType.getValue ++ (shortBytes a.protocolType.value ++
    (a.getHardwareAddressLength :: a.getProtocolAddressLength ::
      (shortBytes a.operationCode.value ++ (a.senderHardwareAddress.toBytes ++
        (a.senderProtocolAddress.toBytes ++ (a.targetHardwareAddress.toBytes ++
          a.targetProtocolAddress.toBytes))))))

theorem writes (a : ARP) (hardwareType : DataLinkType) :
    Writes (a.write hardwareType) (a.bytes hardwareType) := by
  have h : Writes (a.write hardwareType) _ :=
    .bind (.putShort _) <| .bind (.putShort _) <| .bind (.put _) <| .bind (.put _) <|
      .bind (.putShort _) <| .bind (.putBytes _) <| .bind (.putBytes _) <|
        .bind (.putBytes _) (.putBytes _)
  simpa [bytes] using h

theorem toBytes_eq (a : ARP) (hardwareType : DataLinkType)
    (h : a.hardwareType = some hardwareType) : a.toBytes = .ok (a.bytes hardwareType) := by
  rw [toBytes, h]
  refine (a.writes hardwareType).encode_exact ?_
  simp [bytes, ARP_HEADER_LENGTH]

theorem newInstance_bytes (R : Registries) (a : ARP) (hardwareType : DataLinkType)
    (h : a.hardwareType = some hardwareType)
    (hp : ProtocolType.getInstance R.protocolType a.protocolType.value = a.protocolType)
    (ho : ARPOperationCode.getInstance R.arpOperationCode a.operationCode.value = a.operationCode)
    (h6 : a.hardwareAddressLength = 6) (h4 : a.protocolAddressLength = 4) :
    newInstance R (a.bytes hardwareType) = .ok a := by
  have h6' : a.getHardwareAddressLength = 6 := by simp [getHardwareAddressLength, h6]
  have h4' : a.getProtocolAddressLength = 4 := by simp [getProtocolAddressLength, h4]
  have hd := read_append R hardwareType.getValue a.protocolType.value a.operationCode.value
    a.senderHardwareAddress a.senderProtocolAddress a.targetHardwareAddress
    a.targetProtocolAddress [] [] []
  rw [List.append_nil] at hd
  rw [newInstance, newInstanceAt, decode_whole, bytes, h6', h4', hd,
    DataLinkType.valueOf_getValue, hp, ho, ← h, ← h6, ← h4]

end RoundTrip

end ARP

end Jxnet
