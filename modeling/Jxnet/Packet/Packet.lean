import Jxnet.Packet.ARP
import Jxnet.Packet.Datagram
import Jxnet.Packet.Ethernet
import Jxnet.Packet.IPv4
import Jxnet.Packet.IPv6
import Jxnet.Packet.LinkLayer
import Jxnet.Packet.TCP

namespace Jxnet

open Java ByteBuffer

/-- An object of one of the concrete subclasses of `Packet`. -/
inductive Packet where
  | ethernet (p : Ethernet)
  | sll (p : SLL)
  | radioTap (p : RadioTap)
  | arp (p : ARP)
  | ipv4 (p : IPv4)
  | ipv6 (p : IPv6)
  | routing (p : Routing)
  | fragment (p : Fragment)
  | tcp (p : TCP)
  | udp (p : UDP)
  | icmpv4 (p : ICMPv4)
  | icmpv6 (p : ICMPv6)
  | unknown (p : UnknownPacket)
  deriving DecidableEq, Repr

/-- A class object; `other` stands for every class that no decoder makes. -/
inductive PacketClass where
  | Ethernet
  | SLL
  | RadioTap
  | ARP
  | IPv4
  | IPv6
  | Routing
  | Fragment
  | TCP
  | UDP
  | ICMPv4
  | ICMPv6
  | UnknownPacket
  | other (name : String)
  deriving DecidableEq, Repr

namespace Packet

def getClass : Packet → PacketClass
  | ethernet _ => .Ethernet
  | sll _ => .SLL
  | radioTap _ => .RadioTap
  | arp _ => .ARP
  | ipv4 _ => .IPv4
  | ipv6 _ => .IPv6
  | routing _ => .Routing
  | fragment _ => .Fragment
  | tcp _ => .TCP
  | udp _ => .UDP
  | icmpv4 _ => .ICMPv4
  | icmpv6 _ => .ICMPv6
  | unknown _ => .UnknownPacket

/-- The stored payload: `nextPacket`, or `payload` of the IPv6 extension headers. -/
def payload : Packet → Option Bytes
  | ethernet p => p.nextPacket
  | sll p => p.nextPacket
  | radioTap p => p.nextPacket
  | arp _ => none
  | ipv4 p => p.nextPacket
  | ipv6 p => p.nextPacket
  | routing p => p.payload
  | fragment p => p.payload
  | tcp p => p.nextPacket
  | udp p => p.nextPacket
  | icmpv4 p => p.nextPacket
  | icmpv6 p => p.nextPacket
  | unknown _ => none

end Packet

section Decode

variable (R : Registries)

/-- `decode` of a protocol: a null or empty array is no packet. -/
def decodeWith (decoder : Bytes → Except JavaException (Option Packet)) (data : Option Bytes) :
    Except JavaException (Option Packet) :=
  match data with
  | none => .ok none
  | some [] => .ok none
  | some (x :: xs) => decoder (x :: xs)

/-- The type number is sign-extended before the switch, so the third case is never taken. -/
def ProtocolType.decode (type : ProtocolType) (data : Option Bytes) :
    Except JavaException (Option Packet) :=
  let value := type.value.toInt
  decodeWith (fun data =>
    if value = 0x0800 then (some ∘ .ipv4) <$> IPv4.newInstance R data
    else if value = 0x0806 then (some ∘ .arp) <$> ARP.newInstance R data
    else if value = 0x86dd then (some ∘ .ipv6) <$> IPv6.newInstance R data
    else .ok none) data

def IPProtocolType.decode (protocol : IPProtocolType) (data : Option Bytes) :
    Except JavaException (Option Packet) :=
  let value := protocol.value.toInt
  decodeWith (fun data =>
    if value = 1 then (some ∘ .icmpv4) <$> ICMPv4.newInstance R data
    else if value = 41 then (some ∘ .ipv6) <$> IPv6.newInstance R data
    else if value = 58 then (some ∘ .icmpv6) <$> ICMPv6.newInstance R data
    else if value = 43 then (some ∘ .routing) <$> Routing.newInstance R data
    else if value = 44 then (some ∘ .fragment) <$> Fragment.newInstance R data
    else if value = 6 then (some ∘ .tcp) <$> TCP.newInstance data
    else if value = 17 then (some ∘ .udp) <$> UDP.newInstance data
    else .ok none) data

namespace Packet

/-- `getPacket()` of the transport classes. -/
def decodeUnknown (data : Option Bytes) : Except JavaException (Option Packet) :=
  decodeWith (fun data => (some ∘ .unknown) <$> UnknownPacket.newInstance data) data

/-- `Routing.getPacket()` has a switch of its own. -/
def decodeRouting (nextHeader : Option IPProtocolType) (data : Option Bytes) :
    Except JavaException (Option Packet) :=
  decodeWith (fun data =>
    match nextHeader with
    | none => .error .nullPointer
    | some nextHeader =>
      let value := nextHeader.value.toInt
      if value = 6 then (some ∘ .tcp) <$> TCP.newInstance data
      else if value = 17 then (some ∘ .udp) <$> UDP.newInstance data
      else if value = 41 then (some ∘ .ipv6) <$> IPv6.newInstance R data
      else if value = 43 then (some ∘ .routing) <$> Routing.newInstance R data
      else if value = 44 then (some ∘ .fragment) <$> Fragment.newInstance R data
      else (some ∘ .unknown) <$> UnknownPacket.newInstance data) data

/-- `getPacket()`: the next layer, decoded from the stored payload. -/
def getPacket : Packet → Except JavaException (Option Packet)
  | ethernet p => p.ethernetType.decode R p.nextPacket
  | sll p => match p.protocol with
    | none => .error .nullPointer
    | some protocol => protocol.decode R p.nextPacket
  | ipv4 p => p.protocol.decode R p.nextPacket
  | ipv6 p => p.nextHeader.decode R p.nextPacket
  | routing p => decodeRouting R p.nextHeader p.payload
  | fragment p => decodeWith (fun data => match p.nextHeader with
    | none => .error .nullPointer
    | some nextHeader => nextHeader.decode R (some data)) p.payload
  | tcp p => decodeUnknown p.nextPacket
  | udp p => decodeUnknown p.nextPacket
  | radioTap _ | arp _ | icmpv4 _ | icmpv6 _ | unknown _ => .ok none

end Packet

end Decode

namespace Packet

/-- `toBytes()`: the bytes, and the object that the call leaves. -/
def toBytes : Packet → Except JavaException (Packet × Bytes)
  | ethernet p => (fun bytes => (ethernet p, bytes)) <$> p.toBytes
  | sll p => (fun bytes => (sll p, bytes)) <$> p.toBytes
  | radioTap p => (fun bytes => (radioTap p, bytes)) <$> p.toBytes
  | arp p => (fun bytes => (arp p, bytes)) <$> p.toBytes
  | ipv4 p => (fun r => (ipv4 r.1, r.2)) <$> p.toBytes
  | ipv6 p => (fun bytes => (ipv6 p, bytes)) <$> p.toBytes
  | routing p => (fun bytes => (routing p, bytes)) <$> p.toBytes
  | fragment p => (fun bytes => (fragment p, bytes)) <$> p.toBytes
  | tcp p => (fun bytes => (tcp p, bytes)) <$> p.toBytes
  | udp p => (fun r => (udp r.1, r.2)) <$> p.toBytes
  | icmpv4 p => (fun r => (icmpv4 r.1, r.2)) <$> p.toBytes
  | icmpv6 p => (fun bytes => (icmpv6 p, bytes)) <$> p.toBytes
  | unknown p => .ok (unknown p, p.toBytes)

end Packet

/-- `length` of the checksum code: the header, and the payload where there is a next packet. -/
def TCP.segmentLength (tcp : TCP) : Int :=
  (promote tcp.getDataOffset <<< 2).toInt + (tcp.nextPacket.getD []).length

/-- Sum a pseudo header and then `length` bytes of a segment, and fold. -/
def checksumOver (accumulation : JInt) (length : Nat) (segment : Bytes) :
    Except JavaException JShort :=
  eval (do
    let accumulation ← sumShorts (length / 2) accumulation
    let accumulation ← sumOddByte length accumulation
    pure (foldChecksum accumulation)) ⟨[], segment, []⟩

/-- The folded sum over what was accumulated and all words of the segment. -/
theorem checksumOver_eq (accumulation : JInt) (segment : Bytes) :
    checksumOver accumulation segment.length segment =
      .ok (foldChecksum (accumulation + BitVec.ofNat 32 (wordSum segment))) := by
  have hsum := sum_bind (fun accumulation => (pure (foldChecksum accumulation) : Op JShort))
    segment.length accumulation [] segment [] [] rfl
  rw [List.append_nil, pure_apply] at hsum
  exact eval_ok hsum

namespace IPv4

/-- `(a.toInt() >> 16 & 0xffff) + (a.toInt() & 0xffff)`. -/
def addressSum (a : Inet4Address) : JInt :=
  (a.toInt.sshiftRight 16 &&& 0xffff#32) + (a.toInt &&& 0xffff#32)

/-- The checksum of the TCP branch of `setPacket`. -/
def tcpChecksum (p : IPv4) (tcp : TCP) : Except JavaException JShort := do
  let segment ← tcp.toBytes
  let length := tcp.segmentLength.toNat
  let accumulation := addressSum p.sourceAddress + addressSum p.destinationAddress +
    (promote p.protocol.value &&& 0xff#32) + (BitVec.ofNat 32 length &&& 0xffff#32)
  checksumOver accumulation length segment

/-- `setPacket`: the carrier and the packet as the call leaves them. The UDP case compares with
a class name that does not exist, so a datagram leaves the carrier as it was. -/
def setPacket (p : IPv4) (packet : Packet) : Except JavaException (IPv4 × Packet) :=
  match packet with
  | .tcp tcp => do
    let tcp ← if tcp.getChecksum = 0 then tcp.setChecksum <$> p.tcpChecksum tcp else pure tcp
    let bytes ← tcp.toBytes
    pure ({ p with protocol := IPProtocolType.TCP, nextPacket := some bytes }, .tcp tcp)
  | .icmpv4 icmp => do
    let (icmp, bytes) ← icmp.toBytes
    pure ({ p with protocol := IPProtocolType.ICMP, nextPacket := some bytes }, .icmpv4 icmp)
  | packet => .ok (p, packet)

end IPv4

namespace IPv6

/-- The 38 bytes of the TCP branch's pseudo header. -/
def pseudoHeader (p : IPv6) (length : Int) : Bytes :=
  p.sourceAddress.toBytes ++ p.destinationAddress.toBytes ++ [0, p.nextHeader.value] ++
    intBytes (BitVec.ofInt 32 length)

def tcpChecksum (p : IPv6) (tcp : TCP) : Except JavaException JShort := do
  let segment ← tcp.toBytes
  let length := tcp.segmentLength
  let accumulation ← eval (sumShorts 19 0) ⟨[], p.pseudoHeader length, []⟩
  checksumOver accumulation length.toNat segment

/-- The 44 bytes that the ICMPv6 branch sums. `icmp.getPacket()` is always null, so no payload
is among them. -/
def icmpHeader (p : IPv6) (typeAndCode : ICMPTypeAndCode) : Bytes :=
  p.sourceAddress.toBytes ++ p.destinationAddress.toBytes ++ intBytes 40 ++
    [0, 0, 0, IPProtocolType.IPV6_ICMP.value, typeAndCode.getType, typeAndCode.getCode, 0, 0]

def icmpChecksum (p : IPv6) (icmp : ICMPv6) : Except JavaException JShort := do
  let _ ← icmp.toBytes
  match icmp.typeAndCode with
  | none => .error .nullPointer
  | some typeAndCode => checksumOver 0 44 (p.icmpHeader typeAndCode)

def setPacket (p : IPv6) (packet : Packet) : Except JavaException (IPv6 × Packet) :=
  match packet with
  | .tcp tcp => do
    let tcp ← if tcp.getChecksum = 0 then tcp.setChecksum <$> p.tcpChecksum tcp else pure tcp
    let bytes ← tcp.toBytes
    pure ({ p with nextHeader := IPProtocolType.TCP, nextPacket := some bytes }, .tcp tcp)
  | .icmpv6 icmp => do
    let icmp ← if icmp.getChecksum = 0 then ICMP.setChecksum icmp <$> p.icmpChecksum icmp
      else pure icmp
    let bytes ← ICMPv6.toBytes icmp
    pure ({ p with nextHeader := IPProtocolType.IPV6_ICMP, nextPacket := some bytes },
      .icmpv6 icmp)
  | packet => do
    let (packet, bytes) ← packet.toBytes
    pure ({ p with nextPacket := some bytes }, packet)

end IPv6

namespace Ethernet

def setPacket (p : Ethernet) (packet : Packet) : Except JavaException (Ethernet × Packet) := do
  let p := match packet with
    | .ipv4 _ => { p with ethernetType := ProtocolType.IPV4 }
    | .ipv6 _ => { p with ethernetType := ProtocolType.IPV6 }
    | .arp _ => { p with ethernetType := ProtocolType.ARP }
    | _ => p
  let (packet, bytes) ← packet.toBytes
  pure ({ p with nextPacket := some bytes }, packet)

end Ethernet

namespace Packet

/-- `carrier.setPacket(packet)` for a packet that is not null: both objects afterwards. -/
def setPacket (carrier packet : Packet) : Except JavaException (Packet × Packet) :=
  match carrier with
  | ethernet p => (fun r => (ethernet r.1, r.2)) <$> p.setPacket packet
  | ipv4 p => (fun r => (ipv4 r.1, r.2)) <$> p.setPacket packet
  | ipv6 p => (fun r => (ipv6 r.1, r.2)) <$> p.setPacket packet
  | sll p => (fun r => (sll { p with nextPacket := some r.2 }, r.1)) <$> packet.toBytes
  | radioTap p => (fun r => (radioTap { p with nextPacket := some r.2 }, r.1)) <$> packet.toBytes
  | tcp p => (fun r => (tcp { p with nextPacket := some r.2 }, r.1)) <$> packet.toBytes
  | udp p => (fun r => (udp { p with nextPacket := some r.2 }, r.1)) <$> packet.toBytes
  | icmpv4 p => (fun r => (icmpv4 { p with nextPacket := some r.2 }, r.1)) <$> packet.toBytes
  | icmpv6 p => (fun r => (icmpv6 { p with nextPacket := some r.2 }, r.1)) <$> packet.toBytes
  | arp _ | routing _ | fragment _ | unknown _ => .ok (carrier, packet)

namespace PacketBuilder

/-- The loop of `build`, from the last pair to the first: the packets as it leaves them. -/
def stack : List Packet → Except JavaException (List Packet)
  | [] => .ok []
  | [packet] => .ok [packet]
  | carrier :: packet :: packets => do
    match ← stack (packet :: packets) with
    | [] => .ok [carrier]
    | packet :: packets =>
      let (carrier, packet) ← carrier.setPacket packet
      pure (carrier :: packet :: packets)

def build (packets : List Packet) : Except JavaException Packet := do
  match ← stack packets with
  | [] => .error .indexOutOfBounds
  | packet :: _ => .ok packet

end PacketBuilder

end Packet

end Jxnet
