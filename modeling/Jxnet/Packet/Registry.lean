import Jxnet.Core.Address
import Jxnet.Framework.HashMap

namespace Jxnet

open Java

/-- Where an object comes from. Reference comparison with a class constant sees this: an
object made later with the same value and name is another object. -/
inductive Origin where
  | constant
  | created
  deriving DecidableEq, Repr

structure ProtocolType where
  value : JShort
  name : String
  origin : Origin
  deriving DecidableEq, Repr

namespace ProtocolType

def IEEE802_3_MAX_LENGTH : Int := 1500

def IPV4 : ProtocolType := ⟨0x0800, "IPv4", .constant⟩
def ARP : ProtocolType := ⟨0x0806, "ARP", .constant⟩
def DOT1Q_VLAN_TAGGED_FRAMES : ProtocolType :=
  ⟨0x8100, "IEEE 802.1Q VLAN-tagged frames", .constant⟩
def RARP : ProtocolType := ⟨0x8035, "RARP", .constant⟩
def APPLETALK : ProtocolType := ⟨0x809b, "Appletalk", .constant⟩
def IPV6 : ProtocolType := ⟨0x86dd, "IPv6", .constant⟩
def PPP : ProtocolType := ⟨0x880b, "PPP", .constant⟩
def MPLS : ProtocolType := ⟨0x8847, "MPLS", .constant⟩
def PPPOE_DISCOVERY_STAGE : ProtocolType := ⟨0x8863, "PPPoED Discovery Stage", .constant⟩
def PPPOE_SESSION_STAGE : ProtocolType := ⟨0x8864, "PPPoED Session Stage", .constant⟩
def UNKNOWN : ProtocolType := ⟨-1, "Unknown", .constant⟩

abbrev Registry := HashMap JShort ProtocolType

def register (registry : Registry) (type : ProtocolType) : Registry :=
  registry.put type.value type

/-- The static block. -/
def initial : Registry :=
  [IPV4, ARP, DOT1Q_VLAN_TAGGED_FRAMES, RARP, APPLETALK, IPV6, PPP, MPLS,
    PPPOE_DISCOVERY_STAGE, PPPOE_SESSION_STAGE].foldl register HashMap.empty

/-- The registries that calls of `register` can leave. -/
inductive Reachable : Registry → Prop
  | initial : Reachable initial
  | register {registry : Registry} (h : Reachable registry) (type : ProtocolType) :
      Reachable (register registry type)

def getInstance (registry : Registry) (value : JShort) : ProtocolType :=
  match registry.get value with
  | some type => type
  | none =>
    if (promote value &&& 0xFFFF#32).toInt ≤ IEEE802_3_MAX_LENGTH then ⟨value, "-", .created⟩
    else UNKNOWN

theorem Reachable.keyed {registry : Registry} (h : Reachable registry) :
    HashMap.Keyed ProtocolType.value registry := by
  induction h with
  | initial => exact HashMap.keyed_ofList ProtocolType.value _
  | register h type ih => exact ih.put type

/-- No registration removes a number. -/
theorem Reachable.containsKey {registry : Registry} (h : Reachable registry) {value : JShort}
    (hv : ProtocolType.initial.containsKey value = true) : registry.containsKey value = true := by
  induction h with
  | initial => exact hv
  | register h type ih => exact HashMap.containsKey_put ih type.value type

/-- A value that the registry names, or an IEEE 802.3 length. -/
def Known (registry : Registry) (value : JShort) : Prop :=
  registry.containsKey value = true ∨ value.toNat ≤ 1500

instance (registry : Registry) (value : JShort) : Decidable (Known registry value) :=
  inferInstanceAs (Decidable (_ ∨ _))

theorem getInstance_value {registry : Registry} (h : Reachable registry) {value : JShort}
    (hv : Known registry value) : (getInstance registry value).value = value := by
  unfold getInstance
  cases hg : registry.get value with
  | some type => exact h.keyed value type hg
  | none =>
    rw [Known, HashMap.containsKey_eq, hg] at hv
    have hlen : (promote value &&& 0xFFFF#32).toInt ≤ IEEE802_3_MAX_LENGTH := by
      rw [promote_and_ffff_toInt, IEEE802_3_MAX_LENGTH]
      simpa using hv
    rw [if_pos hlen]

/-- A value other than that of `UNKNOWN` is found under itself only. -/
theorem eq_of_getInstance_value {registry : Registry} (h : Reachable registry) {value v : JShort}
    (hv : v ≠ UNKNOWN.value) (hg : (getInstance registry value).value = v) : value = v := by
  unfold getInstance at hg
  cases hr : registry.get value with
  | some type =>
    simp only [hr] at hg
    rw [← h.keyed value type hr, hg]
  | none =>
    simp only [hr] at hg
    split at hg
    · exact hg
    · exact absurd hg.symm hv

/-- The tag protocol's own constant is found under its own value only. -/
theorem getInstance_eq_dot1q {registry : Registry} (h : Reachable registry) {value : JShort}
    (hv : getInstance registry value = DOT1Q_VLAN_TAGGED_FRAMES) : value = 0x8100 :=
  eq_of_getInstance_value h (by decide) (congrArg ProtocolType.value hv)

end ProtocolType

structure IPProtocolType where
  value : JByte
  name : String
  deriving DecidableEq, Repr

namespace IPProtocolType

def ICMP : IPProtocolType := ⟨1, "Internet Control Message Protocol Version 4"⟩
def IPV6 : IPProtocolType := ⟨41, "IPv6 Header."⟩
def IPV6_ICMP : IPProtocolType := ⟨58, "Internet Control Message Protocol Version 6"⟩
def IPV6_ROUTING : IPProtocolType := ⟨43, "Routing Header for IPv6."⟩
def IPV6_FRAGMENT : IPProtocolType := ⟨44, "Fragment Header for IPv6."⟩
def IPV6_HOPOPT : IPProtocolType := ⟨0, "IPv6 Hop by Hop Options."⟩
def IPV6_DSTOPT : IPProtocolType := ⟨60, "IPv6 Destination Options."⟩
def IPV6_ESP : IPProtocolType := ⟨50, "IPv6 ESP."⟩
def IPV6_AS : IPProtocolType := ⟨51, "IPv6 Authentication Header."⟩
def IGMP : IPProtocolType := ⟨2, "Internet Group Management Protocol"⟩
def TCP : IPProtocolType := ⟨6, "Transmission Control Protocol"⟩
def UDP : IPProtocolType := ⟨17, "User Datagram Protocol"⟩
def UNKNOWN : IPProtocolType := ⟨-1, "Unknown"⟩

abbrev Registry := HashMap JByte IPProtocolType

def register (registry : Registry) (protocol : IPProtocolType) : Registry :=
  registry.put protocol.value protocol

def initial : Registry :=
  [ICMP, IPV6, IPV6_ICMP, IPV6_ROUTING, IPV6_FRAGMENT, IPV6_HOPOPT, IPV6_DSTOPT, IPV6_ESP,
    IPV6_AS, IGMP, TCP, UDP].foldl register HashMap.empty

inductive Reachable : Registry → Prop
  | initial : Reachable initial
  | register {registry : Registry} (h : Reachable registry) (protocol : IPProtocolType) :
      Reachable (register registry protocol)

def getInstance (registry : Registry) (value : JByte) : IPProtocolType :=
  (registry.get value).getD UNKNOWN

end IPProtocolType

structure ARPOperationCode where
  value : JShort
  name : String
  deriving DecidableEq, Repr

namespace ARPOperationCode

def ARP_REQUEST : ARPOperationCode := ⟨1, "ARP Request"⟩
def ARP_REPLY : ARPOperationCode := ⟨2, "ARP Reply"⟩
def UNKNOWN : ARPOperationCode := ⟨-1, "Unknown"⟩

abbrev Registry := HashMap JShort ARPOperationCode

def register (registry : Registry) (operationCode : ARPOperationCode) : Registry :=
  registry.put operationCode.value operationCode

def initial : Registry := [ARP_REQUEST, ARP_REPLY].foldl register HashMap.empty

def getInstance (registry : Registry) (value : JShort) : ARPOperationCode :=
  (registry.get value).getD UNKNOWN

end ARPOperationCode

/-- The concrete subclasses of `ICMPTypeAndCode`. -/
inductive TypeAndCodeClass where
  | ICMPv4DestinationUnreachable
  | ICMPv4EchoReply
  | ICMPv4EchoRequest
  | ICMPv4ParameterProblem
  | ICMPv4RedirectMessage
  | ICMPv4RouterAdvertisement
  | ICMPv4RouterSolicitation
  | ICMPv4TimeExceeded
  | ICMPv4Timestamp
  | ICMPv4TimestampReply
  | ICMPv6DestinationUnreachable
  | ICMPv6EchoReply
  | ICMPv6EchoRequest
  | ICMPv6PacketTooBigMessage
  | ICMPv6ParameterProblem
  | ICMPv6TimeExceeded
  | ICMPUnknownTypeAndCode
  deriving DecidableEq, Repr

/-- The type number that the constructor of each class passes to its superclass. -/
def TypeAndCodeClass.type : TypeAndCodeClass → JByte
  | ICMPv4DestinationUnreachable => 3
  | ICMPv4EchoReply => 0
  | ICMPv4EchoRequest => 8
  | ICMPv4ParameterProblem => 12
  | ICMPv4RedirectMessage => 5
  | ICMPv4RouterAdvertisement => 9
  | ICMPv4RouterSolicitation => 10
  | ICMPv4TimeExceeded => 11
  | ICMPv4Timestamp => 13
  | ICMPv4TimestampReply => 14
  | ICMPv6DestinationUnreachable => 1
  | ICMPv6EchoReply => 129
  | ICMPv6EchoRequest => 128
  | ICMPv6PacketTooBigMessage => 2
  | ICMPv6ParameterProblem => 4
  | ICMPv6TimeExceeded => 3
  | ICMPUnknownTypeAndCode => -1

structure ICMPTypeAndCode where
  clazz : TypeAndCodeClass
  type : JByte
  code : JByte
  name : String
  deriving DecidableEq, Repr

namespace ICMPTypeAndCode

open TypeAndCodeClass

def getType (t : ICMPTypeAndCode) : JByte := t.type

def getCode (t : ICMPTypeAndCode) : JByte := t.code

def getKey (t : ICMPTypeAndCode) : JByte × JByte := (t.type, t.code)

/-- `new K(code, name)`. -/
def new (clazz : TypeAndCodeClass) (code : JByte) (name : String) : ICMPTypeAndCode :=
  ⟨clazz, clazz.type, code, name⟩

abbrev Registry := HashMap (JByte × JByte) ICMPTypeAndCode

def register (registry : Registry) (typeAndCode : ICMPTypeAndCode) : Registry :=
  registry.put typeAndCode.getKey typeAndCode

def unregister (registry : Registry) (typeAndCode : ICMPTypeAndCode) : Registry :=
  registry.remove typeAndCode.getKey

/-- `ICMPUnknownTypeAndCode.UNKNOWN`. -/
def UNKNOWN : ICMPTypeAndCode := new ICMPUnknownTypeAndCode (-1) "Unknown type or code"

/-- The constants that the static block registers, in its order. -/
def constants : List ICMPTypeAndCode :=
  [new ICMPv4DestinationUnreachable 0 "Destination network unreachable",
    new ICMPv4DestinationUnreachable 1 "Destination host unreachable",
    new ICMPv4DestinationUnreachable 2 "Destination protocol unreachable",
    new ICMPv4DestinationUnreachable 3 "Destination port unreachable",
    new ICMPv4DestinationUnreachable 4 "Fragmentation required, and DF flag set",
    new ICMPv4DestinationUnreachable 5 "Source route failed",
    new ICMPv4DestinationUnreachable 6 "Destination network unknown",
    new ICMPv4DestinationUnreachable 7 "Destinatin host unknown",
    new ICMPv4DestinationUnreachable 8 "Destination host isolated",
    new ICMPv4DestinationUnreachable 9 "Network administratively prohibited",
    new ICMPv4DestinationUnreachable 10 "Host administratively prohibited",
    new ICMPv4DestinationUnreachable 11 "Network unreachable for ToS",
    new ICMPv4DestinationUnreachable 12 "Host unreachable for ToS",
    new ICMPv4DestinationUnreachable 13 "Communication administratively prohibited",
    new ICMPv4DestinationUnreachable 14 "Host Precedence Violation",
    new ICMPv4DestinationUnreachable 15 "Precedence cutoff in effect",
    new ICMPv4EchoReply 0 "Echo reply (used to ping)",
    new ICMPv4EchoRequest 0 "Echo request (used to ping)",
    new ICMPv4ParameterProblem 0 "Pointer indicates the error",
    new ICMPv4ParameterProblem 1 "Missing a required option",
    new ICMPv4ParameterProblem 2 "Bad length",
    new ICMPv4RedirectMessage 0 "Redirect datagram for the network",
    new ICMPv4RouterAdvertisement 0 "Router Advertisement",
    new ICMPv4RouterSolicitation 0 "Router discovery/selection/solicitation",
    new ICMPv4TimeExceeded 0 "TTL expired in transit",
    new ICMPv4TimeExceeded 1 "Fragment reassembly time exceeded",
    new ICMPv4Timestamp 0 "Timestamp",
    new ICMPv4TimestampReply 0 "Timestamp reply",
    new ICMPv6EchoRequest 0 "Echo request",
    new ICMPv6EchoReply 0 "Echo  reply",
    new ICMPv6DestinationUnreachable 0 "No route to destination",
    new ICMPv6DestinationUnreachable 1
      "Communication with destination administratively prohibited",
    new ICMPv6DestinationUnreachable 2 "Beyond scope of source address",
    new ICMPv6DestinationUnreachable 3 "Address unreachable",
    new ICMPv6DestinationUnreachable 4 "Address unreachable",
    new ICMPv6DestinationUnreachable 5 "Source address failed ingress/egress policy",
    new ICMPv6DestinationUnreachable 6 "Reject route to destination",
    new ICMPv6DestinationUnreachable 7 "Error in Source Routing Header",
    new ICMPv6PacketTooBigMessage 0 "Packet too big message",
    new ICMPv6ParameterProblem 0 "Erroneous header field encountered",
    new ICMPv6ParameterProblem 1 "Unrecognized Next Header type encountered",
    new ICMPv6ParameterProblem 2 "Unrecognized IPv6 option encountered",
    new ICMPv6TimeExceeded 0 "Hop limit exceeded in transit",
    new ICMPv6TimeExceeded 1 "Fragment reassembly time exceeded"]

def initial : Registry := constants.foldl register HashMap.empty

/-- The registries that calls of `register` and `unregister` can leave. -/
inductive Reachable : Registry → Prop
  | initial : Reachable initial
  | register {registry : Registry} (h : Reachable registry) (typeAndCode : ICMPTypeAndCode) :
      Reachable (register registry typeAndCode)
  | unregister {registry : Registry} (h : Reachable registry) (typeAndCode : ICMPTypeAndCode) :
      Reachable (unregister registry typeAndCode)

theorem Reachable.keyed {registry : Registry} (h : Reachable registry) :
    HashMap.Keyed getKey registry := by
  induction h with
  | initial => exact HashMap.keyed_ofList getKey _
  | register h typeAndCode ih => exact ih.put typeAndCode
  | unregister h typeAndCode ih => exact ih.remove typeAndCode.getKey

def getTypeAndCode (registry : Registry) (type code : JByte) : ICMPTypeAndCode :=
  (registry.get (type, code)).getD UNKNOWN

end ICMPTypeAndCode

/-- The static registries that decoding reads. -/
structure Registries where
  protocolType : ProtocolType.Registry
  ipProtocolType : IPProtocolType.Registry
  arpOperationCode : ARPOperationCode.Registry
  icmpTypeAndCode : ICMPTypeAndCode.Registry

/-- The registries after class initialization. -/
def Registries.initial : Registries :=
  ⟨ProtocolType.initial, IPProtocolType.initial, ARPOperationCode.initial,
    ICMPTypeAndCode.initial⟩

end Jxnet
