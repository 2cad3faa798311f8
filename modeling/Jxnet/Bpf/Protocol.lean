import Jxnet.Bpf.Primitive

namespace Jxnet

open Java ByteBuffer JumpMachine ShortCircuit

namespace Bpf

/-! The protocol qualifiers, and the primitives that depend on them. -/

/-- The protocol qualifiers, without those of DECnet and those for the kinds of IS-IS packets. -/
inductive Proto where
  | Q_DEFAULT
  | Q_LINK
  | Q_IP
  | Q_ARP
  | Q_RARP
  | Q_SCTP
  | Q_TCP
  | Q_UDP
  | Q_ICMP
  | Q_IGMP
  | Q_IGRP
  | Q_ATALK
  | Q_LAT
  | Q_SCA
  | Q_MOPRC
  | Q_MOPDL
  | Q_IPV6
  | Q_ICMPV6
  | Q_AH
  | Q_ESP
  | Q_PIM
  | Q_VRRP
  | Q_AARP
  | Q_ISO
  | Q_ESIS
  | Q_ISIS
  | Q_CLNP
  | Q_STP
  | Q_IPX
  | Q_NETBEUI
  | Q_RADIO
  | Q_CARP
  deriving DecidableEq, Repr

/-- The address qualifiers, without that of header chains. -/
inductive Addr where
  | Q_DEFAULT
  | Q_HOST
  | Q_NET
  | Q_PORT
  | Q_GATEWAY
  | Q_PROTO
  | Q_PORTRANGE
  | Q_UNDEF
  deriving DecidableEq, Repr

/-- `struct qual`. -/
structure Qual where
  addr : Addr
  proto : Proto
  dir : Dir
  deriving DecidableEq, Repr

def ETHERTYPE_MOPDL : UInt := 0x6001

def ETHERTYPE_MOPRC : UInt := 0x6002

def ETHERTYPE_LAT : UInt := 0x6004

def ETHERTYPE_SCA : UInt := 0x6007

def LLCSAP_8021D : UInt := 0x42

def ISO8473_CLNP : UInt := 0x81

def ISO9542_ESIS : UInt := 0x82

def ISO10589_ISIS : UInt := 0x83

def IPPROTO_FRAGMENT : UInt := 44

/-- `gen_host`. -/
def gen_host (addr mask : UInt) (proto : Proto) (dir : Dir) (type : Addr) : Gen Nat :=
  let typestr := if type = .Q_NET then "net" else "host"
  let ip := gen_hostop addr mask dir ETHERTYPE_IP 12 16
  let rarp := gen_hostop addr mask dir ETHERTYPE_REVARP 14 24
  let arp := gen_hostop addr mask dir ETHERTYPE_ARP 14 24
  match proto with
  | .Q_DEFAULT => do
    let b0 ← ip
    let b1 ← arp
    gen_or b0 b1
    let b0 ← rarp
    gen_or b1 b0
    return b0
  | .Q_IP => ip
  | .Q_RARP => rarp
  | .Q_ARP => arp
  | .Q_TCP => bpf_error s!"'tcp' modifier applied to {typestr}"
  | .Q_SCTP => bpf_error s!"'sctp' modifier applied to {typestr}"
  | .Q_UDP => bpf_error s!"'udp' modifier applied to {typestr}"
  | .Q_ICMP => bpf_error s!"'icmp' modifier applied to {typestr}"
  | .Q_IGMP => bpf_error s!"'igmp' modifier applied to {typestr}"
  | .Q_IGRP => bpf_error s!"'igrp' modifier applied to {typestr}"
  | .Q_PIM => bpf_error s!"'pim' modifier applied to {typestr}"
  | .Q_VRRP => bpf_error s!"'vrrp' modifier applied to {typestr}"
  | .Q_CARP => bpf_error s!"'carp' modifier applied to {typestr}"
  | .Q_ATALK => bpf_error "ATALK host filtering not implemented"
  | .Q_AARP => bpf_error "AARP host filtering not implemented"
  | .Q_SCA => bpf_error "SCA host filtering not implemented"
  | .Q_LAT => bpf_error "LAT host filtering not implemented"
  | .Q_MOPDL => bpf_error "MOPDL host filtering not implemented"
  | .Q_MOPRC => bpf_error "MOPRC host filtering not implemented"
  | .Q_IPV6 => bpf_error "'ip6' modifier applied to ip host"
  | .Q_ICMPV6 => bpf_error s!"'icmp6' modifier applied to {typestr}"
  | .Q_AH => bpf_error s!"'ah' modifier applied to {typestr}"
  | .Q_ESP => bpf_error s!"'esp' modifier applied to {typestr}"
  | .Q_ISO => bpf_error "ISO host filtering not implemented"
  | .Q_ESIS => bpf_error s!"'esis' modifier applied to {typestr}"
  | .Q_ISIS => bpf_error s!"'isis' modifier applied to {typestr}"
  | .Q_CLNP => bpf_error s!"'clnp' modifier applied to {typestr}"
  | .Q_STP => bpf_error s!"'stp' modifier applied to {typestr}"
  | .Q_IPX => bpf_error "IPX host filtering not implemented"
  | .Q_NETBEUI => bpf_error s!"'netbeui' modifier applied to {typestr}"
  | Proto.Q_RADIO => bpf_error s!"'radio' modifier applied to {typestr}"
  -- unlike `gen_host6` it has no case for the link layer
  | .Q_LINK => abort

/-- `gen_host6`. -/
def gen_host6 (a m : Fin 4 → UInt) (proto : Proto) (dir : Dir) (type : Addr) : Gen Nat :=
  let typestr := if type = .Q_NET then "net" else "host"
  match proto with
  | .Q_DEFAULT | .Q_IPV6 => gen_hostop6 a m dir ETHERTYPE_IPV6 8 24
  | .Q_LINK => bpf_error s!"link-layer modifier applied to ip6 {typestr}"
  | .Q_IP => bpf_error s!"'ip' modifier applied to ip6 {typestr}"
  | .Q_RARP => bpf_error s!"'rarp' modifier applied to ip6 {typestr}"
  | .Q_ARP => bpf_error s!"'arp' modifier applied to ip6 {typestr}"
  | .Q_SCTP => bpf_error s!"'sctp' modifier applied to {typestr}"
  | .Q_TCP => bpf_error s!"'tcp' modifier applied to {typestr}"
  | .Q_UDP => bpf_error s!"'udp' modifier applied to {typestr}"
  | .Q_ICMP => bpf_error s!"'icmp' modifier applied to {typestr}"
  | .Q_IGMP => bpf_error s!"'igmp' modifier applied to {typestr}"
  | .Q_IGRP => bpf_error s!"'igrp' modifier applied to {typestr}"
  | .Q_PIM => bpf_error s!"'pim' modifier applied to {typestr}"
  | .Q_VRRP => bpf_error s!"'vrrp' modifier applied to {typestr}"
  | .Q_CARP => bpf_error s!"'carp' modifier applied to {typestr}"
  | .Q_ATALK => bpf_error "ATALK host filtering not implemented"
  | .Q_AARP => bpf_error "AARP host filtering not implemented"
  | .Q_SCA => bpf_error "SCA host filtering not implemented"
  | .Q_LAT => bpf_error "LAT host filtering not implemented"
  | .Q_MOPDL => bpf_error "MOPDL host filtering not implemented"
  | .Q_MOPRC => bpf_error "MOPRC host filtering not implemented"
  | .Q_ICMPV6 => bpf_error s!"'icmp6' modifier applied to {typestr}"
  | .Q_AH => bpf_error s!"'ah' modifier applied to {typestr}"
  | .Q_ESP => bpf_error s!"'esp' modifier applied to {typestr}"
  | .Q_ISO => bpf_error "ISO host filtering not implemented"
  | .Q_ESIS => bpf_error s!"'esis' modifier applied to {typestr}"
  | .Q_ISIS => bpf_error s!"'isis' modifier applied to {typestr}"
  | .Q_CLNP => bpf_error s!"'clnp' modifier applied to {typestr}"
  | .Q_STP => bpf_error s!"'stp' modifier applied to {typestr}"
  | .Q_IPX => bpf_error "IPX host filtering not implemented"
  | .Q_NETBEUI => bpf_error s!"'netbeui' modifier applied to {typestr}"
  | Proto.Q_RADIO => bpf_error s!"'radio' modifier applied to {typestr}"

/-- `gen_proto`, without `CHASE_CHAIN`. -/
def gen_proto (v : UInt) (proto : Proto) (dir : Dir) : Gen Nat :=
  let ip := do
    let b0 ← gen_linktype ETHERTYPE_IP
    let b1 ← gen_cmp .OR_LINKPL 9 .B v
    gen_and b0 b1
    return b1
  let ipv6 := do
    let b0 ← gen_linktype ETHERTYPE_IPV6
    let b2 ← gen_cmp .OR_LINKPL 6 .B IPPROTO_FRAGMENT
    let b1 ← gen_cmp .OR_LINKPL 40 .B v
    gen_and b2 b1
    let b2 ← gen_cmp .OR_LINKPL 6 .B v
    gen_or b2 b1
    gen_and b0 b1
    return b1
  let iso := fun v => do
    let b0 ← gen_linktype LLCSAP_ISONS
    let b1 ← gen_cmp .OR_LINKPL_NOSNAP 0 .B v
    gen_and b0 b1
    return b1
  if dir ≠ .Q_DEFAULT then bpf_error "direction applied to 'proto'"
  else match proto with
  | .Q_DEFAULT => do
    let b0 ← ip
    let b1 ← ipv6
    gen_or b0 b1
    return b1
  | .Q_IP => ip
  | .Q_ISO => iso v
  | .Q_ISIS => do
    let b0 ← iso ISO10589_ISIS
    let b1 ← gen_cmp .OR_LINKPL_NOSNAP 4 .B v
    gen_and b0 b1
    return b1
  | .Q_ARP => bpf_error "arp does not encapsulate another protocol"
  | .Q_RARP => bpf_error "rarp does not encapsulate another protocol"
  | .Q_ATALK => bpf_error "atalk encapsulation is not specifiable"
  | .Q_SCA => bpf_error "sca does not encapsulate another protocol"
  | .Q_LAT => bpf_error "lat does not encapsulate another protocol"
  | .Q_MOPRC => bpf_error "moprc does not encapsulate another protocol"
  | .Q_MOPDL => bpf_error "mopdl does not encapsulate another protocol"
  | .Q_LINK => gen_linktype v
  | .Q_UDP => bpf_error "'udp proto' is bogus"
  | .Q_TCP => bpf_error "'tcp proto' is bogus"
  | .Q_SCTP => bpf_error "'sctp proto' is bogus"
  | .Q_ICMP => bpf_error "'icmp proto' is bogus"
  | .Q_IGMP => bpf_error "'igmp proto' is bogus"
  | .Q_IGRP => bpf_error "'igrp proto' is bogus"
  | .Q_PIM => bpf_error "'pim proto' is bogus"
  | .Q_VRRP => bpf_error "'vrrp proto' is bogus"
  | .Q_CARP => bpf_error "'carp proto' is bogus"
  | .Q_IPV6 => ipv6
  | .Q_ICMPV6 => bpf_error "'icmp6 proto' is bogus"
  | .Q_AH => bpf_error "'ah proto' is bogus"
  -- the text is that of the case before
  | .Q_ESP => bpf_error "'ah proto' is bogus"
  | .Q_STP => bpf_error "'stp proto' is bogus"
  | .Q_IPX => bpf_error "'ipx proto' is bogus"
  | .Q_NETBEUI => bpf_error "'netbeui proto' is bogus"
  | Proto.Q_RADIO => bpf_error "'radio proto' is bogus"
  | .Q_AARP | .Q_ESIS | .Q_CLNP => abort

/-- `gen_proto_abbrev`. -/
def gen_proto_abbrev (proto : Proto) : Gen Nat :=
  let ip := fun n => gen_proto n .Q_IP .Q_DEFAULT
  let ipOrIPv6 := fun n => do
    let b1 ← gen_proto n .Q_IP .Q_DEFAULT
    let b0 ← gen_proto n .Q_IPV6 .Q_DEFAULT
    gen_or b0 b1
    return b1
  match proto with
  | .Q_SCTP => ipOrIPv6 132
  | .Q_TCP => ipOrIPv6 6
  | .Q_UDP => ipOrIPv6 17
  | .Q_ICMP => ip 1
  | .Q_IGMP => ip 2
  | .Q_IGRP => ip 9
  | .Q_PIM => ipOrIPv6 103
  | .Q_VRRP => ip 112
  | .Q_CARP => ip 112
  | .Q_IP => gen_linktype ETHERTYPE_IP
  | .Q_ARP => gen_linktype ETHERTYPE_ARP
  | .Q_RARP => gen_linktype ETHERTYPE_REVARP
  | .Q_LINK => bpf_error "link layer applied in wrong context"
  | .Q_ATALK => gen_linktype ETHERTYPE_ATALK
  | .Q_AARP => gen_linktype ETHERTYPE_AARP
  | .Q_SCA => gen_linktype ETHERTYPE_SCA
  | .Q_LAT => gen_linktype ETHERTYPE_LAT
  | .Q_MOPDL => gen_linktype ETHERTYPE_MOPDL
  | .Q_MOPRC => gen_linktype ETHERTYPE_MOPRC
  | .Q_IPV6 => gen_linktype ETHERTYPE_IPV6
  | .Q_ICMPV6 => gen_proto 58 .Q_IPV6 .Q_DEFAULT
  | .Q_AH => ipOrIPv6 51
  | .Q_ESP => ipOrIPv6 50
  | .Q_ISO => gen_linktype LLCSAP_ISONS
  | .Q_ESIS => gen_proto ISO9542_ESIS .Q_ISO .Q_DEFAULT
  | .Q_ISIS => gen_proto ISO10589_ISIS .Q_ISO .Q_DEFAULT
  | .Q_CLNP => gen_proto ISO8473_CLNP .Q_ISO .Q_DEFAULT
  | .Q_STP => gen_linktype LLCSAP_8021D
  | .Q_IPX => gen_linktype LLCSAP_IPX
  | .Q_NETBEUI => gen_linktype LLCSAP_NETBEUI
  | Proto.Q_RADIO => bpf_error "'radio' is not a valid protocol type"
  | .Q_DEFAULT => abort

/-- `gen_ecode`. -/
def gen_ecode (eaddr : Bytes) (q : Qual) : Gen Nat :=
  if (q.addr = .Q_HOST ∨ q.addr = .Q_DEFAULT) ∧ q.proto = .Q_LINK then gen_ehostop eaddr q.dir
  else bpf_error "ethernet address used in non-ether expression"

/-! What they stand for. -/

/-- How an expression is turned down: with a message, or by the end of the process. -/
inductive Refusal where
  | message
  | abort
  deriving DecidableEq, Repr

/-- What an expression looks up in every packet, unless it is turned down. -/
abbrev Meaning := Except Refusal (Input → Read Bool)

/-- The generator yields code for the meaning, with memory for `n` blocks at most, or gives up as
the refusal says. -/
def Does (n : Nat) (m : Gen Nat) : Meaning → Prop
  | .ok v => Generates n m v
  | .error .message => ∃ message, ∀ g, m g = .error (.error message)
  | .error .abort => ∀ g, m g = .error .abort

theorem Does.le {n n' : Nat} {m : Gen Nat} {v : Meaning} (h : Does n m v) (hn : n ≤ n') :
    Does n' m v := by
  cases v with
  | ok v => exact Generates.le h hn
  | error e =>
    cases e with
    | message => exact h
    | abort => exact h

def byteIs (input : Input) (k : Nat) (v : UInt) : Read Bool := do
  return (← field input k .B) = v

def hasIPProto (input : Input) (v : UInt) : Read Bool :=
  (isOfType input ETHERTYPE_IP).and (byteIs input 23 v)

/-- The protocol behind the IPv6 header, or behind a fragment header that follows it. -/
def hasIPv6Proto (input : Input) (v : UInt) : Read Bool :=
  (isOfType input ETHERTYPE_IPV6).and
    ((byteIs input 20 v).or ((byteIs input 20 IPPROTO_FRAGMENT).and (byteIs input 54 v)))

def hasISOProto (input : Input) (v : UInt) : Read Bool :=
  (isOfType input LLCSAP_ISONS).and (byteIs input 17 v)

def hostMeaning (addr mask : UInt) (dir : Dir) : Proto → Meaning
  | .Q_DEFAULT => .ok fun input =>
    ((hasHost input addr mask dir ETHERTYPE_IP 12 16).or
      (hasHost input addr mask dir ETHERTYPE_ARP 14 24)).or
      (hasHost input addr mask dir ETHERTYPE_REVARP 14 24)
  | .Q_IP => .ok fun input => hasHost input addr mask dir ETHERTYPE_IP 12 16
  | .Q_ARP => .ok fun input => hasHost input addr mask dir ETHERTYPE_ARP 14 24
  | .Q_RARP => .ok fun input => hasHost input addr mask dir ETHERTYPE_REVARP 14 24
  | .Q_LINK => .error .abort
  | _ => .error .message

def host6Meaning (a m : Fin 4 → UInt) (dir : Dir) : Proto → Meaning
  | .Q_DEFAULT | .Q_IPV6 => .ok fun input => hasHost6 input a m dir ETHERTYPE_IPV6 8 24
  | _ => .error .message

def protoMeaning (v : UInt) (proto : Proto) (dir : Dir) : Meaning :=
  if dir ≠ .Q_DEFAULT then .error .message
  else match proto with
  | .Q_DEFAULT => .ok fun input => (hasIPProto input v).or (hasIPv6Proto input v)
  | .Q_IP => .ok fun input => hasIPProto input v
  | .Q_IPV6 => .ok fun input => hasIPv6Proto input v
  | .Q_ISO => .ok fun input => hasISOProto input v
  | .Q_ISIS => .ok fun input => (hasISOProto input ISO10589_ISIS).and (byteIs input 21 v)
  | .Q_LINK => .ok fun input => isOfType input v
  | .Q_AARP | .Q_ESIS | .Q_CLNP => .error .abort
  | _ => .error .message

/-- What a protocol without more stands for. -/
def abbrevMeaning : Proto → Meaning
  | .Q_SCTP => .ok fun input => (hasIPv6Proto input 132).or (hasIPProto input 132)
  | .Q_TCP => .ok fun input => (hasIPv6Proto input 6).or (hasIPProto input 6)
  | .Q_UDP => .ok fun input => (hasIPv6Proto input 17).or (hasIPProto input 17)
  | .Q_ICMP => .ok fun input => hasIPProto input 1
  | .Q_IGMP => .ok fun input => hasIPProto input 2
  | .Q_IGRP => .ok fun input => hasIPProto input 9
  | .Q_PIM => .ok fun input => (hasIPv6Proto input 103).or (hasIPProto input 103)
  | .Q_VRRP | .Q_CARP => .ok fun input => hasIPProto input 112
  | .Q_IP => .ok fun input => isOfType input ETHERTYPE_IP
  | .Q_ARP => .ok fun input => isOfType input ETHERTYPE_ARP
  | .Q_RARP => .ok fun input => isOfType input ETHERTYPE_REVARP
  | .Q_ATALK => .ok fun input => isOfType input ETHERTYPE_ATALK
  | .Q_AARP => .ok fun input => isOfType input ETHERTYPE_AARP
  | .Q_SCA => .ok fun input => isOfType input ETHERTYPE_SCA
  | .Q_LAT => .ok fun input => isOfType input ETHERTYPE_LAT
  | .Q_MOPDL => .ok fun input => isOfType input ETHERTYPE_MOPDL
  | .Q_MOPRC => .ok fun input => isOfType input ETHERTYPE_MOPRC
  | .Q_IPV6 => .ok fun input => isOfType input ETHERTYPE_IPV6
  | .Q_ICMPV6 => .ok fun input => hasIPv6Proto input 58
  | .Q_AH => .ok fun input => (hasIPv6Proto input 51).or (hasIPProto input 51)
  | .Q_ESP => .ok fun input => (hasIPv6Proto input 50).or (hasIPProto input 50)
  | .Q_ISO => .ok fun input => isOfType input LLCSAP_ISONS
  | .Q_ESIS => .ok fun input => hasISOProto input ISO9542_ESIS
  | .Q_ISIS => .ok fun input => hasISOProto input ISO10589_ISIS
  | .Q_CLNP => .ok fun input => hasISOProto input ISO8473_CLNP
  | .Q_STP => .ok fun input => isOfType input LLCSAP_8021D
  | .Q_IPX => .ok fun input => isOfType input LLCSAP_IPX
  | .Q_NETBEUI => .ok fun input => isOfType input LLCSAP_NETBEUI
  | .Q_LINK | Proto.Q_RADIO => .error .message
  | .Q_DEFAULT => .error .abort

theorem gen_host_does (addr mask : UInt) (proto : Proto) (dir : Dir) (type : Addr) :
    Does 12 (gen_host addr mask proto dir type) (hostMeaning addr mask dir proto) := by
  have hip := gen_hostop_generates addr mask dir ETHERTYPE_IP 12 16 (by decide)
    (by decide)
  have harp := gen_hostop_generates addr mask dir ETHERTYPE_ARP 14 24 (by decide)
    (by decide)
  have hrarp := gen_hostop_generates addr mask dir ETHERTYPE_REVARP 14 24 (by decide)
    (by decide)
  cases proto with
  | Q_DEFAULT =>
    have hall := (hip.or harp).or hrarp
    simp only [bind_assoc, pure_bind] at hall
    exact hall
  | Q_IP => exact hip.le (by decide)
  | Q_ARP => exact harp.le (by decide)
  | Q_RARP => exact hrarp.le (by decide)
  | Q_LINK => exact fun _ => rfl
  | _ => exact ⟨_, fun _ => rfl⟩

theorem gen_host6_does (a m : Fin 4 → UInt) (proto : Proto) (dir : Dir) (type : Addr) :
    Does 10 (gen_host6 a m proto dir type) (host6Meaning a m dir proto) := by
  have hip6 := gen_hostop6_generates a m dir ETHERTYPE_IPV6 8 24 (by decide) (by decide)
  cases proto with
  | Q_DEFAULT | Q_IPV6 => exact hip6
  | _ => exact ⟨_, fun _ => rfl⟩

theorem gen_cmp_byte_generates (offrel : OffRel) {start : Nat}
    (hstart : ∀ input, headerStart input offrel = .ok start) (offset : UInt)
    (hoffset : offset.toNat < 2 ^ 31) {k : Nat} (hk : start + offset.toNat = k) (v : UInt) :
    Generates 1 (gen_cmp offrel offset .B v) fun input => byteIs input k v :=
  (gen_cmp_generates offrel offset hoffset .B v).congr fun input => by
    rw [fieldIs_eq offrel (hstart input), hk, byteIs]

theorem gen_cmp_linkpl_byte_generates (offset : UInt) (hoffset : offset.toNat < 2 ^ 31) {k : Nat}
    (hk : 14 + offset.toNat = k) (v : UInt) :
    Generates 1 (gen_cmp .OR_LINKPL offset .B v) fun input => byteIs input k v :=
  gen_cmp_byte_generates .OR_LINKPL (fun _ => rfl) offset hoffset hk v

theorem gen_proto_ip_generates (v : UInt) :
    Generates 2 (gen_proto v .Q_IP .Q_DEFAULT) fun input => hasIPProto input v :=
  (gen_ether_linktype_generates ETHERTYPE_IP).and
    (gen_cmp_linkpl_byte_generates 9 (by decide) rfl v)

theorem gen_proto_ip6_generates (v : UInt) :
    Generates 4 (gen_proto v .Q_IPV6 .Q_DEFAULT) fun input => hasIPv6Proto input v := by
  have hnext := gen_cmp_linkpl_byte_generates 6 (by decide) (k := 20) rfl
  have hall := (gen_ether_linktype_generates ETHERTYPE_IPV6).and ((hnext v).or_rev
    ((hnext IPPROTO_FRAGMENT).and (gen_cmp_linkpl_byte_generates 40 (by decide) rfl v)))
  simp only [bind_assoc, pure_bind] at hall
  exact hall

theorem gen_proto_does (v : UInt) (proto : Proto) (dir : Dir) :
    Does 18 (gen_proto v proto dir) (protoMeaning v proto dir) := by
  have hnosnap := fun offset hoffset k (hk : 17 + BitVec.toNat offset = k) =>
    gen_cmp_byte_generates .OR_LINKPL_NOSNAP (fun _ => rfl) offset hoffset hk
  have hip := gen_proto_ip_generates v
  have hip6 := gen_proto_ip6_generates v
  have hiso := fun v =>
    (gen_ether_linktype_generates LLCSAP_ISONS).and (hnosnap 0 (by decide) 17 rfl v)
  by_cases hdir : dir = .Q_DEFAULT
  · subst hdir
    cases proto with
    | Q_DEFAULT => exact (hip.or hip6).le (by decide)
    | Q_IP => exact hip.le (by decide)
    | Q_IPV6 => exact hip6.le (by decide)
    | Q_ISO => exact (hiso v).le (by decide)
    | Q_ISIS => exact (hiso ISO10589_ISIS).and (hnosnap 4 (by decide) 21 rfl v)
    | Q_LINK => exact (gen_ether_linktype_generates v).le ((linktypeBlocks_le v).trans (by decide))
    | Q_AARP | Q_ESIS | Q_CLNP => exact fun _ => rfl
    | _ => exact ⟨_, fun _ => rfl⟩
  · simp only [gen_proto, protoMeaning, if_pos hdir]
    exact ⟨_, fun _ => rfl⟩

theorem gen_proto_abbrev_does (proto : Proto) :
    Does 18 (gen_proto_abbrev proto) (abbrevMeaning proto) := by
  have htype : ∀ n, Does 18 (gen_linktype n) (.ok fun input => isOfType input n) :=
    fun n => (gen_ether_linktype_generates n).le ((linktypeBlocks_le n).trans (by decide))
  have hip : ∀ n, Does 18 (gen_proto n .Q_IP .Q_DEFAULT) (.ok fun input => hasIPProto input n) :=
    fun n => gen_proto_does n .Q_IP .Q_DEFAULT
  have hip6 : ∀ n, Does 18 (gen_proto n .Q_IPV6 .Q_DEFAULT)
      (.ok fun input => hasIPv6Proto input n) :=
    fun n => gen_proto_does n .Q_IPV6 .Q_DEFAULT
  have hiso : ∀ n, Does 18 (gen_proto n .Q_ISO .Q_DEFAULT)
      (.ok fun input => hasISOProto input n) :=
    fun n => gen_proto_does n .Q_ISO .Q_DEFAULT
  have hboth : ∀ n, Does 18 (do
      let b1 ← gen_proto n .Q_IP .Q_DEFAULT
      let b0 ← gen_proto n .Q_IPV6 .Q_DEFAULT
      gen_or b0 b1
      return b1) (.ok fun input => (hasIPv6Proto input n).or (hasIPProto input n)) :=
    fun n => ((gen_proto_ip6_generates n).or_rev (gen_proto_ip_generates n)).le (by decide)
  cases proto with
  | Q_SCTP => exact hboth 132
  | Q_TCP => exact hboth 6
  | Q_UDP => exact hboth 17
  | Q_PIM => exact hboth 103
  | Q_AH => exact hboth 51
  | Q_ESP => exact hboth 50
  | Q_ICMP => exact hip 1
  | Q_IGMP => exact hip 2
  | Q_IGRP => exact hip 9
  | Q_VRRP | Q_CARP => exact hip 112
  | Q_ICMPV6 => exact hip6 58
  | Q_ESIS => exact hiso ISO9542_ESIS
  | Q_ISIS => exact hiso ISO10589_ISIS
  | Q_CLNP => exact hiso ISO8473_CLNP
  | Q_IP => exact htype ETHERTYPE_IP
  | Q_ARP => exact htype ETHERTYPE_ARP
  | Q_RARP => exact htype ETHERTYPE_REVARP
  | Q_ATALK => exact htype ETHERTYPE_ATALK
  | Q_AARP => exact htype ETHERTYPE_AARP
  | Q_SCA => exact htype ETHERTYPE_SCA
  | Q_LAT => exact htype ETHERTYPE_LAT
  | Q_MOPDL => exact htype ETHERTYPE_MOPDL
  | Q_MOPRC => exact htype ETHERTYPE_MOPRC
  | Q_IPV6 => exact htype ETHERTYPE_IPV6
  | Q_ISO => exact htype LLCSAP_ISONS
  | Q_STP => exact htype LLCSAP_8021D
  | Q_IPX => exact htype LLCSAP_IPX
  | Q_NETBEUI => exact htype LLCSAP_NETBEUI
  | Q_LINK | Q_RADIO => exact ⟨_, fun _ => rfl⟩
  | Q_DEFAULT => exact fun _ => rfl

end Bpf

end Jxnet
