import Jxnet.Bpf.Link

namespace Jxnet

open Java ByteBuffer JumpMachine ShortCircuit

namespace Bpf

/-! The primitives of the filter language, on an Ethernet. -/

/-- The direction qualifiers, without those of 802.11. -/
inductive Dir where
  | Q_DEFAULT
  | Q_SRC
  | Q_DST
  | Q_OR
  | Q_AND
  deriving DecidableEq, Repr

/-- How the primitives treat a direction: the codes for the source and the destination, joined. -/
def byDir (dir : Dir) (src dst : Gen Nat) : Gen Nat :=
  match dir with
  | .Q_SRC => src
  | .Q_DST => dst
  | .Q_AND => do
    let b0 ← src
    let b1 ← dst
    gen_and b0 b1
    return b1
  | .Q_OR | .Q_DEFAULT => do
    let b0 ← src
    let b1 ← dst
    gen_or b0 b1
    return b1

/-- What holds of the source, of the destination, of both or of one of them. -/
def Dir.holds (dir : Dir) (src dst : Read Bool) : Read Bool :=
  match dir with
  | .Q_SRC => src
  | .Q_DST => dst
  | .Q_AND => src.and dst
  | .Q_OR | .Q_DEFAULT => src.or dst

theorem byDir_generates {n : Nat} {m0 m1 : Gen Nat} {v0 v1 : Input → Read Bool}
    (h0 : Generates n m0 v0) (h1 : Generates n m1 v1) (dir : Dir) :
    Generates (n + n) (byDir dir m0 m1) fun input => dir.holds (v0 input) (v1 input) := by
  cases dir with
  | Q_SRC => exact h0.le (Nat.le_add_right n n)
  | Q_DST => exact h1.le (Nat.le_add_right n n)
  | Q_AND => exact h0.and h1
  | Q_OR | Q_DEFAULT => exact h0.or h1

/-! Addresses. -/

/-- `gen_ehostop`. -/
def gen_ehostop (eaddr : Bytes) (dir : Dir) : Gen Nat :=
  byDir dir (gen_bcmp .OR_LINKHDR 6 eaddr) (gen_bcmp .OR_LINKHDR 0 eaddr)

/-- `gen_hostop`. -/
def gen_hostop (addr mask : UInt) (dir : Dir) (proto src_off dst_off : UInt) : Gen Nat :=
  let op := fun offset : UInt => do
    let b0 ← gen_linktype proto
    let b1 ← gen_mcmp .OR_LINKPL offset .W addr mask
    gen_and b0 b1
    return b1
  byDir dir (op src_off) (op dst_off)

/-- `gen_hostop6`; the address and the mask are their four words. -/
def gen_hostop6 (a m : Fin 4 → UInt) (dir : Dir) (proto src_off dst_off : UInt) : Gen Nat :=
  let op := fun offset : UInt => do
    let b1 ← gen_mcmp .OR_LINKPL (offset + 12) .W (a 3) (m 3)
    let b0 ← gen_mcmp .OR_LINKPL (offset + 8) .W (a 2) (m 2)
    gen_and b0 b1
    let b0 ← gen_mcmp .OR_LINKPL (offset + 4) .W (a 1) (m 1)
    gen_and b0 b1
    let b0 ← gen_mcmp .OR_LINKPL offset .W (a 0) (m 0)
    gen_and b0 b1
    let b0 ← gen_linktype proto
    gen_and b0 b1
    return b1
  byDir dir (op src_off) (op dst_off)

/-- The word at an offset behind the Ethernet header, under a mask. -/
def wordIs (input : Input) (offset : Nat) (addr mask : UInt) : Read Bool := do
  return (← field input (14 + offset) .W) &&& mask = addr

/-- A packet of the type with the address at one of the two places. -/
def hasHost (input : Input) (addr mask : UInt) (dir : Dir) (proto : UInt)
    (src_off dst_off : Nat) : Read Bool :=
  let op := fun offset => (isOfType input proto).and (wordIs input offset addr mask)
  dir.holds (op src_off) (op dst_off)

def hasHost6 (input : Input) (a m : Fin 4 → UInt) (dir : Dir) (proto : UInt)
    (src_off dst_off : Nat) : Read Bool :=
  let op := fun offset =>
    (isOfType input proto).and ((wordIs input offset (a 0) (m 0)).and
      ((wordIs input (offset + 4) (a 1) (m 1)).and
        ((wordIs input (offset + 8) (a 2) (m 2)).and (wordIs input (offset + 12) (a 3) (m 3)))))
  dir.holds (op src_off) (op dst_off)

theorem gen_mcmp_linkpl_generates (offset : UInt) (hoffset : offset.toNat < 2 ^ 31)
    (addr mask : UInt) :
    Generates 1 (gen_mcmp .OR_LINKPL offset .W addr mask) fun input =>
      wordIs input offset.toNat addr mask :=
  (gen_mcmp_generates .OR_LINKPL offset hoffset .W addr mask).congr fun _ =>
    fieldIs_eq .OR_LINKPL rfl _ _ _

theorem gen_ehostop_generates {eaddr : Bytes} (h : eaddr.length = 6) (dir : Dir) :
    Generates 20 (gen_ehostop eaddr dir) fun input =>
      dir.holds (bytesAre input 6 eaddr) (bytesAre input 0 eaddr) := by
  have hne : eaddr ≠ [] := fun hc => by
    rw [hc] at h
    cases h
  have hat : ∀ offset : UInt, offset.toNat ≤ 6 →
      Generates 10 (gen_bcmp .OR_LINKHDR offset eaddr) fun input =>
        bytesAre input (0 + offset.toNat) eaddr := fun offset hoffset => by
    have hbcmp : Generates (eaddr.length + 4) (gen_bcmp .OR_LINKHDR offset eaddr) fun input =>
        bytesAre input (0 + offset.toNat) eaddr :=
      gen_bcmp_generates (fun _ => rfl) (by omega) hne
    rwa [h] at hbcmp
  exact byDir_generates (hat 6 (by decide)) (hat 0 (by decide)) dir

theorem gen_hostop_generates (addr mask : UInt) (dir : Dir) (proto src_off dst_off : UInt)
    (hsrc : src_off.toNat < 2 ^ 31) (hdst : dst_off.toNat < 2 ^ 31) :
    Generates (linktypeBlocks proto + 1 + (linktypeBlocks proto + 1))
      (gen_hostop addr mask dir proto src_off dst_off) fun input =>
      hasHost input addr mask dir proto src_off.toNat dst_off.toNat :=
  byDir_generates
    ((gen_ether_linktype_generates proto).and (gen_mcmp_linkpl_generates _ hsrc addr mask))
    ((gen_ether_linktype_generates proto).and (gen_mcmp_linkpl_generates _ hdst addr mask)) dir

theorem gen_hostop6_generates (a m : Fin 4 → UInt) (dir : Dir)
    (proto src_off dst_off : UInt) (hsrc : src_off.toNat < 2 ^ 30) (hdst : dst_off.toNat < 2 ^ 30) :
    Generates (linktypeBlocks proto + 4 + (linktypeBlocks proto + 4))
      (gen_hostop6 a m dir proto src_off dst_off) fun input =>
      hasHost6 input a m dir proto src_off.toNat dst_off.toNat := by
  have hop : ∀ offset : UInt, offset.toNat < 2 ^ 30 → Generates (linktypeBlocks proto + 4) (do
      let b1 ← gen_mcmp .OR_LINKPL (offset + 12) .W (a 3) (m 3)
      let b0 ← gen_mcmp .OR_LINKPL (offset + 8) .W (a 2) (m 2)
      gen_and b0 b1
      let b0 ← gen_mcmp .OR_LINKPL (offset + 4) .W (a 1) (m 1)
      gen_and b0 b1
      let b0 ← gen_mcmp .OR_LINKPL offset .W (a 0) (m 0)
      gen_and b0 b1
      let b0 ← gen_linktype proto
      gen_and b0 b1
      return b1) fun input => (isOfType input proto).and
        ((wordIs input offset.toNat (a 0) (m 0)).and
          ((wordIs input (offset.toNat + 4) (a 1) (m 1)).and
            ((wordIs input (offset.toNat + 8) (a 2) (m 2)).and
              (wordIs input (offset.toNat + 12) (a 3) (m 3))))) := by
    intro offset hoffset
    have hadd : ∀ k : UInt, k.toNat ≤ 12 → (offset + k).toNat = offset.toNat + k.toNat := by
      intro k hk
      rw [BitVec.toNat_add]
      omega
    have hword : ∀ (k : UInt) (hk : k.toNat ≤ 12) (addr mask : UInt),
        Generates 1 (gen_mcmp .OR_LINKPL (offset + k) .W addr mask) fun input =>
          wordIs input (offset.toNat + k.toNat) addr mask := fun k hk addr mask => by
      have := gen_mcmp_linkpl_generates (offset + k) (by rw [hadd k hk]; omega) addr mask
      rwa [hadd k hk] at this
    have hall := (gen_ether_linktype_generates proto).and_rev
      ((gen_mcmp_linkpl_generates offset (by omega) (a 0) (m 0)).and_rev
        ((hword 4 (by decide) (a 1) (m 1)).and_rev
          ((hword 8 (by decide) (a 2) (m 2)).and_rev (hword 12 (by decide) (a 3) (m 3)))))
    simp only [bind_assoc, pure_bind] at hall
    exact hall.le (by omega)
  exact byDir_generates (hop src_off hsrc) (hop dst_off hdst) dir

/-! Ports. -/

/-- The protocols that have ports. -/
inductive Transport where
  | IPPROTO_TCP
  | IPPROTO_UDP
  | IPPROTO_SCTP
  deriving DecidableEq, Repr

def Transport.number : Transport → UInt
  | IPPROTO_TCP => 6
  | IPPROTO_UDP => 17
  | IPPROTO_SCTP => 132

/-- A block whose branch tests bits. -/
def gen_jset (offrel : OffRel) (offset : UInt) (size : Size) (k : UInt) : Gen Nat :=
  gen_test (gen_load_a offrel offset size) ⟨JMP BPF_JSET, k⟩

/-- `gen_ipfrag`. -/
def gen_ipfrag : Gen Nat := do
  let b ← gen_jset .OR_LINKPL 6 .H 0x1fff
  gen_not b
  return b

def gen_portatom (off v : UInt) : Gen Nat := gen_cmp .OR_TRAN_IPV4 off .H v

def gen_portatom6 (off v : UInt) : Gen Nat := gen_cmp .OR_TRAN_IPV6 off .H v

/-- The two ports in order, as the range functions have them. -/
def inOrder (v1 v2 : UInt) : UInt × UInt := if v2.toInt < v1.toInt then (v2, v1) else (v1, v2)

/-- `gen_portrangeatom` and `gen_portrangeatom6`, which differ in the header. -/
def portrangeatom (offrel : OffRel) (off v1 v2 : UInt) : Gen Nat := do
  let (v1, v2) := inOrder v1 v2
  let b1 ← gen_cmp_ge offrel off .H v1
  let b2 ← gen_cmp_le offrel off .H v2
  gen_and b1 b2
  return b2

def gen_portrangeatom : UInt → UInt → UInt → Gen Nat := portrangeatom .OR_TRAN_IPV4

def gen_portrangeatom6 : UInt → UInt → UInt → Gen Nat := portrangeatom .OR_TRAN_IPV6

/-- `gen_portop` and `gen_portrangeop`: a test of the ports behind an IPv4 header of the protocol
and not in a later fragment. -/
def portop (atom : UInt → Gen Nat) (proto : UInt) (dir : Dir) : Gen Nat := do
  let tmp ← gen_cmp .OR_LINKPL 9 .B proto
  let b0 ← gen_ipfrag
  gen_and tmp b0
  let b1 ← byDir dir (atom 0) (atom 2)
  gen_and b0 b1
  return b1

/-- `gen_portop6` and `gen_portrangeop6`. -/
def portop6 (atom : UInt → Gen Nat) (proto : UInt) (dir : Dir) : Gen Nat := do
  let b0 ← gen_cmp .OR_LINKPL 6 .B proto
  let b1 ← byDir dir (atom 0) (atom 2)
  gen_and b0 b1
  return b1

def gen_portop (port proto : UInt) (dir : Dir) : Gen Nat :=
  portop (fun off => gen_portatom off port) proto dir

def gen_portop6 (port proto : UInt) (dir : Dir) : Gen Nat :=
  portop6 (fun off => gen_portatom6 off port) proto dir

def gen_portrangeop (port1 port2 proto : UInt) (dir : Dir) : Gen Nat :=
  portop (fun off => gen_portrangeatom off port1 port2) proto dir

def gen_portrangeop6 (port1 port2 proto : UInt) (dir : Dir) : Gen Nat :=
  portop6 (fun off => gen_portrangeatom6 off port1 port2) proto dir

/-- The common part of the four functions for ports; no protocol is `PROTO_UNDEF`, which tries
the three of them. -/
def overTransports (ethertype : UInt) (op : UInt → Gen Nat) (ip_proto : Option Transport) :
    Gen Nat := do
  let b0 ← gen_linktype ethertype
  let any := match ip_proto with
    | some t => op t.number
    | none => do
      let tmp ← op Transport.IPPROTO_TCP.number
      let b1 ← op Transport.IPPROTO_UDP.number
      gen_or tmp b1
      let tmp ← op Transport.IPPROTO_SCTP.number
      gen_or tmp b1
      return b1
  let b1 ← any
  gen_and b0 b1
  return b1

def gen_port (port : UInt) (ip_proto : Option Transport) (dir : Dir) : Gen Nat :=
  overTransports ETHERTYPE_IP (fun proto => gen_portop port proto dir) ip_proto

def gen_port6 (port : UInt) (ip_proto : Option Transport) (dir : Dir) : Gen Nat :=
  overTransports ETHERTYPE_IPV6 (fun proto => gen_portop6 port proto dir) ip_proto

def gen_portrange (port1 port2 : UInt) (ip_proto : Option Transport) (dir : Dir) : Gen Nat :=
  overTransports ETHERTYPE_IP (fun proto => gen_portrangeop port1 port2 proto dir) ip_proto

def gen_portrange6 (port1 port2 : UInt) (ip_proto : Option Transport) (dir : Dir) : Gen Nat :=
  overTransports ETHERTYPE_IPV6 (fun proto => gen_portrangeop6 port1 port2 proto dir) ip_proto

/-- The protocols that an expression about ports is for. -/
def transportNumbers : Option Transport → List UInt
  | some t => [t.number]
  | none => [Transport.IPPROTO_TCP.number, Transport.IPPROTO_UDP.number,
      Transport.IPPROTO_SCTP.number]

/-- What is looked up in the packets with one of the protocols. -/
def ofProto (proto : Read UInt) (protos : List UInt) (v : Read Bool) : Read Bool := do
  if (← proto) ∉ protos then return false
  v

/-- What is looked up in first or only fragments. -/
def notLaterFragment (input : Input) (v : Read Bool) : Read Bool := do
  if (← field input 20 .H) &&& 0x1fff ≠ 0 then return false
  v

/-- What is looked up behind the IPv4 header of a first or only fragment of one of the protocols. -/
def inIPv4Payload (input : Input) (protos : List UInt) (v : Read Bool) : Read Bool :=
  ofProto (field input 23 .B) protos (notLaterFragment input v)

/-- What is looked up behind the IPv6 header with one of the protocols. -/
def inIPv6Payload (input : Input) (protos : List UInt) (v : Read Bool) : Read Bool :=
  ofProto (field input 20 .B) protos v

/-- The ports behind the header pass the test. -/
def portsPass (input : Input) (offrel : OffRel) (dir : Dir) (p : UInt → Bool) : Read Bool :=
  dir.holds (fieldIs input offrel 0 .H p) (fieldIs input offrel 2 .H p)

/-- A packet with ports that pass the test, over IPv4. -/
def hasPort (input : Input) (ip_proto : Option Transport) (dir : Dir) (p : UInt → Bool) :
    Read Bool :=
  (isOfType input ETHERTYPE_IP).and
    (inIPv4Payload input (transportNumbers ip_proto) (portsPass input .OR_TRAN_IPV4 dir p))

/-- A packet with ports that pass the test, over IPv6. -/
def hasPort6 (input : Input) (ip_proto : Option Transport) (dir : Dir) (p : UInt → Bool) :
    Read Bool :=
  (isOfType input ETHERTYPE_IPV6).and
    (inIPv6Payload input (transportNumbers ip_proto) (portsPass input .OR_TRAN_IPV6 dir p))

theorem gen_jset_generates (offrel : OffRel) (offset : UInt) (hoffset : offset.toNat < 2 ^ 31)
    (size : Size) (k : UInt) :
    Generates 1 (gen_jset offrel offset size k) fun input =>
      fieldIs input offrel offset.toNat size fun a => a &&& k ≠ 0 := by
  have hbranch : decode (JMP BPF_JSET) = some (.JMP .JSET .K) := by decide
  have hlength : (gen_load_a offrel offset size).length ≤ 3 :=
    (length_gen_load_a offrel offset size).trans (by decide)
  refine .test hbranch hlength (gen_load_a_safe offrel offset size) fun input hinput r => ?_
  rw [← List.append_nil (List.map Stmt.insn _)]
  exact gen_load_a_reads hinput offrel hoffset size r fun r' => .nil rfl

theorem portrangeatom_generates (offrel : OffRel) (off : UInt) (hoff : off.toNat < 2 ^ 31)
    (v1 v2 : UInt) :
    Generates 2 (portrangeatom offrel off v1 v2) fun input =>
      fieldIs input offrel off.toNat .H fun a => (inOrder v1 v2).1 ≤ a ∧ a ≤ (inOrder v1 v2).2 := by
  refine ((gen_cmp_ge_generates offrel off hoff .H (inOrder v1 v2).1).and
    (gen_cmp_le_generates offrel off hoff .H (inOrder v1 v2).2)).congr fun input => ?_
  simp only [fieldIs]
  rcases loadAt input offrel off.toNat .H with o | a
  · rfl
  · by_cases h : (inOrder v1 v2).1 ≤ a
    · simp [Look.and, h]
    · simp [Look.and, h]

/-- Three protocols one after the other are one test for the three. -/
theorem any_of_three (proto : Read UInt) (v : Read Bool) {a b c : UInt} (hab : a ≠ b) (hac : a ≠ c)
    (hbc : b ≠ c) :
    (ofProto proto [c] v).or ((ofProto proto [a] v).or (ofProto proto [b] v)) =
      ofProto proto [a, b, c] v := by
  simp only [ofProto]
  rcases proto with o | p
  · rfl
  · simp only [Look.ok_bind, List.mem_cons, List.not_mem_nil, or_false]
    by_cases ha : p = a
    · subst ha
      rcases v with o | (_ | _) <;> simp [Look.or, hab, hac]
    · by_cases hb : p = b
      · subst hb
        rcases v with o | (_ | _) <;> simp [Look.or, ha, hbc]
      · by_cases hc : p = c
        · subst hc
          rcases v with o | (_ | _) <;> simp [Look.or, ha, hb]
        · simp [Look.or, ha, hb, hc]

theorem overTransports_generates (ethertype : UInt) {k : Nat} {op : UInt → Gen Nat}
    {proto : Input → Read UInt} {v : Input → Read Bool}
    (hop : ∀ n, Generates k (op n) fun input => ofProto (proto input) [n] (v input))
    (ip_proto : Option Transport) :
    Generates (linktypeBlocks ethertype + 3 * k) (overTransports ethertype op ip_proto)
      fun input =>
      (isOfType input ethertype).and
        (ofProto (proto input) (transportNumbers ip_proto) (v input)) := by
  refine (gen_ether_linktype_generates ethertype).and ?_
  cases ip_proto with
  | some t => exact (hop t.number).le (by omega)
  | none =>
    have hall := (hop Transport.IPPROTO_SCTP.number).or_rev
      ((hop Transport.IPPROTO_TCP.number).or (hop Transport.IPPROTO_UDP.number))
    simp only [bind_assoc, pure_bind] at hall
    exact (hall.le (by omega)).congr fun input =>
      any_of_three (proto input) (v input) (by decide) (by decide) (by decide)

/-- A test of the protocol field, in front of another one. -/
theorem proto_and_generates {k : Nat} {m : Gen Nat} {v : Input → Read Bool}
    (hm : Generates k m v) (off : UInt) (hoff : off.toNat < 2 ^ 31) (n : UInt) :
    Generates (1 + k) (do
      let b0 ← gen_cmp .OR_LINKPL off .B n
      let b1 ← m
      gen_and b0 b1
      return b1) fun input => ofProto (field input (14 + off.toNat) .B) [n] (v input) := by
  refine ((gen_cmp_generates .OR_LINKPL off hoff .B n).and hm).congr fun input => ?_
  rw [fieldIs_eq .OR_LINKPL rfl, ofProto]
  rcases field input (14 + off.toNat) .B with o | p
  · rfl
  · by_cases h : p = n <;> simp [Look.and, h]

theorem gen_ipfrag_generates :
    Generates 1 gen_ipfrag fun input =>
      (fieldIs input .OR_LINKPL 6 .H fun a => a &&& 0x1fff ≠ 0).not :=
  (gen_jset_generates .OR_LINKPL 6 (by decide) .H 0x1fff).not

theorem portop_generates {k : Nat} {atom : UInt → Gen Nat} {p : UInt → Bool} {offrel : OffRel}
    (hatom : ∀ off : UInt, off.toNat < 2 ^ 31 →
      Generates k (atom off) fun input => fieldIs input offrel off.toNat .H p) (proto : UInt)
    (dir : Dir) :
    Generates (2 + (k + k)) (portop atom proto dir) fun input =>
      inIPv4Payload input [proto] (portsPass input offrel dir p) := by
  have hports := byDir_generates (hatom 0 (by decide)) (hatom 2 (by decide)) dir
  have hhead := proto_and_generates gen_ipfrag_generates 9 (by decide) proto
  have hall := hhead.and hports
  simp only [bind_assoc, pure_bind] at hall
  refine hall.congr fun input => ?_
  rw [fieldIs_eq .OR_LINKPL rfl, inIPv4Payload, ofProto, ofProto, notLaterFragment]
  show Look.and (field input 23 .B >>= _) _ = field input 23 .B >>= _
  rcases field input 23 .B with o | n
  · rfl
  · by_cases hn : n = proto
    · simp only [Look.ok_bind, hn, List.mem_singleton, not_true_eq_false, if_false]
      show Look.and (Look.not (field input 20 .H >>= _)) _ = field input 20 .H >>= _
      rcases field input 20 .H with o | f
      · rfl
      · show (if (!decide (f &&& 0x1fff ≠ 0)) = true then _ else _) =
          if f &&& 0x1fff ≠ 0 then _ else _
        by_cases hf : f &&& 0x1fff = 0
        · rw [if_neg (not_not.mpr hf), decide_eq_false (not_not.mpr hf)]
          rfl
        · rw [if_pos hf, decide_eq_true hf]
          rfl
    · simp [Look.and, hn]

theorem portop6_generates {k : Nat} {atom : UInt → Gen Nat} {p : UInt → Bool} {offrel : OffRel}
    (hatom : ∀ off : UInt, off.toNat < 2 ^ 31 →
      Generates k (atom off) fun input => fieldIs input offrel off.toNat .H p) (proto : UInt)
    (dir : Dir) :
    Generates (1 + (k + k)) (portop6 atom proto dir) fun input =>
      inIPv6Payload input [proto] (portsPass input offrel dir p) :=
  proto_and_generates (byDir_generates (hatom 0 (by decide)) (hatom 2 (by decide)) dir) 6
    (by decide) proto

theorem gen_port_generates (port : UInt) (ip_proto : Option Transport) (dir : Dir) :
    Generates 13 (gen_port port ip_proto dir) fun input =>
      hasPort input ip_proto dir fun a => a = port :=
  (overTransports_generates ETHERTYPE_IP (fun n => portop_generates (fun off hoff =>
    gen_cmp_generates .OR_TRAN_IPV4 off hoff .H port) n dir) ip_proto).le (by decide)

theorem gen_port6_generates (port : UInt) (ip_proto : Option Transport) (dir : Dir) :
    Generates 10 (gen_port6 port ip_proto dir) fun input =>
      hasPort6 input ip_proto dir fun a => a = port :=
  (overTransports_generates ETHERTYPE_IPV6 (fun n => portop6_generates (fun off hoff =>
    gen_cmp_generates .OR_TRAN_IPV6 off hoff .H port) n dir) ip_proto).le (by decide)

theorem gen_portrange_generates (port1 port2 : UInt) (ip_proto : Option Transport) (dir : Dir) :
    Generates 19 (gen_portrange port1 port2 ip_proto dir) fun input =>
      hasPort input ip_proto dir fun a =>
        (inOrder port1 port2).1 ≤ a ∧ a ≤ (inOrder port1 port2).2 :=
  (overTransports_generates ETHERTYPE_IP (fun n => portop_generates (fun off hoff =>
    portrangeatom_generates .OR_TRAN_IPV4 off hoff port1 port2) n dir) ip_proto).le (by decide)

theorem gen_portrange6_generates (port1 port2 : UInt) (ip_proto : Option Transport) (dir : Dir) :
    Generates 16 (gen_portrange6 port1 port2 ip_proto dir) fun input =>
      hasPort6 input ip_proto dir fun a =>
        (inOrder port1 port2).1 ≤ a ∧ a ≤ (inOrder port1 port2).2 :=
  (overTransports_generates ETHERTYPE_IPV6 (fun n => portop6_generates (fun off hoff =>
    portrangeatom_generates .OR_TRAN_IPV6 off hoff port1 port2) n dir) ip_proto).le (by decide)

end Bpf

end Jxnet
