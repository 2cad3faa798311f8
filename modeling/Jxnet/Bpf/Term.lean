import Jxnet.Bpf.Protocol

namespace Jxnet

open Java ByteBuffer JumpMachine ShortCircuit

namespace Bpf

/-! The terms of the filter language: numbers and addresses under their qualifiers, lengths, bytes,
broadcasts and multicasts. -/

/-! Numbers and IPv4 addresses. -/

/-- The inner loop of `__pcap_atoin`: the number, and the text behind it. -/
def atoinNumber : List Char → UInt → UInt × List Char
  | [], n => (n, [])
  | c :: s, n =>
    if c = '.' then (n, c :: s) else atoinNumber s (n * 10 + BitVec.ofNat 32 c.toNat - 48)

theorem length_atoinNumber (s : List Char) (n : UInt) : (atoinNumber s n).2.length ≤ s.length := by
  induction s generalizing n with
  | nil => exact Nat.le_refl _
  | cons c s ih =>
    rw [atoinNumber]
    split
    · exact Nat.le_refl _
    · exact Nat.le_succ_of_le (ih _)

/-- The outer loop of `__pcap_atoin`, with the address and the length so far. -/
def atoinLoop (s : List Char) (addr : UInt) (len : Nat) : Nat × UInt :=
  let addr := (addr <<< 8) ||| ((atoinNumber s 0).1 &&& 0xff)
  match h : (atoinNumber s 0).2 with
  | [] => (len + 8, addr)
  | _ :: s' => atoinLoop s' addr (len + 8)
termination_by s.length
decreasing_by
  have := length_atoinNumber s 0
  rw [h] at this
  simp only [List.length_cons] at this
  omega

/-- `__pcap_atoin`: how many bits the text gives, and the number. -/
def pcap_atoin (s : String) : Nat × UInt := atoinLoop s.toList 0 0

/-- "Promote short net number", a loop that takes three steps at most. -/
def promote : Nat → UInt → UInt → UInt × UInt
  | 0, v, mask => (v, mask)
  | n + 1, v, mask =>
    if v ≠ 0 ∧ v &&& 0xff000000 = 0 then promote n (v <<< 8) (mask <<< 8) else (v, mask)

def shortNet (v : UInt) : UInt × UInt := promote 3 v 0xffffffff

/-- The address and the mask of `gen_ncode`. -/
def ncodeNet (s : Option String) (v : UInt) (addr : Addr) : UInt × UInt :=
  match s with
  | none => if addr = .Q_NET then shortNet v else (v, 0xffffffff)
  | some s =>
    let (vlen, v) := pcap_atoin s
    (v <<< (32 - vlen), (0xffffffff : UInt) <<< (32 - vlen))

/-- The protocol of an expression about ports; inside, nothing for all the protocols. -/
def portProto : Proto → Option (Option Transport)
  | .Q_UDP => some (some .IPPROTO_UDP)
  | .Q_TCP => some (some .IPPROTO_TCP)
  | .Q_SCTP => some (some .IPPROTO_SCTP)
  | .Q_DEFAULT => some none
  | _ => none

/-- `gen_ncode`; a text stands for an address only. -/
def gen_ncode (s : Option String) (v : UInt) (q : Qual) : Gen Nat :=
  match q.addr with
  | .Q_DEFAULT | .Q_HOST | .Q_NET =>
    if q.proto = .Q_LINK then bpf_error "illegal link layer address"
    else
      let (addr, mask) := ncodeNet s v q.addr
      gen_host addr mask q.proto q.dir q.addr
  | .Q_PORT =>
    match portProto q.proto with
    | none => bpf_error "illegal qualifier of 'port'"
    | some proto =>
      if 65535 < v then bpf_error s!"illegal port number {v.toNat} > 65535"
      else do
        let b ← gen_port v proto q.dir
        let b0 ← gen_port6 v proto q.dir
        gen_or b0 b
        return b
  | .Q_PORTRANGE =>
    match portProto q.proto with
    | none => bpf_error "illegal qualifier of 'portrange'"
    | some proto =>
      if 65535 < v then bpf_error s!"illegal port number {v.toNat} > 65535"
      else do
        let b ← gen_portrange v v proto q.dir
        let b0 ← gen_portrange6 v v proto q.dir
        gen_or b0 b
        return b
  | .Q_GATEWAY => bpf_error "'gateway' requires a name"
  | .Q_PROTO => gen_proto v q.proto q.dir
  | .Q_UNDEF => bpf_error "syntax error in filter expression"

/-- An IPv4 address as an identifier of the grammar. -/
def gen_hid (s : String) (q : Qual) : Gen Nat :=
  if q.addr = .Q_PORT then bpf_error "'port' modifier applied to ip host"
  else if q.addr = .Q_PORTRANGE then bpf_error "'portrange' modifier applied to ip host"
  else if q.addr = .Q_PROTO then bpf_error "'proto' modifier applied to ip host"
  else gen_ncode (some s) 0 q

/-- The network and the mask of `gen_mcode`. -/
def mcodeNet (s1 : String) (s2 : Option String) (masklen : UInt) : Except String (UInt × UInt) :=
  let (nlen, n) := pcap_atoin s1
  let n := n <<< (32 - nlen)
  match s2 with
  | some s2 =>
    let (mlen, m) := pcap_atoin s2
    let m := m <<< (32 - mlen)
    if n &&& ~~~m ≠ 0 then .error s!"non-network bits set in \"{s1} mask {s2}\""
    else .ok (n, m)
  | none =>
    if 32 < masklen then .error "mask length must be <= 32"
    else
      let m := if masklen = 0 then 0 else (0xffffffff : UInt) <<< (32 - masklen.toNat)
      if n &&& ~~~m ≠ 0 then .error s!"non-network bits set in \"{s1}/{masklen.toNat}\""
      else .ok (n, m)

/-- `gen_mcode`. -/
def gen_mcode (s1 : String) (s2 : Option String) (masklen : UInt) (q : Qual) : Gen Nat :=
  match mcodeNet s1 s2 masklen with
  | .error message => bpf_error message
  | .ok (n, m) =>
    if q.addr = .Q_NET then gen_host n m q.proto q.dir q.addr
    else bpf_error "Mask syntax for networks only"

/-- The mask of `gen_mcode6`. -/
def mask6 (masklen : UInt) : Bytes :=
  let full := List.replicate (masklen.toNat / 8) (0xff : JByte)
  let rest := if masklen.toNat % 8 ≠ 0 then full ++ [(0xff : JByte) <<< (8 - masklen.toNat % 8)]
    else full
  rest ++ List.replicate (16 - rest.length) 0

def mask6Word (masklen : UInt) (i : Fin 4) : UInt := Filter.valueAt (mask6 masklen) (4 * i) .W

/-- `gen_mcode6`; the words of the address that the resolver finds for the text are `a`. -/
def gen_mcode6 (s1 : String) (a : Fin 4 → UInt) (masklen : UInt) (q : Qual) : Gen Nat :=
  if 128 < masklen then bpf_error "mask length must be <= 128"
  else if ∃ i, a i &&& ~~~mask6Word masklen i ≠ 0 then
    bpf_error s!"non-network bits set in \"{s1}/{masklen.toNat}\""
  else match q.addr with
  | .Q_DEFAULT | .Q_HOST =>
    if masklen ≠ 128 then bpf_error "Mask syntax for networks only"
    else gen_host6 a (mask6Word masklen) q.proto q.dir q.addr
  | .Q_NET => gen_host6 a (mask6Word masklen) q.proto q.dir q.addr
  | _ => bpf_error "invalid qualifier against IPv6 address"

/-! Lengths and bytes. -/

/-- `gen_len`. -/
def gen_len (jmp : Test) (n : UInt) : Gen Nat :=
  gen_test [⟨BPF_LD ||| BPF_LEN, 0⟩] ⟨JMP jmp.code, n⟩

def gen_greater (n : UInt) : Gen Nat := gen_len .JGE n

/-- `gen_less`, which "is less than or equal". -/
def gen_less (n : UInt) : Gen Nat := do
  let b ← gen_len .JGT n
  gen_not b
  return b

/-- The operators of `byte`. -/
inductive ByteOp where
  | eq
  | lt
  | gt
  | or
  | and
  deriving DecidableEq, Repr

/-- `gen_byteop`. -/
def gen_byteop (op : ByteOp) (idx val : UInt) : Gen Nat :=
  -- the byte is not loaded for these two
  let bits := fun code => do
    let b ← gen_test [⟨code, val⟩] ⟨JMP BPF_JEQ, 0⟩
    gen_not b
    return b
  match op with
  | .eq => gen_cmp .OR_LINKHDR idx .B val
  | .lt => gen_cmp_lt .OR_LINKHDR idx .B val
  | .gt => gen_cmp_gt .OR_LINKHDR idx .B val
  | .or => bits (BPF_ALU ||| BPF_OR ||| BPF_K)
  | .and => bits (BPF_ALU ||| BPF_AND ||| BPF_K)

/-! Broadcasts and multicasts. -/

def PCAP_NETMASK_UNKNOWN : UInt := 0xffffffff

def ebroadcast : Bytes := [0xff, 0xff, 0xff, 0xff, 0xff, 0xff]

/-- `gen_broadcast`, with the mask that `pcap_compile` was given. -/
def gen_broadcast (netmask : UInt) (proto : Proto) : Gen Nat :=
  match proto with
  | .Q_DEFAULT | .Q_LINK => gen_ehostop ebroadcast .Q_DST
  | .Q_IP =>
    if netmask = PCAP_NETMASK_UNKNOWN then
      bpf_error "netmask not known, so 'ip broadcast' not supported"
    else do
      let b0 ← gen_linktype ETHERTYPE_IP
      let hostmask := ~~~netmask
      let b1 ← gen_mcmp .OR_LINKPL 16 .W 0 hostmask
      let b2 ← gen_mcmp .OR_LINKPL 16 .W (0xffffffff &&& hostmask) hostmask
      gen_or b1 b2
      gen_and b0 b2
      return b2
  | _ => bpf_error "only link-layer/IP broadcast filters supported"

/-- `gen_mac_multicast`. -/
def gen_mac_multicast (offset : UInt) : Gen Nat := gen_jset .OR_LINKHDR offset .B 1

/-- `gen_multicast`. -/
def gen_multicast (proto : Proto) : Gen Nat :=
  match proto with
  | .Q_DEFAULT | .Q_LINK => gen_mac_multicast 0
  | .Q_IP => do
    let b0 ← gen_linktype ETHERTYPE_IP
    let b1 ← gen_cmp_ge .OR_LINKPL 16 .B 224
    gen_and b0 b1
    return b1
  | .Q_IPV6 => do
    let b0 ← gen_linktype ETHERTYPE_IPV6
    let b1 ← gen_cmp .OR_LINKPL 24 .B 255
    gen_and b0 b1
    return b1
  | _ => bpf_error ("link-layer multicast filters supported only on ethernet/FDDI/token ring/" ++
    "ARCNET/802.11/ATM LANE/Fibre Channel")

/-! What they stand for. -/

def portMeaning (ip_proto : Option Transport) (dir : Dir) (p : UInt → Bool) : Meaning :=
  .ok fun input => (hasPort6 input ip_proto dir p).or (hasPort input ip_proto dir p)

/-- A number or an address, with the network that it gives. -/
def ncodeMeaning (net : UInt × UInt) (v : UInt) (q : Qual) : Meaning :=
  match q.addr with
  | .Q_DEFAULT | .Q_HOST | .Q_NET =>
    if q.proto = .Q_LINK then .error .message else hostMeaning net.1 net.2 q.dir q.proto
  | .Q_PORT | .Q_PORTRANGE =>
    match portProto q.proto with
    | none => .error .message
    | some proto =>
      if 65535 < v then .error .message else portMeaning proto q.dir fun a => a = v
  | .Q_PROTO => protoMeaning v q.proto q.dir
  | .Q_GATEWAY | .Q_UNDEF => .error .message

/-- The network of a number: "255.0.0.0 for a single number"; what does not fit in a byte is as the
generator has it. -/
def singleNet (v : UInt) : UInt × UInt := if v < 256 then (v <<< 24, 0xff000000) else shortNet v

/-- Only 0 is not promoted. -/
theorem shortNet_eq {v : UInt} (hv : v ≠ 0) : shortNet v = singleNet v := by
  rw [singleNet]
  split
  · rename_i hlt
    have hbytes : ∀ b : BitVec 8, b.setWidth 32 ≠ (0 : UInt) →
        shortNet (b.setWidth 32) = (b.setWidth 32 <<< 24, 0xff000000) := by decide +kernel
    have hb : (v.setWidth 8).setWidth 32 = v := by
      apply BitVec.eq_of_toNat_eq
      have hbyte : v.toNat < 256 := hlt
      simp only [BitVec.toNat_setWidth]
      omega
    have h := hbytes (v.setWidth 8)
    rw [hb] at h
    exact h hv
  · rfl

/-- A number, with the network that it stands for behind `net`. -/
def numberMeaning (network : UInt → UInt × UInt) (v : UInt) (q : Qual) : Meaning :=
  ncodeMeaning (if q.addr = .Q_NET then network v else (v, 0xffffffff)) v q

def hidMeaning (s : String) (q : Qual) : Meaning :=
  match q.addr with
  | .Q_DEFAULT | .Q_HOST | .Q_NET => ncodeMeaning (ncodeNet (some s) 0 q.addr) 0 q
  | _ => .error .message

def mcodeMeaning (s1 : String) (s2 : Option String) (masklen : UInt) (q : Qual) : Meaning :=
  match mcodeNet s1 s2 masklen with
  | .error _ => .error .message
  | .ok (n, m) => if q.addr = .Q_NET then hostMeaning n m q.dir q.proto else .error .message

/-- The address has no bit outside of the network, and is complete where a host is meant. -/
def mcode6Meaning (a : Fin 4 → UInt) (masklen : UInt) (q : Qual) : Meaning :=
  if masklen ≤ 128 ∧ (∀ i, a i &&& ~~~mask6Word masklen i = 0) ∧
      (q.addr = .Q_NET ∨ (q.addr = .Q_DEFAULT ∨ q.addr = .Q_HOST) ∧ masklen = 128) then
    host6Meaning a (mask6Word masklen) q.dir q.proto
  else .error .message

def ecodeMeaning (eaddr : Bytes) (q : Qual) : Meaning :=
  if (q.addr = .Q_HOST ∨ q.addr = .Q_DEFAULT) ∧ q.proto = .Q_LINK then
    .ok fun input => q.dir.holds (bytesAre input 6 eaddr) (bytesAre input 0 eaddr)
  else .error .message

def broadcastMeaning (netmask : UInt) : Proto → Meaning
  | .Q_DEFAULT | .Q_LINK => .ok fun input => bytesAre input 0 ebroadcast
  | .Q_IP =>
    if netmask = PCAP_NETMASK_UNKNOWN then .error .message
    else .ok fun input => (isOfType input ETHERTYPE_IP).and
      ((wordIs input 16 0 (~~~netmask)).or (wordIs input 16 (~~~netmask) (~~~netmask)))
  | _ => .error .message

def multicastMeaning : Proto → Meaning
  | .Q_DEFAULT | .Q_LINK => .ok fun input => do return (← field input 0 .B) &&& 1 ≠ 0
  | .Q_IP => .ok fun input => (isOfType input ETHERTYPE_IP).and do
      return 224 ≤ (← field input 30 .B)
  | .Q_IPV6 => .ok fun input => (isOfType input ETHERTYPE_IPV6).and (byteIs input 38 255)
  | _ => .error .message

/-- The test of a byte that is looked at. -/
def byteopMeaning (idx val : UInt) : ByteOp → Meaning
  | .eq => .ok fun input => do return (← field input idx.toNat .B) = val
  | .lt => .ok fun input => do return (← field input idx.toNat .B) < val
  | .gt => .ok fun input => do return val < (← field input idx.toNat .B)
  | _ => .error .message

theorem gen_ncode_host_does (s : Option String) (v : UInt) (addr : Addr) (proto : Proto)
    (dir : Dir) :
    Does 12 (if proto = .Q_LINK then bpf_error "illegal link layer address"
        else gen_host (ncodeNet s v addr).1 (ncodeNet s v addr).2 proto dir addr)
      (if proto = .Q_LINK then .error .message
        else hostMeaning (ncodeNet s v addr).1 (ncodeNet s v addr).2 dir proto) := by
  by_cases hlink : proto = .Q_LINK
  · rw [if_pos hlink, if_pos hlink]
    exact ⟨_, fun _ => rfl⟩
  · rw [if_neg hlink, if_neg hlink]
    exact gen_host_does _ _ proto dir addr

theorem gen_ncode_does (s : Option String) (v : UInt) (q : Qual) :
    Does 40 (gen_ncode s v q) (ncodeMeaning (ncodeNet s v q.addr) v q) := by
  obtain ⟨addr, proto, dir⟩ := q
  have hrange : ∀ a : UInt,
      decide ((inOrder v v).1 ≤ a ∧ a ≤ (inOrder v v).2) = decide (a = v) := by
    intro a
    have hsame : inOrder v v = (v, v) := by
      rw [inOrder]
      split <;> rfl
    rw [hsame]
    refine decide_eq_decide.mpr ⟨fun h => BitVec.le_antisymm h.2 h.1, fun h => ?_⟩
    rw [h]
    exact ⟨BitVec.le_refl v, BitVec.le_refl v⟩
  cases addr with
  | Q_DEFAULT => exact (gen_ncode_host_does s v .Q_DEFAULT proto dir).le (by decide)
  | Q_HOST => exact (gen_ncode_host_does s v .Q_HOST proto dir).le (by decide)
  | Q_NET => exact (gen_ncode_host_does s v .Q_NET proto dir).le (by decide)
  | Q_PORT =>
    rcases hp : portProto proto with _ | ip_proto
    · simp only [gen_ncode, ncodeMeaning, hp]
      exact ⟨_, fun _ => rfl⟩
    · simp only [gen_ncode, ncodeMeaning, hp]
      by_cases hv : 65535 < v
      · rw [if_pos hv, if_pos hv]
        exact ⟨_, fun _ => rfl⟩
      · rw [if_neg hv, if_neg hv]
        have hall := (gen_port6_generates v ip_proto dir).or_rev
          (gen_port_generates v ip_proto dir)
        exact hall.le (by decide)
  | Q_PORTRANGE =>
    rcases hp : portProto proto with _ | ip_proto
    · simp only [gen_ncode, ncodeMeaning, hp]
      exact ⟨_, fun _ => rfl⟩
    · simp only [gen_ncode, ncodeMeaning, hp]
      by_cases hv : 65535 < v
      · rw [if_pos hv, if_pos hv]
        exact ⟨_, fun _ => rfl⟩
      · rw [if_neg hv, if_neg hv]
        have hall := (gen_portrange6_generates v v ip_proto dir).or_rev
          (gen_portrange_generates v v ip_proto dir)
        exact (hall.le (by decide)).congr fun input => by simp only [hrange]
  | Q_GATEWAY => exact ⟨_, fun _ => rfl⟩
  | Q_PROTO => exact (gen_proto_does v proto dir).le (by decide)
  | Q_UNDEF => exact ⟨_, fun _ => rfl⟩

theorem gen_hid_does (s : String) (q : Qual) : Does 12 (gen_hid s q) (hidMeaning s q) := by
  obtain ⟨addr, proto, dir⟩ := q
  have hhost := fun addr => gen_ncode_host_does (some s) 0 addr proto dir
  cases addr with
  | Q_DEFAULT => exact hhost .Q_DEFAULT
  | Q_HOST => exact hhost .Q_HOST
  | Q_NET => exact hhost .Q_NET
  | _ => exact ⟨_, fun _ => rfl⟩

theorem gen_mcode_does (s1 : String) (s2 : Option String) (masklen : UInt) (q : Qual) :
    Does 12 (gen_mcode s1 s2 masklen q) (mcodeMeaning s1 s2 masklen q) := by
  rcases hnet : mcodeNet s1 s2 masklen with message | ⟨n, m⟩
  · simp only [gen_mcode, mcodeMeaning, hnet]
    exact ⟨message, fun _ => rfl⟩
  · simp only [gen_mcode, mcodeMeaning, hnet]
    by_cases haddr : q.addr = .Q_NET
    · simp only [if_pos haddr]
      exact gen_host_does n m q.proto q.dir q.addr
    · simp only [if_neg haddr]
      exact ⟨_, fun _ => rfl⟩

theorem gen_mcode6_does (s1 : String) (a : Fin 4 → UInt) (masklen : UInt) (q : Qual) :
    Does 10 (gen_mcode6 s1 a masklen q) (mcode6Meaning a masklen q) := by
  obtain ⟨addr, proto, dir⟩ := q
  rw [gen_mcode6, mcode6Meaning]
  generalize mask6Word masklen = m
  have hhost := gen_host6_does a m proto dir
  by_cases hlen : 128 < masklen
  · rw [if_pos hlen, if_neg fun h => absurd hlen (BitVec.not_lt.mpr h.1)]
    exact ⟨_, fun _ => rfl⟩
  · by_cases hbits : ∃ i, a i &&& ~~~m i ≠ 0
    · rw [if_neg hlen, if_pos hbits, if_neg fun h => hbits.elim fun i hi => hi (h.2.1 i)]
      exact ⟨_, fun _ => rfl⟩
    · rw [if_neg hlen, if_neg hbits]
      have hok : masklen ≤ 128 ∧ ∀ i, a i &&& ~~~m i = 0 :=
        ⟨BitVec.not_lt.mp hlen, fun i => by_contra fun hi => hbits ⟨i, hi⟩⟩
      simp only [hok.1, hok.2, true_and, implies_true]
      have hone : Does 10 (if masklen ≠ 128 then bpf_error "Mask syntax for networks only"
          else gen_host6 a m proto dir addr)
          (if masklen = 128 then host6Meaning a m dir proto else .error .message) := by
        by_cases hfull : masklen = 128
        · rw [if_neg (not_not.mpr hfull), if_pos hfull]
          exact hhost addr
        · rw [if_pos hfull, if_neg hfull]
          exact ⟨_, fun _ => rfl⟩
      cases addr with
      | Q_DEFAULT | Q_HOST => simpa using hone
      | Q_NET => simpa using hhost .Q_NET
      | _ =>
        simp only [reduceCtorEq, or_self, false_and, if_false]
        exact ⟨_, fun _ => rfl⟩

theorem gen_ecode_does {eaddr : Bytes} (h : eaddr.length = 6) (q : Qual) :
    Does 20 (gen_ecode eaddr q) (ecodeMeaning eaddr q) := by
  rw [gen_ecode, ecodeMeaning]
  split
  · exact gen_ehostop_generates h q.dir
  · exact ⟨_, fun _ => rfl⟩

theorem gen_broadcast_does (netmask : UInt) (proto : Proto) :
    Does 20 (gen_broadcast netmask proto) (broadcastMeaning netmask proto) := by
  cases proto with
  | Q_DEFAULT | Q_LINK => exact gen_ehostop_generates (by decide) .Q_DST
  | Q_IP =>
    rw [gen_broadcast, broadcastMeaning]
    by_cases hmask : netmask = PCAP_NETMASK_UNKNOWN
    · simp only [if_pos hmask]
      exact ⟨_, fun _ => rfl⟩
    · simp only [if_neg hmask]
      have hword := fun v => gen_mcmp_linkpl_generates 16 (by decide) v (~~~netmask)
      have hall := (gen_ether_linktype_generates ETHERTYPE_IP).and
        ((hword 0).or (hword (0xffffffff &&& ~~~netmask)))
      simp only [bind_assoc, pure_bind] at hall
      refine (hall.le (by decide)).congr fun input => ?_
      have hall : 0xffffffff &&& ~~~netmask = ~~~netmask :=
        (BitVec.and_comm _ _).trans (and_full _)
      rw [hall]
      rfl
  | _ => exact ⟨_, fun _ => rfl⟩

theorem gen_multicast_does (proto : Proto) :
    Does 2 (gen_multicast proto) (multicastMeaning proto) := by
  cases proto with
  | Q_DEFAULT | Q_LINK =>
    exact ((gen_jset_generates .OR_LINKHDR 0 (by decide) .B 1).le (by decide)).congr fun input =>
      fieldIs_eq .OR_LINKHDR rfl 0 .B _
  | Q_IP =>
    exact (gen_ether_linktype_generates ETHERTYPE_IP).and
      ((gen_cmp_ge_generates .OR_LINKPL 16 (by decide) .B 224).congr fun input =>
        fieldIs_eq .OR_LINKPL rfl 16 .B _)
  | Q_IPV6 =>
    exact (gen_ether_linktype_generates ETHERTYPE_IPV6).and
      (gen_cmp_byte_generates .OR_LINKPL (fun _ => rfl) 24 (by decide) (k := 38) rfl 255)
  | _ => exact ⟨_, fun _ => rfl⟩

theorem gen_len_generates (jmp : Test) (n : UInt) :
    Generates 1 (gen_len jmp n) fun input => .ok (Filter.holds input.wirelen n jmp) := by
  have hbranch : decode (JMP jmp.code) = some (.JMP jmp .K) := by cases jmp <;> decide
  have hlen : decode (BPF_LD ||| BPF_LEN) = some .LD_LEN := by decide
  refine .test hbranch (by decide) (fun s hs => ?_) fun input _ r => ?_
  · rw [List.mem_singleton.mp hs]
    exact Stmt.plain_accepted hlen trivial
  · have hexec : Filter.exec input (Stmt.insn ⟨BPF_LD ||| BPF_LEN, 0⟩) r =
        .ok (.jump 0 { r with A := input.wirelen }) := by
      rw [exec_of_decode hlen]
      rfl
    exact .cons hexec (.nil rfl)

theorem gen_greater_generates (n : UInt) :
    Generates 1 (gen_greater n) fun input => .ok (n ≤ input.wirelen) :=
  gen_len_generates .JGE n

theorem gen_less_generates (n : UInt) :
    Generates 1 (gen_less n) fun input => .ok (input.wirelen ≤ n) :=
  (gen_len_generates .JGT n).not.congr fun input => by
    simp [Look.not, Filter.holds, ← BitVec.not_lt]

end Bpf

end Jxnet
