import Jxnet.Bpf.Load

namespace Jxnet

open Java Budget ByteBuffer JumpMachine ShortCircuit

namespace Bpf

/-! The link layer: comparisons of byte strings, packet types and Ethernet addresses. -/

/-- One comparison of `gen_bcmp`, joined to the ones before it. -/
def bcmpStep (offrel : OffRel) (offset : UInt) (v : Bytes) (n : Nat) (size : Size)
    (b : Option Nat) : Gen Nat := do
  let tmp ← gen_cmp offrel (offset + BitVec.ofNat 32 n) size (Filter.valueAt v n size)
  match b with
  | some b => gen_and b tmp
  | none => pure ()
  return tmp

/-- The first loop of `gen_bcmp`: the block so far and the bytes that are left. -/
def bcmpWords (offrel : OffRel) (offset : UInt) (v : Bytes) :
    Nat → Option Nat → Gen (Option Nat × Nat)
  | size + 4, b => do
    let tmp ← bcmpStep offrel offset v size .W b
    bcmpWords offrel offset v size (some tmp)
  | size, b => return (b, size)

/-- The second loop of `gen_bcmp`. -/
def bcmpHalves (offrel : OffRel) (offset : UInt) (v : Bytes) :
    Nat → Option Nat → Gen (Option Nat × Nat)
  | size + 2, b => do
    let tmp ← bcmpStep offrel offset v size .H b
    bcmpHalves offrel offset v size (some tmp)
  | size, b => return (b, size)

/-- `gen_bcmp`, of all the bytes of `v`; no caller has an empty string, which has no block. -/
def gen_bcmp (offrel : OffRel) (offset : UInt) (v : Bytes) : Gen Nat := do
  let (b, size) ← bcmpWords offrel offset v v.length none
  let (b, size) ← bcmpHalves offrel offset v size b
  if 0 < size then
    bcmpStep offrel offset v 0 .B b
  else
    return b.getD 0

/-- The bytes of `v` from `lo` to `hi` stand in the packet, where `v` is to begin at `start`. -/
def bytesFrom (input : Input) (start : Nat) (v : Bytes) (lo hi : Nat) : Read Bool :=
  if input.buflen.toNat < start + hi then .error (.ok 0)
  else .ok (decide (∀ i < hi, lo ≤ i → byteAt input.p (start + i) = byteAt v i))

theorem valueAt_eq_iff {p q : Bytes} {k n : Nat} {size : Size} :
    Filter.valueAt p k size = Filter.valueAt q n size ↔
      ∀ i < size.bytes, byteAt p (k + i) = byteAt q (n + i) := by
  cases size with
  | W =>
    refine ⟨fun h => ?_, fun h => ?_⟩
    · have hbytes := congrArg intBytes h
      simp only [Filter.valueAt, intAt, intBytes_intOf, List.cons.injEq, and_true] at hbytes
      intro i hi
      obtain _ | _ | _ | _ | i := i
      · exact hbytes.1
      · exact hbytes.2.1
      · exact hbytes.2.2.1
      · exact hbytes.2.2.2
      · exact absurd hi (by simp [Size.bytes])
    · rw [Filter.valueAt, Filter.valueAt, intAt, intAt, h 1 (by decide), h 2 (by decide),
        h 3 (by decide)]
      exact congrArg (intOf · _ _ _) (h 0 (by decide))
  | H =>
    refine ⟨fun h => ?_, fun h => ?_⟩
    · have hhalf : shortAt p k = shortAt q n := by
        have hset := congrArg (BitVec.setWidth 16) h
        simpa [Filter.valueAt] using hset
      have hbytes := congrArg shortBytes hhalf
      simp only [shortAt, shortBytes_shortOf, List.cons.injEq, and_true] at hbytes
      intro i hi
      obtain _ | _ | i := i
      · exact hbytes.1
      · exact hbytes.2
      · exact absurd hi (by simp [Size.bytes])
    · rw [Filter.valueAt, Filter.valueAt, shortAt, shortAt, h 1 (by decide)]
      exact congrArg (fun b => (shortOf b _).setWidth 32) (h 0 (by decide))
  | B =>
    refine ⟨fun h i hi => ?_, fun h => congrArg (BitVec.setWidth 32) (h 0 (by decide))⟩
    have hset := congrArg (BitVec.setWidth 8) h
    obtain _ | i := i
    · simpa [Filter.valueAt] using hset
    · exact absurd hi (by simp [Size.bytes])

theorem bytesFrom_of_short {input : Input} {start hi : Nat} (h : input.buflen.toNat < start + hi)
    (v : Bytes) (lo : Nat) : bytesFrom input start v lo hi = .error (.ok 0) := if_pos h

theorem bytesFrom_of_long {input : Input} {start hi : Nat} (h : start + hi ≤ input.buflen.toNat)
    (v : Bytes) (lo : Nat) : bytesFrom input start v lo hi =
      .ok (decide (∀ i < hi, lo ≤ i → byteAt input.p (start + i) = byteAt v i)) :=
  if_neg (Nat.not_lt.mpr h)

theorem fieldIs_eq_bytesFrom {input : Input} {offrel : OffRel} {start : Nat}
    (hstart : headerStart input offrel = .ok start) (offset : Nat) (v : Bytes) (n : Nat)
    (size : Size) :
    fieldIs input offrel (offset + n) size (fun a => a = Filter.valueAt v n size) =
      bytesFrom input (start + offset) v n (n + size.bytes) := by
  have hload : loadAt input offrel (offset + n) size = field input (start + (offset + n)) size := by
    rw [loadAt, hstart]
    rfl
  rw [fieldIs, hload, field]
  by_cases hshort : input.buflen.toNat < start + (offset + n) + size.bytes
  · rw [if_pos hshort, bytesFrom_of_short (by omega)]
    rfl
  · rw [if_neg hshort, bytesFrom_of_long (by omega)]
    show Except.ok (decide (Filter.valueAt input.p (start + (offset + n)) size = _)) = _
    refine congrArg Except.ok (decide_eq_decide.mpr ?_)
    rw [valueAt_eq_iff]
    constructor
    · intro h i hi hlo
      have := h (i - n) (by omega)
      rwa [show start + (offset + n) + (i - n) = start + offset + i by omega,
        show n + (i - n) = i by omega] at this
    · intro h i hi
      have := h (n + i) (by omega) (by omega)
      rwa [show start + offset + (n + i) = start + (offset + n) + i by omega] at this

/-- The bytes further back are compared first; the others can be read when they can. -/
theorem bytesFrom_and (input : Input) (start : Nat) (v : Bytes) {lo mid hi : Nat} (h1 : lo ≤ mid)
    (h2 : mid ≤ hi) :
    (bytesFrom input start v mid hi).and (bytesFrom input start v lo mid) =
      bytesFrom input start v lo hi := by
  by_cases hshort : input.buflen.toNat < start + hi
  · rw [bytesFrom_of_short hshort, bytesFrom_of_short hshort]
    rfl
  · rw [bytesFrom_of_long (Nat.not_lt.mp hshort), bytesFrom_of_long (by omega),
      bytesFrom_of_long (Nat.not_lt.mp hshort)]
    by_cases hmid : ∀ i < hi, mid ≤ i → byteAt input.p (start + i) = byteAt v i
    · rw [decide_eq_true hmid]
      show Except.ok _ = Except.ok _
      refine congrArg Except.ok (decide_eq_decide.mpr ⟨fun h i hi hlo => ?_, fun h i hi hlo =>
        h i (by omega) hlo⟩)
      by_cases hi' : i < mid
      · exact h i hi' hlo
      · exact hmid i hi (Nat.not_lt.mp hi')
    · rw [decide_eq_false hmid]
      show Except.ok false = Except.ok _
      exact congrArg Except.ok (decide_eq_false fun h => hmid fun i hi hlo =>
        h i hi (h1.trans hlo)).symm

/-- What the comparisons so far come to when `n` bytes are left. -/
def Compared (g g' : GenState) (start : Nat) (v : Bytes) (n : Nat) : Option Nat → Prop
  | none => g' = g ∧ n = v.length
  | some b => Coded g g' b fun input => bytesFrom input start v n v.length

section Bcmp

variable {offrel : OffRel} {start : Nat} {offset : UInt} {v : Bytes}

theorem bcmpStep_compared (hstart : ∀ input, headerStart input offrel = .ok start)
    (hoffset : offset.toNat + v.length < 2 ^ 31) {n : Nat} (size : Size)
    (hn : n + size.bytes ≤ v.length) {b : Option Nat} {g g1 : GenState}
    (hb : Compared g g1 (start + offset.toNat) v (n + size.bytes) b) :
    InBlocks 1 g1 (bcmpStep offrel offset v n size b g1) fun b' g2 =>
      Compared g g2 (start + offset.toNat) v n (some b') := by
  have hnat : (offset + BitVec.ofNat 32 n).toNat = offset.toNat + n := by
    rw [BitVec.toNat_add, BitVec.toNat_ofNat]
    omega
  have hcmp := (gen_cmp_generates offrel _ (by omega) size (Filter.valueAt v n size)).congr
    fun input => (congrArg (fieldIs input offrel · size _) hnat).trans
      (fieldIs_eq_bytesFrom (hstart input) offset.toNat v n size)
  refine (hcmp g1).bind_pure fun tmp g2 hc => ?_
  cases b with
  | none =>
    obtain ⟨rfl, hlen⟩ := hb
    rw [hlen] at hc
    exact .done rfl hc (Nat.le_refl _)
  | some b =>
    have hand := (hb.codes.and hc.codes).congr fun input =>
      bytesFrom_and input _ v (Nat.le_add_right _ _) hn
    exact .done rfl ⟨hc.regused.trans hb.regused, hand,
      (hb.paid.trans hc.paid).onBlocks (.gen_and _ b tmp)⟩ (Nat.le_refl _)

theorem bcmpWords_compared (hstart : ∀ input, headerStart input offrel = .ok start)
    (hoffset : offset.toNat + v.length < 2 ^ 31) {size : Nat} (hsize : size ≤ v.length)
    {b : Option Nat} {g g1 : GenState} (hb : Compared g g1 (start + offset.toNat) v size b) :
    InBlocks size g1 (bcmpWords offrel offset v size b g1) fun r g2 =>
      r.2 < 4 ∧ r.2 ≤ size ∧ Compared g g2 (start + offset.toNat) v r.2 r.1 := by
  induction size using Nat.strongRecOn generalizing b g1 with
  | ind size ih =>
    by_cases h4 : size < 4
    · have hpost : size < 4 ∧ size ≤ size ∧ Compared g g1 (start + offset.toNat) v size b :=
        ⟨h4, Nat.le_refl _, hb⟩
      match size, h4 with
      | 0, _ | 1, _ | 2, _ | 3, _ => exact .done rfl hpost (Nat.le_add_right _ _)
    · obtain ⟨n, rfl⟩ := Nat.exists_eq_add_of_le' (Nat.not_lt.mp h4)
      have hstep := bcmpStep_compared hstart hoffset (n := n) .W hsize hb
      have hall : InBlocks (1 + n) g1 (bcmpWords offrel offset v (n + 4) b g1) fun r g2 =>
          r.2 < 4 ∧ r.2 ≤ n + 4 ∧ Compared g g2 (start + offset.toNat) v r.2 r.1 := by
        refine hstep.bind fun b1 g2 hb1 => ?_
        refine (ih n (by omega) (by omega) hb1).imp ?_
        rintro r g3 ⟨h, hle, hr⟩
        exact ⟨h, by omega, hr⟩
      exact hall.le (by omega)

theorem bcmpHalves_compared (hstart : ∀ input, headerStart input offrel = .ok start)
    (hoffset : offset.toNat + v.length < 2 ^ 31) {size : Nat} (hsize : size ≤ v.length)
    {b : Option Nat} {g g1 : GenState} (hb : Compared g g1 (start + offset.toNat) v size b) :
    InBlocks size g1 (bcmpHalves offrel offset v size b g1) fun r g2 =>
      r.2 < 2 ∧ r.2 ≤ size ∧ Compared g g2 (start + offset.toNat) v r.2 r.1 := by
  induction size using Nat.strongRecOn generalizing b g1 with
  | ind size ih =>
    by_cases h2 : size < 2
    · have hpost : size < 2 ∧ size ≤ size ∧ Compared g g1 (start + offset.toNat) v size b :=
        ⟨h2, Nat.le_refl _, hb⟩
      match size, h2 with
      | 0, _ | 1, _ => exact .done rfl hpost (Nat.le_add_right _ _)
    · obtain ⟨n, rfl⟩ := Nat.exists_eq_add_of_le' (Nat.not_lt.mp h2)
      have hstep := bcmpStep_compared hstart hoffset (n := n) .H hsize hb
      have hall : InBlocks (1 + n) g1 (bcmpHalves offrel offset v (n + 2) b g1) fun r g2 =>
          r.2 < 2 ∧ r.2 ≤ n + 2 ∧ Compared g g2 (start + offset.toNat) v r.2 r.1 := by
        refine hstep.bind fun b1 g2 hb1 => ?_
        refine (ih n (by omega) (by omega) hb1).imp ?_
        rintro r g3 ⟨h, hle, hr⟩
        exact ⟨h, by omega, hr⟩
      exact hall.le (by omega)

/-- The bytes of `v` stand in the packet from `start` on. -/
def bytesAre (input : Input) (start : Nat) (v : Bytes) : Read Bool :=
  bytesFrom input start v 0 v.length

/-- `gen_bcmp` compares all the bytes, whatever the length. -/
theorem gen_bcmp_generates (hstart : ∀ input, headerStart input offrel = .ok start)
    (hoffset : offset.toNat + v.length < 2 ^ 31) (hv : v ≠ []) :
    Generates (v.length + 4) (gen_bcmp offrel offset v) fun input =>
      bytesAre input (start + offset.toNat) v := by
  intro g
  have hlength : 0 < v.length := List.length_pos_iff.mpr hv
  refine (bcmpWords_compared hstart hoffset (Nat.le_refl _) (b := none) ⟨rfl, rfl⟩).bind ?_
  rintro ⟨b1, n1⟩ g1 ⟨h4, hn1, hb1⟩
  refine (?_ : InBlocks (3 + 1) _ _ _)
  refine ((bcmpHalves_compared hstart hoffset hn1 hb1).le (by omega)).bind ?_
  rintro ⟨b2, n2⟩ g2 ⟨h2, hn2, hb2⟩
  by_cases h0 : 0 < n2
  · obtain rfl : n2 = 0 + 1 := by omega
    simp only [if_pos h0]
    exact bcmpStep_compared hstart hoffset (n := 0) .B hlength hb2
  · obtain rfl : n2 = 0 := by omega
    cases b2 with
    | none => exact absurd hb2.2 (Nat.ne_of_lt hlength)
    | some b =>
      simp only [if_neg h0]
      exact .done rfl hb2 (Nat.le_succ _)

end Bcmp

/-! Packet types. -/

def ETHERMTU : UInt := 1500

def LLCSAP_IP : UInt := 0x06

def LLCSAP_SNAP : UInt := 0xaa

def LLCSAP_IPX : UInt := 0xe0

def LLCSAP_NETBEUI : UInt := 0xf0

def LLCSAP_ISONS : UInt := 0xfe

def ETHERTYPE_IP : UInt := 0x0800

def ETHERTYPE_ARP : UInt := 0x0806

def ETHERTYPE_REVARP : UInt := 0x8035

def ETHERTYPE_ATALK : UInt := 0x809b

def ETHERTYPE_AARP : UInt := 0x80f3

def ETHERTYPE_IPX : UInt := 0x8137

def ETHERTYPE_IPV6 : UInt := 0x86dd

/-- The header that `gen_snap` compares with. -/
def snapblock (orgcode ptype : UInt) : Bytes :=
  [LLCSAP_SNAP.setWidth 8, LLCSAP_SNAP.setWidth 8, 0x03, (orgcode >>> 16).setWidth 8,
    (orgcode >>> 8).setWidth 8, orgcode.setWidth 8, (ptype >>> 8).setWidth 8, ptype.setWidth 8]

/-- `gen_snap`. -/
def gen_snap (orgcode ptype : UInt) : Gen Nat := gen_bcmp .OR_LLC 0 (snapblock orgcode ptype)

/-- `gen_ether_linktype`. -/
def gen_ether_linktype (proto : UInt) : Gen Nat := do
  if proto = LLCSAP_ISONS ∨ proto = LLCSAP_IP ∨ proto = LLCSAP_NETBEUI then
    let b0 ← gen_cmp_gt .OR_LINKTYPE 0 .H ETHERMTU
    gen_not b0
    let b1 ← gen_cmp .OR_LLC 0 .H ((proto <<< 8) ||| proto)
    gen_and b0 b1
    return b1
  else if proto = LLCSAP_IPX then
    let b0 ← gen_cmp .OR_LLC 0 .B LLCSAP_IPX
    let b1 ← gen_cmp .OR_LLC 0 .H 0xffff
    gen_or b0 b1
    let b0 ← gen_snap 0x000000 ETHERTYPE_IPX
    gen_or b0 b1
    let b0 ← gen_cmp_gt .OR_LINKTYPE 0 .H ETHERMTU
    gen_not b0
    gen_and b0 b1
    let b0 ← gen_cmp .OR_LINKTYPE 0 .H ETHERTYPE_IPX
    gen_or b0 b1
    return b1
  else if proto = ETHERTYPE_ATALK ∨ proto = ETHERTYPE_AARP then
    let b0 ← gen_cmp_gt .OR_LINKTYPE 0 .H ETHERMTU
    gen_not b0
    let snap :=
      if proto = ETHERTYPE_ATALK then gen_snap 0x080007 ETHERTYPE_ATALK
      else gen_snap 0x000000 ETHERTYPE_AARP
    let b1 ← snap
    gen_and b0 b1
    let b0 ← gen_cmp .OR_LINKTYPE 0 .H proto
    gen_or b0 b1
    return b1
  else if proto.toInt ≤ ETHERMTU.toInt then
    let b0 ← gen_cmp_gt .OR_LINKTYPE 0 .H ETHERMTU
    gen_not b0
    let b1 ← gen_cmp .OR_LINKTYPE 2 .B proto
    gen_and b0 b1
    return b1
  else
    gen_cmp .OR_LINKTYPE 0 .H proto

/-- `gen_linktype` for `DLT_EN10MB`, outside of tunnels. -/
def gen_linktype (proto : UInt) : Gen Nat := gen_ether_linktype proto

/-- A packet of the type: by the Ethernet type, or for the 802.3 frames, whose type field is a
length, by the header behind it. -/
def isOfType (input : Input) (proto : UInt) : Read Bool := do
  let type ← field input 12 .H
  if proto = LLCSAP_ISONS ∨ proto = LLCSAP_IP ∨ proto = LLCSAP_NETBEUI then
    if ETHERMTU < type then return false
    return (← field input 14 .H) = (proto <<< 8) ||| proto
  else if proto = LLCSAP_IPX then
    if type = ETHERTYPE_IPX then return true
    if ETHERMTU < type then return false
    if ← bytesAre input 14 (snapblock 0x000000 ETHERTYPE_IPX) then return true
    if (← field input 14 .B) = LLCSAP_IPX then return true
    return (← field input 14 .H) = 0xffff
  else if proto = ETHERTYPE_ATALK ∨ proto = ETHERTYPE_AARP then
    if type = proto then return true
    if ETHERMTU < type then return false
    bytesAre input 14 (snapblock (if proto = ETHERTYPE_ATALK then 0x080007 else 0x000000) proto)
  else if proto.toInt ≤ ETHERMTU.toInt then
    if ETHERMTU < type then return false
    return (← field input 14 .B) = proto
  else
    return type = proto

theorem gen_snap_generates (orgcode ptype : UInt) :
    Generates 12 (gen_snap orgcode ptype) fun input =>
      bytesAre input 14 (snapblock orgcode ptype) := by
  have hbcmp : Generates ((snapblock orgcode ptype).length + 4) (gen_snap orgcode ptype)
      fun input => bytesAre input 14 (snapblock orgcode ptype) :=
    gen_bcmp_generates (fun _ => rfl) (show 0 + 8 < 2 ^ 31 by decide) (List.cons_ne_nil _ _)
  exact hbcmp

theorem fieldIs_eq {input : Input} (offrel : OffRel) {start : Nat}
    (hstart : headerStart input offrel = .ok start) (offset : Nat) (size : Size)
    (p : UInt → Bool) :
    fieldIs input offrel offset size p = do return p (← field input (start + offset) size) := by
  rw [fieldIs, loadAt, hstart]
  rfl

/-- What is looked up in the 802.3 frames only. -/
def in8023 (input : Input) (v : Read Bool) : Read Bool := do
  if ETHERMTU < (← field input 12 .H) then return false
  v

theorem not_gt_and (input : Input) (v : Read Bool) :
    (fieldIs input .OR_LINKTYPE 0 .H fun a => ETHERMTU < a).not.and v = in8023 input v := by
  rw [fieldIs_eq .OR_LINKTYPE rfl, in8023]
  show Look.and (Look.not (field input 12 .H >>= fun a => pure (decide (ETHERMTU < a)))) _ = _
  rcases field input 12 .H with o | type
  · rfl
  · by_cases h : ETHERMTU < type <;> simp [Look.and, Look.not, h]

theorem in8023_generates {n : Nat} {m : Gen Nat} {v : Input → Read Bool}
    (hm : Generates n m v) :
    Generates (1 + n) (do
      let b0 ← gen_cmp_gt .OR_LINKTYPE 0 .H ETHERMTU
      gen_not b0
      let b1 ← m
      gen_and b0 b1
      return b1) fun input => in8023 input (v input) := by
  have hgt := gen_cmp_gt_generates .OR_LINKTYPE 0 (by decide) .H ETHERMTU
  have hand := (hgt.not.and hm).congr fun input => not_gt_and input (v input)
  simpa only [bind_assoc, pure_bind] using hand

theorem in8023_rev_generates {n : Nat} {m : Gen Nat} {v : Input → Read Bool}
    (hm : Generates n m v) :
    Generates (n + 1) (do
      let b1 ← m
      let b0 ← gen_cmp_gt .OR_LINKTYPE 0 .H ETHERMTU
      gen_not b0
      gen_and b0 b1
      return b1) fun input => in8023 input (v input) := by
  have hgt := gen_cmp_gt_generates .OR_LINKTYPE 0 (by decide) .H ETHERMTU
  have hand := (hgt.not.and_rev hm).congr fun input => not_gt_and input (v input)
  simpa only [bind_assoc, pure_bind] using hand

/-- The blocks that are enough for the test of a packet type: one for most of them. -/
def linktypeBlocks (proto : UInt) : Nat :=
  if proto.toInt ≤ ETHERMTU.toInt ∨ proto = ETHERTYPE_ATALK ∨ proto = ETHERTYPE_AARP then 16 else 1

theorem linktypeBlocks_le (proto : UInt) : linktypeBlocks proto ≤ 16 := by
  unfold linktypeBlocks
  split <;> decide

theorem gen_ether_linktype_generates (proto : UInt) :
    Generates (linktypeBlocks proto) (gen_ether_linktype proto) fun input =>
      isOfType input proto := by
  have hmany : proto.toInt ≤ ETHERMTU.toInt ∨ proto = ETHERTYPE_ATALK ∨ proto = ETHERTYPE_AARP →
      16 ≤ linktypeBlocks proto := fun h => Nat.le_of_eq (if_pos h).symm
  have htype := fun v => gen_cmp_generates .OR_LINKTYPE 0 (by decide) .H v
  have hllc := fun size v => gen_cmp_generates .OR_LLC 0 (by decide) size v
  rw [gen_ether_linktype]
  by_cases hiso : proto = LLCSAP_ISONS ∨ proto = LLCSAP_IP ∨ proto = LLCSAP_NETBEUI
  · simp only [if_pos hiso]
    have h16 := hmany (.inl (by rcases hiso with rfl | rfl | rfl <;> decide))
    refine ((in8023_generates (hllc .H _)).le (by omega)).congr fun input => ?_
    simp only [isOfType, if_pos hiso]
    rfl
  · simp only [if_neg hiso]
    by_cases hipx : proto = LLCSAP_IPX
    · simp only [if_pos hipx]
      have hany := (gen_snap_generates 0x000000 ETHERTYPE_IPX).or_rev
        ((hllc .B LLCSAP_IPX).or (hllc .H 0xffff))
      have hall := (htype ETHERTYPE_IPX).or_rev (in8023_rev_generates hany)
      simp only [bind_assoc, pure_bind] at hall
      have h16 := hmany (.inl (by rw [hipx]; decide))
      refine (hall.le (by omega)).congr fun input => ?_
      rw [fieldIs_eq .OR_LINKTYPE rfl, fieldIs_eq .OR_LLC rfl,
        fieldIs_eq .OR_LLC rfl]
      simp only [isOfType, if_neg hiso, if_pos hipx, in8023, Look.or, bind_assoc, pure_bind]
      show field input 12 .H >>= _ = field input 12 .H >>= _
      rcases field input 12 .H with o | type
      · rfl
      · by_cases htype : type = ETHERTYPE_IPX <;> simp [htype]
    · simp only [if_neg hipx]
      by_cases hatalk : proto = ETHERTYPE_ATALK ∨ proto = ETHERTYPE_AARP
      · simp only [if_pos hatalk]
        have hsnap : Generates 12 (if proto = ETHERTYPE_ATALK then gen_snap 0x080007 ETHERTYPE_ATALK
            else gen_snap 0x000000 ETHERTYPE_AARP) fun input => bytesAre input 14
              (snapblock (if proto = ETHERTYPE_ATALK then 0x080007 else 0x000000) proto) := by
          by_cases h : proto = ETHERTYPE_ATALK
          · simp only [h]
            exact gen_snap_generates _ _
          · simp only [hatalk.resolve_left h]
            exact gen_snap_generates _ _
        have hall := (htype proto).or_rev (in8023_generates hsnap)
        simp only [bind_assoc, pure_bind] at hall
        have h16 := hmany (.inr hatalk)
        refine (hall.le (by omega)).congr fun input => ?_
        rw [fieldIs_eq .OR_LINKTYPE rfl]
        simp only [isOfType, if_neg hiso, if_neg hipx, if_pos hatalk, in8023, Look.or, bind_assoc,
          pure_bind]
        show field input 12 .H >>= _ = field input 12 .H >>= _
        rcases field input 12 .H with o | type
        · rfl
        · by_cases htype : type = proto <;> simp [htype]
      · simp only [if_neg hatalk]
        by_cases hsap : proto.toInt ≤ ETHERMTU.toInt
        · simp only [if_pos hsap]
          have hbyte := gen_cmp_generates .OR_LINKTYPE 2 (by decide) .B proto
          have h16 := hmany (.inl hsap)
          refine ((in8023_generates hbyte).le (by omega)).congr fun input => ?_
          simp only [isOfType, if_neg hiso, if_neg hipx, if_neg hatalk, if_pos hsap]
          rfl
        · simp only [if_neg hsap]
          have hone : linktypeBlocks proto = 1 := if_neg (not_or.mpr ⟨hsap, hatalk⟩)
          rw [hone]
          refine (htype proto).congr fun input => ?_
          simp only [isOfType, if_neg hiso, if_neg hipx, if_neg hatalk, if_neg hsap]
          rfl

end Bpf

end Jxnet
