import Jxnet.Bpf.Compile
import Jxnet.Framework.StraightLine

namespace Jxnet

open Java Budget JumpMachine ShortCircuit

namespace Bpf

/-! Loads and comparisons of the code generator, on an Ethernet without tags and tunnels. -/

/-- `enum e_offrel`. -/
inductive OffRel where
  | OR_PACKET
  | OR_LINKHDR
  | OR_PREVLINKHDR
  | OR_LLC
  | OR_PREVMPLSHDR
  | OR_LINKPL
  | OR_LINKPL_NOSNAP
  | OR_LINKTYPE
  | OR_TRAN_IPV4
  | OR_TRAN_IPV6
  deriving DecidableEq, Repr

/-! What `init_linktype` sets for `DLT_EN10MB`; no offset is variable. -/

def off_linkhdr : UInt := 0

def off_prevlinkhdr : UInt := 0

def off_linktype : UInt := 12

def off_linkpl : UInt := 14

def off_nl : UInt := 0

def off_nl_nosnap : UInt := 3

/-- `gen_load_absoffsetrel` for an offset that is not variable. -/
def gen_load_absoffsetrel (constant_part offset : UInt) (size : Size) : List Stmt :=
  [⟨BPF_LD ||| BPF_ABS ||| size.code, constant_part + offset⟩]

/-- `gen_loadx_iphdrlen`. -/
def gen_loadx_iphdrlen : List Stmt := [⟨BPF_LDX ||| BPF_MSH ||| BPF_B, off_linkpl + off_nl⟩]

/-- `gen_load_a`. -/
def gen_load_a (offrel : OffRel) (offset : UInt) (size : Size) : List Stmt :=
  match offrel with
  | .OR_PACKET => [⟨BPF_LD ||| BPF_ABS ||| size.code, offset⟩]
  | .OR_LINKHDR => gen_load_absoffsetrel off_linkhdr offset size
  | .OR_PREVLINKHDR => gen_load_absoffsetrel off_prevlinkhdr offset size
  | .OR_LLC => gen_load_absoffsetrel off_linkpl offset size
  | .OR_PREVMPLSHDR => gen_load_absoffsetrel off_linkpl (off_nl - 4 + offset) size
  | .OR_LINKPL => gen_load_absoffsetrel off_linkpl (off_nl + offset) size
  | .OR_LINKPL_NOSNAP => gen_load_absoffsetrel off_linkpl (off_nl_nosnap + offset) size
  | .OR_LINKTYPE => gen_load_absoffsetrel off_linktype offset size
  | .OR_TRAN_IPV4 =>
    gen_loadx_iphdrlen ++
      [⟨BPF_LD ||| BPF_IND ||| size.code, off_linkpl + off_nl + offset⟩]
  | .OR_TRAN_IPV6 => gen_load_absoffsetrel off_linkpl (off_nl + 40 + offset) size

/-- `gen_ncmp`. -/
def gen_ncmp (offrel : OffRel) (offset : UInt) (size : Size) (mask : UInt) (jtype : Test)
    (reverse : Bool) (v : UInt) : Gen Nat := do
  let s := gen_load_a offrel offset size
  let s := if mask ≠ 0xffffffff then s ++ [⟨BPF_ALU ||| BPF_AND ||| BPF_K, mask⟩] else s
  let b ← gen_test s ⟨JMP jtype.code, v⟩
  if reverse && (jtype = .JGT || jtype = .JGE) then
    gen_not b
  return b

def gen_cmp (offrel : OffRel) (offset : UInt) (size : Size) (v : UInt) : Gen Nat :=
  gen_ncmp offrel offset size 0xffffffff .JEQ false v

def gen_cmp_gt (offrel : OffRel) (offset : UInt) (size : Size) (v : UInt) : Gen Nat :=
  gen_ncmp offrel offset size 0xffffffff .JGT false v

def gen_cmp_ge (offrel : OffRel) (offset : UInt) (size : Size) (v : UInt) : Gen Nat :=
  gen_ncmp offrel offset size 0xffffffff .JGE false v

def gen_cmp_lt (offrel : OffRel) (offset : UInt) (size : Size) (v : UInt) : Gen Nat :=
  gen_ncmp offrel offset size 0xffffffff .JGE true v

def gen_cmp_le (offrel : OffRel) (offset : UInt) (size : Size) (v : UInt) : Gen Nat :=
  gen_ncmp offrel offset size 0xffffffff .JGT true v

def gen_mcmp (offrel : OffRel) (offset : UInt) (size : Size) (v mask : UInt) : Gen Nat :=
  gen_ncmp offrel offset size mask .JEQ false v

/-! What the loads read. -/

/-- What is read off a packet. -/
abbrev Read (α : Type) := Look Fault UInt α

/-- A field of the packet. A filter that would read behind the captured bytes returns 0. -/
def field (input : Input) (k : Nat) (size : Size) : Read UInt :=
  if input.buflen.toNat < k + size.bytes then .error (.ok 0)
  else .ok (Filter.valueAt input.p k size)

/-- The length of the IPv4 header. -/
def iphdrlen (input : Input) : Read Nat := do
  let b ← field input 14 .B
  return 4 * (b.toNat % 16)

/-- Where a header begins. -/
def headerStart (input : Input) : OffRel → Read Nat
  | .OR_PACKET | .OR_LINKHDR | .OR_PREVLINKHDR => return 0
  | .OR_LLC | .OR_LINKPL => return 14
  | .OR_PREVMPLSHDR => return 10
  | .OR_LINKPL_NOSNAP => return 17
  | .OR_LINKTYPE => return 12
  | .OR_TRAN_IPV4 => do return 14 + (← iphdrlen input)
  | .OR_TRAN_IPV6 => return 54

def loadAt (input : Input) (offrel : OffRel) (offset : Nat) (size : Size) : Read UInt := do
  let start ← headerStart input offrel
  field input (start + offset) size

section Rules

variable {input : Input} {r : Regs} {β : Type} {code : List Insn} {Q : β → Regs → Prop}

theorem exec_of_decode {pc : Insn} {op : Op} (hop : decode pc.code = some op) :
    Filter.exec input pc r = Filter.case input pc r op := by
  rw [Filter.exec, hop]

/-- A load at a constant offset below the ancillary data. -/
theorem reads_ld_abs (hinput : input.Holds) {k : UInt} (hk : k.toNat < 2 ^ 31 + 2 ^ 30)
    {size : Size} {f : UInt → Read β}
    (h : ∀ a, Reads (Filter.exec input) code { r with A := a } (f a) Q) :
    Reads (Filter.exec input) (Stmt.insn ⟨BPF_LD ||| BPF_ABS ||| size.code, k⟩ :: code) r
      (field input k.toNat size >>= f) Q := by
  refine Reads.cons_look (fun a => { r with A := a }) ?_ fun a _ => h a
  have hop : decode (BPF_LD ||| BPF_ABS ||| size.code) = some (.LD_ABS size) := by
    cases size <;> decide
  have habs : Filter.case input (Stmt.insn ⟨BPF_LD ||| BPF_ABS ||| size.code, k⟩) r (.LD_ABS size) =
      Filter.loadAbs input (Stmt.insn ⟨BPF_LD ||| BPF_ABS ||| size.code, k⟩) r size := by
    have htag : k ≠ SKF_AD_VLAN_TAG := fun hc => by
      rw [hc] at hk
      exact absurd hk (by decide)
    have hpresent : k ≠ SKF_AD_VLAN_TAG_PRESENT := fun hc => by
      rw [hc] at hk
      exact absurd hk (by decide)
    cases size with
    | W => rfl
    | H => rfl
    | B =>
      have hanc : Filter.ancillary input.aux_data r k = none := by
        simp only [Filter.ancillary, htag, hpresent, if_false]
      simp only [Filter.case, Stmt.insn, BPF_STMT, hanc]
  rw [exec_of_decode hop, habs, Filter.loadAbs_eq hinput, field]
  show (if input.buflen.toNat < k.toNat + size.bytes then _ else _) = _
  split <;> rfl

/-- A load relative to the index register. -/
theorem reads_ld_ind (hinput : input.Holds) {k : UInt} {size : Size} {f : UInt → Read β}
    (h : ∀ a, Reads (Filter.exec input) code { r with A := a } (f a) Q) :
    Reads (Filter.exec input) (Stmt.insn ⟨BPF_LD ||| BPF_IND ||| size.code, k⟩ :: code) r
      (field input (r.X.toNat + k.toNat) size >>= f) Q := by
  refine Reads.cons_look (fun a => { r with A := a }) ?_ fun a _ => h a
  have hop : decode (BPF_LD ||| BPF_IND ||| size.code) = some (.LD_IND size) := by
    cases size <;> decide
  rw [exec_of_decode hop, Filter.loadInd_eq hinput, field]
  show (if input.buflen.toNat < r.X.toNat + k.toNat + size.bytes then _ else _) = _
  split <;> rfl

/-- `4*([14]&0xf)`. -/
theorem reads_ldx_msh (hinput : input.Holds) {f : Nat → Read β}
    (h : ∀ x : UInt, x.toNat ≤ 60 →
      Reads (Filter.exec input) code { r with X := x } (f x.toNat) Q) :
    Reads (Filter.exec input) (gen_loadx_iphdrlen.map Stmt.insn ++ code) r
      (iphdrlen input >>= f) Q := by
  have hfour : ∀ b : JByte, (((b.setWidth 32 &&& 0xf#32) <<< 2 : UInt)).toNat =
      4 * ((b.setWidth 32 : UInt).toNat % 16) := by decide +kernel
  have hlt : 4 * ((Filter.valueAt input.p 14 .B).toNat % 16) ≤ 60 := by omega
  have hcase : Filter.exec input
      (Stmt.insn ⟨BPF_LDX ||| BPF_MSH ||| BPF_B, off_linkpl + off_nl⟩) r =
      if input.buflen.toNat < 15 then Filter.return_ 0
      else Filter.continue_ { r with X :=
        ((ByteBuffer.byteAt input.p 14).setWidth 32 &&& 0xf#32) <<< 2 } := by
    have hop : decode (BPF_LDX ||| BPF_MSH ||| BPF_B) = some .LDX_MSH := by decide
    rw [exec_of_decode hop, Filter.loadMsh_eq hinput]
    have hk : (Stmt.insn ⟨BPF_LDX ||| BPF_MSH ||| BPF_B, off_linkpl + off_nl⟩).k.toNat = 14 := rfl
    refine if_congr ?_ rfl rfl
    rw [BitVec.le_def, hk]
    omega
  rw [gen_loadx_iphdrlen, List.map_singleton, List.singleton_append, iphdrlen, field]
  show Reads _ _ _
    ((if input.buflen.toNat < 15 then Except.error (Except.ok 0) else _) >>= _ >>= _) _
  by_cases hlen : input.buflen.toNat < 15
  · rw [if_pos hlen] at hcase ⊢
    show runLine _ _ _ = _
    rw [runLine, hcase]
    rfl
  · rw [if_neg hlen] at hcase ⊢
    refine Reads.cons hcase ?_
    have hx := hfour (ByteBuffer.byteAt input.p 14)
    have := h (((ByteBuffer.byteAt input.p 14).setWidth 32 &&& 0xf#32) <<< 2) (by
      rw [hx]
      exact hlt)
    rw [hx] at this
    exact this

end Rules

/-- The code that `gen_load_a` yields reads the field that it is for. -/
theorem gen_load_a_reads {input : Input} (hinput : input.Holds) (offrel : OffRel) {offset : UInt}
    (hoffset : offset.toNat < 2 ^ 31) (size : Size) (r : Regs) {β : Type} {code : List Insn}
    {f : UInt → Read β} {Q : β → Regs → Prop}
    (h : ∀ r' : Regs, Reads (Filter.exec input) code r' (f r'.A) Q) :
    Reads (Filter.exec input) ((gen_load_a offrel offset size).map Stmt.insn ++ code) r
      (loadAt input offrel offset.toNat size >>= f) Q := by
  have habs : ∀ (base : UInt), base.toNat ≤ 100 → Reads (Filter.exec input)
      (Stmt.insn ⟨BPF_LD ||| BPF_ABS ||| size.code, base + offset⟩ :: code) r
      (field input (base.toNat + offset.toNat) size >>= f) Q := by
    intro base hbase
    have hk : (base + offset).toNat = base.toNat + offset.toNat := by
      rw [BitVec.toNat_add]
      omega
    rw [← hk]
    exact reads_ld_abs hinput (by omega) fun a => h { r with A := a }
  have hrel : ∀ (rel : UInt), (off_linkpl + rel).toNat ≤ 100 → Reads (Filter.exec input)
      (Stmt.insn ⟨BPF_LD ||| BPF_ABS ||| size.code, off_linkpl + (rel + offset)⟩ :: code) r
      (field input ((off_linkpl + rel).toNat + offset.toNat) size >>= f) Q := by
    intro rel hle
    rw [← BitVec.add_assoc]
    exact habs (off_linkpl + rel) hle
  cases offrel with
  | OR_PACKET =>
    show Reads _ _ _ (field input (0 + offset.toNat) size >>= f) _
    rw [Nat.zero_add]
    exact reads_ld_abs hinput (by omega) fun a => h { r with A := a }
  | OR_LINKHDR => exact habs off_linkhdr (by decide)
  | OR_PREVLINKHDR => exact habs off_prevlinkhdr (by decide)
  | OR_LLC => exact habs off_linkpl (by decide)
  | OR_PREVMPLSHDR => exact hrel (off_nl - 4) (by decide)
  | OR_LINKPL => exact hrel off_nl (by decide)
  | OR_LINKPL_NOSNAP => exact hrel off_nl_nosnap (by decide)
  | OR_LINKTYPE => exact habs off_linktype (by decide)
  | OR_TRAN_IPV4 =>
    have hread : loadAt input .OR_TRAN_IPV4 offset.toNat size >>= f =
        iphdrlen input >>= fun n => field input (14 + n + offset.toNat) size >>= f := by
      simp only [loadAt, headerStart, bind_assoc, pure_bind]
    rw [hread, gen_load_a, List.map_append, List.append_assoc]
    refine reads_ldx_msh hinput fun x hx => ?_
    have hk : (off_linkpl + off_nl + offset).toNat = 14 + offset.toNat := by
      have h14 : (off_linkpl + off_nl).toNat = 14 := rfl
      rw [BitVec.toNat_add, h14]
      omega
    rw [show 14 + x.toNat + offset.toNat = x.toNat + (off_linkpl + off_nl + offset).toNat by omega]
    exact reads_ld_ind hinput fun a => h { r with X := x, A := a }
  | OR_TRAN_IPV6 => exact hrel (off_nl + 40) (by decide)

/-! The meaning of the code for an expression. -/

/-- The blocks that were added are code that looks `v` up in every packet, and that passes the
checks. -/
def Codes (h h' : Blocks) (b : Nat) (v : Input → Read Bool) : Prop :=
  ∃ c : Condition, Built h h' b c ∧ (∀ t ∈ c.tests, t.Plain ∧ ∀ s ∈ t.stmts, s.Accepted) ∧
    ∀ input : Input, input.Holds → Means (BlockTest.run input) c (v input)

namespace Codes

variable {h h1 h2 h' : Blocks} {b b0 b1 : Nat} {v v' v0 v1 : Input → Read Bool}

theorem congr (hc : Codes h h' b v) (hv : ∀ input, v input = v' input) : Codes h h' b v' := by
  rwa [show v' = v from (funext hv).symm]

/-- A block, from what its statements read. -/
theorem test (h : Blocks) {stmts : List Stmt} {k : UInt} {code : UShort} {test : Test}
    {source : Source} (hbranch : decode code = some (.JMP test source))
    (hstmts : ∀ s ∈ stmts, s.Plain ∧ s.Accepted)
    (hreads : ∀ input : Input, input.Holds → ∀ r, Reads (Filter.exec input)
      (stmts.map Stmt.insn) r (v input) fun a r' =>
        Filter.holds r'.A (source.operand r' (BPF_STMT code k)) test = a) :
    Codes h (h.withTest stmts ⟨code, k⟩) h.next v := by
  refine ⟨.test ⟨stmts, ⟨code, k⟩⟩, .test h stmts ⟨code, k⟩, fun t ht => ?_,
    fun input hinput r => ?_⟩
  · rw [List.mem_singleton.mp ht]
    exact ⟨⟨fun s hs => (hstmts s hs).1, test, source, hbranch⟩, fun s hs => (hstmts s hs).2⟩
  · have hread := hreads input hinput r
    show Answers (v input) (BlockTest.run input ⟨stmts, ⟨code, k⟩⟩ r)
    rw [BlockTest.run]
    rcases hv : v input with (e | x) | a <;> rw [hv] at hread
    · rw [show runLine (Filter.exec input) (stmts.map Stmt.insn) r = .error e from hread]
      rfl
    · rw [show runLine (Filter.exec input) (stmts.map Stmt.insn) r = .ok (.halt x) from hread]
      rfl
    · obtain ⟨r', hr', ha⟩ := hread
      rw [hr']
      simp only [hbranch]
      exact ⟨r', by rw [← ha]; rfl⟩

theorem grows (hc : Codes h h' b v) : h.Grows h' := by
  obtain ⟨c, hb, -⟩ := hc
  exact hb.toGrows

/-- Blocks that were there before. -/
theorem prepend (hg : h.Grows h1) (hc : Codes h1 h2 b v) : Codes h h2 b v := by
  obtain ⟨c, hb, hsafe⟩ := hc
  exact ⟨c, .prepend hg hb, hsafe⟩

/-- Blocks that come after. -/
theorem append (hc : Codes h h1 b v) (hg : h1.Grows h2) : Codes h h2 b v := by
  obtain ⟨c, hb, hsafe⟩ := hc
  exact ⟨c, hb.append hg, hsafe⟩

theorem not (hc : Codes h h1 b v) : Codes h (h1.flipSense b) b fun input => (v input).not := by
  obtain ⟨c, hb, hs, hm⟩ := hc
  exact ⟨.not c, hb.not, hs, fun input hinput => (hm input hinput).not⟩

theorem and (hc0 : Codes h h1 b0 v0) (hc1 : Codes h1 h2 b1 v1) :
    Codes h (h2.gen_and b0 b1) b1 fun input => (v0 input).and (v1 input) := by
  obtain ⟨c0, hb0, hs0, hm0⟩ := hc0
  obtain ⟨c1, hb1, hs1, hm1⟩ := hc1
  exact ⟨.and c0 c1, hb0.and hb1, fun t ht => (List.mem_append.mp ht).elim (hs0 t) (hs1 t),
    fun input hinput => (hm0 input hinput).and (hm1 input hinput)⟩

/-- Two operands joined after a third was generated, and put in front of it. -/
theorem and_and {h3 : Blocks} {b2 : Nat} {v2 : Input → Read Bool} (hc0 : Codes h h1 b0 v0)
    (hc1 : Codes h1 h2 b1 v1) (hc2 : Codes h2 h3 b2 v2) :
    Codes h ((h3.gen_and b0 b1).gen_and b1 b2) b2
      fun input => ((v0 input).and (v1 input)).and (v2 input) := by
  obtain ⟨c0, hb0, hs0, hm0⟩ := hc0
  obtain ⟨c1, hb1, hs1, hm1⟩ := hc1
  obtain ⟨c2, hb2, hs2, hm2⟩ := hc2
  exact ⟨.and (.and c0 c1) c2, hb0.and_and hb1 hb2,
    fun t ht => (List.mem_append.mp ht).elim
      (fun ht => (List.mem_append.mp ht).elim (hs0 t) (hs1 t)) (hs2 t),
    fun input hinput =>
      ((hm0 input hinput).and (hm1 input hinput)).and (hm2 input hinput)⟩

/-- The second operand generated first. -/
theorem and_rev (hc1 : Codes h h1 b1 v1) (hc0 : Codes h1 h2 b0 v0) :
    Codes h (h2.gen_and b0 b1) b1 fun input => (v0 input).and (v1 input) := by
  obtain ⟨c0, hb0, hs0, hm0⟩ := hc0
  obtain ⟨c1, hb1, hs1, hm1⟩ := hc1
  exact ⟨.and c0 c1, hb1.and_rev hb0, fun t ht => (List.mem_append.mp ht).elim (hs0 t) (hs1 t),
    fun input hinput => (hm0 input hinput).and (hm1 input hinput)⟩

theorem or (hc0 : Codes h h1 b0 v0) (hc1 : Codes h1 h2 b1 v1) :
    Codes h (h2.gen_or b0 b1) b1 fun input => (v0 input).or (v1 input) := by
  obtain ⟨c0, hb0, hs0, hm0⟩ := hc0
  obtain ⟨c1, hb1, hs1, hm1⟩ := hc1
  exact ⟨.or c0 c1, hb0.or hb1, fun t ht => (List.mem_append.mp ht).elim (hs0 t) (hs1 t),
    fun input hinput => (hm0 input hinput).or (hm1 input hinput)⟩

theorem or_rev (hc1 : Codes h h1 b1 v1) (hc0 : Codes h1 h2 b0 v0) :
    Codes h (h2.gen_or b0 b1) b1 fun input => (v0 input).or (v1 input) := by
  obtain ⟨c0, hb0, hs0, hm0⟩ := hc0
  obtain ⟨c1, hb1, hs1, hm1⟩ := hc1
  exact ⟨.or c0 c1, hb1.or_rev hb0, fun t ht => (List.mem_append.mp ht).elim (hs0 t) (hs1 t),
    fun input hinput => (hm0 input hinput).or (hm1 input hinput)⟩

end Codes

/-- What a generator leaves that yields code for `v`: the registers are as before, and the new
blocks have been paid for. -/
structure Coded (g g' : GenState) (b : Nat) (v : Input → Read Bool) : Prop where
  regused : g'.regused = g.regused
  codes : Codes g.blocks g'.blocks b v
  paid : Paid g g'

/-- The generator yields code that looks `v` up, whatever was generated before, with memory for `n`
blocks at most. -/
def Generates (n : Nat) (m : Gen Nat) (v : Input → Read Bool) : Prop :=
  ∀ g, InBlocks n g (m g) fun b g' => Coded g g' b v

namespace Generates

variable {n n0 n1 : Nat} {m m0 m1 : Gen Nat} {v v' v0 v1 : Input → Read Bool}

theorem congr (hm : Generates n m v) (hv : ∀ input, v input = v' input) : Generates n m v' := by
  rwa [show v' = v from (funext hv).symm]

theorem le (hm : Generates n m v) (hn : n ≤ n0) : Generates n0 m v := fun g => (hm g).le hn

theorem test {stmts : List Stmt} {k : UInt} {code : UShort} {test : Test} {source : Source}
    (hbranch : decode code = some (.JMP test source)) (hlength : stmts.length ≤ 3)
    (hstmts : ∀ s ∈ stmts, s.Plain ∧ s.Accepted)
    (hreads : ∀ input : Input, input.Holds → ∀ r, Reads (Filter.exec input)
      (stmts.map Stmt.insn) r (v input) fun a r' =>
        Filter.holds r'.A (source.operand r' (BPF_STMT code k)) test = a) :
    Generates 1 (gen_test stmts ⟨code, k⟩) v := by
  refine fun g => (gen_test_within stmts ⟨code, k⟩ hlength g).imp ?_
  rintro _ _ ⟨rfl, c, rfl, hc⟩
  exact ⟨rfl, .test g.blocks hbranch hstmts hreads, .withTest _ hc⟩

theorem not (hm : Generates n m v) :
    Generates n (do let b ← m; gen_not b; return b) fun input => (v input).not := by
  refine fun g => (hm g).bind_pure ?_
  rintro b g' ⟨hregs, hc, hpaid⟩
  exact .done rfl ⟨hregs, hc.not, hpaid.onBlocks ((Blocks.Reconnected.refl _).flipSense b)⟩
    (Nat.le_refl _)

/-- Two operands generated one after the other, and how they are connected. -/
theorem pair (which : Nat → Nat → Nat) (f : Blocks → Nat → Nat → Blocks)
    (hm0 : Generates n0 m0 v0) (hm1 : Generates n1 m1 v1)
    (hsame : ∀ h b0 b1, Blocks.Reconnected h (f h b0 b1))
    (hf : ∀ {h h1 h2 b0 b1}, Codes h h1 b0 v0 → Codes h1 h2 b1 v1 →
      Codes h (f h2 b0 b1) (which b0 b1) v) :
    Generates (n0 + n1) (do
      let b0 ← m0
      let b1 ← m1
      onBlocks fun h => f h b0 b1
      return which b0 b1) v := by
  refine fun g => (hm0 g).bind ?_
  rintro b0 g1 ⟨hregs0, hc0, hpaid0⟩
  refine (hm1 g1).bind_pure ?_
  rintro b1 g2 ⟨hregs1, hc1, hpaid1⟩
  exact .done rfl ⟨hregs1.trans hregs0, hf hc0 hc1, (hpaid0.trans hpaid1).onBlocks (hsame _ _ _)⟩
    (Nat.le_refl _)

theorem and (hm0 : Generates n0 m0 v0) (hm1 : Generates n1 m1 v1) :
    Generates (n0 + n1) (do let b0 ← m0; let b1 ← m1; gen_and b0 b1; return b1)
      fun input => (v0 input).and (v1 input) :=
  pair (fun _ b1 => b1) Blocks.gen_and hm0 hm1 .gen_and fun hc0 hc1 => hc0.and hc1

/-- The second operand generated first. -/
theorem and_rev (hm0 : Generates n0 m0 v0) (hm1 : Generates n1 m1 v1) :
    Generates (n1 + n0) (do let b1 ← m1; let b0 ← m0; gen_and b0 b1; return b1)
      fun input => (v0 input).and (v1 input) :=
  pair (fun b1 _ => b1) (fun h b1 b0 => h.gen_and b0 b1) hm1 hm0 (fun h b1 b0 => .gen_and h b0 b1)
    fun hc1 hc0 => hc1.and_rev hc0

theorem or (hm0 : Generates n0 m0 v0) (hm1 : Generates n1 m1 v1) :
    Generates (n0 + n1) (do let b0 ← m0; let b1 ← m1; gen_or b0 b1; return b1)
      fun input => (v0 input).or (v1 input) :=
  pair (fun _ b1 => b1) Blocks.gen_or hm0 hm1 .gen_or fun hc0 hc1 => hc0.or hc1

theorem or_rev (hm0 : Generates n0 m0 v0) (hm1 : Generates n1 m1 v1) :
    Generates (n1 + n0) (do let b1 ← m1; let b0 ← m0; gen_or b0 b1; return b1)
      fun input => (v0 input).or (v1 input) :=
  pair (fun b1 _ => b1) (fun h b1 b0 => h.gen_or b0 b1) hm1 hm0 (fun h b1 b0 => .gen_or h b0 b1)
    fun hc1 hc0 => hc1.or_rev hc0

end Generates

/-! The comparisons. -/

/-- A field of the packet passes a test. -/
def fieldIs (input : Input) (offrel : OffRel) (offset : Nat) (size : Size) (p : UInt → Bool) :
    Read Bool := do
  return p (← loadAt input offrel offset size)

theorem gen_load_a_safe (offrel : OffRel) (offset : UInt) (size : Size) :
    ∀ s ∈ gen_load_a offrel offset size, s.Plain ∧ s.Accepted := by
  have habs : decode (BPF_LD ||| BPF_ABS ||| size.code) = some (.LD_ABS size) := by
    cases size <;> decide
  have hind : decode (BPF_LD ||| BPF_IND ||| size.code) = some (.LD_IND size) := by
    cases size <;> decide
  have hmsh : decode (BPF_LDX ||| BPF_MSH ||| BPF_B) = some .LDX_MSH := by decide
  intro s hs
  cases offrel with
  | OR_TRAN_IPV4 =>
    rcases List.mem_pair.mp hs with rfl | rfl
    · exact Stmt.plain_accepted hmsh trivial
    · exact Stmt.plain_accepted hind trivial
  | _ =>
    rw [List.mem_singleton.mp hs]
    exact Stmt.plain_accepted habs trivial

theorem length_gen_load_a (offrel : OffRel) (offset : UInt) (size : Size) :
    (gen_load_a offrel offset size).length ≤ 2 := by
  cases offrel <;> simp [gen_load_a, gen_load_absoffsetrel, gen_loadx_iphdrlen]

theorem gen_ncmp_generates (offrel : OffRel) (offset : UInt) (hoffset : offset.toNat < 2 ^ 31)
    (size : Size) (mask : UInt) (jtype : Test) (reverse : Bool) (v : UInt) :
    Generates 1 (gen_ncmp offrel offset size mask jtype reverse v) fun input =>
      fieldIs input offrel offset.toNat size fun a =>
        Filter.holds (a &&& mask) v jtype ^^ (reverse && (jtype = .JGT || jtype = .JGE)) := by
  have hbranch : decode (JMP jtype.code) = some (.JMP jtype .K) := by cases jtype <;> decide
  have htest : Generates 1 (gen_test (if mask ≠ 0xffffffff then
        gen_load_a offrel offset size ++ [⟨BPF_ALU ||| BPF_AND ||| BPF_K, mask⟩]
      else gen_load_a offrel offset size) ⟨JMP jtype.code, v⟩) fun input =>
      fieldIs input offrel offset.toNat size fun a => Filter.holds (a &&& mask) v jtype := by
    have hsafe := gen_load_a_safe offrel offset size
    have hlength := length_gen_load_a offrel offset size
    refine .test hbranch ?_ (fun s hs => ?_) fun input hinput r => ?_
    · split
      · rw [List.length_append, List.length_singleton]
        omega
      · omega
    · split at hs
      · rcases List.mem_append.mp hs with hs | hs
        · exact hsafe s hs
        · rw [List.mem_singleton.mp hs]
          have hand : decode (BPF_ALU ||| BPF_AND ||| BPF_K) = some (.ALU .AND .K) := by decide
          exact Stmt.plain_accepted hand trivial
      · exact hsafe s hs
    · split
      · rw [List.map_append]
        refine gen_load_a_reads hinput offrel hoffset size r fun r' => ?_
        have hand : Filter.exec input (Stmt.insn ⟨BPF_ALU ||| BPF_AND ||| BPF_K, mask⟩) r' =
            .ok (.jump 0 { r' with A := r'.A &&& mask }) := rfl
        exact .cons hand (.nil rfl)
      · rename_i hmask
        rw [← List.append_nil (List.map Stmt.insn _)]
        refine gen_load_a_reads hinput offrel hoffset size r fun r' => .nil ?_
        have hall : r'.A &&& mask = r'.A := by
          rw [Decidable.not_not.mp hmask]
          exact BitVec.and_allOnes
        show Filter.holds r'.A v jtype = Filter.holds (r'.A &&& mask) v jtype
        rw [hall]
  rw [gen_ncmp]
  by_cases hrev : (reverse && (jtype = .JGT || jtype = .JGE)) = true
  · simp only [hrev, if_true]
    refine htest.not.congr fun input => ?_
    simp only [fieldIs, Look.not, bind_assoc, pure_bind, Bool.xor_true]
  · simp only [hrev, Bool.false_eq_true, if_false, Bool.xor_false, bind_pure]
    exact htest

theorem and_full (a : UInt) : a &&& 0xffffffff#32 = a := BitVec.and_allOnes

section Compare

variable (offrel : OffRel) (offset : UInt) (hoffset : offset.toNat < 2 ^ 31) (size : Size)
  (v : UInt)

include hoffset

theorem gen_cmp_generates :
    Generates 1 (gen_cmp offrel offset size v) fun input =>
      fieldIs input offrel offset.toNat size fun a => a = v :=
  (gen_ncmp_generates offrel offset hoffset size 0xffffffff .JEQ false v).congr fun input => by
    simp [fieldIs, Filter.holds, and_full]

theorem gen_mcmp_generates (mask : UInt) :
    Generates 1 (gen_mcmp offrel offset size v mask) fun input =>
      fieldIs input offrel offset.toNat size fun a => a &&& mask = v :=
  (gen_ncmp_generates offrel offset hoffset size mask .JEQ false v).congr fun input => by
    simp [fieldIs, Filter.holds]

theorem gen_cmp_gt_generates :
    Generates 1 (gen_cmp_gt offrel offset size v) fun input =>
      fieldIs input offrel offset.toNat size fun a => v < a :=
  (gen_ncmp_generates offrel offset hoffset size 0xffffffff .JGT false v).congr fun input => by
    simp [fieldIs, Filter.holds, and_full]

theorem gen_cmp_ge_generates :
    Generates 1 (gen_cmp_ge offrel offset size v) fun input =>
      fieldIs input offrel offset.toNat size fun a => v ≤ a :=
  (gen_ncmp_generates offrel offset hoffset size 0xffffffff .JGE false v).congr fun input => by
    simp [fieldIs, Filter.holds, and_full]

theorem gen_cmp_lt_generates :
    Generates 1 (gen_cmp_lt offrel offset size v) fun input =>
      fieldIs input offrel offset.toNat size fun a => a < v :=
  (gen_ncmp_generates offrel offset hoffset size 0xffffffff .JGE true v).congr fun input => by
    simp [fieldIs, Filter.holds, and_full, ← BitVec.not_le]

theorem gen_cmp_le_generates :
    Generates 1 (gen_cmp_le offrel offset size v) fun input =>
      fieldIs input offrel offset.toNat size fun a => a ≤ v :=
  (gen_ncmp_generates offrel offset hoffset size 0xffffffff .JGT true v).congr fun input => by
    simp [fieldIs, Filter.holds, and_full, ← BitVec.not_lt]

end Compare

end Bpf

end Jxnet
