import Jxnet.Bpf.Simulation

namespace Jxnet

open Java Budget JumpMachine ShortCircuit

namespace Bpf

/-- `bpf_validate` has nothing against the statement, wherever it stands. -/
def Stmt.Accepted (s : Stmt) : Prop := ∀ len i, checkInsn len i s.insn = true

/-- What `bpf_validate` asks of the operand of a statement. -/
def Op.Checked (k : UInt) : Op → Prop
  | .LD_MEM | .LDX_MEM | .ST | .STX => k.toNat < BPF_MEMWORDS
  | .ALU .DIV .K | .ALU .MOD .K => k ≠ 0
  | .JA | .JMP _ _ => False
  | _ => True

theorem Stmt.plain_accepted {code : UShort} {op : Op} (hop : decode code = some op) {k : UInt}
    (h : op.Checked k) : Stmt.Plain ⟨code, k⟩ ∧ Stmt.Accepted ⟨code, k⟩ := by
  refine ⟨⟨op, hop, fun hjumps => ?_⟩, fun len i => ?_⟩
  · cases op with
    | JA | JMP => exact h
    | _ => exact hjumps
  · rw [decode_eq_some_iff] at hop
    subst hop
    rw [checkInsn]
    cases op with
    | JA | JMP => exact h.elim
    | LD_ABS size | LD_IND size =>
      cases size <;> simp [Stmt.insn, BPF_STMT, BPF_CLASS, BPF_MODE, Op.code, Size.code, BPF_LD,
        BPF_LDX, BPF_W, BPF_H, BPF_B, BPF_ABS, BPF_IND, BPF_IMM, BPF_MSH]
    | LD_MEM | LDX_MEM | ST | STX =>
      have hk : k.toNat < BPF_MEMWORDS := h
      simp [Stmt.insn, BPF_STMT, BPF_CLASS, BPF_MODE, Op.code, BPF_LD, BPF_LDX, BPF_ST, BPF_STX,
        BPF_IMM, BPF_ABS, BPF_IND, BPF_MSH, BPF_MEM, hk]
    | ALU op source =>
      cases op <;> cases source <;>
        simp [Stmt.insn, BPF_STMT, BPF_CLASS, BPF_OP, BPF_SRC, Op.code, Alu.code, Source.code,
          BPF_LD, BPF_LDX, BPF_ST, BPF_STX, BPF_ALU, BPF_ADD, BPF_SUB, BPF_MUL, BPF_OR, BPF_AND,
          BPF_XOR, BPF_LSH, BPF_RSH, BPF_NEG, BPF_DIV, BPF_MOD, BPF_K, BPF_X] <;> exact h
    | RET_K | RET_A | LD_LEN | LDX_LEN | LDX_MSH | LD_IMM | LDX_IMM | NEG | TAX | TXA =>
      simp [Stmt.insn, BPF_STMT, BPF_CLASS, BPF_MODE, BPF_OP, Op.code, BPF_LD, BPF_LDX, BPF_ST,
        BPF_STX, BPF_ALU, BPF_JMP, BPF_RET, BPF_MISC, BPF_W, BPF_B, BPF_ABS, BPF_IND, BPF_IMM,
        BPF_MSH, BPF_LEN, BPF_MEM, BPF_NEG, BPF_ADD, BPF_SUB, BPF_MUL, BPF_OR, BPF_AND, BPF_XOR,
        BPF_LSH, BPF_RSH, BPF_K, BPF_A, BPF_TAX, BPF_TXA]

/-- What stands at position `n` of an array of length `len`: a statement of a test, the branch of
one, an inserted jump, the memory that was left over, or the end of the program. -/
inductive Emitted (tests : List BlockTest) (len n : Nat) : Insn → Prop
  | stmt {t : BlockTest} {s : Stmt} (ht : t ∈ tests) (hs : s ∈ t.stmts) : Emitted tests len n s.insn
  | branch {t : BlockTest} {jt jf : BitVec 8} (ht : t ∈ tests) (hjt : n + 1 + jt.toNat < len)
      (hjf : n + 1 + jf.toNat < len) : Emitted tests len n ⟨t.s.code, jt, jf, t.s.k⟩
  | ja {k : UInt} (hk : n + 1 + k.toNat < len) :
    Emitted tests len n (BPF_STMT (BPF_JMP ||| BPF_JA) k)
  | blank : Emitted tests len n Conversion.blank
  | ret {v : UInt} : Emitted tests len n (BPF_STMT (BPF_RET ||| BPF_K) v)

theorem jumpField_of_toNat {long extrajmps : Nat} {off : UInt} {dst : BitVec 8} {extra : List Insn}
    (h : jumpField long off extrajmps = some (dst, extra)) (hjumps : extrajmps < 2) :
    dst.toNat ≤ off.toNat ∧ (extra = [] ∨ ∃ k : UInt,
      extra = [BPF_STMT (BPF_JMP ||| BPF_JA) k] ∧ extrajmps + 1 + k.toNat = off.toNat) := by
  have h256 : (256 : UInt).toNat = 256 := rfl
  rw [jumpField] at h
  split at h
  · rename_i hlong
    rw [BitVec.le_def, h256] at hlong
    split at h
    · cases h
    · cases h
      refine ⟨?_, .inr ⟨_, rfl, ?_⟩⟩
      · rw [BitVec.toNat_ofNat]
        omega
      · rw [BitVec.toNat_sub, BitVec.toNat_ofNat]
        omega
  · cases h
    refine ⟨?_, .inl rfl⟩
    rw [BitVec.toNat_setWidth]
    exact Nat.mod_le _ _

namespace Blocks

variable {h : Blocks} {order : List Nat} {program ftail : List Insn}

/-- Every instruction of the array belongs to a block. -/
theorem Layout.exists_of_getElem? {total : Nat} (hl : h.Layout total order ftail) {n : Nat}
    {p : Insn}
    (hp : ftail[n]? = some p) :
    ∃ i ∈ order, ∃ code m, h.blockCode i = some code ∧ code[m]? = some p ∧
      (h.block i).offset + m + ftail.length = total + n := by
  induction hl generalizing n with
  | nil => cases hp
  | @cons q order code ftail rest new succ code_eq offset ih =>
    rw [List.length_append] at offset ⊢
    rw [List.getElem?_append] at hp
    split at hp
    · exact ⟨q, List.mem_cons_self, code, n, code_eq, hp, by omega⟩
    · obtain ⟨i, hi, code', m, hcode, hm, heq⟩ := ih hp
      exact ⟨i, List.mem_cons_of_mem q hi, code', m, hcode, hm, by omega⟩

theorem eq_ja_of_getElem? {extra : List Insn} {Q : UInt → Prop} {d : Nat} {p : Insn}
    (hextra : extra = [] ∨ ∃ k, extra = [BPF_STMT (BPF_JMP ||| BPF_JA) k] ∧ Q k)
    (hp : extra[d]? = some p) : d = 0 ∧ ∃ k, p = BPF_STMT (BPF_JMP ||| BPF_JA) k ∧ Q k := by
  rcases hextra with rfl | ⟨k, rfl, hk⟩
  · cases hp
  · cases d with
    | zero =>
      cases hp
      exact ⟨rfl, k, rfl, hk⟩
    | succ d => cases hp

theorem eq_blank_of_getElem? {n d : Nat} {p : Insn}
    (hp : (List.replicate n Conversion.blank)[d]? = some p) : p = Conversion.blank :=
  List.eq_of_mem_replicate (List.mem_of_getElem? hp)

/-- Every instruction of the array is one of the kinds that the conversion emits. -/
theorem Layout.emitted (hl : h.Layout program.length order program)
    (hshort : program.length < 2 ^ 31) {tests : List BlockTest}
    (hbranches : ∀ i ∈ order, (h.block i).jt ≠ none →
      (h.block i).jf ≠ none ∧ h.test i ∈ tests)
    (hleaves : ∀ i ∈ order, (h.block i).jt = none → ∃ v, h.graph i = some (.leaf v)) {n : Nat}
    {p : Insn} (hp : program[n]? = some p) : Emitted tests program.length n p := by
  obtain ⟨i, hi, code, m, hcode, hm, heq⟩ := hl.exists_of_getElem? hp
  cases ha : (h.block i).jt with
  | none =>
    obtain ⟨v, hv⟩ := hleaves i hi ha
    obtain ⟨htest, -⟩ := eq_of_graph_leaf hv
    have hs : (h.block i).stmts = [] := congrArg BlockTest.stmts htest
    have hk : (h.block i).s = ⟨BPF_RET ||| BPF_K, v⟩ := congrArg BlockTest.s htest
    rw [blockCode_leaf hcode ha, hs, hk, List.map_nil, List.nil_append, List.singleton_append] at hm
    cases m with
    | zero =>
      cases hm
      exact .ret
    | succ m =>
      rw [List.getElem?_cons_succ] at hm
      rw [eq_blank_of_getElem? hm]
      exact .blank
  | some a =>
    obtain ⟨hjf, htest⟩ := hbranches i hi (by simp [ha])
    obtain ⟨b, hb⟩ := Option.ne_none_iff_exists'.mp hjf
    obtain ⟨dst_jt, extra_t, dst_jf, extra_f, pad, ht, hf, rfl⟩ := blockCode_branch hcode ha hb
    have htarget : ∀ j, h.Leads i j →
        (h.block i).offset + (h.block i).stmts.length + 1 + (h.branchOffset i j).toNat <
          program.length := fun j hj => by
      have h1 := toNat_branchOffset hl hi hj hshort
      have h2 := hl.offset_bounds (hl.leads_mem hi hj)
      simp only [size] at h2
      omega
    have hta := htarget a (.inl ha)
    have htb := htarget b (.inr hb)
    obtain ⟨hdt, hextra_t⟩ := jumpField_of_toNat ht Nat.two_pos
    obtain ⟨hdf, hextra_f⟩ := jumpField_of_toNat hf (length_lt_of_jumpField ht)
    rw [List.getElem?_append, List.length_map] at hm
    split at hm
    · rw [List.getElem?_map] at hm
      obtain ⟨s, hs, rfl⟩ := Option.map_eq_some_iff.mp hm
      exact .stmt htest (List.mem_of_getElem? hs)
    · rename_i hge
      obtain ⟨d, rfl⟩ := Nat.exists_eq_add_of_le (Nat.not_lt.mp hge)
      rw [Nat.add_sub_cancel_left, List.append_assoc, List.singleton_append] at hm
      cases d with
      | zero =>
        cases hm
        exact .branch htest (by omega) (by omega)
      | succ d =>
        rw [List.getElem?_cons_succ, List.append_assoc, List.getElem?_append] at hm
        split at hm
        · obtain ⟨rfl, k, rfl, hk⟩ := eq_ja_of_getElem? hextra_t hm
          exact .ja (by omega)
        · rename_i hge'
          obtain ⟨d', rfl⟩ := Nat.exists_eq_add_of_le (Nat.not_lt.mp hge')
          rw [Nat.add_sub_cancel_left, List.getElem?_append] at hm
          split at hm
          · obtain ⟨rfl, k, rfl, hk⟩ := eq_ja_of_getElem? hextra_f hm
            exact .ja (by omega)
          · rw [eq_blank_of_getElem? hm]
            exact .blank

theorem Layout.offset_head {i : Nat} (hl : h.Layout program.length (i :: order) program) :
    (h.block i).offset = 0 := by
  generalize htotal : program.length = total at hl
  cases hl with
  | cons rest new succ code_eq offset => omega

/-- The array ends in a return. -/
theorem Layout.getLast?_eq {total : Nat} (hl : h.Layout total order ftail) (hne : order ≠ [])
    (hleaves : ∀ i ∈ order, (h.block i).jt = none → ∃ v, h.graph i = some (.leaf v))
    (hjf : ∀ i ∈ order, (h.block i).jt = none →
      (h.block i).longjt = 0 ∧ (h.block i).longjf = 0) :
    ∃ v, ftail.getLast? = some (BPF_STMT (BPF_RET ||| BPF_K) v) := by
  induction hl with
  | nil => exact absurd rfl hne
  | @cons p order code ftail rest new succ code_eq offset ih =>
    cases rest with
    | nil =>
      have hjt : (h.block p).jt = none :=
        Option.eq_none_iff_forall_ne_some.mpr fun a ha => List.not_mem_nil (succ a (.inl ha))
      obtain ⟨v, hv⟩ := hleaves p List.mem_cons_self hjt
      obtain ⟨htest, -⟩ := eq_of_graph_leaf hv
      have hk : (h.block p).s = ⟨BPF_RET ||| BPF_K, v⟩ := congrArg BlockTest.s htest
      obtain ⟨hlongjt, hlongjf⟩ := hjf p List.mem_cons_self hjt
      refine ⟨v, ?_⟩
      rw [blockCode_leaf code_eq hjt, hk, hlongjt, hlongjf]
      simp [Stmt.insn]
    | cons rest' new' succ' code_eq' offset' =>
      obtain ⟨v, hv⟩ := ih (List.cons_ne_nil _ _)
        (fun i hi => hleaves i (List.mem_cons_of_mem p hi))
        fun i hi => hjf i (List.mem_cons_of_mem p hi)
      exact ⟨v, by rw [List.getLast?_append, hv, Option.some_or]⟩

end Blocks

namespace Emitted

variable {tests : List BlockTest} {len n : Nat} {p : Insn}

/-- What the conversion emits passes the checks when the statements do. -/
theorem checkInsn (he : Emitted tests len n p) (hlen : len < 2 ^ 31) (hn : n < len)
    (hplain : ∀ t ∈ tests, t.Plain) (haccepted : ∀ t ∈ tests, ∀ s ∈ t.stmts, s.Accepted) :
    checkInsn (BitVec.ofNat 32 len) (BitVec.ofNat 32 n) p = true := by
  have hnext := Valid.toNat_next (n := n) (by omega)
  cases he with
  | stmt ht hs => exact haccepted _ ht _ hs _ _
  | branch ht hjt hjf =>
    obtain ⟨test, source, hbranch⟩ := (hplain _ ht).branch
    refine (checkInsn_jmp_iff hbranch).mpr ?_
    constructor
    all_goals
      rw [BitVec.lt_def, BitVec.toNat_add, hnext, BitVec.toNat_setWidth, BitVec.toNat_ofNat]
      dsimp only
      omega
  | ja hk =>
    refine (checkInsn_ja_iff rfl).mpr ?_
    rw [BitVec.lt_def, BitVec.toNat_add, hnext, BitVec.toNat_ofNat, BPF_STMT]
    dsimp only
    omega
  | blank => rfl
  | ret =>
    simp [Bpf.checkInsn, BPF_STMT, BPF_CLASS, BPF_RET, BPF_K, BPF_LD, BPF_LDX, BPF_ST, BPF_STX,
      BPF_ALU, BPF_JMP]

/-- A jump that the conversion inserts goes forward. -/
theorem toInt_nonneg (he : Emitted tests len n p) (hlen : len < 2 ^ 31)
    (hplain : ∀ t ∈ tests, t.Plain) (hp : decode p.code = some .JA) : 0 ≤ p.k.toInt := by
  cases he with
  | stmt ht hs =>
    obtain ⟨op, hop, hjumps⟩ := (hplain _ ht).stmts _ hs
    cases hop.symm.trans hp
    exact absurd trivial hjumps
  | branch ht hjt hjf =>
    obtain ⟨test, source, hbranch⟩ := (hplain _ ht).branch
    cases hbranch.symm.trans hp
  | ja hk =>
    rw [BPF_STMT, BitVec.toInt_eq_toNat_cond]
    dsimp only
    split <;> omega
  | blank => exact Int.le_refl 0
  | ret => cases hp

end Emitted

/-- What a filter returns for what the condition comes to. -/
def verdict (snaplen : UInt) : Except Fault (Answer Regs UInt) → Except Fault UInt
  | .error e => .error e
  | .ok (.halt v) => .ok v
  | .ok (.answer true _) => .ok snaplen
  | .ok (.answer false _) => .ok 0

/-- A program that `bpf_validate` accepts, that comes to an end on every packet, and that returns
what the condition says. -/
structure Implements (program : List Insn) (c : Condition) (snaplen : UInt) : Prop where
  valid : Valid program
  forward : NoBackwardJump program
  yields : ∀ input mem, Yields input program mem
    (Blocks.outcome (verdict snaplen (c.eval (BlockTest.run input) (startRegs mem))))

/-- The array of a finished graph implements the condition. -/
theorem icode_to_fcode_implements {h : Blocks} {root : Nat} {c : Condition} {snaplen : UInt}
    {rank : Nat → Nat} {bs : List Nat} (hf : Finished h root c snaplen rank bs)
    (hsmall : h.instructions < 2 ^ 31) (hplain : ∀ t ∈ c.tests, t.Plain)
    (haccepted : ∀ t ∈ c.tests, ∀ s ∈ t.stmts, s.Accepted) :
    ∃ program, icode_to_fcode (2 * h.next + 1) root h = some (.ok program) ∧
      Implements program c snaplen := by
  obtain ⟨program, h', order, hrun, hlaid, hlength⟩ :=
    icode_to_fcode_laid hf.acyclic hf.leavesShort hf.entry hf.depth
  have hshort : program.length < 2 ^ 31 := Nat.lt_of_le_of_lt hlength hsmall
  refine ⟨program, hrun, ?_⟩
  have hsame := hlaid.sameGraph
  have hgraph := hsame.graph_eq
  have hbranches : ∀ i ∈ root :: order, (h'.block i).jt ≠ none →
      (h'.block i).jf ≠ none ∧ h'.test i ∈ c.tests := fun i hi hjt => by
    rw [hsame.jt] at hjt
    rw [hsame.jf, hsame.test]
    refine ⟨?_, hf.branches i (hlaid.mem i hi) hjt⟩
    obtain ⟨-, ⟨hnone, -⟩ | ⟨a, b, -, hb, -⟩⟩ := hf.acyclic i (hlaid.mem i hi)
    · exact absurd hnone hjt
    · simp [hb]
  have hleaves : ∀ i ∈ root :: order, (h'.block i).jt = none →
      ∃ v, h'.graph i = some (.leaf v) := fun i hi hjt => by
    rw [hsame.jt] at hjt
    rw [hgraph]
    exact hf.leaves i (hlaid.mem i hi) hjt
  have hemitted : ∀ n p, program[n]? = some p → Emitted c.tests program.length n p :=
    fun n p hp => hlaid.layout.emitted hshort hbranches hleaves hp
  refine ⟨⟨?_, hshort, fun n p hp => ?_, fun p hp => ?_⟩, fun p hp hja => ?_, fun input mem => ?_⟩
  · have := (hlaid.layout.offset_bounds List.mem_cons_self).2
    simp only [Blocks.size] at this
    omega
  · exact (hemitted n p hp).checkInsn hshort (List.getElem?_eq_some_iff.mp hp).1 hplain haccepted
  · obtain ⟨v, hv⟩ := hlaid.layout.getLast?_eq (List.cons_ne_nil root order) hleaves
      fun i hi => hlaid.leavesShort i (hlaid.mem i hi)
    cases hp.symm.trans hv
    show BPF_CLASS (BPF_RET ||| BPF_K) = BPF_RET
    decide
  · obtain ⟨n, hn⟩ := List.getElem?_of_mem hp
    exact (hemitted n p hn).toInt_nonneg hshort hplain hja
  · obtain ⟨t, f, hdecides, ht, hf'⟩ := hf.decides
    have hwalk : Walk (BlockTest.run input) h'.graph root (startRegs mem)
        (verdict snaplen (c.eval (BlockTest.run input) (startRegs mem))) := by
      rw [show h'.graph = h.graph from funext hgraph]
      apply hdecides.walk
      rcases c.eval (BlockTest.run input) (startRegs mem) with e | (v | ⟨_ | _, r⟩)
      · rfl
      · rfl
      · exact .leaf hf'
      · exact .leaf ht
    have hends := hlaid.layout.ends_of_walk hshort
      (fun i hi hjt => hplain _ (hbranches i hi hjt).2) input hwalk List.mem_cons_self
    rwa [hlaid.layout.offset_head] at hends

/-- The state behind `init_regs`, before the first block. -/
def init_regs : GenState := ⟨.empty, ⟨0, 0⟩, fun _ => false, ⟨0, by decide⟩⟩

/-- The tree of `pcap_compile`: what the parser makes of the expression, and for the empty one a
block that accepts all. -/
def parseTree (snaplen : UInt) : Option (Gen Nat) → Gen Nat
  | some expr => do finish_parse snaplen (← expr)
  | none => gen_retblk snaplen

/-- `pcap_compile` without the optimizer. The parser is left out: `parse` stands for the calls that
its actions make, none for the empty expression. -/
def pcap_compile (fuel : Nat) (activated : Bool) (snapshot : UInt) (parse : Option (Gen Nat)) :
    Option (Except Complaint (List Insn)) :=
  if !activated then
    some (.error (.error "not-yet-activated pcap_t passed to pcap_compile"))
  else if snapshot = 0 then some (.error (.error "snaplen of 0 rejects all packets"))
  else
    match parseTree snapshot parse init_regs with
    | .error complaint => some (.error complaint)
    | .ok (root, g) => icode_to_fcode fuel root g.blocks

/-- What compiling an expression comes to: a program with `P`, or the generator runs out of memory,
which it does only when there is memory for less than `n` blocks. -/
def Compiles (n : Nat) (snaplen : UInt) (expr : Gen Nat) (P : List Insn → Prop) : Prop :=
  (∃ fuel program, pcap_compile fuel true snaplen (some expr) = some (.ok program) ∧ P program) ∨
    (init_regs.blocksLeft < n ∧
      ∀ fuel, pcap_compile fuel true snaplen (some expr) = some (.error outOfMemory))

/-- The generator succeeds where there is memory enough. -/
theorem Compiles.exists_program {n : Nat} {snaplen : UInt} {expr : Gen Nat} {P : List Insn → Prop}
    (h : Compiles n snaplen expr P) (hn : n ≤ init_regs.blocksLeft) : ∃ fuel program,
      pcap_compile fuel true snaplen (some expr) = some (.ok program) ∧ P program :=
  h.resolve_right fun hshort => absurd hn (Nat.not_le.mpr hshort.1)

/-- What has been allocated is not too much for the jumps of a program. -/
theorem instructions_lt_of_paid {g : GenState} (hpaid : Paid init_regs g) :
    g.blocks.instructions < 2 ^ 31 := by
  have hroom : init_regs.room = 67106816 := rfl
  have hempty : init_regs.blocks.instructions = 0 := rfl
  rw [Paid, PaidWith, hroom, hempty, sizeofSlist] at hpaid
  omega

/-- The compiler comes to an end on every expression for which code is generated, and the program
implements the condition of the tests. -/
theorem pcap_compile_implements {expr : Gen Nat} {n : Nat} {Q : Condition → Prop}
    (hgen : InBlocks n init_regs (expr init_regs) fun p g => Paid init_regs g ∧
      ∃ c, Built init_regs.blocks g.blocks p c ∧
        (∀ t ∈ c.tests, t.Plain ∧ ∀ s ∈ t.stmts, s.Accepted) ∧ Q c)
    {snaplen : UInt} (hsnaplen : snaplen ≠ 0) :
    Compiles (n + 2) snaplen expr fun program => ∃ c, Implements program c snaplen ∧ Q c := by
  have htree : InBlocks (n + 2) init_regs (parseTree snaplen (some expr) init_regs) fun root g =>
      ∃ program c, icode_to_fcode (2 * g.blocks.next + 1) root g.blocks = some (.ok program) ∧
        Implements program c snaplen ∧ Q c := by
    refine hgen.bind ?_
    rintro p g ⟨hpaid, c, hbuilt, hsafe, hc⟩
    refine (finish_parse_of_built hbuilt snaplen).imp ?_
    rintro root g' ⟨hpaid', rank, bs, hfinished⟩
    obtain ⟨program, hicode, himp⟩ := icode_to_fcode_implements hfinished
      (instructions_lt_of_paid (hpaid.trans hpaid')) (fun t ht => (hsafe t ht).1)
      fun t ht => (hsafe t ht).2
    exact ⟨program, c, hicode, himp, hc⟩
  have hcompile : ∀ fuel, pcap_compile fuel true snaplen (some expr) =
      match parseTree snaplen (some expr) init_regs with
      | .error complaint => some (.error complaint)
      | .ok (root, g) => icode_to_fcode fuel root g.blocks := fun fuel => by
    rw [pcap_compile, if_neg (by decide), if_neg hsnaplen]
  cases htree with
  | @done root g hrun hpost =>
    obtain ⟨program, c, hicode, himp, hc⟩ := hpost
    refine .inl ⟨2 * g.blocks.next + 1, program, ?_, c, himp, hc⟩
    rw [hcompile, hrun]
    exact hicode
  | short hrun hlack =>
    refine .inr ⟨hlack, fun fuel => ?_⟩
    rw [hcompile, hrun]

end Bpf

end Jxnet
