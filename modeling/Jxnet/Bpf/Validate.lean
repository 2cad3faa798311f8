import Jxnet.Bpf.Filter

namespace Jxnet

open Java JumpMachine

namespace Bpf

/-- What `bpf_validate` checks of the instruction at `i`. -/
def checkInsn (len i : UInt) (p : Insn) : Bool :=
  let bpf_class := BPF_CLASS p.code
  if bpf_class = BPF_LD ∨ bpf_class = BPF_LDX then
    let mode := BPF_MODE p.code
    if mode = BPF_IMM ∨ mode = BPF_ABS ∨ mode = BPF_IND ∨ mode = BPF_MSH then true
    else if mode = BPF_MEM then p.k.toNat < BPF_MEMWORDS
    else mode = BPF_LEN
  else if bpf_class = BPF_ST ∨ bpf_class = BPF_STX then p.k.toNat < BPF_MEMWORDS
  else if bpf_class = BPF_ALU then
    let op := BPF_OP p.code
    if op ∈ [BPF_ADD, BPF_SUB, BPF_MUL, BPF_OR, BPF_AND, BPF_XOR, BPF_LSH, BPF_RSH, BPF_NEG] then
      true
    else if op = BPF_DIV ∨ op = BPF_MOD then !(BPF_SRC p.code = BPF_K && p.k = 0)
    else false
  else if bpf_class = BPF_JMP then
    let from_ := i + 1
    let op := BPF_OP p.code
    if op = BPF_JA then from_ + p.k < len
    else if op ∈ [BPF_JEQ, BPF_JGT, BPF_JGE, BPF_JSET] then
      from_ + p.jt.setWidth 32 < len && from_ + p.jf.setWidth 32 < len
    else false
  else bpf_class = BPF_RET || bpf_class = BPF_MISC

/-- `bpf_validate`; the length becomes an `int` on the way in. -/
def bpf_validate (f : Program) : Bool :=
  if f.bf_len.toInt < 1 then false
  else
    f.bf_insns.zipIdx.all (fun p => checkInsn f.bf_len (BitVec.ofNat 32 p.2) p.1) &&
      match f.bf_insns.getLast? with
      | some p => BPF_CLASS p.code = BPF_RET
      | none => false

/-- What the checks say of a program. -/
structure Valid (insns : List Insn) : Prop where
  nonempty : 0 < insns.length
  short : insns.length < 2 ^ 31
  check : ∀ n p, insns[n]? = some p →
    checkInsn (BitVec.ofNat 32 insns.length) (BitVec.ofNat 32 n) p = true
  last : ∀ p, insns.getLast? = some p → BPF_CLASS p.code = BPF_RET

theorem bpf_validate_iff (f : Program) : bpf_validate f = true ↔ Valid f.bf_insns := by
  have hfits := f.fits
  have hlen : f.bf_len.toNat = f.bf_insns.length := by
    rw [Program.bf_len, BitVec.toNat_ofNat, Nat.mod_eq_of_lt hfits]
  have hint : f.bf_len.toInt < 1 ↔ f.bf_insns.length = 0 ∨ 2 ^ 31 ≤ f.bf_insns.length := by
    rw [BitVec.toInt_eq_toNat_cond, hlen]
    split <;> omega
  rw [bpf_validate]
  by_cases h : f.bf_len.toInt < 1
  · rw [if_pos h]
    refine ⟨fun h' => absurd h' Bool.false_ne_true, fun h' => ?_⟩
    have h1 := h'.nonempty
    have h2 := h'.short
    have h3 := hint.mp h
    omega
  · rw [if_neg h, Bool.and_eq_true, List.all_eq_true]
    have hnot := fun h' => h (hint.mpr h')
    constructor
    · rintro ⟨hall, hlast⟩
      refine ⟨by omega, by omega, fun n p hp => ?_, fun p hp => ?_⟩
      · exact hall (p, n) (List.mem_zipIdx_iff_getElem?.mpr hp)
      · rw [hp] at hlast
        simpa using hlast
    · intro hv
      refine ⟨fun p hp => hv.check p.2 p.1 (List.mem_zipIdx_iff_getElem?.mp hp), ?_⟩
      cases hl : f.bf_insns.getLast? with
      | none =>
        rw [List.getLast?_eq_none_iff] at hl
        exact absurd (by rw [hl]; rfl) (Nat.pos_iff_ne_zero.mp hv.nonempty)
      | some p => simpa using hv.last p hl

theorem class_of_ret {code : UShort} {op : Op} (h : decode code = some op)
    (hret : BPF_CLASS code = BPF_RET) : op = .RET_K ∨ op = .RET_A := by
  rw [decode_eq_some_iff] at h
  subst h
  revert hret
  cases op with
  | RET_K | RET_A => simp
  | LD_ABS size | LD_IND size => cases size <;> decide
  | JMP test source => cases test <;> cases source <;> decide
  | ALU op source => cases op <;> cases source <;> decide
  | _ => decide

section Check

variable {len i : UInt} {p : Insn}

/-- An unconditional jump is accepted when it lands in the program. -/
theorem checkInsn_ja_iff (hop : decode p.code = some .JA) :
    checkInsn len i p = true ↔ i + 1 + p.k < len := by
  rw [decode_eq_some_iff] at hop
  rw [checkInsn, hop]
  simp [BPF_CLASS, BPF_OP, Op.code, BPF_JMP, BPF_JA, BPF_LD, BPF_LDX, BPF_ST, BPF_STX, BPF_ALU]

/-- A conditional jump is accepted when it lands in the program both ways. -/
theorem checkInsn_jmp_iff {test : Test} {source : Source}
    (hop : decode p.code = some (.JMP test source)) :
    checkInsn len i p = true ↔
      i + 1 + p.jt.setWidth 32 < len ∧ i + 1 + p.jf.setWidth 32 < len := by
  rw [decode_eq_some_iff] at hop
  rw [checkInsn, hop]
  cases test <;> cases source <;>
    simp [BPF_CLASS, BPF_OP, Op.code, Test.code, Source.code, BPF_JMP, BPF_JA, BPF_LD, BPF_LDX,
      BPF_ST, BPF_STX, BPF_ALU, BPF_JEQ, BPF_JGT, BPF_JGE, BPF_JSET, BPF_K, BPF_X]

/-- An accepted scratch access has its index in range. -/
theorem checkInsn_of_scratch (h : checkInsn len i p = true)
    (hop : decode p.code = some .LD_MEM ∨ decode p.code = some .LDX_MEM ∨
      decode p.code = some .ST ∨ decode p.code = some .STX) : p.k.toNat < BPF_MEMWORDS := by
  simp only [decode_eq_some_iff] at hop
  rw [checkInsn] at h
  rcases hop with hop | hop | hop | hop <;> rw [hop] at h <;>
    simpa [BPF_CLASS, BPF_MODE, Op.code, BPF_LD, BPF_LDX, BPF_ST, BPF_STX, BPF_IMM, BPF_ABS,
      BPF_IND, BPF_MSH, BPF_MEM] using h

/-- An accepted division by a constant does not divide by 0. -/
theorem checkInsn_of_divide (h : checkInsn len i p = true)
    (hop : decode p.code = some (.ALU .DIV .K) ∨ decode p.code = some (.ALU .MOD .K)) :
    p.k ≠ 0 := by
  simp only [decode_eq_some_iff] at hop
  rw [checkInsn] at h
  rcases hop with hop | hop <;> rw [hop] at h <;>
    simpa [BPF_CLASS, BPF_OP, BPF_SRC, Op.code, Alu.code, Source.code, BPF_LD, BPF_LDX, BPF_ST,
      BPF_STX, BPF_ALU, BPF_ADD, BPF_SUB, BPF_MUL, BPF_OR, BPF_AND, BPF_XOR, BPF_LSH, BPF_RSH,
      BPF_NEG, BPF_DIV, BPF_MOD, BPF_K] using h

end Check

namespace Valid

variable {insns : List Insn} {input : Input}

theorem toNat_next {n : Nat} (h : n < 2 ^ 31) : (BitVec.ofNat 32 n + 1).toNat = n + 1 := by
  rw [BitVec.toNat_add, BitVec.toNat_ofNat, show (1 : UInt).toNat = 1 from rfl]
  omega

/-- The checks are enough to keep every run inside the program. -/
theorem confined (h : Valid insns) : Confined (Filter.exec input) insns := by
  intro pc i data data' offset hi he
  obtain ⟨h0, hget⟩ := fetch_eq_some_iff.mp hi
  obtain ⟨n, rfl⟩ := Int.eq_ofNat_of_zero_le h0
  rw [Int.toNat_natCast] at hget
  have hn : n < insns.length := (List.getElem?_eq_some_iff.mp hget).1
  have hcheck := h.check n i hget
  have hshort := h.short
  rcases Filter.exec_jump_cases he with ⟨rfl, op, hop, -, hk, ha⟩ | ⟨hop, rfl⟩ |
    ⟨test, source, hop, rfl⟩
  · refine ⟨by omega, ?_⟩
    by_contra hend
    have hlast : insns.getLast? = some i := by
      rw [List.getLast?_eq_getElem?, show insns.length - 1 = n by omega, hget]
    rcases class_of_ret hop (h.last i hlast) with rfl | rfl
    · exact hk rfl
    · exact ha rfl
  · have hlt := (checkInsn_ja_iff hop).mp hcheck
    have hk := BitVec.toInt_eq_toNat_cond i.k
    rw [BitVec.lt_def, BitVec.toNat_add, toNat_next (by omega), BitVec.toNat_ofNat] at hlt
    have hkmax := i.k.isLt
    split at hk <;> constructor <;> omega
  · obtain ⟨hjt, hjf⟩ := (checkInsn_jmp_iff hop).mp hcheck
    rw [BitVec.lt_def, BitVec.toNat_add, toNat_next (by omega), BitVec.toNat_ofNat,
      BitVec.toNat_setWidth] at hjt hjf
    have htmax := i.jt.isLt
    have hfmax := i.jf.isLt
    split <;> constructor <;> omega

theorem inside_start (h : Valid insns) (mem : Fin BPF_MEMWORDS → UInt) :
    Inside insns (startState mem).pc := by
  have := h.nonempty
  constructor
  · exact Int.le_refl 0
  · show (0 : Int) < insns.length
    omega

/-- What can still break off the run of an accepted program. -/
theorem fault_cases (h : Valid insns) (hinput : input.Holds) {pc : Insn} (hpc : pc ∈ insns)
    {r : Regs} {e : Fault} (he : Filter.exec input pc r = .error e) :
    (e = .abort ∧ decode pc.code = none) ∨
      (e = .shiftCount ∧ ∃ op source, (op = .LSH ∨ op = .RSH) ∧
        decode pc.code = some (.ALU op source) ∧ 32 ≤ source.operand r pc) := by
  obtain ⟨n, hn, rfl⟩ := List.mem_iff_getElem.mp hpc
  have hcheck := h.check n insns[n] (List.getElem?_eq_getElem hn)
  rcases Filter.exec_fault_cases hinput he with habort | ⟨-, hop, hk⟩ | ⟨-, hk, hop⟩ | hshift
  · exact .inl habort
  · exact absurd (checkInsn_of_scratch hcheck hop) (Nat.not_lt.mpr hk)
  · exact absurd hk (checkInsn_of_divide hcheck hop)
  · exact .inr hshift

/-- What a run of an accepted program comes to. -/
theorem ends_cases (h : Valid insns) (hinput : input.Holds) {mem : Fin BPF_MEMWORDS → UInt}
    {r : Except (Stop Fault) UInt} (hr : Yields input insns mem r) :
    (∃ v, r = .ok v) ∨
      (r = .error (.fault .abort) ∧ ∃ pc ∈ insns, decode pc.code = none) ∨
      (r = .error (.fault .shiftCount) ∧ ∃ pc ∈ insns, ∃ op source,
        (op = .LSH ∨ op = .RSH) ∧ decode pc.code = some (.ALU op source)) := by
  cases r with
  | ok v => exact .inl ⟨v, rfl⟩
  | error e =>
    obtain ⟨pc, hpc, data, fault, rfl, hfault⟩ :=
      h.confined.fault_of_ends (h.inside_start mem) hr
    rcases h.fault_cases hinput hpc hfault with ⟨rfl, hop⟩ | ⟨rfl, op, source, hshift, hop, -⟩
    · exact .inr (.inl ⟨rfl, pc, hpc, hop⟩)
    · exact .inr (.inr ⟨rfl, pc, hpc, op, source, hshift, hop⟩)

end Valid

/-- What running a program that `bpf_validate` accepts comes to, on any packet and whatever the
scratch memory holds at first: it never leaves the program, never reads outside the packet or the
scratch memory and never divides by 0. It can only meet a code that is no case of the switch, or
a shift count that C leaves undefined. -/
theorem bpf_validate_safe (f : Program) (hf : bpf_validate f = true) (input : Input)
    (hinput : input.Holds) (mem : Fin BPF_MEMWORDS → UInt) (r : Except (Stop Fault) UInt)
    (hr : Yields input f.bf_insns mem r) :
    (∃ v, r = .ok v) ∨
      (r = .error (.fault .abort) ∧ ∃ pc ∈ f.bf_insns, decode pc.code = none) ∨
      (r = .error (.fault .shiftCount) ∧ ∃ pc ∈ f.bf_insns, ∃ op source,
        (op = .LSH ∨ op = .RSH) ∧ decode pc.code = some (.ALU op source)) :=
  ((bpf_validate_iff f).mp hf).ends_cases hinput hr

/-- Keeps the half word at 2 in the scratch memory, jumps over a return, and accepts the packet
if an eighth of what was kept is 10. -/
def eighthProgram : Program :=
  ⟨[⟨(Op.LD_ABS .H).code, 0, 0, 2⟩, ⟨Op.ST.code, 0, 0, 15⟩, ⟨Op.JA.code, 0, 0, 1⟩,
    ⟨Op.RET_K.code, 0, 0, 0⟩, ⟨Op.LD_MEM.code, 0, 0, 15⟩, ⟨(Op.ALU .DIV .K).code, 0, 0, 8⟩,
    ⟨(Op.JMP .JEQ .K).code, 0, 1, 10⟩, ⟨Op.RET_K.code, 0, 0, 96⟩, ⟨Op.RET_K.code, 0, 0, 0⟩],
    by decide⟩

/-- The first bytes of an IPv4 header with a total length of 80. -/
def eighthPacket : Bytes := [0x45, 0, 0, 80]

theorem bpf_validate_safe_eighth :
    (∃ v, (.ok 96 : Except (Stop Fault) UInt) = .ok v) ∨
      ((.ok 96 : Except (Stop Fault) UInt) = .error (.fault .abort) ∧
        ∃ pc ∈ eighthProgram.bf_insns, decode pc.code = none) ∨
      ((.ok 96 : Except (Stop Fault) UInt) = .error (.fault .shiftCount) ∧
        ∃ pc ∈ eighthProgram.bf_insns, ∃ op source,
          (op = .LSH ∨ op = .RSH) ∧ decode pc.code = some (.ALU op source)) :=
  bpf_validate_safe eighthProgram (by decide) ⟨eighthPacket, 80, 4, none⟩ (by decide)
    (fun _ => 7) _ ⟨8, rfl⟩

/-- No unconditional jump of the program goes back; the compiler only emits such jumps for
`protochain`. -/
def NoBackwardJump (insns : List Insn) : Prop :=
  ∀ pc ∈ insns, decode pc.code = some .JA → 0 ≤ pc.k.toInt

instance (insns : List Insn) : Decidable (NoBackwardJump insns) :=
  inferInstanceAs (Decidable (∀ pc ∈ insns, decode pc.code = some .JA → 0 ≤ pc.k.toInt))

theorem NoBackwardJump.forward {insns : List Insn} (h : NoBackwardJump insns) (input : Input) :
    Forward (Filter.exec input) insns := by
  intro pc hpc data data' offset he
  rcases Filter.exec_jump_cases he with ⟨rfl, -⟩ | ⟨hop, rfl⟩ | ⟨test, source, -, rfl⟩
  · exact Int.le_refl 0
  · exact h pc hpc hop
  · exact Int.natCast_nonneg _

theorem Valid.run_isSome {insns : List Insn} (h : Valid insns) (hback : NoBackwardJump insns)
    (input : Input) (mem : Fin BPF_MEMWORDS → UInt) :
    (bpf_filter_with_aux_data insns.length (some insns) input mem).isSome := by
  refine h.confined.run_isSome_of_forward (hback.forward input) (h.inside_start mem) ?_
  show (insns.length : Int) ≤ 0 + (insns.length : Int)
  omega

/-- An accepted program without backward jumps comes to an end on every packet, after at most as
many instructions as it has. -/
theorem bpf_filter_terminates (f : Program) (hf : bpf_validate f = true)
    (hback : NoBackwardJump f.bf_insns) (input : Input) (mem : Fin BPF_MEMWORDS → UInt) :
    (bpf_filter_with_aux_data f.bf_insns.length (some f.bf_insns) input mem).isSome :=
  ((bpf_validate_iff f).mp hf).run_isSome hback input mem

theorem bpf_filter_terminates_eighth :
    (bpf_filter_with_aux_data 9 (some eighthProgram.bf_insns) ⟨eighthPacket, 80, 4, none⟩
      fun _ => 7).isSome :=
  bpf_filter_terminates eighthProgram (by decide) (by decide) ⟨eighthPacket, 80, 4, none⟩
    fun _ => 7

end Bpf

end Jxnet
