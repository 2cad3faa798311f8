import Jxnet.Bpf.Insn
import Jxnet.Framework.JumpMachine
import Jxnet.Framework.Codec

namespace Jxnet

open Java JumpMachine

namespace Bpf

/-- What the C program does no longer define, or ends it. -/
inductive Fault where
  | abort
  | packetRead
  | scratch
  | divideByZero
  | shiftCount
  deriving DecidableEq, Repr

/-- The accumulator, the index register and the scratch memory. -/
structure Regs where
  A : UInt
  X : UInt
  mem : Fin BPF_MEMWORDS → UInt

/-- `struct bpf_aux_data`. -/
structure AuxData where
  vlan_tag_present : UShort
  vlan_tag : UShort

/-- The arguments of a filter beside the program: `buflen` bytes are said to be at `p`. -/
structure Input where
  p : Bytes
  wirelen : UInt
  buflen : UInt
  aux_data : Option AuxData

/-- The buffer holds the bytes that `buflen` promises. -/
def Input.Holds (input : Input) : Prop := input.buflen.toNat ≤ input.p.length

instance (input : Input) : Decidable input.Holds :=
  inferInstanceAs (Decidable (input.buflen.toNat ≤ input.p.length))

/-- `SKF_AD_OFF + SKF_AD_VLAN_TAG` of the Linux headers. -/
def SKF_AD_VLAN_TAG : UInt := 0xfffff02c#32

/-- `SKF_AD_OFF + SKF_AD_VLAN_TAG_PRESENT` of the Linux headers. -/
def SKF_AD_VLAN_TAG_PRESENT : UInt := 0xfffff030#32

/-- The right operand of a test. -/
def Source.operand (r : Regs) (pc : Insn) : Source → UInt
  | .K => pc.k
  | .X => r.X

namespace Filter

/-- `p[k]`. -/
def readByte (p : Bytes) (k : UInt) : Except Fault JByte :=
  match p[k.toNat]? with
  | some b => .ok b
  | none => .error .packetRead

/-- `p[k]`, `EXTRACT_SHORT(&p[k])` and `EXTRACT_LONG(&p[k])`. -/
def extract (p : Bytes) (k : UInt) : Size → Except Fault UInt
  | .B => do
    let b0 ← readByte p k
    return b0.setWidth 32
  | .H => do
    let b0 ← readByte p k
    let b1 ← readByte p (k + 1)
    return (b0 ++ b1).setWidth 32
  | .W => do
    let b0 ← readByte p k
    let b1 ← readByte p (k + 1)
    let b2 ← readByte p (k + 2)
    let b3 ← readByte p (k + 3)
    return b0 ++ b1 ++ b2 ++ b3

/-- The test that an absolute load makes before it reads. -/
def absOutside (k buflen : UInt) : Size → Bool
  | .W => buflen < k || buflen - k < 4
  | .H => buflen < k || buflen - k < 2
  | .B => buflen ≤ k

/-- The test that an indirect load makes before it reads; the three are written differently. -/
def indOutside (X pcK buflen : UInt) : Size → Bool
  | .W => buflen < pcK || buflen - pcK < X || buflen - (X + pcK) < 4
  | .H => buflen < X || buflen - X < pcK || buflen - (X + pcK) < 2
  | .B => buflen ≤ pcK || buflen - pcK ≤ X

/-- `mem[k]`. -/
def readMem (r : Regs) (k : UInt) : Except Fault UInt :=
  if h : k.toNat < BPF_MEMWORDS then .ok (r.mem ⟨k.toNat, h⟩) else .error .scratch

/-- `mem[k] = v`. -/
def writeMem (r : Regs) (k v : UInt) : Except Fault Regs :=
  if h : k.toNat < BPF_MEMWORDS then
    .ok { r with mem := fun i => if i = ⟨k.toNat, h⟩ then v else r.mem i }
  else .error .scratch

/-- The condition of a conditional jump. -/
def holds (A operand : UInt) : Test → Bool
  | .JGT => operand < A
  | .JGE => operand ≤ A
  | .JEQ => A = operand
  | .JSET => A &&& operand ≠ 0

/-- `A op= operand`; C leaves the shifts by 32 and more undefined. -/
def arith (A operand : UInt) : Alu → Except Fault UInt
  | .ADD => .ok (A + operand)
  | .SUB => .ok (A - operand)
  | .MUL => .ok (A * operand)
  | .DIV => if operand = 0 then .error .divideByZero else .ok (A / operand)
  | .MOD => if operand = 0 then .error .divideByZero else .ok (A % operand)
  | .AND => .ok (A &&& operand)
  | .OR => .ok (A ||| operand)
  | .XOR => .ok (A ^^^ operand)
  | .LSH => if operand < 32 then .ok (A <<< operand) else .error .shiftCount
  | .RSH => if operand < 32 then .ok (A >>> operand) else .error .shiftCount

/-- Go on with the next instruction. -/
def continue_ (r : Regs) : Except Fault (Effect Regs UInt) := .ok (.jump 0 r)

def return_ (v : UInt) : Except Fault (Effect Regs UInt) := .ok (.halt v)

/-- The ancillary loads of `BPF_LD|BPF_B|BPF_ABS`; `none` is the `default` of the switch. -/
def ancillary (aux_data : Option AuxData) (r : Regs) (k : UInt) :
    Option (Except Fault (Effect Regs UInt)) :=
  if k = SKF_AD_VLAN_TAG then
    match aux_data with
    | none => some (return_ 0)
    | some aux => some (continue_ { r with A := aux.vlan_tag.setWidth 32 })
  else if k = SKF_AD_VLAN_TAG_PRESENT then
    match aux_data with
    | none => some (return_ 0)
    | some aux => some (continue_ { r with A := aux.vlan_tag_present.setWidth 32 })
  else none

/-- `A = ` the load at `k`, or `return 0` when the test says that it is outside. -/
def load (input : Input) (r : Regs) (outside : Bool) (k : UInt) (size : Size) :
    Except Fault (Effect Regs UInt) := do
  if outside then
    return_ 0
  else
    let v ← extract input.p k size
    continue_ { r with A := v }

/-- The loads at a constant offset. -/
def loadAbs (input : Input) (pc : Insn) (r : Regs) (size : Size) :
    Except Fault (Effect Regs UInt) :=
  load input r (absOutside pc.k input.buflen size) pc.k size

/-- One case of the switch. -/
def case (input : Input) (pc : Insn) (r : Regs) : Op → Except Fault (Effect Regs UInt)
  | .RET_K => return_ pc.k
  | .RET_A => return_ r.A
  | .LD_ABS .W => loadAbs input pc r .W
  | .LD_ABS .H => loadAbs input pc r .H
  | .LD_ABS .B => match ancillary input.aux_data r pc.k with
    | some effect => effect
    | none => loadAbs input pc r .B
  | .LD_LEN => continue_ { r with A := input.wirelen }
  | .LDX_LEN => continue_ { r with X := input.wirelen }
  | .LD_IND size => load input r (indOutside r.X pc.k input.buflen size) (r.X + pc.k) size
  | .LDX_MSH =>
    if input.buflen ≤ pc.k then return_ 0
    else do
      let b ← readByte input.p pc.k
      continue_ { r with X := (b.setWidth 32 &&& 0xf#32) <<< 2 }
  | .LD_IMM => continue_ { r with A := pc.k }
  | .LDX_IMM => continue_ { r with X := pc.k }
  | .LD_MEM => do
    let v ← readMem r pc.k
    continue_ { r with A := v }
  | .LDX_MEM => do
    let v ← readMem r pc.k
    continue_ { r with X := v }
  | .ST => do continue_ (← writeMem r pc.k r.A)
  | .STX => do continue_ (← writeMem r pc.k r.X)
  | .JA => .ok (.jump pc.k.toInt r)
  | .JMP test source =>
    let offset := if holds r.A (source.operand r pc) test then pc.jt else pc.jf
    .ok (.jump (offset.toNat : Int) r)
  | .ALU op .K => do
    let v ← arith r.A pc.k op
    continue_ { r with A := v }
  | .ALU op .X =>
    if (op = .DIV ∨ op = .MOD) ∧ r.X = 0 then return_ 0
    else do
      let v ← arith r.A r.X op
      continue_ { r with A := v }
  | .NEG => continue_ { r with A := -r.A }
  | .TAX => continue_ { r with X := r.A }
  | .TXA => continue_ { r with A := r.X }

/-- The switch. -/
def exec (input : Input) (pc : Insn) (r : Regs) : Except Fault (Effect Regs UInt) :=
  match decode pc.code with
  | none => .error .abort
  | some op => case input pc r op

/-! The bounds tests. -/

theorem absOutside_iff (k buflen : UInt) (size : Size) :
    absOutside k buflen size = true ↔ buflen.toNat < k.toNat + size.bytes := by
  cases size <;>
    simp only [absOutside, Size.bytes, Bool.or_eq_true, decide_eq_true_eq] <;> bv_omega

/-- The sum in the code wraps around, the test is about the sum that does not. -/
theorem indOutside_iff (X pcK buflen : UInt) (size : Size) :
    indOutside X pcK buflen size = true ↔ buflen.toNat < X.toNat + pcK.toNat + size.bytes := by
  cases size <;>
    simp only [indOutside, Size.bytes, Bool.or_eq_true, decide_eq_true_eq] <;> bv_omega

/-- The value of a load, in network byte order. -/
def valueAt (p : Bytes) (k : Nat) : Size → UInt
  | .W => ByteBuffer.intAt p k
  | .H => (ByteBuffer.shortAt p k).setWidth 32
  | .B => (ByteBuffer.byteAt p k).setWidth 32

theorem readByte_of_lt {p : Bytes} {k : UInt} (h : k.toNat < p.length) :
    readByte p k = .ok (ByteBuffer.byteAt p k.toNat) := by
  simp [readByte, ByteBuffer.byteAt, List.getElem?_eq_getElem h]

/-- A load inside the buffer reads the bytes at its offset. -/
theorem extract_of_le {p : Bytes} {k : UInt} {size : Size} (h : k.toNat + size.bytes ≤ p.length)
    (hk : k.toNat + size.bytes ≤ 2 ^ 32) : extract p k size = .ok (valueAt p k.toNat size) := by
  have hadd : ∀ i : Nat, i < size.bytes →
      readByte p (k + BitVec.ofNat 32 i) = .ok (ByteBuffer.byteAt p (k.toNat + i)) := by
    intro i hi
    have hsize : size.bytes ≤ 4 := by cases size <;> decide
    have hnat : (k + BitVec.ofNat 32 i).toNat = k.toNat + i := by
      rw [BitVec.toNat_add, BitVec.toNat_ofNat]
      omega
    rw [readByte_of_lt (by omega), hnat]
  have h0 := hadd 0 (by cases size <;> decide)
  rw [show k + BitVec.ofNat 32 0 = k from BitVec.add_zero k] at h0
  cases size with
  | B =>
    rw [extract, h0]
    rfl
  | H =>
    rw [extract, h0, show k + 1 = k + BitVec.ofNat 32 1 from rfl, hadd 1 (by decide)]
    rfl
  | W =>
    rw [extract, h0, show k + 1 = k + BitVec.ofNat 32 1 from rfl, hadd 1 (by decide),
      show k + 2 = k + BitVec.ofNat 32 2 from rfl, hadd 2 (by decide),
      show k + 3 = k + BitVec.ofNat 32 3 from rfl, hadd 3 (by decide)]
    rfl

/-- A load returns 0 from the filter exactly when it is outside, and never reads outside. -/
theorem load_eq {input : Input} (hinput : input.Holds) (r : Regs) {outside : Bool} {k : UInt}
    {n : Nat} {size : Size} (houtside : outside = true ↔ input.buflen.toNat < n + size.bytes)
    (hk : k.toNat = n % 2 ^ 32) :
    load input r outside k size =
      if input.buflen.toNat < n + size.bytes then return_ 0
      else continue_ { r with A := valueAt input.p n size } := by
  have hbuflen := input.buflen.isLt
  rw [load]
  by_cases h : input.buflen.toNat < n + size.bytes
  · rw [if_pos (houtside.mpr h), if_pos h]
  · have hn : n % 2 ^ 32 = n :=
      Nat.mod_eq_of_lt (by cases size <;> simp [Size.bytes] at h <;> omega)
    rw [if_neg (fun ho => h (houtside.mp ho)), if_neg h]
    rw [hn] at hk
    have hinside : k.toNat + size.bytes ≤ input.p.length := by
      rw [Input.Holds] at hinput
      omega
    rw [extract_of_le hinside (by omega), hk]
    rfl

theorem loadAbs_eq {input : Input} (hinput : input.Holds) (pc : Insn) (r : Regs) (size : Size) :
    loadAbs input pc r size =
      if input.buflen.toNat < pc.k.toNat + size.bytes then return_ 0
      else continue_ { r with A := valueAt input.p pc.k.toNat size } :=
  load_eq hinput r (absOutside_iff pc.k input.buflen size)
    (Nat.mod_eq_of_lt pc.k.isLt).symm

theorem loadInd_eq {input : Input} (hinput : input.Holds) (pc : Insn) (r : Regs) (size : Size) :
    case input pc r (.LD_IND size) =
      if input.buflen.toNat < r.X.toNat + pc.k.toNat + size.bytes then return_ 0
      else continue_ { r with A := valueAt input.p (r.X.toNat + pc.k.toNat) size } :=
  load_eq hinput r (indOutside_iff r.X pc.k input.buflen size) (BitVec.toNat_add r.X pc.k)

theorem loadMsh_eq {input : Input} (hinput : input.Holds) (pc : Insn) (r : Regs) :
    case input pc r .LDX_MSH =
      if input.buflen ≤ pc.k then return_ 0
      else continue_ { r with X :=
        ((ByteBuffer.byteAt input.p pc.k.toNat).setWidth 32 &&& 0xf#32) <<< 2 } := by
  rw [case]
  by_cases h : input.buflen ≤ pc.k
  · rw [if_pos h, if_pos h]
  · rw [if_neg h, if_neg h, readByte_of_lt (by rw [Input.Holds] at hinput; bv_omega)]
    rfl

/-! What one instruction can do. -/

theorem jump_of_continue {α : Type} {x : Except Fault α} {f : α → Regs} {offset : Int}
    {r' : Regs} (h : (x >>= fun v => continue_ (f v)) = .ok (.jump offset r')) :
    offset = 0 ∧ ∃ v, x = .ok v ∧ r' = f v := by
  cases x with
  | error e => cases h
  | ok v =>
    cases h
    exact ⟨rfl, v, rfl, rfl⟩

theorem fault_of_continue {α : Type} {x : Except Fault α} {f : α → Regs} {e : Fault}
    (h : (x >>= fun v => continue_ (f v)) = .error e) : x = .error e := by
  cases x with
  | error e' =>
    cases h
    rfl
  | ok v => cases h

theorem jump_of_load {input : Input} {r r' : Regs} {outside : Bool} {k : UInt} {size : Size}
    {offset : Int} (h : load input r outside k size = .ok (.jump offset r')) : offset = 0 := by
  rw [load] at h
  split at h
  · cases h
  · exact (jump_of_continue h).1

/-- An ancillary load is made, or ends the run because there are no such data. -/
theorem ancillary_eq_some {aux_data : Option AuxData} {r : Regs} {k : UInt}
    {effect : Except Fault (Effect Regs UInt)} (h : ancillary aux_data r k = some effect) :
    effect = return_ 0 ∨ ∃ r', effect = continue_ r' := by
  simp only [ancillary] at h
  split at h
  · split at h
    · exact .inl (Option.some.inj h).symm
    · exact .inr ⟨_, (Option.some.inj h).symm⟩
  · split at h
    · split at h
      · exact .inl (Option.some.inj h).symm
      · exact .inr ⟨_, (Option.some.inj h).symm⟩
    · cases h

/-- The jumps among the cases. -/
def Op.Jumps : Op → Prop
  | .JA => True
  | .JMP _ _ => True
  | _ => False

/-- Every other case goes on with the next instruction, or returns. -/
theorem jump_of_case {input : Input} {pc : Insn} {r r' : Regs} {op : Op} {offset : Int}
    (hop : ¬Op.Jumps op) (h : case input pc r op = .ok (.jump offset r')) : offset = 0 := by
  cases op with
  | JA => exact absurd trivial hop
  | JMP test source => exact absurd trivial hop
  | RET_K => cases h
  | RET_A => cases h
  | LD_ABS size =>
    cases size with
    | W => exact jump_of_load h
    | H => exact jump_of_load h
    | B =>
      simp only [case] at h
      split at h
      · rename_i effect heffect
        rcases ancillary_eq_some heffect with rfl | ⟨r1, rfl⟩
        · cases h
        · cases h
          rfl
      · exact jump_of_load h
  | LD_IND size => exact jump_of_load h
  | LDX_MSH =>
    rw [case] at h
    split at h
    · cases h
    · exact (jump_of_continue h).1
  | LD_LEN | LDX_LEN | LD_IMM | LDX_IMM | NEG | TAX | TXA =>
    cases h
    rfl
  | LD_MEM => exact (jump_of_continue h).1
  | LDX_MEM => exact (jump_of_continue h).1
  | ST => exact (jump_of_continue (f := id) h).1
  | STX => exact (jump_of_continue (f := id) h).1
  | ALU op source =>
    cases source with
    | K => exact (jump_of_continue h).1
    | X =>
      rw [case] at h
      split at h
      · cases h
      · exact (jump_of_continue h).1

/-- What an instruction that goes on is, and where it goes on. -/
theorem exec_jump_cases {input : Input} {pc : Insn} {r r' : Regs} {offset : Int}
    (h : exec input pc r = .ok (.jump offset r')) :
    (offset = 0 ∧ ∃ op, decode pc.code = some op ∧ ¬Op.Jumps op ∧ op ≠ .RET_K ∧ op ≠ .RET_A) ∨
      (decode pc.code = some .JA ∧ offset = pc.k.toInt) ∨
      ∃ test source, decode pc.code = some (.JMP test source) ∧
        offset = ((if holds r.A (source.operand r pc) test then pc.jt else pc.jf).toNat : Int) := by
  rw [exec] at h
  cases hop : decode pc.code with
  | none =>
    rw [hop] at h
    cases h
  | some op =>
    rw [hop] at h
    by_cases hjumps : Op.Jumps op
    · right
      cases op with
      | JA =>
        cases h
        exact .inl ⟨rfl, rfl⟩
      | JMP test source =>
        cases h
        exact .inr ⟨test, source, rfl, rfl⟩
      | _ => exact absurd hjumps id
    · refine .inl ⟨jump_of_case hjumps h, op, rfl, hjumps, ?_, ?_⟩
      · rintro rfl
        cases h
      · rintro rfl
        cases h

theorem fault_of_arith {A operand : UInt} {op : Alu} {e : Fault}
    (h : arith A operand op = .error e) :
    (e = .divideByZero ∧ (op = .DIV ∨ op = .MOD) ∧ operand = 0) ∨
      (e = .shiftCount ∧ (op = .LSH ∨ op = .RSH) ∧ 32 ≤ operand) := by
  cases op <;> simp only [arith] at h
  case DIV | MOD =>
    split at h
    · rename_i h0
      cases h
      simp [h0]
    · cases h
  case LSH | RSH =>
    split at h
    · cases h
    · rename_i hlt
      cases h
      exact .inr ⟨rfl, by simp, BitVec.not_lt.mp hlt⟩
  all_goals cases h

theorem fault_of_readMem {r : Regs} {k : UInt} {e : Fault} (h : readMem r k = .error e) :
    e = .scratch ∧ BPF_MEMWORDS ≤ k.toNat := by
  rw [readMem] at h
  split at h
  · cases h
  · rename_i hlt
    cases h
    exact ⟨rfl, Nat.not_lt.mp hlt⟩

theorem fault_of_writeMem {r : Regs} {k v : UInt} {e : Fault} (h : writeMem r k v = .error e) :
    e = .scratch ∧ BPF_MEMWORDS ≤ k.toNat := by
  rw [writeMem] at h
  split at h
  · cases h
  · rename_i hlt
    cases h
    exact ⟨rfl, Nat.not_lt.mp hlt⟩

/-- The faults that an instruction can raise on a buffer that holds its bytes, and when. A read
outside the packet is none of them. -/
theorem exec_fault_cases {input : Input} (hinput : input.Holds) {pc : Insn} {r : Regs} {e : Fault}
    (h : exec input pc r = .error e) :
    (e = .abort ∧ decode pc.code = none) ∨
      (e = .scratch ∧ (decode pc.code = some .LD_MEM ∨ decode pc.code = some .LDX_MEM ∨
        decode pc.code = some .ST ∨ decode pc.code = some .STX) ∧ BPF_MEMWORDS ≤ pc.k.toNat) ∨
      (e = .divideByZero ∧ pc.k = 0 ∧
        (decode pc.code = some (.ALU .DIV .K) ∨ decode pc.code = some (.ALU .MOD .K))) ∨
      (e = .shiftCount ∧ ∃ op source, (op = .LSH ∨ op = .RSH) ∧
        decode pc.code = some (.ALU op source) ∧ 32 ≤ source.operand r pc) := by
  rw [exec] at h
  cases hop : decode pc.code with
  | none =>
    rw [hop] at h
    cases h
    exact .inl ⟨rfl, rfl⟩
  | some op =>
    rw [hop] at h
    right
    cases op with
    | RET_K | RET_A | LD_LEN | LDX_LEN | LD_IMM | LDX_IMM | JA | NEG | TAX | TXA => cases h
    | JMP test source => cases h
    | LD_ABS size =>
      cases size with
      | W | H =>
        simp only [case, loadAbs_eq hinput] at h
        split at h <;> cases h
      | B =>
        simp only [case] at h
        split at h
        · rename_i effect heffect
          rcases ancillary_eq_some heffect with rfl | ⟨r', rfl⟩ <;> cases h
        · rw [loadAbs_eq hinput] at h
          split at h <;> cases h
    | LD_IND size =>
      simp only [loadInd_eq hinput] at h
      split at h <;> cases h
    | LDX_MSH =>
      simp only [loadMsh_eq hinput] at h
      split at h <;> cases h
    | LD_MEM =>
      obtain ⟨he, hk⟩ := fault_of_readMem (fault_of_continue h)
      exact .inl ⟨he, by simp, hk⟩
    | LDX_MEM =>
      obtain ⟨he, hk⟩ := fault_of_readMem (fault_of_continue h)
      exact .inl ⟨he, by simp, hk⟩
    | ST =>
      obtain ⟨he, hk⟩ := fault_of_writeMem (fault_of_continue (f := id) h)
      exact .inl ⟨he, by simp, hk⟩
    | STX =>
      obtain ⟨he, hk⟩ := fault_of_writeMem (fault_of_continue (f := id) h)
      exact .inl ⟨he, by simp, hk⟩
    | ALU op source =>
      cases source with
      | K =>
        rcases fault_of_arith (fault_of_continue h) with ⟨he, hdiv, hk⟩ | ⟨he, hshift, hk⟩
        · exact .inr (.inl ⟨he, hk, by rcases hdiv with rfl | rfl <;> simp⟩)
        · exact .inr (.inr ⟨he, op, .K, hshift, rfl, hk⟩)
      | X =>
        simp only [case] at h
        split at h
        · cases h
        · rename_i hx
          rcases fault_of_arith (fault_of_continue h) with ⟨he, hdiv, hk⟩ | ⟨he, hshift, hk⟩
          · exact absurd ⟨hdiv, hk⟩ hx
          · exact .inr (.inr ⟨he, op, .X, hshift, rfl, hk⟩)

end Filter

/-- The registers at the start; the scratch memory is not initialized. -/
def startRegs (mem : Fin BPF_MEMWORDS → UInt) : Regs := ⟨0, 0, mem⟩

def startState (mem : Fin BPF_MEMWORDS → UInt) : State Regs := ⟨0, startRegs mem⟩

/-- `bpf_filter_with_aux_data` for at most `fuel` instructions; no filter accepts all. -/
def bpf_filter_with_aux_data (fuel : Nat) (pc : Option (List Insn)) (input : Input)
    (mem : Fin BPF_MEMWORDS → UInt) : Option (Except (Stop Fault) UInt) :=
  match pc with
  | none => some (.ok (BitVec.allOnes 32))
  | some program => Loop.run (pass (Filter.exec input) program) fuel (startState mem)

/-- `bpf_filter` passes no auxiliary data. -/
def bpf_filter (fuel : Nat) (pc : Option (List Insn)) (p : Bytes) (wirelen buflen : UInt)
    (mem : Fin BPF_MEMWORDS → UInt) : Option (Except (Stop Fault) UInt) :=
  bpf_filter_with_aux_data fuel pc ⟨p, wirelen, buflen, none⟩ mem

/-- What running the program on the input comes to. -/
def Yields (input : Input) (program : List Insn) (mem : Fin BPF_MEMWORDS → UInt)
    (r : Except (Stop Fault) UInt) : Prop :=
  Loop.Ends (pass (Filter.exec input) program) (startState mem) r

end Bpf

end Jxnet
