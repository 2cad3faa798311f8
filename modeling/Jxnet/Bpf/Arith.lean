import Jxnet.Bpf.Protocol

namespace Jxnet

open Java JumpMachine ShortCircuit

namespace Bpf

/-! Arithmetic expressions: the code leaves the value in a scratch register. -/

/-- `struct arth`: the code, the register of the value and the checks for the protocols. -/
structure Arth where
  b : Option Nat
  s : List Stmt
  regno : Fin BPF_MEMWORDS

/-- The loop of `alloc_reg`, `n` more times. -/
def allocLoop : Nat → Gen (Fin BPF_MEMWORDS)
  | 0 => bpf_error "too many registers needed to evaluate expression"
  | n + 1 => fun g =>
    if g.regused g.curreg then
      allocLoop n { g with curreg := ⟨(g.curreg + 1) % BPF_MEMWORDS, Nat.mod_lt _ (by decide)⟩ }
    else .ok (g.curreg, { g with regused := Function.update g.regused g.curreg true })

/-- `alloc_reg`. -/
def alloc_reg : Gen (Fin BPF_MEMWORDS) := allocLoop BPF_MEMWORDS

/-- `free_reg`. -/
def free_reg (n : Fin BPF_MEMWORDS) : Gen Unit := fun g =>
  .ok ((), { g with regused := Function.update g.regused n false })

/-- `xfer_to_x`. -/
def xfer_to_x (a : Arth) : Stmt := ⟨BPF_LDX ||| BPF_MEM, BitVec.ofNat 32 a.regno⟩

/-- `xfer_to_a`. -/
def xfer_to_a (a : Arth) : Stmt := ⟨BPF_LD ||| BPF_MEM, BitVec.ofNat 32 a.regno⟩

/-- The store of a value in its register. -/
def storeIn (regno : Fin BPF_MEMWORDS) : Stmt := ⟨BPF_ST, BitVec.ofNat 32 regno⟩

/-- `gen_loadlen`. -/
def gen_loadlen : Gen Arth := do
  let regno ← alloc_reg
  newchunk sizeofArth
  let s := [⟨BPF_LD ||| BPF_LEN, 0⟩, storeIn regno]
  new_stmts s
  return ⟨none, s, regno⟩

/-- `gen_loadi`. -/
def gen_loadi (val : UInt) : Gen Arth := do
  newchunk sizeofArth
  let reg ← alloc_reg
  let s := [⟨BPF_LD ||| BPF_IMM, val⟩, storeIn reg]
  new_stmts s
  return ⟨none, s, reg⟩

/-- `gen_neg`. -/
def gen_neg (a : Arth) : Gen Arth := do
  let s := [xfer_to_a a, ⟨BPF_ALU ||| BPF_NEG, 0⟩, storeIn a.regno]
  new_stmts s
  return { a with s := a.s ++ s }

/-- `gen_arth`. The checks of the right operand are dropped. -/
def gen_arth (code : Alu) (a0 a1 : Arth) : Gen Arth := do
  let s := [xfer_to_x a1, xfer_to_a a0, ⟨BPF_ALU ||| BPF_X ||| code.code, 0⟩]
  new_stmts s
  free_reg a0.regno
  free_reg a1.regno
  -- the statement comes before the register that it stores into
  newchunk sizeofSlist
  let regno ← alloc_reg
  return { a0 with s := a0.s ++ (a1.s ++ s) ++ [storeIn regno], regno := regno }

/-- The sizes that can be loaded. -/
def loadSize (size : UInt) : Option Size :=
  if size = 1 then some .B
  else if size = 2 then some .H
  else if size = 4 then some .W
  else none

/-- `gen_and` with the checks that there are. -/
def andCheck (check : Option Nat) (b : Nat) : Gen Unit :=
  match check with
  | some c => gen_and c b
  | none => return ()

/-- The load behind the link-layer header, and the checks that go with it. -/
def gen_load_network (proto : Proto) (inst : Arth) (size : Size) :
    Gen (List Stmt × Option Nat) := do
  let s := [xfer_to_x inst, ⟨BPF_LD ||| BPF_IND ||| size.code, off_linkpl + off_nl⟩]
  new_stmts s
  let b ← gen_proto_abbrev proto
  andCheck inst.b b
  return (s, some b)

/-- The load behind the IPv4 header, and the checks that go with it. -/
def gen_load_transport (proto : Proto) (inst : Arth) (size : Size) :
    Gen (List Stmt × Option Nat) := do
  let s := gen_loadx_iphdrlen ++ [xfer_to_a inst, ⟨BPF_ALU ||| BPF_ADD ||| BPF_X, 0⟩,
    ⟨BPF_MISC ||| BPF_TAX, 0⟩, ⟨BPF_LD ||| BPF_IND ||| size.code, off_linkpl + off_nl⟩]
  new_stmts s
  let b0 ← gen_proto_abbrev proto
  let b ← gen_ipfrag
  gen_and b0 b
  andCheck inst.b b
  let b0 ← gen_proto_abbrev .Q_IP
  gen_and b0 b
  return (s, some b)

/-- The switch of `gen_load`: the load, and the checks that go with it. -/
def gen_load_proto (proto : Proto) (inst : Arth) (size : Size) : Gen (List Stmt × Option Nat) :=
  match proto with
  | Proto.Q_RADIO => bpf_error "radio information not present in capture"
  | .Q_LINK => do
    let s := [xfer_to_x inst, ⟨BPF_LD ||| BPF_IND ||| size.code, off_linkhdr⟩]
    new_stmts s
    return (s, inst.b)
  | .Q_IP | .Q_ARP | .Q_RARP | .Q_ATALK | .Q_SCA | .Q_LAT | .Q_MOPRC | .Q_MOPDL | .Q_IPV6 =>
    gen_load_network proto inst size
  | .Q_SCTP | .Q_TCP | .Q_UDP | .Q_ICMP | .Q_IGMP | .Q_IGRP | .Q_PIM | .Q_VRRP | .Q_CARP =>
    gen_load_transport proto inst size
  | .Q_ICMPV6 => bpf_error "IPv6 upper-layer protocol is not supported by proto[x]"
  | _ => bpf_error "unsupported index operation"

/-- `gen_load`. -/
def gen_load (proto : Proto) (inst : Arth) (size : UInt) : Gen Arth := do
  let regno ← alloc_reg
  free_reg inst.regno
  match loadSize size with
  | none => bpf_error "data size must be 1, 2, or 4"
  | some size =>
    let (s, b) ← gen_load_proto proto inst size
    new_stmts [storeIn regno]
    return ⟨b, inst.s ++ s ++ [storeIn regno], regno⟩

/-- The protocol checks of both sides of a relation. -/
def andChecks (check0 check1 : Option Nat) (b : Nat) : Gen Unit := do
  match check0, check1 with
  | some b0, some b1 =>
    gen_and b0 b1
    gen_and b1 b
  | some b0, none => gen_and b0 b
  | none, some b1 => gen_and b1 b
  | none, none => return ()

/-- The comparison of `gen_relation`. -/
def gen_comparison (code : Test) (a0 a1 : Arth) : Gen Nat :=
  let s := [xfer_to_x a1, xfer_to_a a0]
  if code = .JEQ then do
    let s := s ++ [⟨BPF_ALU ||| BPF_SUB ||| BPF_X, 0⟩]
    new_stmts s
    gen_block (a0.s ++ (a1.s ++ s)) ⟨JMP code.code, 0⟩
  else do
    new_stmts s
    gen_block (a0.s ++ (a1.s ++ s)) ⟨BPF_JMP ||| code.code ||| BPF_X, 0⟩

/-- `gen_relation`. -/
def gen_relation (code : Test) (a0 a1 : Arth) (reversed : Bool) : Gen Nat := do
  let b ← gen_comparison code a0 a1
  if reversed then
    gen_not b
  free_reg a0.regno
  free_reg a1.regno
  andChecks a0.b a1.b b
  return b

/-! The expressions of the language, and what they stand for. -/

/-- An arithmetic expression. -/
inductive ArthExpr where
  | num (val : UInt)
  | len
  | neg (a : ArthExpr)
  | arth (code : Alu) (a0 a1 : ArthExpr)
  | load (proto : Proto) (index : ArthExpr) (size : UInt)
  deriving DecidableEq, Repr

/-- The calls of the parser for the expression. -/
def ArthExpr.gen : ArthExpr → Gen Arth
  | num val => gen_loadi val
  | len => gen_loadlen
  | neg a => do gen_neg (← a.gen)
  | arth code a0 a1 => do
    let a0 ← a0.gen
    let a1 ← a1.gen
    gen_arth code a0 a1
  | load proto index size => do gen_load proto (← index.gen) size

/-- What an index is relative to. -/
inductive Base where
  | link
  | network
  | transport
  deriving DecidableEq, Repr

/-- The base of an index, for the protocols that have one. -/
def Proto.base : Proto → Option Base
  | .Q_LINK => some .link
  | .Q_IP | .Q_ARP | .Q_RARP | .Q_ATALK | .Q_SCA | .Q_LAT | .Q_MOPRC | .Q_MOPDL | .Q_IPV6 =>
    some .network
  | .Q_SCTP | .Q_TCP | .Q_UDP | .Q_ICMP | .Q_IGMP | .Q_IGRP | .Q_PIM | .Q_VRRP | .Q_CARP =>
    some .transport
  | _ => none

/-- The field at an index. -/
def indexed (input : Input) (base : Base) (x : UInt) (size : Size) : Read UInt :=
  match base with
  | .link => field input x.toNat size
  | .network => field input (x.toNat + 14) size
  | .transport => do
    let n ← iphdrlen input
    field input ((x + BitVec.ofNat 32 n).toNat + 14) size

/-- An operation of the arithmetic; a filter that would divide by zero returns 0. -/
def applied (code : Alu) (x0 x1 : UInt) : Read UInt :=
  if (code = .DIV ∨ code = .MOD) ∧ x1 = 0 then .error (.ok 0)
  else match Filter.arith x0 x1 code with
  | .ok x => .ok x
  | .error e => .error (.error e)

/-- A check that goes with a load. -/
inductive Needs where
  | proto (proto : Proto)
  | firstFragment
  deriving DecidableEq, Repr

def Needs.holds (input : Input) : Needs → Read Bool
  | proto p =>
    match abbrevMeaning p with
    | .ok v => v input
    | .error _ => .ok true
  | firstFragment => notLaterFragment input (.ok true)

/-- The packet passes all of the checks, one after the other. -/
def allHold (input : Input) : List Needs → Read Bool
  | [] => .ok true
  | c :: cs => (c.holds input).and (allHold input cs)

/-- The checks of a load, with those of its index. -/
def loadChecks (proto : Proto) (index : List Needs) : List Needs :=
  match proto.base with
  | some .network => index ++ [.proto proto]
  | some .transport => .proto .Q_IP :: (index ++ [.proto proto, .firstFragment])
  | _ => index

namespace ArthExpr

/-- The value of the expression in a packet. -/
def value (input : Input) : ArthExpr → Read UInt
  | num val => return val
  | len => return input.wirelen
  | neg a => do return -(← a.value input)
  | arth code a0 a1 => do
    let x0 ← a0.value input
    let x1 ← a1.value input
    applied code x0 x1
  | load proto index size => do
    let x ← index.value input
    match proto.base, loadSize size with
    | some base, some size => indexed input base x size
    | _, _ => return 0

/-- The checks that the packet has the protocols of all the loads. -/
def checks : ArthExpr → List Needs
  | num _ | len => []
  | neg a => a.checks
  | arth _ a0 a1 => a0.checks ++ a1.checks
  | load proto index _ => loadChecks proto index.checks

/-- The checks that the generator keeps: those of a right operand are lost. -/
def kept : ArthExpr → List Needs
  | num _ | len => []
  | neg a => a.kept
  | arth _ a0 _ => a0.kept
  | load proto index _ => loadChecks proto index.kept

/-- The checks of a right operand are among those of the left one. -/
def KeepsChecks : ArthExpr → Prop
  | num _ | len => True
  | neg a => a.KeepsChecks
  | arth _ a0 a1 => a0.KeepsChecks ∧ a1.KeepsChecks ∧ a1.checks ⊆ a0.checks
  | load _ index _ => index.KeepsChecks

instance decidableKeepsChecks : (e : ArthExpr) → Decidable e.KeepsChecks
  | num _ | len => isTrue trivial
  | neg a => a.decidableKeepsChecks
  | arth _ a0 a1 => by
    have := a0.decidableKeepsChecks
    have := a1.decidableKeepsChecks
    exact inferInstanceAs (Decidable (_ ∧ _ ∧ _))
  | load _ index _ => index.decidableKeepsChecks

/-- The loads are of sizes and protocols that there are. -/
def WellFormed : ArthExpr → Prop
  | num _ | len => True
  | neg a => a.WellFormed
  | arth _ a0 a1 => a0.WellFormed ∧ a1.WellFormed
  | load proto index size => index.WellFormed ∧ proto.base ≠ none ∧ loadSize size ≠ none

instance decidableWellFormed : (e : ArthExpr) → Decidable e.WellFormed
  | num _ | len => isTrue trivial
  | neg a => a.decidableWellFormed
  | arth _ a0 a1 => by
    have := a0.decidableWellFormed
    have := a1.decidableWellFormed
    exact inferInstanceAs (Decidable (_ ∧ _))
  | load _ index _ => by
    have := index.decidableWellFormed
    exact inferInstanceAs (Decidable (_ ∧ _ ∧ _))

/-- The registers in use at once. -/
def registers : ArthExpr → Nat
  | num _ | len => 1
  | neg a => a.registers
  | arth _ a0 a1 => max a0.registers (a1.registers + 1)
  | load _ index _ => max index.registers 2

/-- The operands and operations of the expression. -/
def terms : ArthExpr → Nat
  | num _ | len => 1
  | neg a => a.terms + 1
  | arth _ a0 a1 => a0.terms + a1.terms + 1
  | load _ index _ => index.terms + 1

theorem terms_pos (e : ArthExpr) : 0 < e.terms := by cases e <;> simp [terms]

end ArthExpr

/-! The checks that are kept are as good as all of them, where none is lost. -/

section Checks

variable {input : Input} {cs ds : List Needs}

theorem allHold_append : allHold input (cs ++ ds) = (allHold input cs).and (allHold input ds) := by
  induction cs with
  | nil => rfl
  | cons c cs ih =>
    rw [List.cons_append, allHold, allHold, ih]
    exact (Look.and_assoc _ _ _).symm

theorem holds_of_allHold (h : allHold input cs = .ok true) {c : Needs} (hc : c ∈ cs) :
    c.holds input = .ok true := by
  induction cs with
  | nil => exact absurd hc List.not_mem_nil
  | cons d cs ih =>
    obtain ⟨hd, hcs⟩ := Look.and_eq_true.mp h
    rcases List.mem_cons.mp hc with rfl | hc
    · exact hd
    · exact ih hcs hc

theorem allHold_of_holds (h : ∀ c ∈ cs, c.holds input = .ok true) :
    allHold input cs = .ok true := by
  induction cs with
  | nil => rfl
  | cons c cs ih =>
    refine Look.and_eq_true.mpr ⟨h c List.mem_cons_self, ih fun d hd => ?_⟩
    exact h d (List.mem_cons_of_mem c hd)

/-- A check that was passed is passed again. -/
theorem allHold_append_of_subset (h : ds ⊆ cs) : allHold input (cs ++ ds) = allHold input cs := by
  rw [allHold_append]
  rcases hcs : allHold input cs with o | (_ | _)
  · rfl
  · rfl
  · exact allHold_of_holds fun d hd => holds_of_allHold hcs (h hd)

theorem allHold_loadChecks (h : allHold input cs = allHold input ds) (proto : Proto) :
    allHold input (loadChecks proto cs) = allHold input (loadChecks proto ds) := by
  rcases hbase : proto.base with _ | (_ | _ | _)
  · simpa only [loadChecks, hbase] using h
  · simpa only [loadChecks, hbase] using h
  · simp only [loadChecks, hbase, allHold_append, h]
  · simp only [loadChecks, hbase, allHold, allHold_append, h]

theorem ArthExpr.allHold_kept {e : ArthExpr} (h : e.KeepsChecks) :
    allHold input e.kept = allHold input e.checks := by
  induction e with
  | num _ => rfl
  | len => rfl
  | neg a ih => exact ih h
  | arth _ a0 a1 ih0 =>
    exact (ih0 h.1).trans (allHold_append_of_subset h.2.2).symm
  | load proto index _ ih => exact allHold_loadChecks (ih h) proto

end Checks

end Bpf

end Jxnet
