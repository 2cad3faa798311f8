import Jxnet.Bpf.Arith
import Mathlib.Data.Finset.Card
import Mathlib.Data.Fintype.Card

namespace Jxnet

open Java Budget JumpMachine ShortCircuit

namespace Bpf

/-! The code for an arithmetic expression computes its value. -/

/-- The registers in use. -/
def usedRegs (regused : Fin BPF_MEMWORDS → Bool) : Finset (Fin BPF_MEMWORDS) :=
  Finset.univ.filter fun n => regused n = true

section Registers

variable {regused : Fin BPF_MEMWORDS → Bool} {n : Fin BPF_MEMWORDS}

theorem mem_usedRegs : n ∈ usedRegs regused ↔ regused n = true := by simp [usedRegs]

theorem card_usedRegs_lt (hn : regused n = false) : (usedRegs regused).card < BPF_MEMWORDS := by
  have hlt := Finset.card_lt_univ_of_notMem (s := usedRegs regused) (x := n) (by
    rw [mem_usedRegs, hn]
    exact Bool.false_ne_true)
  rwa [Fintype.card_fin] at hlt

theorem card_usedRegs_of_full (h : ∀ n, regused n = true) :
    (usedRegs regused).card = BPF_MEMWORDS := by
  rw [usedRegs, Finset.filter_true_of_mem fun n _ => h n, Finset.card_univ, Fintype.card_fin]

theorem card_usedRegs_update (hn : regused n = false) :
    (usedRegs (Function.update regused n true)).card = (usedRegs regused).card + 1 := by
  have hinsert : usedRegs (Function.update regused n true) = insert n (usedRegs regused) := by
    ext m
    rw [mem_usedRegs, Finset.mem_insert, mem_usedRegs, Function.update_apply]
    split <;> simp [*]
  rw [hinsert, Finset.card_insert_of_notMem]
  rw [mem_usedRegs, hn]
  exact Bool.false_ne_true

theorem update_update_false (hn : regused n = false) :
    Function.update (Function.update regused n true) n false = regused := by
  rw [Function.update_idem, ← hn, Function.update_eq_self]

end Registers

def tooManyRegisters : Complaint := .error "too many registers needed to evaluate expression"

/-- The loop finds the next free register, or all it looked at are in use. -/
theorem allocLoop_cases (n : Nat) (g : GenState) :
    (∃ m, g.regused m = false ∧ allocLoop n g =
      .ok (m, { g with regused := Function.update g.regused m true, curreg := m })) ∨
    (allocLoop n g = .error tooManyRegisters ∧
      ∀ m k, k < n → (g.curreg + k) % BPF_MEMWORDS = m.val → g.regused m = true) := by
  induction n generalizing g with
  | zero => exact .inr ⟨rfl, fun m k hk => absurd hk (Nat.not_lt_zero k)⟩
  | succ n ih =>
    simp only [allocLoop]
    by_cases hused : g.regused g.curreg = true
    · simp only [if_pos hused]
      rcases ih { g with curreg := ⟨(g.curreg + 1) % BPF_MEMWORDS, _⟩ } with hfree | ⟨hrun, hall⟩
      · exact .inl hfree
      · refine .inr ⟨hrun, fun m k hk hm => ?_⟩
        cases k with
        | zero =>
          rw [Nat.add_zero, Nat.mod_eq_of_lt g.curreg.isLt] at hm
          rw [← Fin.ext hm]
          exact hused
        | succ k =>
          refine hall m k (Nat.lt_of_succ_lt_succ hk) ?_
          rw [Nat.mod_add_mod, Nat.add_assoc, Nat.add_comm 1 k]
          exact hm
    · simp only [if_neg hused]
      exact .inl ⟨g.curreg, eq_false_of_ne_true hused, rfl⟩

/-- `alloc_reg` yields a register that was free, or all are in use. -/
theorem alloc_reg_cases (g : GenState) :
    (∃ m, g.regused m = false ∧ alloc_reg g =
      .ok (m, { g with regused := Function.update g.regused m true, curreg := m })) ∨
    (alloc_reg g = .error tooManyRegisters ∧ (usedRegs g.regused).card = BPF_MEMWORDS) := by
  rcases allocLoop_cases BPF_MEMWORDS g with hfree | ⟨hrun, hall⟩
  · exact .inl hfree
  · refine .inr ⟨hrun, card_usedRegs_of_full fun m => ?_⟩
    have hm := m.isLt
    have hc := g.curreg.isLt
    refine hall m ((m + (BPF_MEMWORDS - g.curreg)) % BPF_MEMWORDS) (Nat.mod_lt _ (by decide)) ?_
    rw [Nat.add_mod_mod,
      show (g.curreg : Nat) + (m + (BPF_MEMWORDS - g.curreg)) = m + BPF_MEMWORDS by omega,
      Nat.add_mod_right, Nat.mod_eq_of_lt hm]

/-- Only the registers in use have changed. -/
structure Assigned (regused : Fin BPF_MEMWORDS → Bool) (g g' : GenState) : Prop where
  blocks : g'.blocks = g.blocks
  chunks : g'.chunks = g.chunks
  regused : g'.regused = regused

theorem PaidWith.assigned {n : Nat} {g g1 g2 : GenState} {regused : Fin BPF_MEMWORDS → Bool}
    (h : PaidWith n g g1) (ha : Assigned regused g1 g2) : PaidWith n g g2 := by
  simpa only [PaidWith, GenState.room, ha.blocks, ha.chunks] using h

theorem alloc_reg_inBlocks (g : GenState) :
    InBlocksIf ((usedRegs g.regused).card < BPF_MEMWORDS) 0 g (alloc_reg g) fun n g' =>
      g.regused n = false ∧ Assigned (Function.update g.regused n true) g g' := by
  rcases alloc_reg_cases g with ⟨n, hn, hrun⟩ | ⟨hrun, hfull⟩
  · exact .of (card_usedRegs_lt hn) (.done hrun ⟨hn, rfl, rfl, rfl⟩ (Nat.le_refl _))
  · rw [hrun]
    exact .message (by rw [hfull]; exact Nat.lt_irrefl _) _

theorem free_reg_inBlocks (n : Fin BPF_MEMWORDS) (g : GenState) :
    InBlocks 0 g (free_reg n g) fun _ g' => Assigned (Function.update g.regused n false) g g' :=
  .done rfl ⟨rfl, rfl, rfl⟩ (Nat.le_refl _)

/-- Only the successors of blocks have changed. -/
structure Connected (g g' : GenState) : Prop where
  blocks : g.blocks.Reconnected g'.blocks
  chunks : g'.chunks = g.chunks
  regused : g'.regused = g.regused

theorem Connected.refl (g : GenState) : Connected g g := ⟨.refl _, rfl, rfl⟩

theorem Connected.trans {g g1 g2 : GenState} (h : Connected g g1) (h1 : Connected g1 g2) :
    Connected g g2 :=
  ⟨h.blocks.trans h1.blocks, h1.chunks.trans h.chunks, h1.regused.trans h.regused⟩

theorem PaidWith.connected {n : Nat} {g g1 g2 : GenState} (h : PaidWith n g g1)
    (hc : Connected g1 g2) : PaidWith n g g2 := by
  simpa only [PaidWith, GenState.room, hc.blocks.instructions_eq, hc.chunks] using h

/-! The instructions on the scratch registers. -/

def Regs.store (r : Regs) (n : Fin BPF_MEMWORDS) (v : UInt) : Regs :=
  { r with mem := Function.update r.mem n v }

theorem Regs.mem_store (r : Regs) (n : Fin BPF_MEMWORDS) (v : UInt) : (r.store n v).mem n = v :=
  Function.update_self _ _ _

theorem Regs.mem_store_of_ne (r : Regs) {n i : Fin BPF_MEMWORDS} (hi : i ≠ n) (v : UInt) :
    (r.store n v).mem i = r.mem i := Function.update_of_ne hi _ _

theorem ne_of_used {regused : Fin BPF_MEMWORDS → Bool} {i n : Fin BPF_MEMWORDS}
    (hi : regused i = true) (hn : regused n = false) : i ≠ n := fun h => by
  rw [h, hn] at hi
  cases hi

section Instructions

variable (input : Input) (r : Regs)

theorem toNat_regno (n : Fin BPF_MEMWORDS) : (BitVec.ofNat 32 n : UInt).toNat = n := by
  have hn : n.val < 16 := n.isLt
  rw [BitVec.toNat_ofNat]
  omega

theorem exec_storeIn (n : Fin BPF_MEMWORDS) :
    Filter.exec input (storeIn n).insn r = .ok (.jump 0 (r.store n r.A)) := by
  have hop : decode BPF_ST = some .ST := by decide
  have hmem : Filter.writeMem r (BitVec.ofNat 32 n) r.A = .ok (r.store n r.A) := by
    have hlt : (BitVec.ofNat 32 n : UInt).toNat < BPF_MEMWORDS := by
      rw [toNat_regno]
      exact n.isLt
    have hn : (⟨_, hlt⟩ : Fin BPF_MEMWORDS) = n := Fin.ext (toNat_regno n)
    rw [Filter.writeMem, dif_pos hlt, hn]
    refine congrArg Except.ok (congrArg (Regs.mk r.A r.X) (funext fun i => ?_))
    rw [Function.update_apply]
  rw [exec_of_decode hop]
  show (do Filter.continue_ (← Filter.writeMem r (BitVec.ofNat 32 n) r.A)) = _
  rw [hmem]
  rfl

theorem readMem_regno (n : Fin BPF_MEMWORDS) :
    Filter.readMem r (BitVec.ofNat 32 n) = .ok (r.mem n) := by
  rw [Filter.readMem, dif_pos (by rw [toNat_regno]; exact n.isLt)]
  exact congrArg (fun i => Except.ok (r.mem i)) (Fin.ext (toNat_regno n))

theorem exec_xfer_to_x (a : Arth) :
    Filter.exec input (xfer_to_x a).insn r = .ok (.jump 0 { r with X := r.mem a.regno }) := by
  have hop : decode (BPF_LDX ||| BPF_MEM) = some .LDX_MEM := by decide
  rw [exec_of_decode hop]
  show (do
    let v ← Filter.readMem r (BitVec.ofNat 32 a.regno)
    Filter.continue_ { r with X := v }) = _
  rw [readMem_regno]
  rfl

theorem exec_xfer_to_a (a : Arth) :
    Filter.exec input (xfer_to_a a).insn r = .ok (.jump 0 { r with A := r.mem a.regno }) := by
  have hop : decode (BPF_LD ||| BPF_MEM) = some .LD_MEM := by decide
  rw [exec_of_decode hop]
  show (do
    let v ← Filter.readMem r (BitVec.ofNat 32 a.regno)
    Filter.continue_ { r with A := v }) = _
  rw [readMem_regno]
  rfl

theorem exec_alu (code : Alu) :
    Filter.exec input (Stmt.insn ⟨BPF_ALU ||| BPF_X ||| code.code, 0⟩) r =
      match applied code r.A r.X with
      | .error (.error e) => .error e
      | .error (.ok v) => .ok (.halt v)
      | .ok x => .ok (.jump 0 { r with A := x }) := by
  have hop : decode (BPF_ALU ||| BPF_X ||| code.code) = some (.ALU code .X) := by
    cases code <;> decide
  rw [exec_of_decode hop, applied]
  show (if (code = .DIV ∨ code = .MOD) ∧ r.X = 0 then _ else _) = _
  split
  · rfl
  · show (do let v ← Filter.arith r.A r.X code; Filter.continue_ { r with A := v }) = _
    rcases Filter.arith r.A r.X code with e | x <;> rfl

end Instructions

theorem safe_storeIn (n : Fin BPF_MEMWORDS) : (storeIn n).Plain ∧ (storeIn n).Accepted := by
  have hop : decode BPF_ST = some .ST := by decide
  exact Stmt.plain_accepted hop (show _ < _ by rw [toNat_regno]; exact n.isLt)

theorem safe_xfer_to_x (a : Arth) : (xfer_to_x a).Plain ∧ (xfer_to_x a).Accepted := by
  have hop : decode (BPF_LDX ||| BPF_MEM) = some .LDX_MEM := by decide
  exact Stmt.plain_accepted hop (show _ < _ by rw [toNat_regno]; exact a.regno.isLt)

theorem safe_xfer_to_a (a : Arth) : (xfer_to_a a).Plain ∧ (xfer_to_a a).Accepted := by
  have hop : decode (BPF_LD ||| BPF_MEM) = some .LD_MEM := by decide
  exact Stmt.plain_accepted hop (show _ < _ by rw [toNat_regno]; exact a.regno.isLt)

/-! What is generated for an expression. -/

/-- The checks that were generated, if any, are those that are kept. -/
inductive CheckedBy (h h' : Blocks) : Option Nat → List Needs → Prop
  | none (grows : h.Grows h') : CheckedBy h h' none []
  | some {b : Nat} {cs : List Needs} (codes : Codes h h' b fun input => allHold input cs) :
    CheckedBy h h' (some b) cs

/-- The value in the accumulator, the registers in use left alone. -/
def InA (regused : Fin BPF_MEMWORDS → Bool) (r : Regs) (x : UInt) (r' : Regs) : Prop :=
  r'.A = x ∧ ∀ n, regused n = true → r'.mem n = r.mem n

/-- The value in a register, those in use left alone. -/
def InReg (regused : Fin BPF_MEMWORDS → Bool) (n : Fin BPF_MEMWORDS) (r : Regs) (x : UInt)
    (r' : Regs) : Prop :=
  r'.mem n = x ∧ ∀ i, regused i = true → r'.mem i = r.mem i

/-- What generating an expression comes to: a register that was free now holds the value, and those
that were in use are left alone. -/
structure Computes (e : ArthExpr) (g g' : GenState) (a : Arth) : Prop where
  fresh : g.regused a.regno = false
  regused : g'.regused = Function.update g.regused a.regno true
  checked : CheckedBy g.blocks g'.blocks a.b e.kept
  paid : PaidWith a.s.length g g'
  safe : ∀ s ∈ a.s, s.Plain ∧ s.Accepted
  reads : ∀ input : Input, input.Holds → ∀ r, Reads (Filter.exec input) (a.s.map Stmt.insn) r
    (e.value input) (InReg g.regused a.regno r)

/-- Whether the registers that are left are enough for the expression. -/
def ArthExpr.Fits (e : ArthExpr) (g : GenState) : Prop :=
  e.WellFormed ∧ (usedRegs g.regused).card + e.registers ≤ BPF_MEMWORDS

/-- The expression is refused exactly when it does not fit; with memory for 22 blocks for each of
its operands and operations it is generated otherwise. -/
abbrev Generated (e : ArthExpr) (g : GenState) (r : Except Complaint (Arth × GenState)) : Prop :=
  InBlocksIf (e.Fits g) (22 * e.terms) g r fun a g' => Computes e g g' a

/-- A line that ends in the store of its value. -/
theorem reads_store {regused : Fin BPF_MEMWORDS → Bool} {n : Fin BPF_MEMWORDS}
    (hn : regused n = false) {input : Input} {code : List Insn} {r : Regs} {v : Read UInt}
    (h : Reads (Filter.exec input) code r v (InA regused r)) :
    Reads (Filter.exec input) (code ++ [(storeIn n).insn]) r v (InReg regused n r) := by
  rw [← bind_pure v]
  refine h.append fun x r' ⟨hx, hframe⟩ => .cons (exec_storeIn input r' n)
    (.nil ⟨?_, fun i hi => ?_⟩)
  · exact (Regs.mem_store _ _ _).trans hx
  · exact (Regs.mem_store_of_ne _ (ne_of_used hi hn) _).trans (hframe i hi)

/-- An expression that one instruction computes. -/
theorem computes_leaf {e : ArthExpr} {s : Stmt} {v : Input → UInt} (hkept : e.kept = [])
    (hsafe : s.Plain ∧ s.Accepted) (hvalue : ∀ input, e.value input = .ok (v input))
    (hexec : ∀ input r, Filter.exec input s.insn r = .ok (.jump 0 { r with A := v input }))
    {g g' : GenState} {n : Fin BPF_MEMWORDS} (hn : g.regused n = false)
    (hregused : g'.regused = Function.update g.regused n true) (hblocks : g'.blocks = g.blocks)
    (hpaid : PaidWith 2 g g') : Computes e g g' ⟨none, [s, storeIn n], n⟩ := by
  refine ⟨hn, hregused, ?_, hpaid, fun t ht => ?_, fun input _ r => ?_⟩
  · rw [hkept, hblocks]
    exact .none (.refl _)
  · rcases List.mem_pair.mp ht with rfl | rfl
    · exact hsafe
    · exact safe_storeIn n
  · rw [hvalue]
    have hline : Reads (Filter.exec input) [s.insn] r (.ok (v input)) (InA g.regused r) :=
      .cons (hexec input r) (.nil ⟨rfl, fun _ _ => rfl⟩)
    exact reads_store hn hline

theorem fits_leaf {e : ArthExpr} (hwf : e.WellFormed) (hregisters : e.registers = 1)
    {g g' : GenState} (hregused : g'.regused = g.regused) :
    (usedRegs g'.regused).card < BPF_MEMWORDS ↔ e.Fits g := by
  rw [ArthExpr.Fits, hregisters, hregused]
  exact ⟨fun h => ⟨hwf, h⟩, fun h => h.2⟩

theorem generated_num (val : UInt) (g : GenState) :
    Generated (.num val) g (gen_loadi val g) := by
  have hop : decode (BPF_LD ||| BPF_IMM) = some .LD_IMM := by decide
  have hexec : ∀ input r, Filter.exec input (Stmt.insn ⟨BPF_LD ||| BPF_IMM, val⟩) r =
      .ok (.jump 0 { r with A := val }) := fun input r => by
    rw [exec_of_decode hop]
    rfl
  have hchunk := newchunk_inBlocks (n := sizeofArth) rfl (by decide) g
  refine (InBlocksIf.after hchunk fun _ g1 h1 => ?_).le (show 1 + (0 + 1) ≤ 22 by decide)
  have halloc := (alloc_reg_inBlocks g1).congr (fits_leaf (e := .num val) trivial rfl h1.regused)
  refine halloc.before fun n g2 ⟨hn, h2⟩ => ?_
  refine (new_stmts_inBlocks 2 rfl (by decide) g2).bind_pure fun _ g3 h3 => ?_
  exact .done rfl (computes_leaf rfl (Stmt.plain_accepted hop trivial) (fun _ => rfl) hexec
    (h1.regused ▸ hn) ((h3.regused.trans h2.regused).trans (h1.regused ▸ rfl))
    ((h3.blocks.trans h2.blocks).trans h1.blocks)
    ((((PaidWith.refl g).took h1).assigned h2).stmts h3)) (Nat.le_refl _)

theorem generated_len (g : GenState) : Generated .len g (gen_loadlen g) := by
  have hop : decode (BPF_LD ||| BPF_LEN) = some .LD_LEN := by decide
  have hexec : ∀ input r, Filter.exec input (Stmt.insn ⟨BPF_LD ||| BPF_LEN, 0⟩) r =
      .ok (.jump 0 { r with A := input.wirelen }) := fun input r => by
    rw [exec_of_decode hop]
    rfl
  have halloc := (alloc_reg_inBlocks g).congr (fits_leaf (e := .len) trivial rfl rfl)
  refine (halloc.before fun n g1 ⟨hn, h1⟩ => ?_).le (show 0 + (1 + 1) ≤ 22 by decide)
  refine (newchunk_inBlocks (n := sizeofArth) rfl (by decide) g1).bind fun _ g2 h2 => ?_
  refine (new_stmts_inBlocks 2 rfl (by decide) g2).bind_pure fun _ g3 h3 => ?_
  exact .done rfl (computes_leaf rfl (Stmt.plain_accepted hop trivial) (fun _ => rfl) hexec hn
    ((h3.regused.trans h2.regused).trans h1.regused)
    ((h3.blocks.trans h2.blocks).trans h1.blocks)
    ((((PaidWith.refl g).assigned h1).took h2).stmts h3)) (Nat.le_refl _)

theorem gen_neg_inBlocks {e : ArthExpr} {g g1 : GenState} {a : Arth} (h : Computes e g g1 a) :
    InBlocks 1 g1 (gen_neg a g1) fun a' g' => Computes (.neg e) g g' a' := by
  have hop : decode (BPF_ALU ||| BPF_NEG) = some .NEG := by decide
  refine (new_stmts_inBlocks 3 rfl (by decide) g1).bind_pure fun _ g2 h2 => ?_
  refine .done rfl ⟨h.fresh, h2.regused.trans h.regused, h2.blocks ▸ h.checked, ?_, fun s hs => ?_,
    fun input hinput r => ?_⟩ (Nat.le_refl _)
  · rw [List.length_append]
    exact h.paid.stmts h2
  · rcases List.mem_append.mp hs with hs | hs
    · exact h.safe s hs
    · simp only [List.mem_cons, List.not_mem_nil, or_false] at hs
      rcases hs with rfl | rfl | rfl
      · exact safe_xfer_to_a a
      · exact Stmt.plain_accepted hop trivial
      · exact safe_storeIn a.regno
  · rw [List.map_append]
    refine (h.reads input hinput r).append fun x r' ⟨hx, hframe⟩ => ?_
    have hneg : Filter.exec input (Stmt.insn ⟨BPF_ALU ||| BPF_NEG, 0⟩)
        { r' with A := r'.mem a.regno } = .ok (.jump 0 { r' with A := -r'.mem a.regno }) := by
      rw [exec_of_decode hop]
      rfl
    refine .cons (exec_xfer_to_a _ _ a) (.cons hneg (.cons (exec_storeIn _ _ _) (.nil ⟨?_, ?_⟩)))
    · exact (Regs.mem_store _ _ _).trans (congrArg (fun x => -x) hx)
    · exact fun n hn => (Regs.mem_store_of_ne _ (ne_of_used hn h.fresh) _).trans (hframe n hn)

section Arith

variable {e0 e1 : ArthExpr} {g g1 g2 : GenState} {a0 a1 : Arth}

/-- What two operands leave in their registers. -/
theorem Computes.reads_both (h0 : Computes e0 g g1 a0) (h1 : Computes e1 g1 g2 a1) {input : Input}
    (hinput : input.Holds) (r : Regs) {β : Type} {code : List Insn} {f : UInt → UInt → Read β}
    {Q : β → Regs → Prop}
    (h : ∀ r', (∀ n, g.regused n = true → r'.mem n = r.mem n) → Reads (Filter.exec input) code r'
      (f (r'.mem a0.regno) (r'.mem a1.regno)) Q) :
    Reads (Filter.exec input) (a0.s.map Stmt.insn ++ (a1.s.map Stmt.insn ++ code)) r (do
      let x0 ← e0.value input
      let x1 ← e1.value input
      f x0 x1) Q := by
  refine (h0.reads input hinput r).append fun x0 r0 ⟨hx0, hframe0⟩ => ?_
  refine (h1.reads input hinput r0).append fun x1 r1 ⟨hx1, hframe1⟩ => ?_
  have hused : ∀ n, n = a0.regno ∨ g.regused n = true → g1.regused n = true := by
    intro n hn
    rw [h0.regused, Function.update_apply]
    split
    · rfl
    · exact hn.resolve_left ‹_›
  have hkept : r1.mem a0.regno = x0 := (hframe1 _ (hused _ (.inl rfl))).trans hx0
  rw [← hkept, ← hx1]
  exact h r1 fun n hn => (hframe1 n (hused n (.inr hn))).trans (hframe0 n hn)

/-- The two registers are free again when their values were used. -/
theorem Computes.regused_freed (h0 : Computes e0 g g1 a0) (h1 : Computes e1 g1 g2 a1) :
    Function.update (Function.update g2.regused a0.regno false) a1.regno false = g.regused := by
  have hne : a0.regno ≠ a1.regno := fun heq => by
    have := h1.fresh
    rw [h0.regused, ← heq, Function.update_self] at this
    cases this
  rw [Function.update_comm hne, h1.regused, update_update_false h1.fresh, h0.regused,
    update_update_false h0.fresh]

theorem CheckedBy.append {h h1 h2 : Blocks} {b : Option Nat} {cs : List Needs}
    (hc : CheckedBy h h1 b cs)
    (hg : h1.Grows h2) : CheckedBy h h2 b cs := by
  cases hc with
  | none grows => exact .none (grows.trans hg)
  | some codes => exact .some (codes.append hg)

theorem CheckedBy.prepend {h h1 h2 : Blocks} {b : Option Nat} {cs : List Needs}
    (hg : h.Grows h1) (hc : CheckedBy h1 h2 b cs) : CheckedBy h h2 b cs := by
  cases hc with
  | none grows => exact .none (hg.trans grows)
  | some codes => exact .some (codes.prepend hg)

theorem CheckedBy.grows {h h' : Blocks} {b : Option Nat} {cs : List Needs}
    (hc : CheckedBy h h' b cs) : h.Grows h' := by
  cases hc with
  | none grows => exact grows
  | some codes => exact codes.grows

theorem gen_arth_inBlocks (code : Alu) (h0 : Computes e0 g g1 a0) (h1 : Computes e1 g1 g2 a1) :
    InBlocks 2 g2 (gen_arth code a0 a1 g2) fun a g' => Computes (.arth code e0 e1) g g' a := by
  have hop : decode (BPF_ALU ||| BPF_X ||| code.code) = some (.ALU code .X) := by
    cases code <;> decide
  refine ((new_stmts_inBlocks 3 rfl (by decide) g2).bind fun _ g3 h3 => ?_).le
    (show 1 + (0 + (0 + (1 + 0))) ≤ 2 by decide)
  refine (free_reg_inBlocks a0.regno g3).bind fun _ g4 h4 => ?_
  refine (free_reg_inBlocks a1.regno g4).bind fun _ g5 h5 => ?_
  refine (newchunk_inBlocks (n := sizeofSlist) rfl (by decide) g5).bind fun _ g6 h6 => ?_
  have hregused : g6.regused = g.regused := by
    rw [h6.regused, h5.regused, h4.regused, h3.regused, h0.regused_freed h1]
  have hcard := card_usedRegs_lt h0.fresh
  rw [← hregused] at hcard
  refine ((alloc_reg_inBlocks g6).ends hcard).bind_pure fun n g' ⟨hn, h'⟩ => ?_
  rw [hregused] at hn
  have hblocks : g'.blocks = g2.blocks :=
    h'.blocks.trans (h6.blocks.trans (h5.blocks.trans (h4.blocks.trans h3.blocks)))
  refine .done rfl ⟨hn, h'.regused.trans (hregused ▸ rfl),
    hblocks ▸ h0.checked.append h1.checked.grows, ?_, fun s hs => ?_, fun input hinput r => ?_⟩
    (Nat.le_refl _)
  · have hpaid := (((h0.paid.trans h1.paid).stmts (m := 3) h3).assigned h4).assigned h5
    simp only [List.length_append, ← Nat.add_assoc]
    exact (hpaid.stmts (m := 1) h6).assigned h'
  · simp only [List.mem_append, List.mem_cons, List.not_mem_nil, or_false] at hs
    rcases hs with (hs | hs | rfl | rfl | rfl) | rfl
    · exact h0.safe s hs
    · exact h1.safe s hs
    · exact safe_xfer_to_x a1
    · exact safe_xfer_to_a a0
    · exact Stmt.plain_accepted hop (by cases code <;> exact trivial)
    · exact safe_storeIn n
  · rw [List.map_append, List.map_append, List.map_append]
    refine reads_store hn (h0.reads_both h1 hinput r fun r' hframe => ?_)
    refine .cons (exec_xfer_to_x _ _ a1) (.cons (exec_xfer_to_a _ _ a0) ?_)
    rw [← bind_pure (applied code _ _)]
    refine .cons_look (fun x => { r' with A := x, X := r'.mem a1.regno }) ?_
      fun x _ => .nil ⟨rfl, hframe⟩
    rw [exec_alu]
    rcases applied code (r'.mem a0.regno) (r'.mem a1.regno) with (e | v) | x <;> rfl

end Arith

/-! Loads from the packet. -/

theorem firstFragment_generates :
    Generates 1 gen_ipfrag fun input => Needs.firstFragment.holds input := by
  refine gen_ipfrag_generates.congr fun input => ?_
  rw [fieldIs_eq .OR_LINKPL rfl, Needs.holds, notLaterFragment]
  show Look.not (field input 20 .H >>= _) = field input 20 .H >>= _
  rcases field input 20 .H with o | f
  · rfl
  · show Except.ok (!decide (f &&& 0x1fff ≠ 0)) =
      if f &&& 0x1fff ≠ 0 then Except.ok false else Except.ok true
    by_cases hf : f &&& 0x1fff ≠ 0
    · rw [if_pos hf, decide_eq_true hf]
      rfl
    · rw [if_neg hf, decide_eq_false hf]
      rfl

theorem gen_and_inBlocks (b0 b1 : Nat) (g : GenState) :
    InBlocks 0 g (gen_and b0 b1 g) fun _ g' =>
      Connected g g' ∧ g'.blocks = g.blocks.gen_and b0 b1 :=
  .done rfl ⟨⟨.gen_and _ b0 b1, rfl, rfl⟩, rfl⟩ (Nat.le_refl _)

theorem gen_not_inBlocks (b : Nat) (g : GenState) :
    InBlocks 0 g (gen_not b g) fun _ g' =>
      Connected g g' ∧ g'.blocks = g.blocks.flipSense b :=
  .done rfl ⟨⟨(Blocks.Reconnected.refl _).flipSense b, rfl, rfl⟩, rfl⟩ (Nat.le_refl _)

/-- The checks that there are in front of a test. -/
theorem andCheck_inBlocks {h h1 : Blocks} {check : Option Nat} {cs : List Needs}
    (hc : CheckedBy h h1 check cs) {g : GenState} {b : Nat} {v : Input → Read Bool}
    (hb : Codes h1 g.blocks b v) :
    InBlocks 0 g (andCheck check b g) fun _ g' => Connected g g' ∧
      Codes h g'.blocks b fun input => (allHold input cs).and (v input) := by
  cases hc with
  | none grows => exact .done rfl ⟨.refl g, hb.prepend grows⟩ (Nat.le_refl _)
  | @some c _ codes =>
    refine (gen_and_inBlocks c b g).imp fun _ g' ⟨hconnected, hand⟩ => ⟨hconnected, ?_⟩
    rw [hand]
    exact codes.and hb

/-- A load relative to the value of the index: its code, and the checks that go with it. -/
structure Loads (a : Arth) (size : Size) (base : Base) (h : Blocks) (g g' : GenState)
    (s : List Stmt) (check : Option Nat) (cs : List Needs) : Prop where
  regused : g'.regused = g.regused
  checked : CheckedBy h g'.blocks check cs
  paid : PaidWith s.length g g'
  safe : ∀ t ∈ s, t.Plain ∧ t.Accepted
  reads : ∀ input : Input, input.Holds → ∀ r : Regs, Reads (Filter.exec input) (s.map Stmt.insn) r
    (indexed input base (r.mem a.regno) size) fun x r' => r'.A = x ∧ r'.mem = r.mem

section Load

variable {h : Blocks} {g : GenState} {a : Arth} {cs : List Needs} {proto : Proto}

theorem gen_load_link_loads (hchecked : CheckedBy h g.blocks a.b cs) (size : Size) :
    InBlocks 1 g (gen_load_proto .Q_LINK a size g) fun r g' =>
      Loads a size .link h g g' r.1 r.2 cs := by
  have hind : decode (BPF_LD ||| BPF_IND ||| size.code) = some (.LD_IND size) := by
    cases size <;> decide
  refine (new_stmts_inBlocks 2 rfl (by decide) g).bind_pure fun _ g' h' => ?_
  refine .done rfl ⟨h'.regused, h'.blocks ▸ hchecked, (PaidWith.refl g).stmts h', fun t ht => ?_,
    fun input hinput r => ?_⟩ (Nat.le_refl _)
  · rcases List.mem_pair.mp ht with rfl | rfl
    · exact safe_xfer_to_x a
    · exact Stmt.plain_accepted hind trivial
  · refine .cons (exec_xfer_to_x input r a) ?_
    rw [indexed, ← bind_pure (field _ _ _)]
    exact reads_ld_ind hinput fun x => .nil ⟨rfl, rfl⟩

theorem gen_load_network_loads (hchecked : CheckedBy h g.blocks a.b cs)
    (hproto : Generates 18 (gen_proto_abbrev proto) fun input => (Needs.proto proto).holds input)
    (size : Size) :
    InBlocks 19 g (gen_load_network proto a size g) fun r g' =>
      Loads a size .network h g g' r.1 r.2 (cs ++ [.proto proto]) := by
  have hind : decode (BPF_LD ||| BPF_IND ||| size.code) = some (.LD_IND size) := by
    cases size <;> decide
  refine ((new_stmts_inBlocks 2 rfl (by decide) g).bind fun _ g1 h1 => ?_).le
    (show 1 + 18 ≤ 19 by decide)
  refine (hproto g1).bind_pure fun b g2 h2 => ?_
  rw [← h1.blocks] at hchecked
  refine (andCheck_inBlocks hchecked h2.codes).bind_pure fun _ g' ⟨h', hcodes⟩ => ?_
  refine .done rfl ⟨h'.regused.trans (h2.regused.trans h1.regused), .some ?_, ?_, fun t ht => ?_,
    fun input hinput r => ?_⟩ (Nat.le_refl _)
  · refine hcodes.congr fun input => ?_
    rw [allHold_append, allHold, allHold, Look.and_true]
  · exact (((PaidWith.refl g).stmts (m := 2) h1).trans h2.paid).connected h'
  · rcases List.mem_pair.mp ht with rfl | rfl
    · exact safe_xfer_to_x a
    · exact Stmt.plain_accepted hind trivial
  · refine .cons (exec_xfer_to_x input r a) ?_
    rw [indexed, ← bind_pure (field _ _ _)]
    exact reads_ld_ind hinput fun x => .nil ⟨rfl, rfl⟩

theorem gen_load_transport_loads (hchecked : CheckedBy h g.blocks a.b cs)
    (hproto : Generates 18 (gen_proto_abbrev proto) fun input => (Needs.proto proto).holds input)
    (size : Size) :
    InBlocks 21 g (gen_load_transport proto a size g) fun r g' =>
      Loads a size .transport h g g' r.1 r.2
        (.proto .Q_IP :: (cs ++ [.proto proto, .firstFragment])) := by
  have hip : Generates 1 (gen_proto_abbrev .Q_IP) fun input => (Needs.proto .Q_IP).holds input :=
    gen_ether_linktype_generates ETHERTYPE_IP
  have hind : decode (BPF_LD ||| BPF_IND ||| size.code) = some (.LD_IND size) := by
    cases size <;> decide
  have hadd : decode (BPF_ALU ||| BPF_ADD ||| BPF_X) = some (.ALU .ADD .X) := by decide
  have htax : decode (BPF_MISC ||| BPF_TAX) = some .TAX := by decide
  have hmsh : decode (BPF_LDX ||| BPF_MSH ||| BPF_B) = some .LDX_MSH := by decide
  refine ((new_stmts_inBlocks 5 rfl (by decide) g).bind fun _ g1 h1 => ?_).le
    (show 1 + (18 + (1 + (0 + (0 + (1 + 0))))) ≤ 21 by decide)
  refine (hproto g1).bind fun b0 g2 h2 => ?_
  refine (firstFragment_generates g2).bind fun b g3 h3 => ?_
  refine (gen_and_inBlocks b0 b g3).bind fun _ g4 ⟨h4, hand4⟩ => ?_
  have hcodes4 := h2.codes.and h3.codes
  rw [← hand4] at hcodes4
  rw [← h1.blocks] at hchecked
  refine (andCheck_inBlocks hchecked hcodes4).bind fun _ g5 ⟨h5, hcodes5⟩ => ?_
  refine (hip g5).bind fun b2 g6 h6 => ?_
  refine (gen_and_inBlocks b2 b g6).bind_pure fun _ g' ⟨h', hand'⟩ => ?_
  have hcodes := hcodes5.and_rev h6.codes
  rw [← hand'] at hcodes
  refine .done rfl ⟨?_, .some ?_, ?_, fun t ht => ?_, fun input hinput r => ?_⟩ (Nat.le_refl _)
  · rw [h'.regused, h6.regused, h5.regused, h4.regused, h3.regused, h2.regused, h1.regused]
  · refine hcodes.congr fun input => ?_
    simp only [allHold, allHold_append, Look.and_true]
  · have hpaid := (((PaidWith.refl g).stmts (m := 5) h1).trans h2.paid).trans h3.paid
    exact ((((hpaid.connected h4).connected h5).trans h6.paid).connected h')
  · simp only [gen_loadx_iphdrlen, List.mem_append, List.mem_cons, List.not_mem_nil, or_false] at ht
    rcases ht with rfl | rfl | rfl | rfl | rfl
    · exact Stmt.plain_accepted hmsh trivial
    · exact safe_xfer_to_a a
    · exact Stmt.plain_accepted hadd trivial
    · exact Stmt.plain_accepted htax trivial
    · exact Stmt.plain_accepted hind trivial
  · rw [List.map_append]
    refine reads_ldx_msh hinput fun x hx => ?_
    refine .cons (exec_xfer_to_a _ _ a) ?_
    have halu : Filter.exec input (Stmt.insn ⟨BPF_ALU ||| BPF_ADD ||| BPF_X, 0⟩)
        { r with A := r.mem a.regno, X := x } =
        .ok (.jump 0 { r with A := r.mem a.regno + x, X := x }) := by
      rw [exec_of_decode hadd]
      rfl
    have hxfer : Filter.exec input (Stmt.insn ⟨BPF_MISC ||| BPF_TAX, 0⟩)
        { r with A := r.mem a.regno + x, X := x } =
        .ok (.jump 0 { r with A := r.mem a.regno + x, X := r.mem a.regno + x }) := by
      rw [exec_of_decode htax]
      rfl
    refine .cons halu (.cons hxfer ?_)
    rw [← bind_pure (field _ _ _), BitVec.ofNat_toNat, BitVec.setWidth_eq]
    exact reads_ld_ind hinput fun y => .nil ⟨rfl, rfl⟩

theorem gen_load_proto_loads (hchecked : CheckedBy h g.blocks a.b cs) {base : Base}
    (hbase : proto.base = some base) (size : Size) :
    InBlocks 21 g (gen_load_proto proto a size g) fun r g' =>
      Loads a size base h g g' r.1 r.2 (loadChecks proto cs) := by
  have hproto := gen_proto_abbrev_does proto
  cases proto with
  | Q_LINK =>
    cases hbase
    exact (gen_load_link_loads hchecked size).le (by decide)
  | Q_IP | Q_ARP | Q_RARP | Q_ATALK | Q_SCA | Q_LAT | Q_MOPRC | Q_MOPDL | Q_IPV6 =>
    cases hbase
    exact (gen_load_network_loads hchecked hproto size).le (by decide)
  | Q_SCTP | Q_TCP | Q_UDP | Q_ICMP | Q_IGMP | Q_IGRP | Q_PIM | Q_VRRP | Q_CARP =>
    cases hbase
    exact gen_load_transport_loads hchecked hproto size
  | _ => cases hbase

/-- Without a base the load is refused. -/
theorem gen_load_proto_error (hbase : proto.base = none) (size : Size) :
    ∃ message, ∀ g, gen_load_proto proto a size g = .error (.error message) := by
  cases proto <;> cases hbase <;> exact ⟨_, fun _ => rfl⟩

end Load

theorem gen_load_inBlocks {index : ArthExpr} {g g1 : GenState} {a : Arth}
    (ha : Computes index g g1 a) (hfits : index.Fits g) (proto : Proto) (size : UInt) :
    InBlocksIf ((ArthExpr.load proto index size).Fits g) 22 g1 (gen_load proto a size g1)
      fun a' g' => Computes (.load proto index size) g g' a' := by
  have hcard := card_usedRegs_update ha.fresh
  rw [← ha.regused] at hcard
  refine ((alloc_reg_inBlocks g1).bind (fun hp => ?_) fun hp n g2 ⟨hn, h2⟩ => ?_).le
    (show 0 + (0 + 22) ≤ 22 by decide)
  · have hregisters := hp.2
    simp only [ArthExpr.registers] at hregisters
    omega
  refine .after (free_reg_inBlocks a.regno g2) fun _ g3 h3 => ?_
  have hne : n ≠ a.regno := fun heq => by
    rw [ha.regused, heq, Function.update_self] at hn
    cases hn
  have hregused : g3.regused = Function.update g.regused n true := by
    rw [h3.regused, h2.regused, Function.update_comm hne, ha.regused, update_update_false ha.fresh]
  rw [ha.regused, Function.update_of_ne hne] at hn
  have hblocks : g3.blocks = g1.blocks := h3.blocks.trans h2.blocks
  rcases hsize : loadSize size with _ | size'
  · exact .message (fun hp => hp.1.2.2 hsize) _
  rcases hbase : proto.base with _ | base
  · obtain ⟨message, herror⟩ := gen_load_proto_error (a := a) hbase size'
    refine ⟨fun hp => absurd hbase hp.1.2.1, fun _ => ⟨message, ?_⟩⟩
    simp only [bind, StateT.bind, herror, Except.bind]
  have hchecked : CheckedBy g.blocks g3.blocks a.b index.kept := hblocks ▸ ha.checked
  refine .of ⟨⟨hfits.1, by simp [hbase], by simp [hsize]⟩, ?_⟩ ?_
  · have := hfits.2
    simp only [ArthExpr.registers]
    omega
  dsimp only
  refine ((gen_load_proto_loads hchecked hbase size').bind fun ⟨s, check⟩ g4 h4 => ?_).le
    (show 21 + 1 ≤ 22 by decide)
  refine (new_stmts_inBlocks 1 rfl (by decide) g4).bind_pure fun _ g' h' => ?_
  refine .done rfl ⟨hn, ?_, h'.blocks ▸ h4.checked, ?_, fun t ht => ?_, fun input hinput r => ?_⟩
    (Nat.le_refl _)
  · rw [h'.regused, h4.regused, hregused]
  · have hpaid := (ha.paid.assigned h2).assigned h3
    simp only [List.length_append]
    exact (hpaid.trans h4.paid).stmts (m := 1) h'
  · simp only [List.mem_append, List.mem_singleton] at ht
    rcases ht with (ht | ht) | rfl
    · exact ha.safe t ht
    · exact h4.safe t ht
    · exact safe_storeIn n
  · rw [List.map_append, List.map_append]
    refine reads_store hn ?_
    simp only [ArthExpr.value, hbase, hsize]
    refine (ha.reads input hinput r).append fun x r' ⟨hx, hframe⟩ => ?_
    rw [← hx]
    refine (h4.reads input hinput r').imp fun y r'' ⟨hy, hmem⟩ => ⟨hy, fun i hi => ?_⟩
    rw [hmem]
    exact hframe i hi

/-- The code for an expression computes its value; it is generated exactly when the expression is
well formed and needs no more registers than are left. -/
theorem ArthExpr.gen_generated (e : ArthExpr) (g : GenState) : Generated e g (e.gen g) := by
  induction e generalizing g with
  | num val => exact generated_num val g
  | len => exact generated_len g
  | neg a ih =>
    exact ((ih g).before fun a' g1 h1 => gen_neg_inBlocks h1).le (by simp only [terms]; omega)
  | arth code a0 a1 ih0 ih1 =>
    refine ((ih0 g).bind (fun h => ⟨h.1.1, ?_⟩) fun hfits0 b0 g1 h0 => ?_).le
      (show 22 * a0.terms + (22 * a1.terms + 2) ≤ 22 * (a0.terms + a1.terms + 1) by omega)
    · have := h.2
      simp only [registers] at this
      omega
    have hcard := card_usedRegs_update h0.fresh
    rw [← h0.regused] at hcard
    refine (ih1 g1).congr (q := (arth code a0 a1).Fits g) ⟨fun h => ⟨⟨hfits0.1, h.1⟩, ?_⟩,
      fun h => ⟨h.1.2, ?_⟩⟩ |>.before fun b1 g2 h1 => gen_arth_inBlocks code h0 h1
    · have := hfits0.2
      have := h.2
      simp only [registers]
      omega
    · have := h.2
      simp only [registers] at this
      omega
  | load proto index size ih =>
    refine ((ih g).bind (fun h => ⟨h.1.1, ?_⟩) fun hfits a g1 ha =>
      gen_load_inBlocks ha hfits proto size).le (show _ ≤ 22 * (index.terms + 1) by omega)
    have := h.2
    simp only [registers] at this
    omega

/-! Relations. -/

/-- A relation as the parser has it: the two sides, and whether it is turned over. -/
structure Relation where
  code : Test
  reversed : Bool
  a0 : ArthExpr
  a1 : ArthExpr
  deriving DecidableEq, Repr

namespace Relation

/-- The calls of the parser. -/
def gen (r : Relation) : Gen Nat := do
  let a0 ← r.a0.gen
  let a1 ← r.a1.gen
  gen_relation r.code a0 a1 r.reversed

/-- The checks of both sides in front of the comparison of the values. -/
def meaning (checks : ArthExpr → List Needs) (r : Relation) (input : Input) : Read Bool :=
  (allHold input (checks r.a0 ++ checks r.a1)).and do
    let x0 ← r.a0.value input
    let x1 ← r.a1.value input
    return Filter.holds x0 x1 r.code ^^ r.reversed

/-- The registers suffice for both sides. -/
def Supported (r : Relation) : Prop :=
  r.a0.WellFormed ∧ r.a1.WellFormed ∧ max r.a0.registers (r.a1.registers + 1) ≤ BPF_MEMWORDS

instance (r : Relation) : Decidable r.Supported := inferInstanceAs (Decidable (_ ∧ _ ∧ _))

def terms (r : Relation) : Nat := r.a0.terms + r.a1.terms

def KeepsChecks (r : Relation) : Prop := r.a0.KeepsChecks ∧ r.a1.KeepsChecks

instance (r : Relation) : Decidable r.KeepsChecks := inferInstanceAs (Decidable (_ ∧ _))

theorem meaning_kept {r : Relation} (h : r.KeepsChecks) :
    r.meaning ArthExpr.kept = r.meaning ArthExpr.checks := by
  funext input
  rw [meaning, meaning, allHold_append, allHold_append, ArthExpr.allHold_kept h.1,
    ArthExpr.allHold_kept h.2]

end Relation

theorem andChecks_inBlocks {h h1 h2 : Blocks} {check0 check1 : Option Nat} {cs0 cs1 : List Needs}
    (hc0 : CheckedBy h h1 check0 cs0) (hc1 : CheckedBy h1 h2 check1 cs1) {g : GenState} {b : Nat}
    {v : Input → Read Bool} (hb : Codes h2 g.blocks b v) :
    InBlocks 0 g (andChecks check0 check1 b g) fun _ g' => Connected g g' ∧
      Codes h g'.blocks b fun input => (allHold input (cs0 ++ cs1)).and (v input) := by
  cases hc0 with
  | none grows0 =>
    have hlater := hc1.prepend grows0
    cases hc1 with
    | none _ => exact andCheck_inBlocks hlater hb
    | some _ => exact andCheck_inBlocks hlater hb
  | @some c0 _ codes0 =>
    cases hc1 with
    | none grows1 =>
      rw [List.append_nil]
      exact andCheck_inBlocks (.some (codes0.append grows1)) hb
    | @some c1 _ codes1 =>
      refine (gen_and_inBlocks c0 c1 g).bind_pure fun _ g1 ⟨h1, hand1⟩ => ?_
      refine (gen_and_inBlocks c1 b g1).imp fun _ g' ⟨h', hand'⟩ => ⟨h1.trans h', ?_⟩
      rw [hand', hand1]
      refine (codes0.and_and codes1 hb).congr fun input => ?_
      rw [allHold_append]

section Relation

variable {e0 e1 : ArthExpr} {g g1 g2 : GenState} {a0 a1 : Arth}

/-- The comparison by a subtraction. -/
theorem codes_equal (h0 : Computes e0 g g1 a0) (h1 : Computes e1 g1 g2 a1) (h : Blocks) :
    Codes h (h.withTest (a0.s ++ (a1.s ++ [xfer_to_x a1, xfer_to_a a0,
      ⟨BPF_ALU ||| BPF_SUB ||| BPF_X, 0⟩])) ⟨JMP BPF_JEQ, 0⟩) h.next fun input => do
        let x0 ← e0.value input
        let x1 ← e1.value input
        return Filter.holds x0 x1 .JEQ := by
  have hsub : decode (BPF_ALU ||| BPF_SUB ||| BPF_X) = some (.ALU .SUB .X) := by decide
  have hbranch : decode (JMP BPF_JEQ) = some (.JMP .JEQ .K) := by decide
  refine .test h hbranch (fun s hs => ?_) fun input hinput r => ?_
  · simp only [List.mem_append, List.mem_cons, List.not_mem_nil, or_false] at hs
    rcases hs with hs | hs | rfl | rfl | rfl
    · exact h0.safe s hs
    · exact h1.safe s hs
    · exact safe_xfer_to_x a1
    · exact safe_xfer_to_a a0
    · exact Stmt.plain_accepted hsub trivial
  · rw [List.map_append, List.map_append]
    refine h0.reads_both h1 hinput r fun r' _ => ?_
    have hexec : Filter.exec input (Stmt.insn ⟨BPF_ALU ||| BPF_SUB ||| BPF_X, 0⟩)
        { r' with A := r'.mem a0.regno, X := r'.mem a1.regno } = .ok (.jump 0 { r' with
          A := r'.mem a0.regno - r'.mem a1.regno, X := r'.mem a1.regno }) := by
      rw [exec_of_decode hsub]
      rfl
    refine .cons (exec_xfer_to_x _ _ a1) (.cons (exec_xfer_to_a _ _ a0) (.cons hexec (.nil ?_)))
    have hzero : r'.mem a0.regno - r'.mem a1.regno = 0#32 ↔ r'.mem a0.regno = r'.mem a1.regno := by
      bv_omega
    exact decide_eq_decide.mpr hzero

/-- The comparison with the index register. -/
theorem codes_compared (h0 : Computes e0 g g1 a0) (h1 : Computes e1 g1 g2 a1) (code : Test)
    (h : Blocks) :
    Codes h (h.withTest (a0.s ++ (a1.s ++ [xfer_to_x a1, xfer_to_a a0]))
      ⟨BPF_JMP ||| code.code ||| BPF_X, 0⟩) h.next fun input => do
        let x0 ← e0.value input
        let x1 ← e1.value input
        return Filter.holds x0 x1 code := by
  have hbranch : decode (BPF_JMP ||| code.code ||| BPF_X) = some (.JMP code .X) := by
    cases code <;> decide
  refine .test h hbranch (fun s hs => ?_) fun input hinput r => ?_
  · simp only [List.mem_append, List.mem_cons, List.not_mem_nil, or_false] at hs
    rcases hs with hs | hs | rfl | rfl
    · exact h0.safe s hs
    · exact h1.safe s hs
    · exact safe_xfer_to_x a1
    · exact safe_xfer_to_a a0
  · rw [List.map_append, List.map_append]
    refine h0.reads_both h1 hinput r fun r' _ => ?_
    exact .cons (exec_xfer_to_x _ _ a1) (.cons (exec_xfer_to_a _ _ a0) (.nil rfl))

theorem gen_comparison_inBlocks (h0 : Computes e0 g g1 a0) (h1 : Computes e1 g1 g2 a1)
    (code : Test) :
    InBlocks 2 g2 (gen_comparison code a0 a1 g2) fun b g' =>
      g'.regused = g2.regused ∧ Paid g g' ∧ Codes g2.blocks g'.blocks b fun input => do
        let x0 ← e0.value input
        let x1 ← e1.value input
        return Filter.holds x0 x1 code := by
  have hpaid := h0.paid.trans h1.paid
  rw [gen_comparison]
  by_cases hcode : code = .JEQ
  · subst hcode
    rw [if_pos rfl]
    refine ((new_stmts_inBlocks 3 rfl (by decide) g2).bind fun _ g3 h3 => ?_).le
      (show 1 + 1 ≤ 2 by decide)
    refine (gen_block_inBlocks _ _ g3).imp fun b g' h' => ?_
    refine ⟨h'.regused.trans h3.regused, (hpaid.stmts (m := 3) h3).withTest ?_ h', ?_⟩
    · simp only [List.length_append, List.length_cons, List.length_nil, Nat.add_assoc]
    · rw [h'.index, h'.blocks, h3.blocks]
      exact codes_equal h0 h1 g2.blocks
  · rw [if_neg hcode]
    refine ((new_stmts_inBlocks 2 rfl (by decide) g2).bind fun _ g3 h3 => ?_).le
      (show 1 + 1 ≤ 2 by decide)
    refine (gen_block_inBlocks _ _ g3).imp fun b g' h' => ?_
    refine ⟨h'.regused.trans h3.regused, (hpaid.stmts (m := 2) h3).withTest ?_ h', ?_⟩
    · simp only [List.length_append, List.length_cons, List.length_nil, Nat.add_assoc]
    · rw [h'.index, h'.blocks, h3.blocks]
      exact codes_compared h0 h1 code g2.blocks

theorem gen_relation_inBlocks (h0 : Computes e0 g g1 a0) (h1 : Computes e1 g1 g2 a1) (code : Test)
    (reversed : Bool) :
    InBlocks 2 g2 (gen_relation code a0 a1 reversed g2) fun b g' =>
      Coded g g' b (Relation.meaning ArthExpr.kept ⟨code, reversed, e0, e1⟩) := by
  refine (gen_comparison_inBlocks h0 h1 code).bind_pure fun b g3 ⟨hregs3, hpaid3, hcodes3⟩ => ?_
  have hlater : ∀ g4, Connected g3 g4 → (Codes g2.blocks g4.blocks b fun input => do
        let x0 ← e0.value input
        let x1 ← e1.value input
        return Filter.holds x0 x1 code ^^ reversed) →
      InBlocks 0 g4 ((do
        free_reg a0.regno
        free_reg a1.regno
        andChecks a0.b a1.b b
        return b : Gen Nat) g4) fun b g' =>
        Coded g g' b (Relation.meaning ArthExpr.kept ⟨code, reversed, e0, e1⟩) := by
    intro g4 h4 hcodes4
    refine (free_reg_inBlocks a0.regno g4).bind_pure fun _ g5 h5 => ?_
    refine (free_reg_inBlocks a1.regno g5).bind_pure fun _ g6 h6 => ?_
    rw [← h5.blocks, ← h6.blocks] at hcodes4
    refine (andChecks_inBlocks h0.checked h1.checked hcodes4).bind_pure fun _ g' ⟨h', hcodes⟩ => ?_
    refine .done rfl ⟨?_, hcodes, ?_⟩ (Nat.le_refl _)
    · rw [h'.regused, h6.regused, h5.regused, h4.regused, hregs3, h0.regused_freed h1]
    · exact (((hpaid3.connected h4).assigned h5).assigned h6).connected h'
  cases reversed with
  | false =>
    exact hlater g3 (.refl g3) (hcodes3.congr fun input => by simp only [Bool.xor_false])
  | true =>
    refine (gen_not_inBlocks b g3).bind_pure fun _ g4 ⟨h4, hnot⟩ => hlater g4 h4 ?_
    rw [hnot]
    refine hcodes3.not.congr fun input => ?_
    simp only [Look.not, bind_assoc, pure_bind, Bool.xor_true]

/-- A relation is generated exactly when its loads are well formed and the registers suffice. -/
theorem Relation.gen_inBlocks (r : Relation) {g : GenState} (hg : ∀ n, g.regused n = false) :
    InBlocksIf r.Supported (22 * r.terms + 2) g (r.gen g) fun b g' =>
      Coded g g' b (r.meaning ArthExpr.kept) := by
  have hnone : (usedRegs g.regused).card = 0 := by
    rw [usedRegs, Finset.filter_false_of_mem fun n _ => by rw [hg]; exact Bool.false_ne_true]
    rfl
  refine ((r.a0.gen_generated g).bind (fun h => ⟨h.1, ?_⟩) fun hfits0 b0 g1 h0 => ?_).le
    (show 22 * r.a0.terms + (22 * r.a1.terms + 2) ≤ 22 * (r.a0.terms + r.a1.terms) + 2 by omega)
  · have := h.2.2
    omega
  have hcard := card_usedRegs_update h0.fresh
  rw [← h0.regused] at hcard
  have h1 := (r.a1.gen_generated g1).congr (q := r.Supported)
    ⟨fun h => ⟨hfits0.1, h.1, ?_⟩, fun h => ⟨h.2.1, ?_⟩⟩
  · exact h1.before fun b1 g2 h1 => gen_relation_inBlocks h0 h1 r.code r.reversed
  · have := hfits0.2
    have := h.2
    omega
  · have := h.2.2
    omega

end Relation

end Bpf

end Jxnet
