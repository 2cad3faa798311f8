import Jxnet.Bpf.Convert
import Jxnet.Bpf.Validate

namespace Jxnet

open Java JumpMachine ShortCircuit

namespace Bpf

/-- A statement goes on with the next one. -/
def Stmt.Plain (s : Stmt) : Prop := ∃ op, decode s.code = some op ∧ ¬Filter.Op.Jumps op

/-- A test has plain statements and ends in a conditional jump. -/
structure BlockTest.Plain (t : BlockTest) : Prop where
  stmts : ∀ s ∈ t.stmts, s.Plain
  branch : ∃ test source, decode t.s.code = some (.JMP test source)

theorem Stmt.Plain.straight {s : Stmt} (hs : s.Plain) (input : Input) :
    Straight (Filter.exec input) s.insn := by
  obtain ⟨op, hop, hjumps⟩ := hs
  have hcode : decode s.insn.code = some op := hop
  intro data data' offset he
  rcases Filter.exec_jump_cases he with ⟨h0, -⟩ | ⟨hja, -⟩ | ⟨test, source, hjmp, -⟩
  · exact h0
  · rw [hcode] at hja
    cases hja
    exact absurd trivial hjumps
  · rw [hcode] at hjmp
    cases hjmp
    exact absurd trivial hjumps

/-- The answer of a test, or what broke its statements off. -/
theorem BlockTest.run_cases (input : Input) {t : BlockTest} {test : Test} {source : Source}
    (hbranch : decode t.s.code = some (.JMP test source)) (r : Regs) :
    (∃ e, runLine (Filter.exec input) (t.stmts.map Stmt.insn) r = .error e ∧
        t.run input r = .error e) ∨
      (∃ v, runLine (Filter.exec input) (t.stmts.map Stmt.insn) r = .ok (.halt v) ∧
        t.run input r = .ok (.halt v)) ∨
      ∃ r', runLine (Filter.exec input) (t.stmts.map Stmt.insn) r = .ok (.data r') ∧
        t.run input r =
          .ok (.answer (Filter.holds r'.A (source.operand r' t.s.insn) test) r') := by
  rw [BlockTest.run]
  rcases runLine (Filter.exec input) (t.stmts.map Stmt.insn) r with e | (v | r')
  · exact .inl ⟨e, rfl, rfl⟩
  · exact .inr (.inl ⟨v, rfl, rfl⟩)
  · exact .inr (.inr ⟨r', rfl, by simp only [hbranch]⟩)

namespace Blocks

namespace Layout

variable {total : Nat} {h : Blocks} {order : List Nat} {ftail : List Insn}

/-- Where a block of the layout lies. -/
theorem offset_bounds (hl : h.Layout total order ftail) {i : Nat} (hi : i ∈ order) :
    total ≤ (h.block i).offset + ftail.length ∧ (h.block i).offset + h.size i ≤ total := by
  induction hl with
  | nil => cases hi
  | cons rest new succ code_eq offset ih =>
    rw [List.length_append] at offset ⊢
    have hsize := length_blockCode code_eq
    rcases List.mem_cons.mp hi with rfl | hi
    · omega
    · have := ih hi
      omega

/-- The blocks that a branch leads to lie behind the block. -/
theorem offset_le_of_leads (hl : h.Layout total order ftail) {i j : Nat} (hi : i ∈ order)
    (hij : h.Leads i j) :
    (h.block i).offset + h.size i ≤ (h.block j).offset ∧ (h.block j).offset ≤ total := by
  induction hl with
  | nil => cases hi
  | cons rest new succ code_eq offset ih =>
    rcases List.mem_cons.mp hi with rfl | hi
    · have hj := rest.offset_bounds (succ j hij)
      have hsize := length_blockCode code_eq
      rw [List.length_append] at offset
      omega
    · exact ih hi

/-- The code of every block stands at its offset. -/
theorem codeAt (hl : h.Layout total order ftail) (pre : List Insn)
    (hpre : pre.length + ftail.length = total) {i : Nat} (hi : i ∈ order) :
    ∃ code, h.blockCode i = some code ∧ CodeAt (pre ++ ftail) (h.block i).offset code := by
  induction hl generalizing pre with
  | nil => cases hi
  | @cons p order code ftail rest new succ code_eq offset ih =>
    rcases List.mem_cons.mp hi with rfl | hi
    · refine ⟨code, code_eq, ?_⟩
      have hlength : (h.block i).offset = pre.length := by omega
      rw [CodeAt, hlength, List.drop_left]
      exact List.prefix_append code ftail
    · have := ih (pre ++ code) (by
        rw [List.length_append] at hpre ⊢
        omega) hi
      rwa [List.append_assoc] at this

end Layout

/-- A branch offset in a layout is what it says: not negative and not wrapped around. -/
theorem toNat_branchOffset {h : Blocks} {total i j : Nat} {order : List Nat} {ftail : List Insn}
    (hl : h.Layout total order ftail) (hi : i ∈ order) (hij : h.Leads i j)
    (htotal : total < 2 ^ 31) :
    (h.block i).offset + (h.block i).stmts.length + 1 + (h.branchOffset i j).toNat =
      (h.block j).offset := by
  have hle := hl.offset_le_of_leads hi hij
  simp only [size, slength] at hle
  rw [branchOffset, BitVec.toNat_ofInt, slength]
  omega

end Blocks

/-- A jump field takes the run from behind the branch to `off` instructions further, perhaps by a
jump in between. -/
theorem jumpField_leads (input : Input) {program : List Insn} {n long extrajmps : Nat} {off : UInt}
    {dst : BitVec 8} {extra : List Insn} (h : jumpField long off extrajmps = some (dst, extra))
    (hextra : CodeAt program (n + extrajmps) extra) (hoff : off.toNat < 2 ^ 31)
    (hjumps : extrajmps < 2) (r : Regs) :
    ∃ k, Loop.Leads (pass (Filter.exec input) program) k ⟨(n : Int) + dst.toNat, r⟩
      ⟨(n : Int) + off.toNat, r⟩ := by
  rw [jumpField] at h
  split at h
  · rename_i hlong
    split at h
    · cases h
    · cases h
      have hk : (off - BitVec.ofNat 32 (extrajmps + 1)).toNat = off.toNat - (extrajmps + 1) := by
        rw [BitVec.le_def] at hlong
        have : (256 : UInt).toNat = 256 := rfl
        rw [BitVec.toNat_sub, BitVec.toNat_ofNat]
        omega
      have hint : (off - BitVec.ofNat 32 (extrajmps + 1)).toInt =
          (off.toNat : Int) - (extrajmps + 1) := by
        rw [BitVec.le_def] at hlong
        have : (256 : UInt).toNat = 256 := rfl
        rw [BitVec.toInt_eq_toNat_cond, hk]
        split <;> omega
      have hdst : (BitVec.ofNat 8 extrajmps).toNat = extrajmps := by
        rw [BitVec.toNat_ofNat]
        omega
      refine ⟨1, .one ?_⟩
      have hja : Filter.exec input (BPF_STMT (BPF_JMP ||| BPF_JA)
          (off - BitVec.ofNat 32 (extrajmps + 1))) r =
            .ok (.jump (off - BitVec.ofNat 32 (extrajmps + 1)).toInt r) := rfl
      have hpc : ((n + extrajmps : Nat) : Int) + 1 +
          (off - BitVec.ofNat 32 (extrajmps + 1)).toInt = (n : Int) + off.toNat := by
        rw [hint]
        omega
      rw [hdst, ← Int.natCast_add, ← hpc]
      exact pass_of_jump (s := ⟨((n + extrajmps : Nat) : Int), r⟩) hextra.fetch_head hja
  · rename_i hlt
    cases h
    have hdst : (off.setWidth 8).toNat = off.toNat := by
      rw [BitVec.not_le, BitVec.lt_def] at hlt
      have : (256 : UInt).toNat = 256 := rfl
      rw [BitVec.toNat_setWidth]
      omega
    rw [hdst]
    exact ⟨0, .refl _⟩

theorem length_lt_of_jumpField {long extrajmps : Nat} {off : UInt} {dst : BitVec 8}
    {extra : List Insn} (h : jumpField long off extrajmps = some (dst, extra)) :
    extra.length < 2 := by
  rw [jumpField] at h
  split at h
  · split at h
    · cases h
    · cases h
      exact Nat.lt_succ_self 1
  · cases h
    exact Nat.two_pos

namespace Blocks

/-- The code of a block that branches. -/
theorem blockCode_branch {h : Blocks} {i a b : Nat} {code : List Insn}
    (hcode : h.blockCode i = some code) (ha : (h.block i).jt = some a)
    (hb : (h.block i).jf = some b) :
    ∃ dst_jt extra_t dst_jf extra_f pad,
      jumpField (h.block i).longjt (h.branchOffset i a) 0 = some (dst_jt, extra_t) ∧
      jumpField (h.block i).longjf (h.branchOffset i b) extra_t.length = some (dst_jf, extra_f) ∧
      code = (h.block i).stmts.map Stmt.insn ++
        ([⟨(h.block i).s.code, dst_jt, dst_jf, (h.block i).s.k⟩] ++ (extra_t ++ extra_f) ++
          List.replicate pad Conversion.blank) := by
  simp only [blockCode, ha, hb] at hcode
  split at hcode
  · cases hcode
  · rename_i dst_jt extra_t ht
    split at hcode
    · cases hcode
    · rename_i dst_jf extra_f hf
      cases hcode
      exact ⟨dst_jt, extra_t, dst_jf, extra_f,
        (h.block i).longjt + (h.block i).longjf - (extra_t ++ extra_f).length, ht, hf,
        by simp only [List.append_assoc]⟩

/-- The code of a block that ends the program. -/
theorem blockCode_leaf {h : Blocks} {i : Nat} {code : List Insn}
    (hcode : h.blockCode i = some code) (hi : (h.block i).jt = none) :
    code = (h.block i).stmts.map Stmt.insn ++ [(h.block i).s.insn] ++
      List.replicate ((h.block i).longjt + (h.block i).longjf) Conversion.blank := by
  simp only [blockCode, hi] at hcode
  exact (Option.some.inj hcode).symm

section Run

variable {h : Blocks} {order : List Nat} {program : List Insn}

theorem Layout.codeAt_program (hl : h.Layout program.length order program) {i : Nat}
    (hi : i ∈ order) :
    ∃ code, h.blockCode i = some code ∧ CodeAt program (h.block i).offset code :=
  hl.codeAt [] (Nat.zero_add _) hi

/-- The branch of a block in the array leads to one of the two blocks that it is for. -/
theorem Layout.branch_leads (hl : h.Layout program.length order program)
    (hshort : program.length < 2 ^ 31) {i a b : Nat} (hi : i ∈ order)
    (ha : (h.block i).jt = some a) (hb : (h.block i).jf = some b) {test : Test} {source : Source}
    (hbranch : decode (h.block i).s.code = some (.JMP test source)) (input : Input) (r : Regs) :
    ∃ k, Loop.Leads (pass (Filter.exec input) program) k
      ⟨((h.block i).offset + (h.block i).stmts.length : Nat), r⟩
      ⟨((h.block (if Filter.holds r.A (source.operand r (h.block i).s.insn) test then a
        else b)).offset : Int), r⟩ := by
  obtain ⟨code, hcode, hat⟩ := hl.codeAt_program hi
  obtain ⟨dst_jt, extra_t, dst_jf, extra_f, pad, ht, hf, rfl⟩ := blockCode_branch hcode ha hb
  have hrest := hat.append_right
  rw [List.length_map] at hrest
  have hjump := hrest.append_left.append_left
  have hextra := hrest.append_left.append_right
  rw [List.length_singleton] at hextra
  have htarget : ∀ j, h.Leads i j →
      ((h.block i).offset + (h.block i).stmts.length + 1 : Nat) +
        ((h.branchOffset i j).toNat : Int) = ((h.block j).offset : Int) ∧
      (h.branchOffset i j).toNat < 2 ^ 31 := fun j hj => by
    have h1 := toNat_branchOffset hl hi hj hshort
    have h2 := hl.offset_le_of_leads hi hj
    omega
  let pc : Insn := ⟨(h.block i).s.code, dst_jt, dst_jf, (h.block i).s.k⟩
  have hexec : Filter.exec input pc r = .ok (.jump
      ((if Filter.holds r.A (source.operand r (h.block i).s.insn) test then dst_jt
        else dst_jf).toNat : Int) r) := by
    have hoperand : source.operand r pc = source.operand r (h.block i).s.insn := by
      cases source <;> rfl
    rw [Filter.exec, hbranch]
    show Except.ok (Effect.jump ((if Filter.holds r.A (source.operand r pc) test then dst_jt
      else dst_jf).toNat : Int) r) = _
    rw [hoperand]
  have hpass := pass_of_jump
    (s := ⟨((h.block i).offset + (h.block i).stmts.length : Nat), r⟩) hjump.fetch_head hexec
  split at hpass
  · rename_i hholds
    obtain ⟨k, hk⟩ := jumpField_leads input ht hextra.append_left
      (htarget a (.inl ha)).2 Nat.two_pos r
    rw [(htarget a (.inl ha)).1] at hk
    rw [if_pos hholds]
    exact ⟨k + 1, .pass hpass hk⟩
  · rename_i hholds
    obtain ⟨k, hk⟩ := jumpField_leads input hf hextra.append_right
      (htarget b (.inr hb)).2 (length_lt_of_jumpField ht) r
    rw [(htarget b (.inr hb)).1] at hk
    rw [if_neg hholds]
    exact ⟨k + 1, .pass hpass hk⟩

theorem eq_of_graph_branch {i a b : Nat} {t : BlockTest} (hi : h.graph i = some (.branch t a b)) :
    t = h.test i ∧ (h.block i).jt = some a ∧ (h.block i).jf = some b := by
  rw [graph] at hi
  split at hi
  · split at hi <;> cases hi
  · rename_i a' b' ha hb
    cases hi
    exact ⟨rfl, ha, hb⟩
  · cases hi

theorem eq_of_graph_leaf {i : Nat} {v : UInt} (hi : h.graph i = some (.leaf v)) :
    h.test i = ⟨[], ⟨BPF_RET ||| BPF_K, v⟩⟩ ∧ (h.block i).jt = none := by
  rw [graph] at hi
  split at hi
  · rename_i hjt
    split at hi
    · rename_i htest
      cases hi
      exact ⟨htest, hjt⟩
    · cases hi
  · cases hi
  · cases hi

/-- The outcome of a run as the loop of the filter has it. -/
def outcome : Except Fault UInt → Except (Stop Fault) UInt
  | .ok v => .ok v
  | .error e => .error (.fault e)

/-- What the code of a block that branches does: what its test comes to. -/
theorem Layout.runs_branch (hl : h.Layout program.length order program)
    (hshort : program.length < 2 ^ 31)
    (hplain : ∀ i ∈ order, (h.block i).jt ≠ none → (h.test i).Plain) (input : Input) {i a b : Nat}
    (hi : i ∈ order) {t : BlockTest} (hg : h.graph i = some (.branch t a b)) (r : Regs) :
    a ∈ order ∧ b ∈ order ∧
      ((∃ e, Loop.Ends (pass (Filter.exec input) program) ⟨((h.block i).offset : Int), r⟩
          (.error (.fault e)) ∧ t.run input r = .error e) ∨
        (∃ v, Loop.Ends (pass (Filter.exec input) program) ⟨((h.block i).offset : Int), r⟩
          (.ok v) ∧ t.run input r = .ok (.halt v)) ∨
        ∃ answer r', (∃ k, Loop.Leads (pass (Filter.exec input) program) k
          ⟨((h.block i).offset : Int), r⟩
          ⟨((h.block (if answer = true then a else b)).offset : Int), r'⟩) ∧
            t.run input r = .ok (.answer answer r')) := by
  obtain ⟨rfl, ha, hb⟩ := eq_of_graph_branch hg
  refine ⟨hl.leads_mem hi (.inl ha), hl.leads_mem hi (.inr hb), ?_⟩
  have hp := hplain i hi (by simp [ha])
  obtain ⟨test, source, hbranch⟩ := hp.branch
  obtain ⟨code, hcode, hat⟩ := hl.codeAt_program hi
  obtain ⟨dst_jt, extra_t, dst_jf, extra_f, pad, -, -, rfl⟩ := blockCode_branch hcode ha hb
  have hstraight : ∀ insn ∈ (h.test i).stmts.map Stmt.insn,
      Straight (Filter.exec input) insn := fun insn hinsn => by
    obtain ⟨s, hs, rfl⟩ := List.mem_map.mp hinsn
    exact (hp.stmts s hs).straight input
  have hline : LineEnds (Filter.exec input) program (h.block i).offset
      ((h.block i).offset + (h.block i).stmts.length) r
      (runLine (Filter.exec input) ((h.test i).stmts.map Stmt.insn) r) := by
    have := hat.append_left.lineEnds hstraight r
    rwa [List.length_map] at this
  rcases BlockTest.run_cases input hbranch r with ⟨e, hstmts, hrun⟩ |
    ⟨v, hstmts, hrun⟩ | ⟨r', hstmts, hrun⟩
  · rw [hstmts] at hline
    exact .inl ⟨e, hline, hrun⟩
  · rw [hstmts] at hline
    exact .inr (.inl ⟨v, hline, hrun⟩)
  · rw [hstmts] at hline
    obtain ⟨k, hk⟩ := hline
    obtain ⟨k', hk'⟩ := hl.branch_leads hshort hi ha hb hbranch input r'
    exact .inr (.inr ⟨_, r', ⟨k + k', hk.trans hk'⟩, hrun⟩)

/-- The array does from the place of a block on what the flow graph does from that block on. -/
theorem Layout.ends_of_walk (hl : h.Layout program.length order program)
    (hshort : program.length < 2 ^ 31)
    (hplain : ∀ i ∈ order, (h.block i).jt ≠ none → (h.test i).Plain) (input : Input)
    {i : Nat} {r : Regs} {v : Except Fault UInt}
    (hw : Walk (BlockTest.run input) h.graph i r v) (hi : i ∈ order) :
    Loop.Ends (pass (Filter.exec input) program) ⟨((h.block i).offset : Int), r⟩ (outcome v) := by
  induction hw with
  | @leaf i r v hg =>
    obtain ⟨htest, hjt⟩ := eq_of_graph_leaf hg
    obtain ⟨code, hcode, hat⟩ := hl.codeAt_program hi
    have hcode := blockCode_leaf hcode hjt
    have hs : (h.block i).stmts = [] := congrArg BlockTest.stmts htest
    have hk : (h.block i).s = ⟨BPF_RET ||| BPF_K, v⟩ := congrArg BlockTest.s htest
    rw [hs, hk, List.map_nil, List.nil_append, List.singleton_append] at hcode
    subst hcode
    exact Loop.ends_of_done (pass_of_halt (s := ⟨((h.block i).offset : Int), r⟩) hat.fetch_head rfl)
  | @error i a b r t e hg ht =>
    obtain ⟨-, -, hrun⟩ := hl.runs_branch hshort hplain input hi hg r
    rcases hrun with ⟨e', hends, hrun⟩ | ⟨v, -, hrun⟩ | ⟨b', r', -, hrun⟩ <;> rw [ht] at hrun <;>
      cases hrun
    exact hends
  | @halt i a b r t v hg ht =>
    obtain ⟨-, -, hrun⟩ := hl.runs_branch hshort hplain input hi hg r
    rcases hrun with ⟨e', -, hrun⟩ | ⟨v, hends, hrun⟩ | ⟨b', r', -, hrun⟩ <;> rw [ht] at hrun <;>
      cases hrun
    exact hends
  | @onTrue i a b r r' t v hg ht hr ih =>
    obtain ⟨ha, -, hrun⟩ := hl.runs_branch hshort hplain input hi hg r
    rcases hrun with ⟨e', -, hrun⟩ | ⟨v, -, hrun⟩ | ⟨b', r', ⟨k, hk⟩, hrun⟩ <;> rw [ht] at hrun <;>
      cases hrun
    exact (ih ha).of_leads hk
  | @onFalse i a b r r' t v hg ht hr ih =>
    obtain ⟨-, hb, hrun⟩ := hl.runs_branch hshort hplain input hi hg r
    rcases hrun with ⟨e', -, hrun⟩ | ⟨v, -, hrun⟩ | ⟨b', r', ⟨k, hk⟩, hrun⟩ <;> rw [ht] at hrun <;>
      cases hrun
    exact (ih hb).of_leads hk

end Run

end Blocks

end Bpf

end Jxnet
