import Jxnet.Bpf.Icode
import Mathlib.Algebra.Order.BigOperators.Group.Finset

namespace Jxnet

open Java JumpMachine ShortCircuit

namespace Bpf

namespace Blocks

/-- The block `j` is one that a branch of `i` leads to. -/
def Leads (h : Blocks) (i j : Nat) : Prop := (h.block i).jt = some j ∨ (h.block i).jf = some j

/-- The successors of the members that are not under way are members. -/
def ClosedBut (h : Blocks) (under : Nat → Prop) (s : Finset Nat) : Prop :=
  ∀ i ∈ s, ¬under i → ∀ j, h.Leads i j → j ∈ s

namespace Acyclic

variable {h : Blocks} {rank : Nat → Nat} {bs : List Nat}

theorem mem_of_leads (hac : h.Acyclic rank bs) {i j : Nat} (hi : i ∈ bs) (hij : h.Leads i j) :
    j ∈ bs ∧ rank j < rank i := by
  obtain ⟨-, ⟨hjt, hjf⟩ | ⟨a, b, hjt, hjf, ha, hb, hra, hrb⟩⟩ := hac i hi
  · rcases hij with hj | hj
    · rw [hjt] at hj
      cases hj
    · rw [hjf] at hj
      cases hj
  · rcases hij with hj | hj
    · rw [hjt] at hj
      cases hj
      exact ⟨ha, hra⟩
    · rw [hjf] at hj
      cases hj
      exact ⟨hb, hrb⟩

end Acyclic

/-- What `count_stmts` does from one block on. -/
structure Counts (h : Blocks) (under : Nat → Prop) (o : Option Nat) (before : List Nat) (n : Nat)
    (after : List Nat) : Prop where
  covers : ∀ p, o = some p → p ∈ after
  mono : ∀ i ∈ before, i ∈ after
  closed : h.ClosedBut under after.toFinset
  sum : n + ∑ i ∈ before.toFinset, h.size i = ∑ i ∈ after.toFinset, h.size i
  least : ∀ P : Nat → Prop, (∀ p, o = some p → P p) → (∀ i j, P i → h.Leads i j → P j) →
    ∀ i ∈ after, i ∈ before ∨ P i

theorem Counts.nothing {h : Blocks} {under : Nat → Prop} {marks : List Nat}
    (hclosed : h.ClosedBut under marks.toFinset) {o : Option Nat}
    (ho : ∀ p, o = some p → p ∈ marks) :
    h.Counts under o marks 0 marks :=
  ⟨ho, fun _ hi => hi, hclosed, Nat.zero_add _, fun _ _ _ _ hi => .inl hi⟩

/-- `count_stmts` visits the blocks that can be reached from a block and adds up their sizes. The
blocks under way are those of larger rank. -/
theorem count_stmts_counts {h : Blocks} {rank : Nat → Nat} {bs : List Nat}
    (hac : h.Acyclic rank bs) (n : Nat) (o : Option Nat) (marks : List Nat) (under : Nat → Prop)
    (ho : ∀ p, o = some p → p ∈ bs ∧ rank p < n ∧ ∀ i, under i → rank p < rank i)
    (hclosed : h.ClosedBut under marks.toFinset) :
    h.Counts under o marks (h.count_stmts n o marks).1 (h.count_stmts n o marks).2 := by
  induction n generalizing o marks under with
  | zero =>
    exact .nothing hclosed fun p hp => absurd (ho p hp).2.1 (Nat.not_lt_zero _)
  | succ n ih =>
    cases o with
    | none => exact .nothing hclosed fun p hp => by cases hp
    | some p =>
      obtain ⟨hp, hn, hunder⟩ := ho p rfl
      rw [count_stmts]
      by_cases hmem : p ∈ marks
      · rw [if_pos hmem]
        exact .nothing hclosed fun q hq => Option.some.inj hq ▸ hmem
      · rw [if_neg hmem]
        have hnext : ∀ side, ∀ q, h.succ (p, side) = some q →
            q ∈ bs ∧ rank q < n ∧ ∀ i, i = p ∨ under i → rank q < rank i := by
          intro side q hq
          have hleads : h.Leads p q := by
            cases side
            · exact .inr hq
            · exact .inl hq
          obtain ⟨hqbs, hrank⟩ := hac.mem_of_leads hp hleads
          refine ⟨hqbs, by omega, fun i hi => ?_⟩
          rcases hi with rfl | hi
          · exact hrank
          · have := hunder i hi
            omega
        have hclosed1 : h.ClosedBut (fun i => i = p ∨ under i) (p :: marks).toFinset := by
          intro i hi hnot j hij
          rw [List.toFinset_cons, Finset.mem_insert] at hi ⊢
          rcases hi with rfl | hi
          · exact absurd (.inl rfl) hnot
          · exact .inr (hclosed i hi (fun hu => hnot (.inr hu)) j hij)
        have ht := ih (h.block p).jt (p :: marks) _ (hnext true) hclosed1
        have hf := ih (h.block p).jf _ _ (hnext false) ht.closed
        refine ⟨fun q hq => ?_, fun i hi => ?_, fun i hi hnot j hij => ?_, ?_,
          fun P hP hstep i hi => ?_⟩
        · cases hq
          exact hf.mono p (ht.mono p List.mem_cons_self)
        · exact hf.mono i (ht.mono i (List.mem_cons_of_mem p hi))
        · by_cases hip : i = p
          · subst hip
            rw [List.mem_toFinset]
            rcases hij with hj | hj
            · exact hf.mono j (ht.covers j hj)
            · exact hf.covers j hj
          · exact hf.closed i hi (fun hu => hu.elim hip hnot) j hij
        · have h1 := ht.sum
          have h2 := hf.sum
          rw [List.toFinset_cons, Finset.sum_insert (by rwa [List.mem_toFinset])] at h1
          simp only [size] at h1 h2 ⊢
          omega
        · have hPp := hP p rfl
          rcases hf.least P (fun q hq => hstep p q hPp (.inr hq)) hstep i hi with hi | hi
          · rcases ht.least P (fun q hq => hstep p q hPp (.inl hq)) hstep i hi with hi | hi
            · rcases List.mem_cons.mp hi with rfl | hi
              · exact .inr hPp
              · exact .inl hi
            · exact .inr hi
          · exact .inr hi

/-- The same blocks, but for their offsets. -/
structure Relaid (h h' : Blocks) : Prop where
  next : h'.next = h.next
  block : ∀ i, ∃ offset, h'.block i = { h.block i with offset := offset }

@[simp] theorem block_setOffset_self (h : Blocks) (p offset : Nat) :
    (h.setOffset p offset).block p = { h.block p with offset := offset } := if_pos rfl

theorem block_setOffset_of_ne (h : Blocks) {p i : Nat} (hi : i ≠ p) (offset : Nat) :
    (h.setOffset p offset).block i = h.block i := if_neg hi

namespace Relaid

variable {h h' : Blocks}

theorem refl (h : Blocks) : h.Relaid h := ⟨rfl, fun i => ⟨(h.block i).offset, rfl⟩⟩

theorem setOffset (hr : h.Relaid h') (p offset : Nat) : h.Relaid (h'.setOffset p offset) := by
  refine ⟨hr.next, fun i => ?_⟩
  obtain ⟨o, ho⟩ := hr.block i
  by_cases hi : i = p
  · subst hi
    exact ⟨offset, by rw [block_setOffset_self, ho]⟩
  · exact ⟨o, by rw [block_setOffset_of_ne h' hi, ho]⟩

theorem jt_eq (hr : h.Relaid h') (i : Nat) : (h'.block i).jt = (h.block i).jt := by
  obtain ⟨o, ho⟩ := hr.block i
  rw [ho]

theorem jf_eq (hr : h.Relaid h') (i : Nat) : (h'.block i).jf = (h.block i).jf := by
  obtain ⟨o, ho⟩ := hr.block i
  rw [ho]

theorem leads_iff (hr : h.Relaid h') {i j : Nat} : h'.Leads i j ↔ h.Leads i j := by
  rw [Leads, Leads, hr.jt_eq, hr.jf_eq]

theorem size_eq (hr : h.Relaid h') (i : Nat) : h'.size i = h.size i := by
  obtain ⟨o, ho⟩ := hr.block i
  rw [size, size, ho]

end Relaid

/-- The code of a block at its place, where its jump fields are wide enough. -/
def blockCode (h : Blocks) (p : Nat) : Option (List Insn) :=
  let b := h.block p
  let stmts := b.stmts.map Stmt.insn
  match b.jt, b.jf with
  | some jt, some jf =>
    match jumpField b.longjt (h.branchOffset p jt) 0 with
    | none => none
    | some (dst_jt, extra_t) =>
      match jumpField b.longjf (h.branchOffset p jf) extra_t.length with
      | none => none
      | some (dst_jf, extra_f) =>
        some (stmts ++ [⟨b.s.code, dst_jt, dst_jf, b.s.k⟩] ++ (extra_t ++ extra_f) ++
          List.replicate (b.longjt + b.longjf - (extra_t ++ extra_f).length) Conversion.blank)
  | _, _ => some (stmts ++ [b.s.insn] ++ List.replicate (b.longjt + b.longjf) Conversion.blank)

/-- Either there is no extra jump, or the one that has room. -/
theorem jumpField_length_le {long extrajmps : Nat} {off : UInt} {dst : BitVec 8}
    {extra : List Insn} (h : jumpField long off extrajmps = some (dst, extra)) :
    extra.length ≤ long := by
  rw [jumpField] at h
  split at h
  · split at h
    · cases h
    · cases h
      rename_i hlong
      exact Nat.pos_of_ne_zero hlong
  · cases h
    exact Nat.zero_le long

theorem length_blockCode {h : Blocks} {p : Nat} {code : List Insn}
    (hcode : h.blockCode p = some code) : code.length = h.size p := by
  simp only [blockCode] at hcode
  split at hcode
  · split at hcode
    · cases hcode
    · rename_i dst_jt extra_t ht
      split at hcode
      · cases hcode
      · rename_i dst_jf extra_f hf
        cases hcode
        have := jumpField_length_le ht
        have := jumpField_length_le hf
        simp only [size, slength, List.length_append, List.length_map, List.length_cons,
          List.length_nil, List.length_replicate]
        omega
  · cases hcode
    simp only [size, slength, List.length_append, List.length_map, List.length_cons,
      List.length_nil, List.length_replicate]
    omega

/-- The code of a block depends on its own offset and on those that it jumps to. -/
theorem blockCode_setOffset_of_ne (h : Blocks) {p i : Nat} (hi : i ≠ p)
    (hsucc : ∀ j, h.Leads i j → j ≠ p) (offset : Nat) :
    (h.setOffset p offset).blockCode i = h.blockCode i := by
  have hoff : ∀ j, h.Leads i j →
      (h.setOffset p offset).branchOffset i j = h.branchOffset i j := fun j hj => by
    rw [branchOffset, branchOffset, block_setOffset_of_ne h hi,
      block_setOffset_of_ne h (hsucc j hj)]
  simp only [blockCode, block_setOffset_of_ne h hi]
  cases hjt : (h.block i).jt with
  | none => rfl
  | some jt =>
    cases hjf : (h.block i).jf with
    | none => rfl
    | some jf => simp only [hoff jt (.inl hjt), hoff jf (.inr hjf)]

/-- The blocks of `order` fill the end of an array of length `total`, each after the blocks that
it jumps to. -/
inductive Layout (total : Nat) (h : Blocks) : List Nat → List Insn → Prop
  | nil : Layout total h [] []
  | cons {p : Nat} {order : List Nat} {code ftail : List Insn} (rest : Layout total h order ftail)
      (new : p ∉ order) (succ : ∀ j, h.Leads p j → j ∈ order)
      (code_eq : h.blockCode p = some code)
      (offset : (h.block p).offset + (code ++ ftail).length = total) :
      Layout total h (p :: order) (code ++ ftail)

namespace Layout

variable {total : Nat} {h : Blocks} {order : List Nat} {ftail : List Insn}

theorem leads_mem (hl : h.Layout total order ftail) {i j : Nat} (hi : i ∈ order)
    (hij : h.Leads i j) : j ∈ order := by
  induction hl with
  | nil => cases hi
  | cons rest new succ code_eq offset ih =>
    rcases List.mem_cons.mp hi with rfl | hi
    · exact List.mem_cons_of_mem _ (succ j hij)
    · exact List.mem_cons_of_mem _ (ih hi)

theorem nodup (hl : h.Layout total order ftail) : order.Nodup := by
  induction hl with
  | nil => exact List.nodup_nil
  | cons rest new succ code_eq offset ih => exact List.nodup_cons.mpr ⟨new, ih⟩

theorem length_eq (hl : h.Layout total order ftail) :
    ftail.length = ∑ i ∈ order.toFinset, h.size i := by
  induction hl with
  | nil => rfl
  | cons rest new succ code_eq offset ih =>
    rw [List.length_append, length_blockCode code_eq, ih, List.toFinset_cons,
      Finset.sum_insert (by rwa [List.mem_toFinset])]

/-- The place of a block that is not laid out yet does not matter. -/
theorem setOffset (hl : h.Layout total order ftail) {p : Nat} (hp : p ∉ order) (offset : Nat) :
    (h.setOffset p offset).Layout total order ftail := by
  induction hl with
  | nil => exact .nil
  | @cons q order code ftail rest new succ code_eq hoffset ih =>
    have hq : q ≠ p := fun hq => hp (hq ▸ List.mem_cons_self)
    have hrest : p ∉ order := fun h => hp (List.mem_cons_of_mem q h)
    have hleads : ∀ j, (h.setOffset p offset).Leads q j ↔ h.Leads q j := fun j => by
      rw [Leads, Leads, block_setOffset_of_ne h hq]
    refine .cons (ih hrest) new (fun j hj => succ j ((hleads j).mp hj)) ?_ ?_
    · rw [blockCode_setOffset_of_ne h hq fun j hj hjp => hrest (hjp ▸ succ j hj), code_eq]
    · rw [block_setOffset_of_ne h hq, hoffset]

end Layout

/-- The blocks after a round that failed: one branch has been made long. -/
def Lengthened (h h' : Blocks) (bs : List Nat) : Prop :=
  ∃ h1, h.Relaid h1 ∧ ∃ p ∈ bs, (h.block p).jt ≠ none ∧ (
    ((h.block p).longjt = 0 ∧ h' = h1.lengthenJt p) ∨
      ((h.block p).longjf = 0 ∧ h' = h1.lengthenJf p))

end Blocks

namespace Conversion

theorem jumpField_eq_none {long extrajmps : Nat} {off : UInt}
    (h : jumpField long off extrajmps = none) : long = 0 := by
  rw [jumpField] at h
  split at h
  · split at h
    · assumption
    · cases h
  · cases h

variable {total p : Nat} {c c' : Conversion}

/-- `emit` puts the code of the block in front, at the offset that is left for it. -/
theorem emit_of_true (he : c.emit total p = (true, c')) :
    c'.marks = c.marks ∧
      c'.blocks = c.blocks.setOffset p (total - c.ftail.length - c.blocks.size p) ∧
      ∃ code, c'.blocks.blockCode p = some code ∧ c'.ftail = code ++ c.ftail := by
  simp only [emit] at he
  split at he
  · rename_i jt jf hjt hjf
    split at he
    · cases he
    · rename_i dst_jt extra_t ht
      split at he
      · cases he
      · rename_i dst_jf extra_f hf
        cases he
        exact ⟨rfl, rfl, _, by
          simp only [Blocks.blockCode, Blocks.block_setOffset_self, hjt, hjf, ht, hf], rfl⟩
  · rename_i hnot
    cases he
    refine ⟨rfl, rfl, (c.blocks.block p).stmts.map Stmt.insn ++ [(c.blocks.block p).s.insn] ++
      List.replicate ((c.blocks.block p).longjt + (c.blocks.block p).longjf) blank, ?_, rfl⟩
    simp only [Blocks.blockCode, Blocks.block_setOffset_self]

/-- `emit` fails when a jump is too long for its field and has no room yet, and makes room. -/
theorem emit_of_false (he : c.emit total p = (false, c')) :
    (c.blocks.block p).jt ≠ none ∧ ∃ offset,
      ((c.blocks.block p).longjt = 0 ∧ c'.blocks = (c.blocks.setOffset p offset).lengthenJt p) ∨
      ((c.blocks.block p).longjf = 0 ∧ c'.blocks = (c.blocks.setOffset p offset).lengthenJf p) := by
  simp only [emit] at he
  split at he
  · rename_i jt jf hjt hjf
    refine ⟨by simp [hjt], total - c.ftail.length - c.blocks.size p, ?_⟩
    split at he
    · rename_i ht
      cases he
      exact .inl ⟨jumpField_eq_none ht, rfl⟩
    · split at he
      · rename_i hf
        cases he
        exact .inr ⟨jumpField_eq_none hf, rfl⟩
      · cases he
  · cases he

/-- The conversion of the blocks of `order` is done, that of the blocks under way has begun. -/
structure Laid (h : Blocks) (total : Nat) (under : Nat → Prop) (order : List Nat)
    (c : Conversion) : Prop where
  relaid : h.Relaid c.blocks
  layout : c.blocks.Layout total order c.ftail
  marks : ∀ i, i ∈ c.marks ↔ i ∈ order ∨ under i

/-- `emit`, once the blocks that `p` jumps to are laid out. -/
theorem Laid.emit_cases {h : Blocks} {under : Nat → Prop} {order room bs : List Nat}
    (hl : c.Laid h total (fun i => i = p ∨ under i) order) (hp : p ∈ bs) (hroom : p ∈ room)
    (hnew : p ∉ order) (hsucc : ∀ j, h.Leads p j → j ∈ order) (horder : ∀ i ∈ order, i ∈ room)
    (htotal : ∑ i ∈ room.toFinset, h.size i = total) :
    (∃ c', c.emit total p = (true, c') ∧ c'.Laid h total under (p :: order)) ∨
      ∃ c', c.emit total p = (false, c') ∧ h.Lengthened c'.blocks bs := by
  cases he : c.emit total p with
  | mk ok c' =>
    cases ok with
    | true =>
      obtain ⟨hmarks, hblocks, code, hcode, hftail⟩ := emit_of_true he
      have hrelaid : h.Relaid c'.blocks := hblocks ▸ hl.relaid.setOffset p _
      have hlength : c.ftail.length = ∑ i ∈ order.toFinset, h.size i := by
        rw [hl.layout.length_eq]
        exact Finset.sum_congr rfl fun i _ => hl.relaid.size_eq i
      have hfits : h.size p + c.ftail.length ≤ total := by
        rw [hlength, ← htotal, ← Finset.sum_insert (by rwa [List.mem_toFinset]),
          ← List.toFinset_cons]
        refine Finset.sum_le_sum_of_subset fun i hi => ?_
        rw [List.mem_toFinset] at hi ⊢
        rcases List.mem_cons.mp hi with rfl | hi
        · exact hroom
        · exact horder i hi
      refine .inl ⟨c', rfl, hrelaid, ?_, fun i => ?_⟩
      · rw [hftail]
        refine .cons ?_ hnew (fun j hj => hsucc j (hrelaid.leads_iff.mp hj)) hcode ?_
        · rw [hblocks]
          exact hl.layout.setOffset hnew _
        · rw [List.length_append, Blocks.length_blockCode hcode, hrelaid.size_eq, hblocks,
            Blocks.block_setOffset_self, hl.relaid.size_eq]
          show total - c.ftail.length - h.size p + (h.size p + c.ftail.length) = total
          omega
      · rw [hmarks, hl.marks, List.mem_cons]
        tauto
    | false =>
      obtain ⟨o, ho⟩ := hl.relaid.block p
      obtain ⟨hjt, offset, hcase⟩ := emit_of_false he
      rw [ho] at hjt hcase
      exact .inr ⟨c', rfl, _, hl.relaid.setOffset p offset, p, hp, hjt, hcase⟩

/-- What `convert_code_r` has done when it succeeds. -/
structure Converted (h : Blocks) (total : Nat) (under : Nat → Prop) (o : Option Nat)
    (order : List Nat) (c c' : Conversion) (order' : List Nat) : Prop where
  laid : c'.Laid h total under order'
  mono : ∀ i ∈ order, i ∈ order'
  covers : ∀ p, o = some p → p ∈ order'
  least : ∀ P : Nat → Prop, (∀ p, o = some p → P p) → (∀ i j, P i → h.Leads i j → P j) →
    ∀ i ∈ order', i ∈ order ∨ P i
  first : ∀ p, o = some p → p ∉ c.marks → ∃ rest, order' = p :: rest

/-- A block is under way while the blocks that it jumps to are converted. -/
theorem Laid.mark {h : Blocks} {under : Nat → Prop} {order : List Nat}
    (hl : c.Laid h total under order) (p : Nat) :
    ({ c with marks := p :: c.marks } : Conversion).Laid h total (fun i => i = p ∨ under i)
      order := by
  refine ⟨hl.relaid, hl.layout, fun i => ?_⟩
  show i ∈ p :: c.marks ↔ _
  rw [List.mem_cons, hl.marks]
  tauto

section Parent

/-! Both blocks that `p` jumps to are converted. -/

variable {h : Blocks} {under under' : Nat → Prop} {order order1 order2 : List Nat}
  {c1 c2 c3 : Conversion}

theorem Converted.least_pair (hl : c.Laid h total under order)
    (h1 : Converted h total under' (c.blocks.block p).jf order { c with marks := p :: c.marks } c1
      order1)
    (h2 : Converted h total under' (c1.blocks.block p).jt order1 c1 c2 order2) {P : Nat → Prop}
    (hP : ∀ q, h.Leads p q → P q) (hstep : ∀ i j, P i → h.Leads i j → P j) :
    ∀ i ∈ order2, i ∈ order ∨ P i := by
  intro i hi
  rcases h2.least P (fun q hq => hP q (h1.laid.relaid.leads_iff.mp (.inl hq))) hstep i hi with
    hi | hi
  · exact h1.least P (fun q hq => hP q (hl.relaid.leads_iff.mp (.inr hq))) hstep i hi
  · exact .inr hi

theorem Converted.covers_pair (hl : c.Laid h total under order)
    (h1 : Converted h total under' (c.blocks.block p).jf order { c with marks := p :: c.marks } c1
      order1)
    (h2 : Converted h total under' (c1.blocks.block p).jt order1 c1 c2 order2) :
    ∀ j, h.Leads p j → j ∈ order2 := by
  intro j hj
  rcases hj with hjt | hjf
  · exact h2.covers j ((h1.laid.relaid.jt_eq p).trans hjt)
  · exact h2.mono j (h1.covers j ((hl.relaid.jf_eq p).trans hjf))

/-- The block itself does not lie below them. -/
theorem Converted.not_mem_pair {rank : Nat → Nat} {bs : List Nat} (hac : h.Acyclic rank bs)
    (hp : p ∈ bs) (hnew : p ∉ order) (hl : c.Laid h total under order)
    (h1 : Converted h total under' (c.blocks.block p).jf order { c with marks := p :: c.marks } c1
      order1)
    (h2 : Converted h total under' (c1.blocks.block p).jt order1 c1 c2 order2) : p ∉ order2 := by
  intro hp2
  have hbelow : p ∈ order ∨ p ∈ bs ∧ rank p < rank p :=
    Converted.least_pair (P := fun i => i ∈ bs ∧ rank i < rank p) hl h1 h2
      (fun q => hac.mem_of_leads hp)
      (fun i j hi hij =>
        have hj := hac.mem_of_leads hi.1 hij
        ⟨hj.1, Nat.lt_trans hj.2 hi.2⟩) p hp2
  rcases hbelow with hp2 | hp2
  · exact hnew hp2
  · exact Nat.lt_irrefl _ hp2.2

theorem Converted.parent (hl : c.Laid h total under order)
    (h1 : Converted h total under' (c.blocks.block p).jf order { c with marks := p :: c.marks } c1
      order1)
    (h2 : Converted h total under' (c1.blocks.block p).jt order1 c1 c2 order2)
    (hl3 : c3.Laid h total under (p :: order2)) :
    Converted h total under (some p) order c c3 (p :: order2) where
  laid := hl3
  mono := fun i hi => List.mem_cons_of_mem p (h2.mono i (h1.mono i hi))
  covers := fun q hq => Option.some.inj hq ▸ List.mem_cons_self
  least := by
    intro P hP hstep i hi
    rcases List.mem_cons.mp hi with rfl | hi
    · exact .inr (hP _ rfl)
    · exact Converted.least_pair hl h1 h2 (fun q hq => hstep p q (hP p rfl) hq) hstep i hi
  first := fun q hq _ => ⟨order2, by rw [Option.some.inj hq]⟩

end Parent

/-- `convert_code_r` lays out the blocks that can be reached from a block, or makes one branch
long. `room` is what `count_stmts` has made room for. -/
theorem convert_code_r_cases {h : Blocks} {rank : Nat → Nat} {bs room : List Nat} {total : Nat}
    (hac : h.Acyclic rank bs) (hroom : ∀ i ∈ room, ∀ j, h.Leads i j → j ∈ room)
    (htotal : ∑ i ∈ room.toFinset, h.size i = total) (n : Nat) (o : Option Nat) (c : Conversion)
    (under : Nat → Prop) (order : List Nat)
    (ho : ∀ p, o = some p →
      p ∈ bs ∧ p ∈ room ∧ rank p < n ∧ ∀ i, under i → rank p < rank i)
    (hl : c.Laid h total under order) (horder : ∀ i ∈ order, i ∈ room) :
    (∃ c' order', convert_code_r total n o c = (true, c') ∧
        Converted h total under o order c c' order' ∧ ∀ i ∈ order', i ∈ room) ∨
      ∃ c', convert_code_r total n o c = (false, c') ∧ h.Lengthened c'.blocks bs := by
  induction n generalizing o c under order with
  | zero =>
    exact .inl ⟨c, order, rfl, ⟨hl, fun _ hi => hi,
      fun p hp => absurd (ho p hp).2.2.1 (Nat.not_lt_zero _), fun _ _ _ _ hi => .inl hi,
      fun p hp => absurd (ho p hp).2.2.1 (Nat.not_lt_zero _)⟩, horder⟩
  | succ n ih =>
    cases o with
    | none =>
      exact .inl ⟨c, order, rfl, ⟨hl, fun _ hi => hi, fun p hp => by (cases hp),
        fun _ _ _ _ hi => .inl hi, fun p hp => by cases hp⟩, horder⟩
    | some p =>
      obtain ⟨hp, hproom, hn, hunder⟩ := ho p rfl
      rw [convert_code_r]
      by_cases hmem : p ∈ c.marks
      · rw [if_pos hmem]
        have hdone : p ∈ order :=
          ((hl.marks p).mp hmem).resolve_right fun hu => absurd (hunder p hu) (Nat.lt_irrefl _)
        exact .inl ⟨c, order, rfl, ⟨hl, fun _ hi => hi, fun q hq => Option.some.inj hq ▸ hdone,
          fun _ _ _ _ hi => .inl hi, fun q hq hq' => absurd (Option.some.inj hq ▸ hmem) hq'⟩,
          horder⟩
      · rw [if_neg hmem]
        have hnew : p ∉ order := fun h => hmem ((hl.marks p).mpr (.inl h))
        let under' := fun i => i = p ∨ under i
        have hnext : ∀ q, h.Leads p q → q ∈ bs ∧ q ∈ room ∧ rank q < n ∧
            ∀ i, under' i → rank q < rank i := by
          intro q hq
          obtain ⟨hqbs, hrank⟩ := hac.mem_of_leads hp hq
          refine ⟨hqbs, hroom p hproom q hq, by omega, fun i hi => ?_⟩
          rcases hi with rfl | hi
          · exact hrank
          · have := hunder i hi
            omega
        rcases ih (c.blocks.block p).jf { c with marks := p :: c.marks } under' order
          (fun q hq => hnext q (hl.relaid.leads_iff.mp (.inr hq))) (hl.mark p) horder with
          ⟨c1, order1, heq1, h1, hroom1⟩ | ⟨c1, heq1, hlong⟩
        · rcases ih (c1.blocks.block p).jt c1 under' order1 (fun q hq => hnext q
            (h1.laid.relaid.leads_iff.mp (.inl hq))) h1.laid hroom1 with
            ⟨c2, order2, heq2, h2, hroom2⟩ | ⟨c2, heq2, hlong⟩
          · rw [heq1]
            simp only [heq2]
            rcases h2.laid.emit_cases hp hproom (Converted.not_mem_pair hac hp hnew hl h1 h2)
              (Converted.covers_pair hl h1 h2) hroom2 htotal with
              ⟨c3, heq3, hl3⟩ | ⟨c3, heq3, hlong⟩
            · refine .inl ⟨c3, p :: order2, heq3, Converted.parent hl h1 h2 hl3, fun i hi => ?_⟩
              rcases List.mem_cons.mp hi with rfl | hi
              · exact hproom
              · exact hroom2 i hi
            · exact .inr ⟨c3, heq3, hlong⟩
          · rw [heq1]
            simp only [heq2]
            exact .inr ⟨c2, rfl, hlong⟩
        · rw [heq1]
          exact .inr ⟨c1, rfl, hlong⟩

end Conversion

namespace Blocks

/-- The same flow graph: offsets and extra jumps do not count. -/
structure SameGraph (h h' : Blocks) : Prop where
  next : h'.next = h.next
  jt : ∀ i, (h'.block i).jt = (h.block i).jt
  jf : ∀ i, (h'.block i).jf = (h.block i).jf
  test : ∀ i, h'.test i = h.test i

namespace SameGraph

variable {h h' h'' : Blocks}

theorem refl (h : Blocks) : h.SameGraph h := ⟨rfl, fun _ => rfl, fun _ => rfl, fun _ => rfl⟩

theorem trans (hs : h.SameGraph h') (hs' : h'.SameGraph h'') : h.SameGraph h'' :=
  ⟨hs'.next.trans hs.next, fun i => (hs'.jt i).trans (hs.jt i),
    fun i => (hs'.jf i).trans (hs.jf i), fun i => (hs'.test i).trans (hs.test i)⟩

theorem leads_iff (hs : h.SameGraph h') {i j : Nat} : h'.Leads i j ↔ h.Leads i j := by
  rw [Leads, Leads, hs.jt, hs.jf]

theorem acyclic (hs : h.SameGraph h') {rank : Nat → Nat} {bs : List Nat}
    (hac : h.Acyclic rank bs) : h'.Acyclic rank bs := by
  intro i hi
  rw [hs.next, hs.jt, hs.jf]
  exact hac i hi

theorem graph_eq (hs : h.SameGraph h') (i : Nat) : h'.graph i = h.graph i := by
  have hs' : (h'.block i).s = (h.block i).s := congrArg BlockTest.s (hs.test i)
  rw [graph, graph, hs.jt, hs.jf, hs.test, hs']

end SameGraph

theorem Relaid.sameGraph {h h' : Blocks} (hr : h.Relaid h') : h.SameGraph h' := by
  refine ⟨hr.next, hr.jt_eq, hr.jf_eq, fun i => ?_⟩
  obtain ⟨o, ho⟩ := hr.block i
  rw [test, test, ho]

theorem lengthenJt_sameGraph (h : Blocks) (p : Nat) : h.SameGraph (h.lengthenJt p) := by
  refine ⟨rfl, fun i => ?_, fun i => ?_, fun i => ?_⟩ <;>
    by_cases hi : i = p <;> simp [lengthenJt, update, test, hi]

theorem lengthenJf_sameGraph (h : Blocks) (p : Nat) : h.SameGraph (h.lengthenJf p) := by
  refine ⟨rfl, fun i => ?_, fun i => ?_, fun i => ?_⟩ <;>
    by_cases hi : i = p <;> simp [lengthenJf, update, test, hi]

/-- The branches of the first `n` blocks that may still be made long. -/
def shorts (h : Blocks) (n : Nat) : Nat :=
  ∑ i ∈ Finset.range n,
    ((if (h.block i).longjt = 0 then 1 else 0) + if (h.block i).longjf = 0 then 1 else 0)

theorem shorts_le (h : Blocks) (n : Nat) : h.shorts n ≤ 2 * n := by
  calc h.shorts n ≤ ∑ _i ∈ Finset.range n, 2 :=
        Finset.sum_le_sum fun i _ => by split <;> split <;> omega
    _ = 2 * n := by simp [Nat.mul_comm]

theorem Relaid.long_eq {h h' : Blocks} (hr : h.Relaid h') (i : Nat) :
    (h'.block i).longjt = (h.block i).longjt ∧ (h'.block i).longjf = (h.block i).longjf := by
  obtain ⟨o, ho⟩ := hr.block i
  rw [ho]
  exact ⟨rfl, rfl⟩

/-- No branch has been made long twice. -/
def LongOnce (h h' : Blocks) : Prop :=
  ∀ i, (h'.block i).longjt ≤ max (h.block i).longjt 1 ∧
    (h'.block i).longjf ≤ max (h.block i).longjf 1

theorem LongOnce.refl (h : Blocks) : h.LongOnce h :=
  fun _ => ⟨Nat.le_max_left _ _, Nat.le_max_left _ _⟩

theorem LongOnce.size_le {h h' : Blocks} (hlong : h.LongOnce h') (hs : h.SameGraph h') (i : Nat) :
    h'.size i ≤ h.bound i := by
  have hstmts : (h'.block i).stmts = (h.block i).stmts := congrArg BlockTest.stmts (hs.test i)
  have := hlong i
  rw [size, bound, slength, hstmts]
  omega

namespace Lengthened

variable {h h' : Blocks} {bs : List Nat}

theorem longOnce {h0 : Blocks} (hlong : h.Lengthened h' bs) (h0h : h0.LongOnce h) :
    h0.LongOnce h' := by
  obtain ⟨h1, hr, p, -, -, hcase⟩ := hlong
  intro i
  have hi := h0h i
  rw [← (hr.long_eq i).1, ← (hr.long_eq i).2] at hi
  by_cases hip : i = p
  · subst hip
    rw [← (hr.long_eq i).1, ← (hr.long_eq i).2] at hcase
    rcases hcase with ⟨hzero, rfl⟩ | ⟨hzero, rfl⟩ <;>
      simp only [lengthenJt, lengthenJf, update, if_true, hzero] at hi ⊢ <;> omega
  · rcases hcase with ⟨-, rfl⟩ | ⟨-, rfl⟩ <;>
      simpa only [lengthenJt, lengthenJf, update, if_neg hip] using hi

theorem sameGraph (hlong : h.Lengthened h' bs) : h.SameGraph h' := by
  obtain ⟨h1, hr, p, -, -, ⟨-, rfl⟩ | ⟨-, rfl⟩⟩ := hlong
  · exact hr.sameGraph.trans (lengthenJt_sameGraph h1 p)
  · exact hr.sameGraph.trans (lengthenJf_sameGraph h1 p)

theorem shorts_lt (hlong : h.Lengthened h' bs) {n : Nat} (hbs : ∀ i ∈ bs, i < n) :
    h'.shorts n < h.shorts n := by
  obtain ⟨h1, hr, p, hp, -, hcase⟩ := hlong
  refine Finset.sum_lt_sum (fun i _ => ?_) ⟨p, Finset.mem_range.mpr (hbs p hp), ?_⟩
  · have hi := hr.long_eq i
    rcases hcase with ⟨hzero, rfl⟩ | ⟨hzero, rfl⟩ <;> by_cases hip : i = p <;>
      simp [lengthenJt, lengthenJf, update, hip, hi, (hr.long_eq p)]
  · have hlp := hr.long_eq p
    rcases hcase with ⟨hzero, rfl⟩ | ⟨hzero, rfl⟩ <;>
      simp [lengthenJt, lengthenJf, update, hlp, hzero]

end Lengthened

theorem Relaid.leavesShort {h h' : Blocks} {bs : List Nat} (hr : h.Relaid h')
    (hs : h.LeavesShort bs) : h'.LeavesShort bs := by
  intro i hi hjt
  rw [hr.jt_eq] at hjt
  rw [(hr.long_eq i).1, (hr.long_eq i).2]
  exact hs i hi hjt

theorem Lengthened.leavesShort {h h' : Blocks} {bs : List Nat} (hlong : h.Lengthened h' bs)
    (hs : h.LeavesShort bs) : h'.LeavesShort bs := by
  intro i hi hleaf
  rw [hlong.sameGraph.jt] at hleaf
  obtain ⟨h1, hr, p, -, hjt, hcase⟩ := hlong
  have hne : i ≠ p := fun hip => hjt (hip ▸ hleaf)
  have hi1 := hr.leavesShort hs i hi (hr.jt_eq i ▸ hleaf)
  rcases hcase with ⟨-, rfl⟩ | ⟨-, rfl⟩ <;> simpa [lengthenJt, lengthenJf, update, hne] using hi1

end Blocks

open Blocks

/-- The array and the blocks that stand in it: those of the graph, laid out from the root on. -/
structure Laid (h : Blocks) (root : Nat) (bs : List Nat) (program : List Insn) (h' : Blocks)
    (order : List Nat) : Prop where
  sameGraph : h.SameGraph h'
  leavesShort : h'.LeavesShort bs
  layout : h'.Layout program.length (root :: order) program
  mem : ∀ i ∈ root :: order, i ∈ bs

/-- A round lays out the whole graph, or makes one branch long. -/
theorem icodeRound_cases {h : Blocks} {rank : Nat → Nat} {bs : List Nat}
    (hac : h.Acyclic rank bs) (hshort : h.LeavesShort bs) {root : Nat} (hroot : root ∈ bs)
    (hrank : rank root ≤ h.next) :
    (∃ program h' order, icodeRound root h = .ok (.done program) ∧ h.Relaid h' ∧
        Laid h root bs program h' order) ∨
      ∃ h', icodeRound root h = .ok (.next h') ∧ h.Lengthened h' bs := by
  have hcount : h.Counts (fun _ => False) (some root) [] _ _ :=
    count_stmts_counts hac (h.next + 1) (some root) [] _
      (fun p hp => by
        cases hp
        exact ⟨hroot, by omega, fun _ h => h.elim⟩)
      fun i hi => by simp at hi
  rw [icodeRound]
  generalize h.count_stmts (h.next + 1) (some root) [] = count at hcount ⊢
  have hroom : ∀ i ∈ count.2, ∀ j, h.Leads i j → j ∈ count.2 := fun i hi j hj =>
    List.mem_toFinset.mp (hcount.closed i (List.mem_toFinset.mpr hi) id j hj)
  have htotal : ∑ i ∈ count.2.toFinset, h.size i = count.1 := by
    rw [← hcount.sum]
    simp
  rcases Conversion.convert_code_r_cases hac hroom htotal (h.next + 1) (some root) ⟨h, [], []⟩
    (fun _ => False) []
    (fun p hp => by
      cases hp
      exact ⟨hroot, hcount.covers root rfl, by omega, fun _ h => h.elim⟩)
    ⟨.refl h, .nil, fun i => by simp⟩ (fun i hi => by cases hi) with
    ⟨c, order, heq, hc, horder⟩ | ⟨c, heq, hlong⟩
  · obtain ⟨rest, rfl⟩ := hc.first root rfl (by simp)
    -- what was counted has been laid out, so nothing of the room is left
    have hall : count.2.toFinset = (root :: rest).toFinset := by
      ext i
      rw [List.mem_toFinset, List.mem_toFinset]
      refine ⟨fun hi => ?_, horder i⟩
      refine (hcount.least (· ∈ root :: rest) (fun p hp => hc.covers p hp) (fun i j hi hij => ?_)
        i hi).resolve_left (by simp)
      exact hc.laid.layout.leads_mem hi (hc.laid.relaid.leads_iff.mpr hij)
    have hlength : c.ftail.length = count.1 := by
      rw [hc.laid.layout.length_eq, ← htotal, hall]
      exact Finset.sum_congr rfl fun i _ => hc.laid.relaid.size_eq i
    refine .inl ⟨c.ftail, c.blocks, rest, ?_, hc.laid.relaid, hc.laid.relaid.sameGraph,
      hc.laid.relaid.leavesShort hshort, hlength ▸ hc.laid.layout, fun i hi => ?_⟩
    · simp only [heq, hlength, Nat.sub_self, List.replicate_zero, List.nil_append]
    · exact (hc.least (· ∈ bs) (fun p hp => Option.some.inj hp ▸ hroot)
        (fun i j hi hij => (hac.mem_of_leads hi hij).1) i hi).resolve_left List.not_mem_nil
  · refine .inr ⟨c.blocks, ?_, hlong⟩
    simp only [heq]

/-- The array is no longer than what the blocks come to at most. -/
theorem Laid.length_le {h h' : Blocks} {root : Nat} {bs order : List Nat} {program : List Insn}
    (hl : Laid h root bs program h' order) (hbs : ∀ i ∈ bs, i < h.next)
    (hsize : ∀ i, h'.size i ≤ h.bound i) : program.length ≤ h.instructions := by
  have hsub : (root :: order).toFinset ⊆ Finset.range h.next := fun i hi =>
    Finset.mem_range.mpr (hbs i (hl.mem i (List.mem_toFinset.mp hi)))
  calc program.length = ∑ i ∈ (root :: order).toFinset, h'.size i := hl.layout.length_eq
    _ ≤ ∑ i ∈ (root :: order).toFinset, h.bound i := Finset.sum_le_sum fun i _ => hsize i
    _ ≤ h.instructions := Finset.sum_le_sum_of_subset hsub

/-- `icode_to_fcode` comes to an end: no branch is made long twice. The array that it makes holds
the code of every block of the graph in place, that of the root at the beginning. -/
theorem icode_to_fcode_laid {h : Blocks} {rank : Nat → Nat} {bs : List Nat}
    (hac : h.Acyclic rank bs) (hshort : h.LeavesShort bs) {root : Nat} (hroot : root ∈ bs)
    (hrank : rank root ≤ h.next) :
    ∃ program h' order, icode_to_fcode (2 * h.next + 1) root h = some (.ok program) ∧
      Laid h root bs program h' order ∧ program.length ≤ h.instructions := by
  let Retried := fun h1 => h.SameGraph h1 ∧ h1.LeavesShort bs ∧ h.LongOnce h1
  have hround : ∀ h1, Retried h1 → _ := fun h1 hs =>
    icodeRound_cases (hs.1.acyclic hac) hs.2.1 hroot (hs.1.next ▸ hrank)
  have hnext : ∀ h1 h2, Retried h1 → icodeRound root h1 = .ok (.next h2) →
      h1.Lengthened h2 bs := fun h1 h2 hs hb => by
    rcases hround h1 hs with ⟨program, h', order, heq, -⟩ | ⟨h', heq, hlong⟩ <;> rw [heq] at hb
    · cases hb
    · cases hb
      exact hlong
  have hkept : ∀ h1 h2, Retried h1 → icodeRound root h1 = .ok (.next h2) → Retried h2 :=
    fun h1 h2 hs hb =>
      ⟨hs.1.trans (hnext h1 h2 hs hb).sameGraph, (hnext h1 h2 hs hb).leavesShort hs.2.1,
        (hnext h1 h2 hs hb).longOnce hs.2.2⟩
  have hstart : Retried h := ⟨.refl h, hshort, .refl h⟩
  have hsome : (icode_to_fcode (2 * h.next + 1) root h).isSome :=
    Loop.run_isSome_of_invariant (P := Retried) (fun h1 => h1.shorts h.next)
      (fun h1 h2 hs hb => ⟨hkept h1 h2 hs hb, (hnext h1 h2 hs hb).shorts_lt fun i hi =>
        (hac i hi).1⟩) hstart (Nat.lt_succ_of_le (h.shorts_le h.next))
  obtain ⟨r, hr⟩ := Option.isSome_iff_exists.mp hsome
  have hresult := Loop.Ends.of_invariant (P := Retried)
    (Q := fun r => ∃ program h' order, r = .ok program ∧ Laid h root bs program h' order ∧
      program.length ≤ h.instructions) hkept
    (fun h1 e hs hb => by
      rcases hround h1 hs with ⟨program, h', order, heq, -⟩ | ⟨h', heq, -⟩ <;> rw [heq] at hb <;>
        cases hb)
    (fun h1 program hs hb => by
      rcases hround h1 hs with ⟨program', h', order, heq, hr, hl⟩ | ⟨h', heq, -⟩ <;>
        rw [heq] at hb
      · cases hb
        have hlaid : Laid h root bs program h' order :=
          ⟨hs.1.trans hl.sameGraph, hl.leavesShort, hl.layout, hl.mem⟩
        refine ⟨program, h', order, rfl, hlaid, hlaid.length_le (fun i hi => (hac i hi).1) ?_⟩
        exact fun i => (hr.size_eq i).trans_le (hs.2.2.size_le hs.1 i)
      · cases hb)
    hstart ⟨_, hr⟩
  obtain ⟨program, h', order, rfl, hl⟩ := hresult
  exact ⟨program, h', order, hr, hl⟩

end Bpf

end Jxnet
