import Jxnet.Bpf.Chunks

namespace Jxnet

open Budget ShortCircuit

namespace Bpf

namespace Blocks

/-- Between `lo` and `hi` there are the blocks of a fragment for the condition. -/
def Span (h : Blocks) (lo hi b : Nat) (c : Condition) : Prop :=
  ∃ bs T F, h.Frag b c bs T F ∧ ∀ i ∈ bs, lo ≤ i ∧ i < hi

/-- Between `lo` and `hi` there are two fragments that share no block. -/
def Apart (h : Blocks) (lo hi b0 b1 : Nat) (c0 c1 : Condition) : Prop :=
  ∃ bs0 T0 F0 bs1 T1 F1, h.Frag b0 c0 bs0 T0 F0 ∧ h.Frag b1 c1 bs1 T1 F1 ∧
    (∀ i ∈ bs0, i ∉ bs1) ∧ ∀ i ∈ bs1 ++ bs0, lo ≤ i ∧ i < hi

/-- Nothing but the blocks between `lo` and `hi` differs. -/
structure Only (h h' : Blocks) (lo hi : Nat) : Prop where
  next : h'.next = h.next
  block : ∀ i, i < lo ∨ hi ≤ i → h'.block i = h.block i

variable {h h' : Blocks} {lo mid hi b b0 b1 : Nat} {c c0 c1 : Condition}

theorem Span.congr (hs : h.Span lo hi b c)
    (hblock : ∀ i, lo ≤ i → i < hi → h'.block i = h.block i) (hnext : h.next ≤ h'.next) :
    h'.Span lo hi b c := by
  obtain ⟨bs, T, F, hf, hbs⟩ := hs
  exact ⟨bs, T, F, hf.congr (fun i hi => hblock i (hbs i hi).1 (hbs i hi).2) hnext, hbs⟩

theorem Span.mono (hs : h.Span lo hi b c) {lo' hi' : Nat} (hlo : lo' ≤ lo) (hhi : hi ≤ hi') :
    h.Span lo' hi' b c := by
  obtain ⟨bs, T, F, hf, hbs⟩ := hs
  exact ⟨bs, T, F, hf, fun i hi => ⟨hlo.trans (hbs i hi).1, Nat.lt_of_lt_of_le (hbs i hi).2 hhi⟩⟩

theorem Span.apart (h0 : h.Span lo mid b0 c0) (h1 : h.Span mid hi b1 c1) (hlo : lo ≤ mid)
    (hhi : mid ≤ hi) : h.Apart lo hi b0 b1 c0 c1 := by
  obtain ⟨bs0, T0, F0, hf0, hbs0⟩ := h0
  obtain ⟨bs1, T1, F1, hf1, hbs1⟩ := h1
  refine ⟨bs0, T0, F0, bs1, T1, F1, hf0, hf1, fun i hi hi' => ?_, fun i hi => ?_⟩
  · have := (hbs0 i hi).2
    have := (hbs1 i hi').1
    omega
  · rcases List.mem_append.mp hi with hi | hi
    · have := hbs1 i hi
      omega
    · have := hbs0 i hi
      omega

theorem Apart.symm (ha : h.Apart lo hi b0 b1 c0 c1) : h.Apart lo hi b1 b0 c1 c0 := by
  obtain ⟨bs0, T0, F0, bs1, T1, F1, hf0, hf1, hdisj, hbs⟩ := ha
  exact ⟨bs1, T1, F1, bs0, T0, F0, hf1, hf0, fun i hi hi' => hdisj i hi' hi, fun i hi =>
    hbs i (List.mem_append.mpr (List.mem_append.mp hi).symm)⟩

theorem Span.not (hs : h.Span lo hi b c) :
    (h.flipSense b).Span lo hi b (.not c) ∧ h.Only (h.flipSense b) lo hi := by
  obtain ⟨bs, T, F, hf, hbs⟩ := hs
  refine ⟨⟨bs, F, T, hf.flip, hbs⟩, rfl, fun i hi => block_flipSense_of_ne h b fun hib => ?_⟩
  have := hbs b hf.mem
  omega

theorem length_le_of_disjoint {bs0 bs1 : List Nat} {n : Nat} (hnd0 : bs0.Nodup) (hnd1 : bs1.Nodup)
    (hdisj : ∀ i ∈ bs0, i ∉ bs1) (hlt : ∀ i ∈ bs1 ++ bs0, i < n) :
    bs1.length + bs0.length ≤ n := by
  have hnd : (bs1 ++ bs0).Nodup := List.nodup_append.mpr
    ⟨hnd1, hnd0, fun i hi j hj hij => hdisj j hj (hij ▸ hi)⟩
  have := length_le_next_of_nodup hnd hlt
  rwa [List.length_append] at this

theorem Apart.and (ha : h.Apart lo hi b0 b1 c0 c1) (hhi : hi ≤ h.next) :
    (h.gen_and b0 b1).Span lo hi b1 (.and c0 c1) ∧ h.Only (h.gen_and b0 b1) lo hi := by
  obtain ⟨bs0, T0, F0, bs1, T1, F1, hf0, hf1, hdisj, hbs⟩ := ha
  have hfits := length_le_of_disjoint hf0.nodup hf1.nodup hdisj fun i hi =>
    Nat.lt_of_lt_of_le (hbs i hi).2 hhi
  have heq := gen_and_eq hf0 hf1 hdisj
  refine ⟨⟨_, _, _, hf0.and hf1 hdisj hfits, hbs⟩, ?_, fun i hi => ?_⟩
  · rw [heq]
    simp
  · have hout : i ∉ bs1 ++ bs0 := fun hmem => by
      have := hbs i hmem
      omega
    have hi1 := fun (h : i ∈ bs1) => hout (List.mem_append_left bs0 h)
    have hi0 := fun (h : i ∈ bs0) => hout (List.mem_append_right bs1 h)
    have hlast := hf1.fst_mem_false (List.getLast_mem hf1.nonempty.2)
    have hnelast : i ≠ (F1.getLast hf1.nonempty.2).1 := fun hb => hi1 (hb ▸ hlast)
    have hneT : ∀ e ∈ T0, e.1 ≠ i := fun e he hb => hi0 (hb ▸ hf0.fst_mem_true he)
    have hne0 : i ≠ b0 := fun hb => hi0 (hb ▸ hf0.mem)
    have hne1 : i ≠ b1 := fun hb => hi1 (hb ▸ hf1.mem)
    rw [heq, block_flipSense_of_ne _ _ hne0, block_setHead_of_ne _ _ hne1,
      block_setSucc_of_ne _ _ _ hnelast, block_resolve_of_notMem _ _ _ hneT]

theorem Apart.or (ha : h.Apart lo hi b0 b1 c0 c1) (hhi : hi ≤ h.next) :
    (h.gen_or b0 b1).Span lo hi b1 (.or c0 c1) ∧ h.Only (h.gen_or b0 b1) lo hi := by
  obtain ⟨bs0, T0, F0, bs1, T1, F1, hf0, hf1, hdisj, hbs⟩ := ha
  have hfits := length_le_of_disjoint hf0.nodup hf1.nodup hdisj fun i hi =>
    Nat.lt_of_lt_of_le (hbs i hi).2 hhi
  have heq := gen_or_eq hf0 hf1 hdisj
  refine ⟨⟨_, _, _, hf0.or hf1 hdisj hfits, hbs⟩, ?_, fun i hi => ?_⟩
  · rw [heq]
    simp
  · have hout : i ∉ bs1 ++ bs0 := fun hmem => by
      have := hbs i hmem
      omega
    have hi1 := fun (h : i ∈ bs1) => hout (List.mem_append_left bs0 h)
    have hi0 := fun (h : i ∈ bs0) => hout (List.mem_append_right bs1 h)
    have hlast := hf1.fst_mem_true (List.getLast_mem hf1.nonempty.1)
    have hnelast : i ≠ (T1.getLast hf1.nonempty.1).1 := fun hb => hi1 (hb ▸ hlast)
    have hneF : ∀ e ∈ F0, e.1 ≠ i := fun e he hb => hi0 (hb ▸ hf0.fst_mem_false he)
    have hne1 : i ≠ b1 := fun hb => hi1 (hb ▸ hf1.mem)
    rw [heq, block_setHead_of_ne _ _ hne1, block_setSucc_of_ne _ _ _ hnelast,
      block_resolve_of_notMem _ _ _ hneF]

end Blocks

/-- Blocks are added, and the old ones are left alone. -/
structure Blocks.Grows (h h' : Blocks) : Prop where
  grows : h.next ≤ h'.next
  old : ∀ i < h.next, h'.block i = h.block i

theorem Blocks.Grows.refl (h : Blocks) : h.Grows h := ⟨Nat.le_refl _, fun _ _ => rfl⟩

theorem Blocks.Grows.trans {h h1 h2 : Blocks} (h0 : h.Grows h1) (hb : h1.Grows h2) : h.Grows h2 :=
  ⟨h0.grows.trans hb.grows, fun i hi =>
    (hb.old i (Nat.lt_of_lt_of_le hi h0.grows)).trans (h0.old i hi)⟩

/-- What generating the code for a condition does to the blocks: the new ones decide the
condition. -/
structure Built (h h' : Blocks) (b : Nat) (c : Condition) : Prop extends h.Grows h' where
  span : h'.Span h.next h'.next b c

namespace Built

variable {h h1 h2 h' : Blocks} {b b0 b1 : Nat} {c c0 c1 : Condition}

/-- A fragment survives what is built after it. -/
theorem later (h0 : Built h h1 b0 c0) (hg : h1.Grows h2) : h2.Span h.next h1.next b0 c0 :=
  h0.span.congr (fun i _ hi => hg.old i hi) hg.grows

/-- A change to the new blocks. -/
theorem of_only {lo : Nat} (hb : Built h h1 b0 c0) (hlo : h.next ≤ lo)
    (ho : h1.Only h' lo h1.next) (hs : h'.Span h.next h1.next b c) : Built h h' b c := by
  refine ⟨⟨ho.next ▸ hb.grows, fun i hi => ?_⟩, ho.next ▸ hs⟩
  rw [ho.block i (.inl (Nat.lt_of_lt_of_le hi hlo)), hb.old i hi]

theorem not (hb : Built h h1 b c) : Built h (h1.flipSense b) b (.not c) :=
  hb.of_only (Nat.le_refl _) hb.span.not.2 hb.span.not.1

/-- Blocks that were there before. -/
theorem prepend (hg : h.Grows h1) (hb : Built h1 h2 b c) : Built h h2 b c :=
  ⟨hg.trans hb.toGrows, hb.span.mono hg.grows (Nat.le_refl _)⟩

/-- Blocks that come after. -/
theorem append (hb : Built h h1 b c) (hg : h1.Grows h2) : Built h h2 b c :=
  ⟨hb.toGrows.trans hg, (hb.later hg).mono (Nat.le_refl _) hg.grows⟩

theorem trans (h0 : Built h h1 b0 c0) (hb : Built h1 h2 b1 c1) : Built h h2 b1 c1 :=
  hb.prepend h0.toGrows

theorem apart (h0 : Built h h1 b0 c0) (hb : Built h1 h2 b1 c1) :
    h2.Apart h.next h2.next b0 b1 c0 c1 :=
  (h0.later hb.toGrows).apart hb.span h0.grows hb.grows

theorem and (h0 : Built h h1 b0 c0) (hb : Built h1 h2 b1 c1) :
    Built h (h2.gen_and b0 b1) b1 (.and c0 c1) := by
  obtain ⟨hs, ho⟩ := (h0.apart hb).and (Nat.le_refl _)
  exact (h0.trans hb).of_only (Nat.le_refl _) ho hs

/-- The second operand generated first. -/
theorem and_rev (hb : Built h h1 b1 c1) (h0 : Built h1 h2 b0 c0) :
    Built h (h2.gen_and b0 b1) b1 (.and c0 c1) := by
  obtain ⟨hs, ho⟩ := (hb.apart h0).symm.and (Nat.le_refl _)
  exact (hb.trans h0).of_only (Nat.le_refl _) ho hs

theorem or (h0 : Built h h1 b0 c0) (hb : Built h1 h2 b1 c1) :
    Built h (h2.gen_or b0 b1) b1 (.or c0 c1) := by
  obtain ⟨hs, ho⟩ := (h0.apart hb).or (Nat.le_refl _)
  exact (h0.trans hb).of_only (Nat.le_refl _) ho hs

theorem or_rev (hb : Built h h1 b1 c1) (h0 : Built h1 h2 b0 c0) :
    Built h (h2.gen_or b0 b1) b1 (.or c0 c1) := by
  obtain ⟨hs, ho⟩ := (hb.apart h0).symm.or (Nat.le_refl _)
  exact (hb.trans h0).of_only (Nat.le_refl _) ho hs

/-- Two conditions joined after a third was built, and put in front of it. -/
theorem and_and {h3 : Blocks} {b2 : Nat} {c2 : Condition} (h0 : Built h h1 b0 c0)
    (hb : Built h1 h2 b1 c1) (hc : Built h2 h3 b2 c2) :
    Built h ((h3.gen_and b0 b1).gen_and b1 b2) b2 (.and (.and c0 c1) c2) := by
  have hg := hb.toGrows.trans hc.toGrows
  have hle := h0.grows.trans hb.grows
  obtain ⟨hs, ho⟩ := ((h0.later hg).apart (hb.later hc.toGrows) h0.grows hb.grows).and hc.grows
  have hs2 : (h3.gen_and b0 b1).Span h2.next h3.next b2 c2 :=
    hc.span.congr (fun i hi _ => ho.block i (.inr hi)) (Nat.le_of_eq ho.next.symm)
  obtain ⟨hs', ho'⟩ := (hs.apart hs2 hle hc.grows).and (Nat.le_of_eq ho.next.symm)
  have hnext : ((h3.gen_and b0 b1).gen_and b1 b2).next = h3.next := ho'.next.trans ho.next
  refine ⟨⟨hnext ▸ hle.trans hc.grows, fun i hi => ?_⟩, hnext ▸ hs'⟩
  rw [ho'.block i (.inl hi), ho.block i (.inl hi), (h0.toGrows.trans hg).old i hi]

/-- A block with statements and a branch. -/
theorem test (h : Blocks) (stmts : List Stmt) (s : Stmt) :
    Built h (h.withTest stmts s) h.next (.test ⟨stmts, s⟩) := by
  refine ⟨⟨Nat.le_succ _, fun i hi => ?_⟩, [h.next], [(h.next, true)], [(h.next, false)], ?_,
    fun i hi => ?_⟩
  · have hne : i ≠ h.next := Nat.ne_of_lt hi
    simp [Blocks.withTest, Blocks.setK, Blocks.setStmts, Blocks.newBlock, Blocks.update, hne]
  · refine ⟨?_, List.nodup_singleton _, ?_, ?_, ⟨by simp, by simp⟩, by simp, ?_⟩
    · simp [Blocks.Open, Blocks.withTest, Blocks.setK, Blocks.setStmts, Blocks.newBlock,
        Blocks.update, Blocks.test]
    · simp [Blocks.Follows, Blocks.withTest, Blocks.setK, Blocks.setStmts, Blocks.newBlock,
        Blocks.update, Blocks.link, Blocks.succ]
    · simp [Blocks.Follows, Blocks.withTest, Blocks.setK, Blocks.setStmts, Blocks.newBlock,
        Blocks.update, Blocks.link, Blocks.succ, Blocks.flipSense]
    · show 1 ≤ h.next + 1
      omega
  · have hi' := List.mem_singleton.mp hi
    show h.next ≤ i ∧ i < h.next + 1
    omega

end Built

namespace Blocks

/-- The flow graph on the blocks `bs` has no cycle: the rank drops along every jump, and the other
blocks end the program. -/
def Acyclic (h : Blocks) (rank : Nat → Nat) (bs : List Nat) : Prop :=
  ∀ i ∈ bs, i < h.next ∧
    (((h.block i).jt = none ∧ (h.block i).jf = none) ∨
      ∃ a b, (h.block i).jt = some a ∧ (h.block i).jf = some b ∧ a ∈ bs ∧ b ∈ bs ∧
        rank a < rank i ∧ rank b < rank i)

/-- The blocks that end the program have no room for extra jumps. -/
def LeavesShort (h : Blocks) (bs : List Nat) : Prop :=
  ∀ i ∈ bs, (h.block i).jt = none → (h.block i).longjt = 0 ∧ (h.block i).longjf = 0

namespace Open

variable {h : Blocks} {c : Condition} {i : Nat} {bs : List Nat} {T F : List Edge}

theorem entry_mem (ho : h.Open c i bs T F) : i ∈ bs := by
  induction ho using Open.dual_induct with
  | test hq => exact List.mem_cons_self
  | not ho ih => exact ih
  | and hoa hob hm iha ihb => exact List.mem_append_right _ iha
  | or ho ih => exact ih

/-- Every block of the fragment carries a test of the condition. -/
theorem test_mem (ho : h.Open c i bs T F) {j : Nat} (hj : j ∈ bs) : h.test j ∈ c.tests := by
  induction ho using Open.dual_induct with
  | test hq =>
    rw [List.mem_singleton.mp hj, hq]
    exact List.mem_cons_self
  | not ho ih => exact ih hj
  | and hoa hob hm iha ihb =>
    rcases List.mem_append.mp hj with hj | hj
    · exact List.mem_append_right _ (ihb hj)
    · exact List.mem_append_left _ (iha hj)
  | or ho ih => exact ih hj

/-- The resolved fields lead from a later to an earlier place in the list of the blocks. -/
theorem descends (ho : h.Open c i bs T F) (hbs : bs.Nodup) {e : Edge} (he : e.1 ∈ bs)
    (hT : e ∉ T) (hF : e ∉ F) :
    ∃ j, h.succ e = some j ∧ j ∈ bs ∧ bs.idxOf j < bs.idxOf e.1 := by
  induction ho using Open.dual_induct with
  | @test q i hq =>
    obtain ⟨j, side⟩ := e
    have hj : j = i := List.mem_singleton.mp he
    subst hj
    cases side <;> simp at hT hF
  | not ho ih => exact ih hbs he hF hT
  | @and a b i m bsa bsb Ta Fa T Fb hoa hob hm iha ihb =>
    obtain ⟨hnb, hna, hab⟩ := List.nodup_append.mp hbs
    rcases List.mem_append.mp he with heb | hea
    · obtain ⟨j, hj, hjb, hlt⟩ := ihb hnb heb hT fun h => hF (List.mem_append_left Fa h)
      refine ⟨j, hj, List.mem_append_left bsa hjb, ?_⟩
      rwa [List.idxOf_append_of_mem hjb, List.idxOf_append_of_mem heb]
    · have hnot : ∀ j ∈ bsa, j ∉ bsb := fun j hj hj' => hab j hj' j hj rfl
      rw [List.idxOf_append_of_notMem (hnot e.1 hea)]
      by_cases hTa : e ∈ Ta
      · have hmb := hob.entry_mem
        refine ⟨m, hm e hTa, List.mem_append_left bsa hmb, ?_⟩
        rw [List.idxOf_append_of_mem hmb]
        have := List.idxOf_lt_length_of_mem hmb
        omega
      · obtain ⟨j, hj, hja, hlt⟩ := iha hna hea hTa fun h => hF (List.mem_append_right Fb h)
        refine ⟨j, hj, List.mem_append_right bsb hja, ?_⟩
        rw [List.idxOf_append_of_notMem (hnot j hja)]
        omega
  | or ho ih => exact ih hbs he hF hT

end Open

theorem block_setK_of_ne (h : Blocks) {b i : Nat} (hi : i ≠ b) (k : UInt) :
    (h.setK b k).block i = h.block i := if_neg hi

theorem block_newBlock_of_ne (h : Blocks) {i : Nat} (hi : i ≠ h.next) (code : UShort) :
    (h.newBlock code).block i = h.block i := if_neg hi

theorem block_retBlock_of_ne (h : Blocks) {i : Nat} (hi : i ≠ h.next) (v : UInt) :
    (h.retBlock v).block i = h.block i := by
  rw [retBlock, block_setK_of_ne _ hi, block_newBlock_of_ne _ hi]

theorem block_retBlock (h : Blocks) (v : UInt) :
    (h.retBlock v).block h.next =
      ⟨[], ⟨BPF_RET ||| BPF_K, v⟩, 0, 0, 0, false, none, none, h.next⟩ := by
  simp [retBlock, setK, update, newBlock]

end Blocks

/-- A finished flow graph for a condition: the entry block decides it, and leaves to a block that
returns `snaplen` or to one that returns 0. -/
structure Finished (h : Blocks) (root : Nat) (c : Condition) (snaplen : UInt) (rank : Nat → Nat)
    (bs : List Nat) : Prop where
  decides : ∃ t f, Decides h.graph c root t f ∧ h.graph t = some (.leaf snaplen) ∧
    h.graph f = some (.leaf 0)
  acyclic : h.Acyclic rank bs
  entry : root ∈ bs
  depth : rank root ≤ h.next
  leavesShort : h.LeavesShort bs
  branches : ∀ i ∈ bs, (h.block i).jt ≠ none → h.test i ∈ c.tests
  leaves : ∀ i ∈ bs, (h.block i).jt = none → ∃ v, h.graph i = some (.leaf v)

theorem finish_parse_within (snaplen : UInt) (p : Nat) (g : GenState) :
    InBlocks 2 g (finish_parse snaplen p g) fun root g' => Paid g g' ∧
      let h2 := ((g.blocks.retBlock snaplen).backpatch p g.blocks.next).flipSense p
      g'.blocks = (h2.retBlock 0).backpatch p h2.next ∧ root = (g'.blocks.block p).head := by
  refine (Within.bind (gen_retblk_within snaplen g) ?_ : InBlocks (1 + 1) _ _ _)
  rintro _ _ ⟨rfl, c1, rfl, h1⟩
  let h2 := ((g.blocks.retBlock snaplen).backpatch p g.blocks.next).flipSense p
  have hpaid1 : Paid g { g with chunks := c1, blocks := h2 } := (Paid.retBlock snaplen h1).onBlocks
    (((Blocks.Reconnected.refl _).backpatch p g.blocks.next).flipSense p)
  change InBlocks 1 _ ((do
    let reject ← gen_retblk 0
    onBlocks fun h => h.backpatch p reject
    return ((← get).blocks.block p).head : Gen Nat) { g with chunks := c1, blocks := h2 }) _
  refine .of_supply (Within.bind_pure (gen_retblk_within 0 _) ?_) rfl
  rintro _ _ ⟨rfl, c2, rfl, h⟩
  have hpaid2 := (Paid.retBlock 0 h).onBlocks ((Blocks.Reconnected.refl _).backpatch p h2.next)
  exact .done rfl ⟨hpaid1.trans hpaid2, rfl, rfl⟩ (Nat.le_refl _)

namespace Blocks

/-- The blocks behind `finish_parse`: the fields that are open are filled in, and the two blocks
that end the program are there. -/
def completed (h : Blocks) (snaplen : UInt) (p : Nat) (T F : List Edge) : Blocks :=
  ((((h.retBlock snaplen).resolve T h.next).flipSense p).retBlock 0).resolve F (h.next + 1)

section Completed

variable {h : Blocks} {p : Nat} {c : Condition} {bs : List Nat} {T F : List Edge}

theorem next_completed (h : Blocks) (snaplen : UInt) (p : Nat) (T F : List Edge) :
    (h.completed snaplen p T F).next = h.next + 2 := by
  rw [completed, next_resolve]
  show ((h.retBlock snaplen).resolve T h.next).next + 1 = _
  rw [next_resolve]
  rfl

/-- A block of the fragment before its false fields are filled in. -/
theorem block_retBlock_zero (h : Blocks) (snaplen : UInt) (p : Nat) (T : List Edge) {i : Nat}
    (hi : i < h.next) :
    ((((h.retBlock snaplen).resolve T h.next).flipSense p).retBlock 0).block i =
      (((h.retBlock snaplen).resolve T h.next).flipSense p).block i := by
  refine block_retBlock_of_ne _ ?_ 0
  have hnext : (((h.retBlock snaplen).resolve T h.next).flipSense p).next = h.next + 1 :=
    next_resolve _ T _
  omega

theorem succ_completed (snaplen : UInt) {e : Edge} (he : e.1 < h.next) :
    (h.completed snaplen p T F).succ e =
      if e ∈ F then some (h.next + 1) else if e ∈ T then some h.next else h.succ e := by
  rw [completed, succ_resolve]
  split
  · rfl
  · rw [succ, block_retBlock_zero h snaplen p T he, ← succ, succ_flipSense, succ_resolve]
    split
    · rfl
    · rw [succ, block_retBlock_of_ne h (Nat.ne_of_lt he), ← succ]

theorem test_completed (snaplen : UInt) {i : Nat} (hi : i < h.next) :
    (h.completed snaplen p T F).test i = h.test i := by
  rw [completed, test_resolve, test, block_retBlock_zero h snaplen p T hi, ← test, test_flipSense,
    test_resolve, test, block_retBlock_of_ne h (Nat.ne_of_lt hi), ← test]

theorem block_completed_accept (snaplen : UInt) (hp : p < h.next) (hT : ∀ e ∈ T, e.1 < h.next)
    (hF : ∀ e ∈ F, e.1 < h.next) :
    (h.completed snaplen p T F).block h.next =
      ⟨[], ⟨BPF_RET ||| BPF_K, snaplen⟩, 0, 0, 0, false, none, none, h.next⟩ := by
  have hnext : (((h.retBlock snaplen).resolve T h.next).flipSense p).next = h.next + 1 :=
    next_resolve _ T _
  rw [completed, block_resolve_of_notMem _ _ _ fun e he => Nat.ne_of_lt (hF e he),
    block_retBlock_of_ne _ (by omega), block_flipSense_of_ne _ p (Nat.ne_of_gt hp),
    block_resolve_of_notMem _ _ _ fun e he => Nat.ne_of_lt (hT e he), block_retBlock]

theorem block_completed_reject (snaplen : UInt) (hF : ∀ e ∈ F, e.1 < h.next) :
    (h.completed snaplen p T F).block (h.next + 1) =
      ⟨[], ⟨BPF_RET ||| BPF_K, 0⟩, 0, 0, 0, false, none, none, h.next + 1⟩ := by
  have hnext : (((h.retBlock snaplen).resolve T h.next).flipSense p).next = h.next + 1 :=
    next_resolve _ T _
  have hlast := block_retBlock (((h.retBlock snaplen).resolve T h.next).flipSense p) 0
  rw [hnext] at hlast
  rw [completed, block_resolve_of_notMem _ _ _ fun e he => by
    have := hF e he
    omega]
  exact hlast

theorem head_completed (snaplen : UInt) (hp : p < h.next) :
    ((h.completed snaplen p T F).block p).head = (h.block p).head := by
  rw [completed, head_resolve, block_retBlock_zero h snaplen p T hp, head_flipSense, head_resolve,
    block_retBlock_of_ne h (Nat.ne_of_lt hp)]

/-- The two calls of `backpatch` fill in the fields that are open. -/
theorem backpatch_completed (hf : h.Frag p c bs T F) (hbs : ∀ i ∈ bs, i < h.next) (snaplen : UInt) :
    let h2 := ((h.retBlock snaplen).backpatch p h.next).flipSense p
    (h2.retBlock 0).backpatch p h2.next = h.completed snaplen p T F := by
  have hret : (h.retBlock snaplen).Frag p c bs T F :=
    hf.congr (fun i hi => block_retBlock_of_ne h (Nat.ne_of_lt (hbs i hi)) _) (Nat.le_succ _)
  have hback : (h.retBlock snaplen).backpatch p h.next = (h.retBlock snaplen).resolve T h.next :=
    backpatchLoop_eq hret.onTrue hret.nodup_true hret.length_true h.next
  have hnext : (((h.retBlock snaplen).resolve T h.next).flipSense p).next = h.next + 1 :=
    next_resolve _ T _
  show (_ : Blocks).backpatch p _ = _
  rw [hback, hnext]
  have hfollows : ((((h.retBlock snaplen).resolve T h.next).flipSense p).retBlock 0).Follows
      (some p) F := by
    refine hret.onFalse.congr (fun e he => ?_) fun e he => ?_
    · rw [block_retBlock_zero h snaplen p T (hbs e.1 (hf.fst_mem_false he)), sense_flipSense,
        sense_flipSense, sense_resolve, sense_resolve]
    · rw [succ, block_retBlock_zero h snaplen p T (hbs e.1 (hf.fst_mem_false he)), ← succ,
        succ_flipSense, succ_flipSense, succ_resolve, if_neg fun hT => hf.disjoint hT he]
  refine backpatchLoop_eq hfollows hf.nodup_false ?_ (h.next + 1)
  refine hf.length_false.trans ?_
  show h.next ≤ (((h.retBlock snaplen).resolve T h.next).flipSense p).next + 1
  omega

theorem graph_of_ret {i hd : Nat} {v : UInt}
    (hi : h.block i = ⟨[], ⟨BPF_RET ||| BPF_K, v⟩, 0, 0, 0, false, none, none, hd⟩) :
    h.graph i = some (.leaf v) := by
  simp [graph, test, hi]

theorem open_completed (hf : h.Frag p c bs T F) (hbs : ∀ i ∈ bs, i < h.next) (snaplen : UInt) :
    (h.completed snaplen p T F).Open c (h.block p).head bs T F := by
  refine hf.opened.congr hf.nodup (fun i hi => test_completed snaplen (hbs i hi)) ?_
  intro e he hT hF
  rw [succ_completed snaplen (hbs e.1 he), if_neg hF, if_neg hT]

/-- The branches of a block of the fragment lead to the new blocks, or further down in it. -/
theorem exists_succ_completed (hf : h.Frag p c bs T F) (hbs : ∀ i ∈ bs, i < h.next)
    (snaplen : UInt) {i : Nat} (hi : i ∈ bs) (side : Bool) :
    ∃ j, (h.completed snaplen p T F).succ (i, side) = some j ∧
      (j = h.next ∨ j = h.next + 1 ∨ j ∈ bs ∧ bs.idxOf j < bs.idxOf i) := by
  rw [succ_completed snaplen (hbs i hi)]
  split
  · exact ⟨_, rfl, .inr (.inl rfl)⟩
  · rename_i hF
    split
    · exact ⟨_, rfl, .inl rfl⟩
    · rename_i hT
      obtain ⟨j, hj, hlower⟩ := hf.opened.descends hf.nodup hi hT hF
      exact ⟨j, hj, .inr (.inr hlower)⟩

end Completed

end Blocks

/-- The completed blocks are a finished graph. -/
theorem Blocks.finished_completed {h : Blocks} {p : Nat} {c : Condition} {bs : List Nat}
    {T F : List Edge} (hf : h.Frag p c bs T F) (hlt : ∀ i ∈ bs, i < h.next) (snaplen : UInt) :
    ∃ rank bs', Finished (h.completed snaplen p T F) (h.block p).head c snaplen rank bs' := by
  have hT : ∀ e ∈ T, e.1 < h.next := fun e he => hlt e.1 (hf.fst_mem_true he)
  have hF : ∀ e ∈ F, e.1 < h.next := fun e he => hlt e.1 (hf.fst_mem_false he)
  let t := h.next
  let f := h.next + 1
  let h4 := h.completed snaplen p T F
  have hopen : h4.Open c (h.block p).head bs T F := Blocks.open_completed hf hlt snaplen
  have hblockt := Blocks.block_completed_accept snaplen (hlt p hf.mem) hT hF
  have hblockf := Blocks.block_completed_reject (p := p) (T := T) snaplen hF
  have hleaft : h4.graph t = some (.leaf snaplen) := Blocks.graph_of_ret hblockt
  have hleaff : h4.graph f = some (.leaf 0) := Blocks.graph_of_ret hblockf
  have hnext : (h.completed snaplen p T F).next = h.next + 2 :=
    Blocks.next_completed _ snaplen p T F
  -- the two new blocks at the bottom, above them the fragment in the order of its blocks
  let rank := fun i => if i = t ∨ i = f then 0 else bs.idxOf i + 1
  have hrank : ∀ i ∈ bs, rank i = bs.idxOf i + 1 := fun i hi => if_neg fun h => by
    have := hlt i hi
    omega
  have hsucc : ∀ i ∈ bs, ∀ side, ∃ j, h4.succ (i, side) = some j ∧ j ∈ bs ++ [t, f] ∧
      rank j < rank i := by
    intro i hi side
    obtain ⟨j, hj, hlower⟩ := Blocks.exists_succ_completed hf hlt snaplen hi side
    refine ⟨j, hj, ?_⟩
    rw [hrank i hi]
    rcases hlower with rfl | rfl | ⟨hjbs, hlower⟩
    · exact ⟨by simp [t], by simp [rank, t]⟩
    · exact ⟨by simp [f], by simp [rank, f]⟩
    · rw [hrank j hjbs]
      exact ⟨List.mem_append_left _ hjbs, Nat.succ_lt_succ hlower⟩
  refine ⟨rank, bs ++ [t, f], ?_, ?_, ?_, ?_, ?_, ?_, ?_⟩
  · exact ⟨t, f, hopen.decides
      (fun e he => by
        rw [Blocks.succ_completed snaplen (hT e he), if_neg fun hF => hf.disjoint he hF, if_pos he])
      (fun e he => by rw [Blocks.succ_completed snaplen (hF e he), if_pos he]),
      hleaft, hleaff⟩
  · intro i hi
    rcases List.mem_append.mp hi with hi | hi
    · obtain ⟨a, ha, hamem, hra⟩ := hsucc i hi true
      obtain ⟨b, hb, hbmem, hrb⟩ := hsucc i hi false
      refine ⟨?_, .inr ⟨a, b, ha, hb, hamem, hbmem, hra, hrb⟩⟩
      have := hlt i hi
      omega
    · rcases List.mem_pair.mp hi with rfl | rfl
      · exact ⟨by omega, .inl ⟨by rw [hblockt], by rw [hblockt]⟩⟩
      · exact ⟨by omega, .inl ⟨by rw [hblockf], by rw [hblockf]⟩⟩
  · exact List.mem_append_left _ hf.opened.entry_mem
  · have hentry := hf.opened.entry_mem
    have hidx := List.idxOf_lt_length_of_mem hentry
    have hlength := Blocks.length_le_next_of_nodup hf.nodup hlt
    rw [hrank _ hentry, hnext]
    omega
  · intro i hi hleaf
    rcases List.mem_append.mp hi with hi' | hi'
    · obtain ⟨a, ha, -⟩ := hsucc i hi' true
      exact absurd (ha.symm.trans hleaf) (Option.some_ne_none a)
    · rcases List.mem_pair.mp hi' with rfl | rfl
      · rw [hblockt]
        exact ⟨rfl, rfl⟩
      · rw [hblockf]
        exact ⟨rfl, rfl⟩
  · intro i hi hbranch
    rcases List.mem_append.mp hi with hi | hi
    · exact hopen.test_mem hi
    · rcases List.mem_pair.mp hi with rfl | rfl
      · exact absurd (by rw [hblockt]) hbranch
      · exact absurd (by rw [hblockf]) hbranch
  · intro i hi hleaf
    rcases List.mem_append.mp hi with hi | hi
    · obtain ⟨a, ha, -⟩ := hsucc i hi true
      exact absurd (ha.symm.trans hleaf) (Option.some_ne_none a)
    · rcases List.mem_pair.mp hi with rfl | rfl
      · exact ⟨snaplen, hleaft⟩
      · exact ⟨0, hleaff⟩

/-- `finish_parse` completes the graph of the condition. -/
theorem finish_parse_of_built {h : Blocks} {g : GenState} {p : Nat} {c : Condition}
    (hb : Built h g.blocks p c) (snaplen : UInt) :
    InBlocks 2 g (finish_parse snaplen p g) fun root g' =>
      Paid g g' ∧ ∃ rank bs, Finished g'.blocks root c snaplen rank bs := by
  obtain ⟨bs, T, F, hf, hbs⟩ := hb.span
  have hlt : ∀ i ∈ bs, i < g.blocks.next := fun i hi => (hbs i hi).2
  refine (finish_parse_within snaplen p g).imp ?_
  rintro root g' ⟨hpaid, hblocks, hroot⟩
  rw [Blocks.backpatch_completed hf hlt snaplen] at hblocks
  rw [hblocks, Blocks.head_completed snaplen (hlt p hf.mem)] at hroot
  rw [hblocks, hroot]
  exact ⟨hpaid, Blocks.finished_completed hf hlt snaplen⟩

end Bpf

end Jxnet
