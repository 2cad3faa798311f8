import Jxnet.Bpf.Backpatch
import Jxnet.Framework.Budget
import Mathlib.Algebra.BigOperators.Group.Finset.Basic

namespace Jxnet

open Budget

namespace Bpf

/-! What the memory of the code generator suffices for. -/

def outOfMemory : Complaint := .error "out of memory"

/-- The bytes that are left, with those of the chunks to come. -/
def Chunks.room (c : Chunks) : Nat :=
  CHUNK0SIZE * (2 ^ NCHUNKS - 2 ^ (c.cur_chunk + 1)) + c.n_left

/-- The bytes that are left to the generator. -/
abbrev GenState.room (g : GenState) : Nat := g.chunks.room

/-- What a block with three statements takes at most: what is left of a chunk is given up for the
next one, but never more than what is asked for. -/
def blockRoom : Nat := 2 * (sizeofBlock + 3 * sizeofSlist)

/-- The blocks that there is memory for. -/
def GenState.blocksLeft (g : GenState) : Nat := g.room / blockRoom

/-- The generator comes to an end with `P`, with memory for `n` blocks at most. -/
abbrev InBlocks {α : Type} (n : Nat) (g : GenState) (r : Except Complaint (α × GenState))
    (P : α → GenState → Prop) : Prop := Within GenState.blocksLeft outOfMemory n g r P

/-- The chunks that are left after an allocation of `n` bytes. -/
def Chunks.Took (c : Chunks) (n : Nat) (c' : Chunks) : Prop := c'.room + n ≤ c.room

theorem room_next {k : Nat} (hk : k + 1 < NCHUNKS) :
    CHUNK0SIZE * (2 ^ NCHUNKS - 2 ^ (k + 1)) =
      CHUNK0SIZE * (2 ^ NCHUNKS - 2 ^ (k + 1 + 1)) + CHUNK0SIZE * 2 ^ (k + 1) := by
  have hle : 2 ^ (k + 1 + 1) ≤ 2 ^ NCHUNKS := Nat.pow_le_pow_right Nat.two_pos hk
  rw [← Nat.mul_add, pow_succ 2 (k + 1)]
  rw [pow_succ 2 (k + 1)] at hle
  congr 1
  omega

/-- Memory is refused only when less than twice as much is left, or when it is more than the first
chunk has. -/
theorem newchunk_within {n m : Nat} (hm : (n + 7) / 8 * 8 = m) (g : GenState) (budget : Nat)
    (hbudget : 2 * m ≤ budget) (hlarge : 2 * CHUNK0SIZE < m → 2 ^ 26 + m ≤ budget) :
    Within GenState.room outOfMemory budget g (newchunk n g) fun _ g' =>
      ∃ c, g' = { g with chunks := c } ∧ g.chunks.Took m c := by
  rw [newchunk, hm]
  simp only
  by_cases hleft : g.chunks.n_left < m
  · rw [if_pos hleft]
    by_cases hlast : NCHUNKS ≤ g.chunks.cur_chunk + 1
    · rw [if_pos hlast]
      refine .short rfl ?_
      have hpow : 2 ^ NCHUNKS ≤ 2 ^ (g.chunks.cur_chunk + 1) :=
        Nat.pow_le_pow_right Nat.two_pos hlast
      rw [GenState.room, Chunks.room, Nat.sub_eq_zero_of_le hpow]
      omega
    · rw [if_neg hlast]
      have hnext := room_next (Nat.not_le.mp hlast)
      by_cases hsize : CHUNK0SIZE * 2 ^ (g.chunks.cur_chunk + 1) < m
      · rw [if_pos hsize]
        have hfirst : 2 ≤ 2 ^ (g.chunks.cur_chunk + 1) := Nat.le_self_pow (by omega) 2
        have hall : CHUNK0SIZE * (2 ^ NCHUNKS - 2 ^ (g.chunks.cur_chunk + 1)) ≤ 2 ^ 26 := by
          rw [CHUNK0SIZE, NCHUNKS]
          omega
        refine .short rfl ?_
        rw [CHUNK0SIZE] at hsize hall hlarge
        simp only [GenState.room, Chunks.room, CHUNK0SIZE]
        omega
      · rw [if_neg hsize]
        refine .done rfl ⟨_, rfl, ?_⟩ ?_
        · simp only [Chunks.Took, Chunks.room]
          omega
        · simp only [GenState.room, Chunks.room]
          omega
  · rw [if_neg hleft]
    refine .done rfl ⟨_, rfl, ?_⟩ ?_
    · simp only [Chunks.Took, Chunks.room]
      omega
    · simp only [GenState.room, Chunks.room]
      omega

theorem Chunks.Took.trans {c c1 c2 : Chunks} {n n1 : Nat} (h : c.Took n c1) (h1 : c1.Took n1 c2) :
    c.Took (n + n1) c2 := by
  simp only [Took] at *
  omega

theorem new_stmts_within (stmts : List Stmt) (g : GenState) :
    Within GenState.room outOfMemory (2 * (sizeofSlist * stmts.length)) g (new_stmts stmts g)
      fun _ g' => ∃ c, g' = { g with chunks := c } ∧
        g.chunks.Took (sizeofSlist * stmts.length) c := by
  induction stmts generalizing g with
  | nil => exact .pure ⟨g.chunks, rfl, Nat.le_refl _⟩
  | cons s stmts ih =>
    have hchunk := newchunk_within (n := sizeofSlist) rfl g _ (Nat.le_refl _) (by decide)
    have hall : Within GenState.room outOfMemory
        (2 * sizeofSlist + 2 * (sizeofSlist * stmts.length)) g (new_stmts (s :: stmts) g)
        fun _ g' => ∃ c, g' = { g with chunks := c } ∧
          g.chunks.Took (sizeofSlist + sizeofSlist * stmts.length) c := by
      refine hchunk.bind ?_
      rintro _ _ ⟨c1, rfl, h1⟩
      refine (ih _).imp ?_
      rintro _ _ ⟨c2, rfl, h2⟩
      exact ⟨c2, rfl, h1.trans h2⟩
    rw [List.length_cons, Nat.mul_succ, Nat.add_comm, Nat.mul_add]
    exact hall

/-- Memory was allocated, and nothing else was changed. -/
structure Allocated (n : Nat) (g g' : GenState) : Prop where
  blocks : g'.blocks = g.blocks
  regused : g'.regused = g.regused
  took : g.chunks.Took n g'.chunks

theorem Allocated.trans {g g1 g2 : GenState} {n m : Nat} (h : Allocated n g g1)
    (h1 : Allocated m g1 g2) : Allocated (n + m) g g2 :=
  ⟨h1.blocks.trans h.blocks, h1.regused.trans h.regused, h.took.trans h1.took⟩

theorem newchunk_inBlocks {n m : Nat} (hm : (n + 7) / 8 * 8 = m) (hsize : 2 * m ≤ blockRoom)
    (g : GenState) :
    InBlocks 1 g (newchunk n g) fun _ g' => Allocated m g g' := by
  have hlarge : 2 * CHUNK0SIZE < m → 2 ^ 26 + m ≤ 2 * m := by
    simp only [blockRoom, sizeofSlist, sizeofBlock] at hsize
    simp only [CHUNK0SIZE]
    omega
  refine .packs (k := blockRoom) (by decide) (.le ?_ (show 2 * m ≤ _ by omega))
  refine (newchunk_within hm g _ (Nat.le_refl _) hlarge).imp ?_
  rintro _ _ ⟨c, rfl, hc⟩
  exact ⟨rfl, rfl, hc⟩

/-- Statements that together are no larger than a block with three of them. -/
theorem new_stmts_inBlocks {stmts : List Stmt} (n : Nat) (hlength : stmts.length = n) (hn : n ≤ 10)
    (g : GenState) :
    InBlocks 1 g (new_stmts stmts g) fun _ g' => Allocated (sizeofSlist * n) g g' := by
  subst hlength
  refine .packs (k := blockRoom) (by decide) (.le (n := 2 * (sizeofSlist * stmts.length)) ?_ ?_)
  · refine (new_stmts_within stmts g).imp ?_
    rintro _ _ ⟨c, rfl, hc⟩
    exact ⟨rfl, rfl, hc⟩
  · simp only [blockRoom, sizeofSlist, sizeofBlock]
    omega

theorem new_block_within (code : UShort) (g : GenState) :
    Within GenState.room outOfMemory (2 * sizeofBlock) g (new_block code g) fun b g' =>
      b = g.blocks.next ∧ ∃ c, g' = { g with chunks := c, blocks := g.blocks.newBlock code } ∧
        g.chunks.Took sizeofBlock c := by
  have hchunk := newchunk_within (n := sizeofBlock) rfl g _ (Nat.le_refl _) (by decide)
  refine hchunk.bind_pure ?_
  rintro _ _ ⟨c, rfl, hc⟩
  exact .done rfl ⟨rfl, c, rfl, hc⟩ (Nat.le_refl _)

/-- The blocks with a new one that has the statements and the branch. -/
def Blocks.withTest (h : Blocks) (stmts : List Stmt) (s : Stmt) : Blocks :=
  ((h.newBlock s.code).setStmts h.next stmts).setK h.next s.k

theorem gen_block_within (stmts : List Stmt) (s : Stmt) (g : GenState) :
    Within GenState.room outOfMemory (2 * sizeofBlock) g (gen_block stmts s g) fun b g' =>
      b = g.blocks.next ∧ ∃ c, g' = { g with chunks := c, blocks := g.blocks.withTest stmts s } ∧
        g.chunks.Took sizeofBlock c := by
  refine (new_block_within s.code g).bind_pure ?_
  rintro _ _ ⟨rfl, c, rfl, hc⟩
  exact .done rfl ⟨rfl, c, rfl, hc⟩ (Nat.le_refl _)

/-- A block was added for the statements. -/
structure Tested (stmts : List Stmt) (s : Stmt) (g g' : GenState) (b : Nat) : Prop where
  index : b = g.blocks.next
  blocks : g'.blocks = g.blocks.withTest stmts s
  regused : g'.regused = g.regused
  took : g.chunks.Took sizeofBlock g'.chunks

theorem gen_block_inBlocks (stmts : List Stmt) (s : Stmt) (g : GenState) :
    InBlocks 1 g (gen_block stmts s g) fun b g' => Tested stmts s g g' b := by
  refine .packs (k := blockRoom) (by decide) (.le (n := 2 * sizeofBlock) ?_ (by decide))
  refine (gen_block_within stmts s g).imp ?_
  rintro _ _ ⟨rfl, c, rfl, hc⟩
  exact ⟨rfl, rfl, rfl, hc⟩

theorem gen_test_within (stmts : List Stmt) (s : Stmt) (hstmts : stmts.length ≤ 3)
    (g : GenState) :
    InBlocks 1 g (gen_test stmts s g) fun b g' =>
      b = g.blocks.next ∧ ∃ c, g' = { g with chunks := c, blocks := g.blocks.withTest stmts s } ∧
        g.chunks.Took (sizeofSlist * stmts.length + sizeofBlock) c := by
  have hbytes : Within GenState.room outOfMemory
      (2 * (sizeofSlist * stmts.length) + 2 * sizeofBlock) g (gen_test stmts s g) fun b g' =>
      b = g.blocks.next ∧ ∃ c, g' = { g with chunks := c, blocks := g.blocks.withTest stmts s } ∧
        g.chunks.Took (sizeofSlist * stmts.length + sizeofBlock) c := by
    refine (new_stmts_within stmts g).bind ?_
    rintro _ _ ⟨c1, rfl, h1⟩
    refine (gen_block_within stmts s _).imp ?_
    rintro _ _ ⟨rfl, c2, rfl, h2⟩
    exact ⟨rfl, c2, rfl, h1.trans h2⟩
  refine .packs (k := blockRoom) (by decide) (hbytes.le ?_)
  simp only [blockRoom, sizeofSlist, sizeofBlock]
  omega

/-- What `gen_retblk` adds. -/
def Blocks.retBlock (h : Blocks) (v : UInt) : Blocks :=
  (h.newBlock (BPF_RET ||| BPF_K)).setK h.next v

theorem gen_retblk_within (v : UInt) (g : GenState) :
    InBlocks 1 g (gen_retblk v g) fun b g' =>
      b = g.blocks.next ∧ ∃ c, g' = { g with chunks := c, blocks := g.blocks.retBlock v } ∧
        g.chunks.Took sizeofBlock c := by
  refine .packs (k := blockRoom) (by decide) (.le ?_ (show 2 * sizeofBlock ≤ _ by decide))
  refine (new_block_within _ g).bind_pure ?_
  rintro _ _ ⟨rfl, c, rfl, hc⟩
  exact .done rfl ⟨rfl, c, rfl, hc⟩ (Nat.le_refl _)

/-! The instructions in the blocks have been paid for. -/

namespace Blocks

/-- The instructions that a block comes to at most, with an extra jump for each edge. -/
def bound (h : Blocks) (i : Nat) : Nat :=
  (h.block i).stmts.length + (h.block i).longjt + (h.block i).longjf + 3

section Bound

variable (h : Blocks) (b i : Nat)

@[simp] theorem bound_setSucc (e : Edge) (t : Option Nat) :
    (h.setSucc e t).bound i = h.bound i := by
  by_cases hi : i = e.1
  · subst hi
    cases he : e.2 <;> simp [bound, setSucc, update, he]
  · rw [bound, bound, block_setSucc_of_ne h e t hi]

@[simp] theorem bound_flipSense : (h.flipSense b).bound i = h.bound i := by
  by_cases hi : i = b
  · simp [bound, flipSense, update, hi]
  · rw [bound, bound, block_flipSense_of_ne h b hi]

@[simp] theorem bound_setHead (head : Nat) : (h.setHead b head).bound i = h.bound i := by
  by_cases hi : i = b
  · simp [bound, setHead, update, hi]
  · rw [bound, bound, block_setHead_of_ne h b hi]

end Bound

/-- The instructions that the blocks come to at most. -/
def instructions (h : Blocks) : Nat := ∑ i ∈ Finset.range h.next, h.bound i

/-- One block more, the others left alone. -/
theorem instructions_succ {h h' : Blocks} (hnext : h'.next = h.next + 1)
    (hbound : ∀ i < h.next, h'.bound i = h.bound i) :
    h'.instructions = h.instructions + h'.bound h.next := by
  rw [instructions, instructions, hnext, Finset.sum_range_succ]
  congr 1
  exact Finset.sum_congr rfl fun i hi => hbound i (Finset.mem_range.mp hi)

theorem instructions_withTest (h : Blocks) (stmts : List Stmt) (s : Stmt) :
    (h.withTest stmts s).instructions = h.instructions + (stmts.length + 3) := by
  rw [instructions_succ (h := h) rfl fun i hi => ?_]
  · simp [withTest, bound, setK, setStmts, newBlock, update]
  · simp [withTest, bound, setK, setStmts, newBlock, update, Nat.ne_of_lt hi]

theorem instructions_retBlock (h : Blocks) (v : UInt) :
    (h.retBlock v).instructions = h.instructions + 3 := by
  rw [instructions_succ (h := h) rfl fun i hi => ?_]
  · simp [retBlock, bound, setK, newBlock, update]
  · simp [retBlock, bound, setK, newBlock, update, Nat.ne_of_lt hi]

/-- The same blocks, but for what the connecting of blocks changes. -/
structure Reconnected (h h' : Blocks) : Prop where
  next : h'.next = h.next
  bound : ∀ i, h'.bound i = h.bound i

namespace Reconnected

variable {h h' : Blocks}

theorem instructions_eq (hr : h.Reconnected h') : h'.instructions = h.instructions := by
  rw [instructions, instructions, hr.next]
  exact Finset.sum_congr rfl fun i _ => hr.bound i

theorem refl (h : Blocks) : h.Reconnected h := ⟨rfl, fun _ => rfl⟩

theorem trans {h1 : Blocks} (hr : h.Reconnected h1) (hr1 : h1.Reconnected h') : h.Reconnected h' :=
  ⟨hr1.next.trans hr.next, fun i => (hr1.bound i).trans (hr.bound i)⟩

theorem flipSense (hr : h.Reconnected h') (b : Nat) : h.Reconnected (h'.flipSense b) :=
  ⟨hr.next, fun i => (bound_flipSense h' b i).trans (hr.bound i)⟩

theorem setSucc (hr : h.Reconnected h') (e : Edge) (t : Option Nat) :
    h.Reconnected (h'.setSucc e t) :=
  ⟨hr.next, fun i => (bound_setSucc h' i e t).trans (hr.bound i)⟩

theorem setHead (hr : h.Reconnected h') (b head : Nat) : h.Reconnected (h'.setHead b head) :=
  ⟨hr.next, fun i => (bound_setHead h' b i head).trans (hr.bound i)⟩

theorem backpatchLoop (hr : h.Reconnected h') (n : Nat) (list : Option Nat) (target : Nat) :
    h.Reconnected (Blocks.backpatchLoop n list target h') := by
  induction n generalizing list h' with
  | zero => exact hr
  | succ n ih =>
    cases list with
    | none => exact hr
    | some b =>
      rw [Blocks.backpatchLoop]
      split
      · exact ih (hr.setSucc _ _) _
      · exact ih (hr.setSucc _ _) _

theorem backpatch (hr : h.Reconnected h') (b target : Nat) :
    h.Reconnected (h'.backpatch b target) :=
  hr.backpatchLoop _ _ _

theorem gen_and (h : Blocks) (b0 b1 : Nat) : h.Reconnected (h.gen_and b0 b1) :=
  ((((((refl h).backpatch _ _).flipSense _).flipSense _).setSucc _ _).flipSense _).setHead _ _

theorem gen_or (h : Blocks) (b0 b1 : Nat) : h.Reconnected (h.gen_or b0 b1) :=
  (((((refl h).flipSense _).backpatch _ _).flipSense _).setSucc _ _).setHead _ _

end Reconnected

end Blocks

/-- The statements of the blocks were allocated, and so were the blocks, each of which is larger
than three statements; beside them there are `n` statements that no block has yet. -/
def PaidWith (n : Nat) (g g' : GenState) : Prop :=
  sizeofSlist * (g'.blocks.instructions + n) + g'.room ≤
    sizeofSlist * g.blocks.instructions + g.room

/-- All the statements are in blocks. -/
def Paid (g g' : GenState) : Prop := PaidWith 0 g g'

section Paid

variable {g g1 g2 : GenState} {n m : Nat} {c : Chunks}

theorem PaidWith.refl (g : GenState) : PaidWith 0 g g := Nat.le_refl _

theorem PaidWith.trans (h : PaidWith n g g1) (h1 : PaidWith m g1 g2) : PaidWith (n + m) g g2 := by
  simp only [PaidWith, Nat.mul_add] at *
  omega

/-- Memory for something else. -/
theorem PaidWith.took (h : PaidWith n g g1) (ha : Allocated m g1 g2) : PaidWith n g g2 := by
  have hc := ha.took
  simp only [PaidWith, Chunks.Took, GenState.room, ha.blocks] at *
  omega

theorem PaidWith.stmts (h : PaidWith n g g1) (ha : Allocated (sizeofSlist * m) g1 g2) :
    PaidWith (n + m) g g2 := by
  have hc := ha.took
  simp only [PaidWith, Chunks.Took, GenState.room, Nat.mul_add, ha.blocks] at *
  omega

/-- A change to blocks that are there. -/
theorem PaidWith.onBlocks (h : PaidWith n g g1) {blocks : Blocks}
    (hr : g1.blocks.Reconnected blocks) : PaidWith n g { g1 with blocks := blocks } := by
  rw [PaidWith, hr.instructions_eq]
  exact h

/-- The statements get their block. -/
theorem PaidWith.withTest {stmts : List Stmt} {s : Stmt} {b : Nat} (h : PaidWith n g g1)
    (hlength : stmts.length = n) (ht : Tested stmts s g1 g2 b) : Paid g g2 := by
  have hc := ht.took
  simp only [Paid, PaidWith, Chunks.Took, GenState.room, ht.blocks, Blocks.instructions_withTest,
    sizeofSlist, sizeofBlock] at *
  omega

theorem Paid.refl (g : GenState) : Paid g g := PaidWith.refl g

theorem Paid.trans (h : Paid g g1) (h1 : Paid g1 g2) : Paid g g2 := PaidWith.trans h h1

theorem Paid.onBlocks (h : Paid g g1) {blocks : Blocks} (hr : g1.blocks.Reconnected blocks) :
    Paid g { g1 with blocks := blocks } := PaidWith.onBlocks h hr

theorem Paid.withTest {stmts : List Stmt} (s : Stmt)
    (h : g.chunks.Took (sizeofSlist * stmts.length + sizeofBlock) c) :
    Paid g { g with chunks := c, blocks := g.blocks.withTest stmts s } := by
  simp only [Paid, PaidWith, Blocks.instructions_withTest, Chunks.Took, GenState.room, sizeofSlist,
    sizeofBlock] at *
  omega

theorem Paid.retBlock (v : UInt) (h : g.chunks.Took sizeofBlock c) :
    Paid g { g with chunks := c, blocks := g.blocks.retBlock v } := by
  simp only [Paid, PaidWith, Blocks.instructions_retBlock, Chunks.Took, GenState.room, sizeofSlist,
    sizeofBlock] at *
  omega

end Paid

/-! What the generator refuses. -/

/-- Where `p` holds there is an end with `P`, with memory for `n` blocks at most; elsewhere there is
a message. -/
structure InBlocksIf {α : Type} (p : Prop) (n : Nat) (g : GenState)
    (r : Except Complaint (α × GenState)) (P : α → GenState → Prop) : Prop where
  ends : p → InBlocks n g r P
  refused : ¬p → ∃ message, r = .error (.error message)

namespace InBlocksIf

variable {α β : Type} {p q : Prop} {n n' : Nat} {g : GenState} {r : Except Complaint (α × GenState)}
  {P : α → GenState → Prop}

theorem of (hp : p) (h : InBlocks n g r P) : InBlocksIf p n g r P := ⟨fun _ => h, (absurd hp ·)⟩

theorem message (hp : ¬p) (message : String) : InBlocksIf p n g (.error (.error message)) P :=
  ⟨(absurd · hp), fun _ => ⟨message, rfl⟩⟩

theorem congr (h : InBlocksIf p n g r P) (hpq : p ↔ q) : InBlocksIf q n g r P :=
  ⟨fun hq => h.ends (hpq.mpr hq), fun hq => h.refused fun hp => hq (hpq.mp hp)⟩

theorem imp {Q : α → GenState → Prop} (h : InBlocksIf p n g r P) (hQ : ∀ a g', P a g' → Q a g') :
    InBlocksIf p n g r Q := ⟨fun hp => (h.ends hp).imp hQ, h.refused⟩

theorem le (h : InBlocksIf p n g r P) (hn : n ≤ n') : InBlocksIf p n' g r P :=
  ⟨fun hp => (h.ends hp).le hn, h.refused⟩

/-- One after the other; the first is refused only where both are. -/
theorem bind {m : Gen α} {f : α → Gen β} {Q : β → GenState → Prop}
    (hm : InBlocksIf p n g (m g) P) (hpq : q → p)
    (hf : p → ∀ a g', P a g' → InBlocksIf q n' g' (f a g') Q) :
    InBlocksIf q (n + n') g ((m >>= f) g) Q := by
  by_cases hp : p
  · refine ⟨fun hq => (hm.ends hp).bind fun a g' h => (hf hp a g' h).ends hq, fun hq => ?_⟩
    cases hm.ends hp with
    | @done a g' run post =>
      obtain ⟨message, hrun⟩ := (hf hp a g' post).refused hq
      exact ⟨message, by simp only [Bind.bind, StateT.bind, run, Except.bind, hrun]⟩
    | short run => exact ⟨_, by simp only [Bind.bind, StateT.bind, run, Except.bind]; rfl⟩
  · obtain ⟨message, hrun⟩ := hm.refused hp
    exact ⟨fun hq => absurd (hpq hq) hp, fun _ =>
      ⟨message, by simp only [Bind.bind, StateT.bind, hrun, Except.bind]⟩⟩

/-- What comes after is never refused. -/
theorem before {m : Gen α} {f : α → Gen β} {Q : β → GenState → Prop}
    (hm : InBlocksIf p n g (m g) P) (hf : ∀ a g', P a g' → InBlocks n' g' (f a g') Q) :
    InBlocksIf p (n + n') g ((m >>= f) g) Q :=
  hm.bind id fun hp a g' h => .of hp (hf a g' h)

/-- What comes before is never refused. -/
theorem after {m : Gen α} {f : α → Gen β} {Q : β → GenState → Prop}
    (hm : InBlocks n g (m g) P) (hf : ∀ a g', P a g' → InBlocksIf p n' g' (f a g') Q) :
    InBlocksIf p (n + n') g ((m >>= f) g) Q :=
  (of trivial hm).bind (fun _ => trivial) fun _ => hf

end InBlocksIf

end Bpf

end Jxnet
