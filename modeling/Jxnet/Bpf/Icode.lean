import Jxnet.Bpf.Generate

namespace Jxnet

open Java JumpMachine ShortCircuit

namespace Bpf

/-! From the flow graph to the array: `icode_to_fcode` of `optimize.c`. -/

/-- `slength`; without the optimizer no statement is a `NOP`. -/
def slength (stmts : List Stmt) : Nat := stmts.length

namespace Blocks

/-- The instructions that a block takes: its statements, its branch and the extra jumps. -/
def size (h : Blocks) (p : Nat) : Nat :=
  slength (h.block p).stmts + 1 + (h.block p).longjt + (h.block p).longjf

/-- `count_stmts`, with the blocks marked so far; at most `n` calls deep. -/
def count_stmts (h : Blocks) : Nat → Option Nat → List Nat → Nat × List Nat
  | 0, _, marks => (0, marks)
  | _ + 1, none, marks => (0, marks)
  | n + 1, some p, marks =>
    if p ∈ marks then (0, marks)
    else
      let t := h.count_stmts n (h.block p).jt (p :: marks)
      let f := h.count_stmts n (h.block p).jf t.2
      (slength (h.block p).stmts + (t.1 + f.1) + 1 + (h.block p).longjt + (h.block p).longjf, f.2)

def setOffset (h : Blocks) (p offset : Nat) : Blocks :=
  h.update p fun b => { b with offset := offset }

/-- `p->longjt++`. -/
def lengthenJt (h : Blocks) (p : Nat) : Blocks :=
  h.update p fun b => { b with longjt := b.longjt + 1 }

/-- `p->longjf++`. -/
def lengthenJf (h : Blocks) (p : Nat) : Blocks :=
  h.update p fun b => { b with longjf := b.longjf + 1 }

/-- `off`, from the branch of `p` to the block `target`. -/
def branchOffset (h : Blocks) (p target : Nat) : UInt :=
  BitVec.ofInt 32 ((h.block target).offset -
    ((h.block p).offset + slength (h.block p).stmts : Nat) - 1)

end Blocks

/-- A field of the branch, and the jump inserted for it, if any: the offset as it is, or one to an
inserted jump. `none` asks for the room that such a jump takes. -/
def jumpField (long : Nat) (off : UInt) (extrajmps : Nat) : Option (BitVec 8 × List Insn) :=
  if 256 ≤ off then
    if long = 0 then none
    else some (BitVec.ofNat 8 extrajmps,
      [BPF_STMT (BPF_JMP ||| BPF_JA) (off - BitVec.ofNat 32 (extrajmps + 1))])
  else some (off.setWidth 8, [])

/-- The conversion under way: the blocks, the marked ones, and the array from `ftail` on. -/
structure Conversion where
  blocks : Blocks
  marks : List Nat
  ftail : List Insn

namespace Conversion

/-- The memory of the array is cleared before the conversion. -/
def blank : Insn := ⟨0, 0, 0, 0⟩

/-- The body of `convert_code_r` after the recursive calls: the code of the block in front of what
is there. `total` is the length of the array. -/
def emit (total : Nat) (p : Nat) (c : Conversion) : Bool × Conversion :=
  let b := c.blocks.block p
  let blocks := c.blocks.setOffset p (total - c.ftail.length - c.blocks.size p)
  let stmts := b.stmts.map Stmt.insn
  match b.jt, b.jf with
  | some jt, some jf =>
    match jumpField b.longjt (blocks.branchOffset p jt) 0 with
    | none => (false, { c with blocks := blocks.lengthenJt p })
    | some (dst_jt, extra_t) =>
      match jumpField b.longjf (blocks.branchOffset p jf) extra_t.length with
      | none => (false, { c with blocks := blocks.lengthenJf p })
      | some (dst_jf, extra_f) =>
        let extra := extra_t ++ extra_f
        (true, { c with
          blocks := blocks
          ftail := stmts ++ [⟨b.s.code, dst_jt, dst_jf, b.s.k⟩] ++ extra ++
            List.replicate (b.longjt + b.longjf - extra.length) blank ++ c.ftail })
  | _, _ =>
    (true, { c with
      blocks := blocks
      ftail := stmts ++ [b.s.insn] ++ List.replicate (b.longjt + b.longjf) blank ++ c.ftail })

/-- `convert_code_r`, at most `n` calls deep. -/
def convert_code_r (total : Nat) : Nat → Option Nat → Conversion → Bool × Conversion
  | 0, _, c => (true, c)
  | _ + 1, none, c => (true, c)
  | n + 1, some p, c =>
    if p ∈ c.marks then (true, c)
    else
      match convert_code_r total n (c.blocks.block p).jf { c with marks := p :: c.marks } with
      | (false, c) => (false, c)
      | (true, c) => match convert_code_r total n (c.blocks.block p).jt c with
        | (false, c) => (false, c)
        | (true, c) => c.emit total p

end Conversion

/-- One round of `icode_to_fcode`: the array, or the blocks with one more branch made long. No
path in the graph is longer than there are blocks. -/
def icodeRound (root : Nat) (h : Blocks) : Except Complaint (Loop.Step Blocks (List Insn)) :=
  let total := (h.count_stmts (h.next + 1) (some root) []).1
  match Conversion.convert_code_r total (h.next + 1) (some root) ⟨h, [], []⟩ with
  | (true, c) =>
    .ok (.done (List.replicate (total - c.ftail.length) Conversion.blank ++ c.ftail))
  | (false, c) => .ok (.next c.blocks)

/-- `icode_to_fcode` for at most `fuel` rounds; the memory for the array is taken to be there. -/
def icode_to_fcode (fuel : Nat) (root : Nat) (h : Blocks) :
    Option (Except Complaint (List Insn)) :=
  Loop.run (icodeRound root) fuel h

end Bpf

end Jxnet
