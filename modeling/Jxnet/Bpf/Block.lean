import Jxnet.Bpf.Filter
import Jxnet.Framework.ShortCircuit

namespace Jxnet

open Java JumpMachine

namespace Bpf

/-! The blocks of the code generator, `struct block` in `gencode.h`. A block has statements and a
branch, whose two edges are resolved as the condition around it becomes known. -/

/-- `struct stmt`. -/
structure Stmt where
  code : UShort
  k : UInt
  deriving DecidableEq, Repr

/-- The instruction of a statement that does not branch. -/
def Stmt.insn (s : Stmt) : Insn := BPF_STMT s.code s.k

/-- `struct block`, as far as the code generator and the conversion to an array use it. The blocks
are numbered in the order of their allocation, `none` is the null pointer. -/
structure Block where
  stmts : List Stmt
  s : Stmt
  longjt : Nat
  longjf : Nat
  offset : Nat
  sense : Bool
  jt : Option Nat
  jf : Option Nat
  head : Nat

/-- The blocks allocated so far. -/
structure Blocks where
  block : Nat → Block
  next : Nat

/-- A jump field of a block: `JT` or `JF`. -/
abbrev Edge := Nat × Bool

namespace Blocks

def empty : Blocks := ⟨fun _ => ⟨[], ⟨0, 0⟩, 0, 0, 0, false, none, none, 0⟩, 0⟩

def update (h : Blocks) (b : Nat) (f : Block → Block) : Blocks :=
  { h with block := fun i => if i = b then f (h.block b) else h.block i }

/-- Where a jump field leads. -/
def succ (h : Blocks) (e : Edge) : Option Nat :=
  if e.2 then (h.block e.1).jt else (h.block e.1).jf

def setSucc (h : Blocks) (e : Edge) (target : Option Nat) : Blocks :=
  h.update e.1 fun b => if e.2 then { b with jt := target } else { b with jf := target }

/-- The jump field that `sense` marks as the link to the next unresolved block. -/
def link (h : Blocks) (b : Nat) : Edge := (b, !(h.block b).sense)

def flipSense (h : Blocks) (b : Nat) : Blocks := h.update b fun p => { p with sense := !p.sense }

def setHead (h : Blocks) (b head : Nat) : Blocks := h.update b fun p => { p with head := head }

def setStmts (h : Blocks) (b : Nat) (stmts : List Stmt) : Blocks :=
  h.update b fun p => { p with stmts := stmts }

def setK (h : Blocks) (b : Nat) (k : UInt) : Blocks :=
  h.update b fun p => { p with s := { p.s with k := k } }

/-- `new_block`; the memory of a chunk is cleared. -/
def newBlock (h : Blocks) (code : UShort) : Blocks :=
  { block := fun i =>
      if i = h.next then ⟨[], ⟨code, 0⟩, 0, 0, 0, false, none, none, h.next⟩ else h.block i
    next := h.next + 1 }

/-- The loop of `backpatch`, over at most `n` blocks of the list. -/
def backpatchLoop : Nat → Option Nat → Nat → Blocks → Blocks
  | 0, _, _, h => h
  | _ + 1, none, _, h => h
  | n + 1, some list, target, h =>
    if !(h.block list).sense then
      let next := (h.block list).jt
      backpatchLoop n next target (h.setSucc (list, true) (some target))
    else
      let next := (h.block list).jf
      backpatchLoop n next target (h.setSucc (list, false) (some target))

/-- `backpatch`; no list is longer than there are blocks. -/
def backpatch (h : Blocks) (list target : Nat) : Blocks :=
  backpatchLoop h.next (some list) target h

/-- The loop of `merge`: the link of the last block of the list. -/
def lastLink (h : Blocks) : Nat → Nat → Edge
  | 0, b => h.link b
  | n + 1, b => match h.succ (h.link b) with
    | none => h.link b
    | some next => lastLink h n next

/-- `merge`. -/
def merge (h : Blocks) (b0 b1 : Nat) : Blocks := h.setSucc (h.lastLink h.next b0) (some b1)

/-- `gen_and`. -/
def gen_and (h : Blocks) (b0 b1 : Nat) : Blocks :=
  let h := h.backpatch b0 (h.block b1).head
  let h := h.flipSense b0
  let h := h.flipSense b1
  let h := h.merge b1 b0
  let h := h.flipSense b1
  h.setHead b1 (h.block b0).head

/-- `gen_or`. -/
def gen_or (h : Blocks) (b0 b1 : Nat) : Blocks :=
  let h := h.flipSense b0
  let h := h.backpatch b0 (h.block b1).head
  let h := h.flipSense b0
  let h := h.merge b1 b0
  h.setHead b1 (h.block b0).head

end Blocks

/-! The memory of the code generator comes in chunks, which are given back at the end. -/

def NCHUNKS : Nat := 16

def CHUNK0SIZE : Nat := 1024

/-- `cur_chunk`, and what is left of that chunk. -/
structure Chunks where
  cur_chunk : Nat
  n_left : Nat
  deriving DecidableEq, Repr

/-- The state of the code generator: the blocks, the memory and the scratch registers in use. -/
structure GenState where
  blocks : Blocks
  chunks : Chunks
  regused : Fin BPF_MEMWORDS → Bool
  curreg : Fin BPF_MEMWORDS

/-- How the compiler gives up: with the message of `bpf_error`, or by `abort`, which ends the
process. -/
inductive Complaint where
  | error (message : String)
  | abort
  deriving DecidableEq, Repr

/-- The code generator; a complaint leaves it for good. -/
abbrev Gen (α : Type) := StateT GenState (Except Complaint) α

def bpf_error {α : Type} (message : String) : Gen α := fun _ => .error (.error message)

def abort {α : Type} : Gen α := fun _ => .error .abort

def onBlocks (f : Blocks → Blocks) : Gen Unit := fun g => .ok ((), { g with blocks := f g.blocks })

/-- `newchunk`, with longs of 8 bytes; `malloc` is taken to have the memory. -/
def newchunk (n : Nat) : Gen Unit := fun g =>
  -- "Round up to nearest long"
  let n := (n + 7) / 8 * 8
  if g.chunks.n_left < n then
    let k := g.chunks.cur_chunk + 1
    let size := CHUNK0SIZE * 2 ^ k
    if NCHUNKS ≤ k then bpf_error "out of memory" g
    else if size < n then bpf_error "out of memory" g
    else .ok ((), { g with chunks := ⟨k, size - n⟩ })
  else .ok ((), { g with chunks := { g.chunks with n_left := g.chunks.n_left - n } })

/-! The sizes of `struct block`, `struct slist` and `struct arth`, with pointers of 8 bytes. -/

def sizeofBlock : Nat := 288

def sizeofSlist : Nat := 40

def sizeofArth : Nat := 24

/-- `sdup`; the copy is the text itself. -/
def sdup (s : String) : Gen Unit := newchunk (s.utf8ByteSize + 1)

def new_block (code : UShort) : Gen Nat := do
  newchunk sizeofBlock
  fun g => .ok (g.blocks.next, { g with blocks := g.blocks.newBlock code })

/-- `new_stmt`, for each of the statements. -/
def new_stmts : List Stmt → Gen Unit
  | [] => return ()
  | _ :: stmts => do
    newchunk sizeofSlist
    new_stmts stmts

def gen_and (b0 b1 : Nat) : Gen Unit := onBlocks fun h => h.gen_and b0 b1

def gen_or (b0 b1 : Nat) : Gen Unit := onBlocks fun h => h.gen_or b0 b1

def gen_not (b : Nat) : Gen Unit := onBlocks fun h => h.flipSense b

/-- `gen_retblk`. -/
def gen_retblk (v : UInt) : Gen Nat := do
  let b ← new_block (BPF_RET ||| BPF_K)
  onBlocks fun h => h.setK b v
  return b

/-- A conditional jump to be, `JMP(c)` in `gencode.c`. -/
def JMP (c : UShort) : UShort := c ||| BPF_JMP ||| BPF_K

/-- A block for statements that there are already, with its branch. -/
def gen_block (stmts : List Stmt) (s : Stmt) : Gen Nat := do
  let b ← new_block s.code
  onBlocks fun h => h.setStmts b stmts
  onBlocks fun h => h.setK b s.k
  return b

/-- A block with its statements and its branch: what the primitives of the language end in. -/
def gen_test (stmts : List Stmt) (s : Stmt) : Gen Nat := do
  new_stmts stmts
  gen_block stmts s

/-- `finish_parse` for the link-layer types without a variable-length header: the entry block. -/
def finish_parse (snaplen : UInt) (p : Nat) : Gen Nat := do
  let accept ← gen_retblk snaplen
  onBlocks fun h => h.backpatch p accept
  onBlocks fun h => h.flipSense p
  let reject ← gen_retblk 0
  onBlocks fun h => h.backpatch p reject
  return ((← get).blocks.block p).head

/-! What a graph of blocks means. -/

/-- A block's statements and its branch. -/
structure BlockTest where
  stmts : List Stmt
  s : Stmt
  deriving DecidableEq, Repr

/-- A test on a packet: the statements one after the other, then the condition of the branch. -/
def BlockTest.run (input : Input) (t : BlockTest) (r : Regs) :
    Except Fault (ShortCircuit.Answer Regs UInt) :=
  match runLine (Filter.exec input) (t.stmts.map Stmt.insn) r with
  | .error e => .error e
  | .ok (.halt v) => .ok (.halt v)
  | .ok (.data r') => match decode t.s.code with
    | some (.JMP test source) =>
      .ok (.answer (Filter.holds r'.A (source.operand r' t.s.insn) test) r')
    | _ => .error .abort

abbrev Condition := ShortCircuit.Expr BlockTest

def Blocks.test (h : Blocks) (i : Nat) : BlockTest := ⟨(h.block i).stmts, (h.block i).s⟩

/-- The flow graph of the blocks. -/
def Blocks.graph (h : Blocks) (i : Nat) : Option (ShortCircuit.Node Nat BlockTest UInt) :=
  match (h.block i).jt, (h.block i).jf with
  | none, _ =>
    if h.test i = ⟨[], ⟨BPF_RET ||| BPF_K, (h.block i).s.k⟩⟩ then some (.leaf (h.block i).s.k)
    else none
  | some a, some b => some (.branch (h.test i) a b)
  | some _, none => none

end Bpf

end Jxnet
