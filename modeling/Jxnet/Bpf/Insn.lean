import Jxnet.Framework.Integers

namespace Jxnet

open Java

namespace Bpf

/-! The instruction encodings of `pcap/bpf.h`. -/

abbrev UShort := BitVec 16

abbrev UInt := BitVec 32

def BPF_LD : UShort := 0x00
def BPF_LDX : UShort := 0x01
def BPF_ST : UShort := 0x02
def BPF_STX : UShort := 0x03
def BPF_ALU : UShort := 0x04
def BPF_JMP : UShort := 0x05
def BPF_RET : UShort := 0x06
def BPF_MISC : UShort := 0x07

def BPF_W : UShort := 0x00
def BPF_H : UShort := 0x08
def BPF_B : UShort := 0x10

def BPF_IMM : UShort := 0x00
def BPF_ABS : UShort := 0x20
def BPF_IND : UShort := 0x40
def BPF_MEM : UShort := 0x60
def BPF_LEN : UShort := 0x80
def BPF_MSH : UShort := 0xa0

def BPF_ADD : UShort := 0x00
def BPF_SUB : UShort := 0x10
def BPF_MUL : UShort := 0x20
def BPF_DIV : UShort := 0x30
def BPF_OR : UShort := 0x40
def BPF_AND : UShort := 0x50
def BPF_LSH : UShort := 0x60
def BPF_RSH : UShort := 0x70
def BPF_NEG : UShort := 0x80
def BPF_MOD : UShort := 0x90
def BPF_XOR : UShort := 0xa0

def BPF_JA : UShort := 0x00
def BPF_JEQ : UShort := 0x10
def BPF_JGT : UShort := 0x20
def BPF_JGE : UShort := 0x30
def BPF_JSET : UShort := 0x40

def BPF_K : UShort := 0x00
def BPF_X : UShort := 0x08
def BPF_A : UShort := 0x10
def BPF_TAX : UShort := 0x00
def BPF_TXA : UShort := 0x80

def BPF_CLASS (code : UShort) : UShort := code &&& 0x07#16

def BPF_MODE (code : UShort) : UShort := code &&& 0xe0#16

def BPF_OP (code : UShort) : UShort := code &&& 0xf0#16

def BPF_SRC (code : UShort) : UShort := code &&& 0x08#16

/-- Number of scratch memory words. -/
def BPF_MEMWORDS : Nat := 16

/-- `struct bpf_insn`. -/
structure Insn where
  code : UShort
  jt : BitVec 8
  jf : BitVec 8
  k : UInt
  deriving DecidableEq, Repr

/-- An instruction without branch offsets, the `BPF_STMT` initializer. -/
def BPF_STMT (code : UShort) (k : UInt) : Insn := ⟨code, 0, 0, k⟩

/-- `struct bpf_program`: the length fits its `u_int` field. -/
structure Program where
  bf_insns : List Insn
  fits : bf_insns.length < 2 ^ 32

def Program.bf_len (program : Program) : UInt := BitVec.ofNat 32 program.bf_insns.length

inductive Size where
  | W | H | B
  deriving DecidableEq, Repr

def Size.code : Size → UShort
  | W => BPF_W
  | H => BPF_H
  | B => BPF_B

/-- The number of bytes that a load of the size takes. -/
def Size.bytes : Size → Nat
  | W => 4
  | H => 2
  | B => 1

inductive Source where
  | K | X
  deriving DecidableEq, Repr

def Source.code : Source → UShort
  | K => BPF_K
  | X => BPF_X

inductive Test where
  | JGT | JGE | JEQ | JSET
  deriving DecidableEq, Repr

def Test.code : Test → UShort
  | JGT => BPF_JGT
  | JGE => BPF_JGE
  | JEQ => BPF_JEQ
  | JSET => BPF_JSET

inductive Alu where
  | ADD | SUB | MUL | DIV | MOD | AND | OR | XOR | LSH | RSH
  deriving DecidableEq, Repr

def Alu.code : Alu → UShort
  | ADD => BPF_ADD
  | SUB => BPF_SUB
  | MUL => BPF_MUL
  | DIV => BPF_DIV
  | MOD => BPF_MOD
  | AND => BPF_AND
  | OR => BPF_OR
  | XOR => BPF_XOR
  | LSH => BPF_LSH
  | RSH => BPF_RSH

/-- The cases of the switch in `bpf_filter`. -/
inductive Op where
  | RET_K
  | RET_A
  | LD_ABS (size : Size)
  | LD_LEN
  | LDX_LEN
  | LD_IND (size : Size)
  | LDX_MSH
  | LD_IMM
  | LDX_IMM
  | LD_MEM
  | LDX_MEM
  | ST
  | STX
  | JA
  | JMP (test : Test) (source : Source)
  | ALU (op : Alu) (source : Source)
  | NEG
  | TAX
  | TXA
  deriving DecidableEq, Repr

namespace Op

/-- The label of the case. -/
def code : Op → UShort
  | RET_K => BPF_RET ||| BPF_K
  | RET_A => BPF_RET ||| BPF_A
  | LD_ABS size => BPF_LD ||| size.code ||| BPF_ABS
  | LD_LEN => BPF_LD ||| BPF_W ||| BPF_LEN
  | LDX_LEN => BPF_LDX ||| BPF_W ||| BPF_LEN
  | LD_IND size => BPF_LD ||| size.code ||| BPF_IND
  | LDX_MSH => BPF_LDX ||| BPF_MSH ||| BPF_B
  | LD_IMM => BPF_LD ||| BPF_IMM
  | LDX_IMM => BPF_LDX ||| BPF_IMM
  | LD_MEM => BPF_LD ||| BPF_MEM
  | LDX_MEM => BPF_LDX ||| BPF_MEM
  | ST => BPF_ST
  | STX => BPF_STX
  | JA => BPF_JMP ||| BPF_JA
  | JMP test source => BPF_JMP ||| test.code ||| source.code
  | ALU op source => BPF_ALU ||| op.code ||| source.code
  | NEG => BPF_ALU ||| BPF_NEG
  | TAX => BPF_MISC ||| BPF_TAX
  | TXA => BPF_MISC ||| BPF_TXA

/-- The cases in the order of the switch. -/
def all : List Op :=
  [RET_K, RET_A, LD_ABS .W, LD_ABS .H, LD_ABS .B, LD_LEN, LDX_LEN, LD_IND .W, LD_IND .H,
    LD_IND .B, LDX_MSH, LD_IMM, LDX_IMM, LD_MEM, LDX_MEM, ST, STX, JA,
    JMP .JGT .K, JMP .JGE .K, JMP .JEQ .K, JMP .JSET .K,
    JMP .JGT .X, JMP .JGE .X, JMP .JEQ .X, JMP .JSET .X,
    ALU .ADD .X, ALU .SUB .X, ALU .MUL .X, ALU .DIV .X, ALU .MOD .X, ALU .AND .X, ALU .OR .X,
    ALU .XOR .X, ALU .LSH .X, ALU .RSH .X,
    ALU .ADD .K, ALU .SUB .K, ALU .MUL .K, ALU .DIV .K, ALU .MOD .K, ALU .AND .K, ALU .OR .K,
    ALU .XOR .K, ALU .LSH .K, ALU .RSH .K, NEG, TAX, TXA]

end Op

/-- The case that a code selects; `none` is the `default`. -/
def decode (code : UShort) : Option Op := Op.all.find? fun op => op.code = code

theorem decode_eq_some {code : UShort} {op : Op} (h : decode code = some op) : op.code = code := by
  have := List.find?_some h
  simpa using this

theorem decode_code (op : Op) : decode op.code = some op := by
  cases op with
  | LD_ABS size | LD_IND size => cases size <;> decide
  | JMP test source => cases test <;> cases source <;> decide
  | ALU op source => cases op <;> cases source <;> decide
  | _ => decide

theorem decode_eq_some_iff {code : UShort} {op : Op} : decode code = some op ↔ code = op.code :=
  ⟨fun h => (decode_eq_some h).symm, fun h => h ▸ decode_code op⟩

end Bpf

end Jxnet
