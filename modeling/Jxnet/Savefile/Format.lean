import Jxnet.Savefile.Linktype
import Jxnet.Bpf.Filter

namespace Jxnet

open Java

namespace Savefile

open Bpf (UInt UShort Insn)

/-! The parts of a savefile as C structures, and the stream they are read from. -/

/-- An `int` of C; its value is `toInt`. -/
abbrev CInt := BitVec 32

def TCPDUMP_MAGIC : UInt := 0xa1b2c3d4
def KUZNETZOV_TCPDUMP_MAGIC : UInt := 0xa1b2cd34
def NAVTEL_TCPDUMP_MAGIC : UInt := 0xa12b3c4d
def NSEC_TCPDUMP_MAGIC : UInt := 0xa1b23c4d

def PCAP_VERSION_MAJOR : UShort := 2
def PCAP_VERSION_MINOR : UShort := 4

def MAXIMUM_SNAPLEN : Int := 262144

def PCAP_TSTAMP_PRECISION_MICRO : UInt := 0
def PCAP_TSTAMP_PRECISION_NANO : UInt := 1

def LT_LINKTYPE (x : UInt) : UInt := x &&& 0x03ffffff

def LT_LINKTYPE_EXT (x : UInt) : UInt := x &&& 0xfc000000

/-- The shift of an `int` into its sign bit is taken as two's complement, which the compilers give
and the standard does not promise. -/
def SWAPLONG (y : UInt) : UInt :=
  ((y &&& 0xff) <<< 24) ||| ((y &&& 0xff00) <<< 8) ||| ((y &&& 0xff0000) >>> 8) |||
    ((y >>> 24) &&& 0xff)

def SWAPSHORT (y : UShort) : UShort :=
  ((y &&& 0xff) <<< 8) ||| ((y &&& 0xff00) >>> 8)

theorem SWAPLONG_eq (x : UInt) : SWAPLONG x = WordOrder.reverseInt x := by
  have hbyte : ∀ a b c d : JByte, SWAPLONG (intOf a b c d) = intOf d c b a := by
    intro a b c d
    unfold SWAPLONG intOf
    have h0 : ∀ i (hi : i < 32), (0xff : JInt)[i] = decide (i < 8) := by decide
    have h1 : ∀ i (hi : i < 32), (0xff00 : JInt)[i] = decide (8 ≤ i ∧ i < 16) := by decide
    have h2 : ∀ i (hi : i < 32), (0xff0000 : JInt)[i] = decide (16 ≤ i ∧ i < 24) := by decide
    grind
  have h := hbyte (x.extractLsb' 24 8) (x.extractLsb' 16 8) (x.extractLsb' 8 8) (x.extractLsb' 0 8)
  rwa [intOf_bytes] at h

theorem SWAPSHORT_eq (x : UShort) : SWAPSHORT x = WordOrder.reverseShort x := by
  have hbyte : ∀ a b : JByte, SWAPSHORT (shortOf a b) = shortOf b a := by
    intro a b
    unfold SWAPSHORT shortOf
    have h0 : ∀ i (hi : i < 16), (0xff : JShort)[i] = decide (i < 8) := by decide
    have h1 : ∀ i (hi : i < 16), (0xff00 : JShort)[i] = decide (8 ≤ i) := by decide
    grind
  have h := hbyte (x.extractLsb' 8 8) (x.extractLsb' 0 8)
  rwa [shortOf_bytes] at h

@[simp] theorem SWAPLONG_SWAPLONG (x : UInt) : SWAPLONG (SWAPLONG x) = x := by
  rw [SWAPLONG_eq, SWAPLONG_eq, WordOrder.reverseInt_reverseInt]

@[simp] theorem SWAPSHORT_SWAPSHORT (x : UShort) : SWAPSHORT (SWAPSHORT x) = x := by
  rw [SWAPSHORT_eq, SWAPSHORT_eq, WordOrder.reverseShort_reverseShort]

/-- What the C program does no longer define, and a filter that has not come to an end. -/
inductive Undefined where
  | access
  | overflow
  | filter (e : JumpMachine.Stop Bpf.Fault)
  | running
  deriving DecidableEq, Repr

/-- A stream that is read: the bytes ahead, and the text of the error that reading on then meets;
`none` where the file ends there. -/
structure FILE where
  ahead : Bytes
  error : Option String

/-- `fread(_, 1, n, fp)`. -/
def fread (n : Nat) (fp : FILE) : Bytes × FILE :=
  (fp.ahead.take n, { fp with ahead := fp.ahead.drop n })

/-- `struct pcap_file_header`. -/
structure FileHeader where
  magic : UInt
  version_major : UShort
  version_minor : UShort
  thiszone : CInt
  sigfigs : UInt
  snaplen : UInt
  linktype : UInt
  deriving DecidableEq, Repr

/-- `struct pcap_sf_pkthdr`; the patched structure starts with the same fields. -/
structure SfPkthdr where
  tv_sec : CInt
  tv_usec : CInt
  caplen : UInt
  len : UInt
  deriving DecidableEq, Repr

section Memory

variable (host : WordOrder)

/-- The structure in memory. -/
def FileHeader.bytes (hdr : FileHeader) : Bytes :=
  host.storeInt hdr.magic ++ (host.storeShort hdr.version_major ++
    (host.storeShort hdr.version_minor ++ (host.storeInt hdr.thiszone ++
      (host.storeInt hdr.sigfigs ++ (host.storeInt hdr.snaplen ++ host.storeInt hdr.linktype)))))

/-- The structure after `rest` was read into what follows its magic number. -/
def FileHeader.load (magic : UInt) (rest : Bytes) : FileHeader where
  magic := magic
  version_major := host.loadShort rest 0
  version_minor := host.loadShort rest 2
  thiszone := host.loadInt rest 4
  sigfigs := host.loadInt rest 8
  snaplen := host.loadInt rest 12
  linktype := host.loadInt rest 16

/-- The structure in memory. -/
def SfPkthdr.bytes (hdr : SfPkthdr) : Bytes :=
  host.storeInt hdr.tv_sec ++ (host.storeInt hdr.tv_usec ++
    (host.storeInt hdr.caplen ++ host.storeInt hdr.len))

def SfPkthdr.load (bytes : Bytes) : SfPkthdr where
  tv_sec := host.loadInt bytes 0
  tv_usec := host.loadInt bytes 4
  caplen := host.loadInt bytes 8
  len := host.loadInt bytes 12

@[simp] theorem FileHeader.length_bytes (hdr : FileHeader) : (hdr.bytes host).length = 24 := by
  simp [FileHeader.bytes]

@[simp] theorem SfPkthdr.length_bytes (hdr : SfPkthdr) : (hdr.bytes host).length = 16 := by
  simp [SfPkthdr.bytes]

end Memory

/-- `struct timeval` of a host with 64-bit `long`. -/
structure Timeval where
  tv_sec : Int
  tv_usec : Int
  deriving DecidableEq, Repr

/-- `struct pcap_pkthdr`. -/
structure Pkthdr where
  ts : Timeval
  caplen : UInt
  len : UInt
  deriving DecidableEq, Repr

/-- The header as a host of the other byte order reads it. -/
def FileHeader.swap (hdr : FileHeader) : FileHeader where
  magic := SWAPLONG hdr.magic
  version_major := SWAPSHORT hdr.version_major
  version_minor := SWAPSHORT hdr.version_minor
  thiszone := SWAPLONG hdr.thiszone
  sigfigs := SWAPLONG hdr.sigfigs
  snaplen := SWAPLONG hdr.snaplen
  linktype := SWAPLONG hdr.linktype

def SfPkthdr.swap (hdr : SfPkthdr) : SfPkthdr where
  tv_sec := SWAPLONG hdr.tv_sec
  tv_usec := SWAPLONG hdr.tv_usec
  caplen := SWAPLONG hdr.caplen
  len := SWAPLONG hdr.len

theorem FileHeader.bytes_other (host : WordOrder) (hdr : FileHeader) :
    hdr.bytes host.other = hdr.swap.bytes host := by
  simp only [bytes, swap, WordOrder.storeInt_other, WordOrder.storeShort_other, SWAPLONG_eq,
    SWAPSHORT_eq]

theorem SfPkthdr.bytes_other (host : WordOrder) (hdr : SfPkthdr) :
    hdr.bytes host.other = hdr.swap.bytes host := by
  simp only [bytes, swap, WordOrder.storeInt_other, SWAPLONG_eq]

theorem SfPkthdr.load_bytes (host : WordOrder) (hdr : SfPkthdr) (after : Bytes) :
    load host (hdr.bytes host ++ after) = hdr := by
  simp [load, bytes, List.append_assoc]

/-- What follows the magic number in the file. -/
def FileHeader.rest (host : WordOrder) (hdr : FileHeader) : Bytes := (hdr.bytes host).drop 4

theorem FileHeader.bytes_eq (host : WordOrder) (hdr : FileHeader) :
    hdr.bytes host = host.storeInt hdr.magic ++ hdr.rest host := by
  rw [rest, bytes, List.drop_left' (host.length_storeInt _)]

@[simp] theorem FileHeader.length_rest (host : WordOrder) (hdr : FileHeader) :
    (hdr.rest host).length = 20 := by simp [rest]

theorem FileHeader.load_rest (host : WordOrder) (hdr : FileHeader) (magic : UInt) :
    load host magic (hdr.rest host) = { hdr with magic := magic } := by
  have hrest : hdr.rest host = host.storeShort hdr.version_major ++
      (host.storeShort hdr.version_minor ++ (host.storeInt hdr.thiszone ++
        (host.storeInt hdr.sigfigs ++
          (host.storeInt hdr.snaplen ++ host.storeInt hdr.linktype)))) := by
    rw [rest, bytes, List.drop_left' (host.length_storeInt _)]
  simp [load, hrest]

/-- The header of a file of the other byte order, once it is swapped. -/
theorem FileHeader.load_rest_other (host : WordOrder) (hdr : FileHeader) (magic : UInt) :
    { (load host magic (hdr.rest host.other)).swap with magic := magic } =
      { hdr with magic := magic } := by
  have hrest : hdr.rest host.other = hdr.swap.rest host := by
    rw [rest, rest, bytes_other]
  rw [hrest, load_rest]
  simp [swap]

theorem SfPkthdr.load_other (host : WordOrder) (hdr : SfPkthdr) (after : Bytes) :
    (load host (hdr.bytes host.other ++ after)).swap = hdr := by
  rw [bytes_other, load_bytes]
  simp [swap]

end Savefile

end Jxnet
