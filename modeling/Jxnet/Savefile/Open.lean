import Jxnet.Savefile.PseudoHeader

namespace Jxnet

open Java

namespace Savefile

open Bpf (UInt UShort Insn)

/-! Opening a savefile. -/

inductive SwappedType where
  | NOT_SWAPPED
  | SWAPPED
  | MAYBE_SWAPPED
  deriving DecidableEq, Repr

inductive TstampScaleType where
  | PASS_THROUGH
  | SCALE_UP
  | SCALE_DOWN
  deriving DecidableEq, Repr

/-- `struct pcap_sf`. -/
structure PcapSf where
  hdrsize : Nat
  lengths_swapped : SwappedType
  scale_type : TstampScaleType
  hdrsize_cases : hdrsize = 16 ∨ hdrsize = 24

theorem hdrsize_sf_pkthdr : 16 = 16 ∨ 16 = 24 := .inl rfl

/-- `struct pcap`: what every handle has that a savefile can be written from. -/
structure Pcap where
  activated : Bool
  snapshot : CInt
  linktype : Int
  linktype_ext : CInt
  tzoff : CInt
  tstamp_precision : UInt

/-- A handle of a savefile that is read. -/
structure Offline extends Pcap where
  rfile : FILE
  swapped : Bool
  version_major : UShort
  version_minor : UShort
  priv : PcapSf
  bufsize : Int
  break_loop : Bool
  fcode : Option (List Insn)
  errbuf : String
  bufsize_pos : 0 < bufsize
  bufsize_lt : bufsize < 2 ^ 31

/-- What reading a packet looks at in a handle, besides the file: none of it changes. -/
structure Reader where
  swapped : Bool
  linktype : Int
  priv : PcapSf
  bufsize : Int
  bufsize_pos : 0 < bufsize
  bufsize_lt : bufsize < 2 ^ 31

def Offline.reader (p : Offline) : Reader :=
  ⟨p.swapped, p.linktype, p.priv, p.bufsize, p.bufsize_pos, p.bufsize_lt⟩

/-- `NULL` from the check of a file header: not such a file, or an error of the file, or what C
leaves undefined. -/
inductive CheckFailure where
  | other
  | failed (errbuf : String)
  | undefined
  deriving DecidableEq, Repr

def isMagic (magic : UInt) : Bool :=
  magic = TCPDUMP_MAGIC || magic = KUZNETZOV_TCPDUMP_MAGIC || magic = NSEC_TCPDUMP_MAGIC

/-- The message of a short read. -/
def readError (fp : FILE) (truncated : String) : String :=
  match fp.error with
  | some e => "error reading dump file: " ++ e
  | none => truncated

/-- `switch (precision)`. -/
def scaleType (magic precision : UInt) : Except CheckFailure TstampScaleType :=
  if precision = PCAP_TSTAMP_PRECISION_MICRO then
    if magic = NSEC_TCPDUMP_MAGIC then .ok .SCALE_DOWN else .ok .PASS_THROUGH
  else if precision = PCAP_TSTAMP_PRECISION_NANO then
    if magic = NSEC_TCPDUMP_MAGIC then .ok .PASS_THROUGH else .ok .SCALE_UP
  else .error (.failed ("unknown time stamp resolution " ++ toString precision.toNat))

/-- `switch (hdr.version_major)`. -/
def lengthsSwapped (version_major version_minor : UShort) : SwappedType :=
  if version_major = 2 then
    if version_minor < 3 then .SWAPPED
    else if version_minor = 3 then .MAYBE_SWAPPED
    else .NOT_SWAPPED
  else if version_major = 543 then .SWAPPED
  else .NOT_SWAPPED

/-- The size of the record headers that stand behind the magic number. -/
def hdrsize (magic : UInt) : Nat := if magic = KUZNETZOV_TCPDUMP_MAGIC then 24 else 16

/-- The snapshot length: 14 more for the patched Ethernet files. -/
def snapshotLength (magic : UInt) (linktype : Int) (snaplen : UInt) : Except CheckFailure CInt :=
  if magic = KUZNETZOV_TCPDUMP_MAGIC ∧ linktype = DLT_EN10MB then
    if snaplen.toInt + 14 < 2 ^ 31 then .ok (snaplen + 14) else .error .undefined
  else .ok snaplen

/-- A bogus snapshot length is replaced by the maximum. -/
def bufferSize (snapshot : CInt) : Int :=
  if snapshot.toInt ≤ 0 then MAXIMUM_SNAPLEN else snapshot.toInt

theorem bufferSize_pos (snapshot : CInt) : 0 < bufferSize snapshot := by
  unfold bufferSize MAXIMUM_SNAPLEN
  split <;> omega

theorem bufferSize_lt (snapshot : CInt) : bufferSize snapshot < 2 ^ 31 := by
  have hlt : snapshot.toInt < 2 ^ 31 := snapshot.toInt_lt
  unfold bufferSize MAXIMUM_SNAPLEN
  split <;> omega

/-- The handle of a header in the byte order of this host. -/
def newOffline (magic : UInt) (swapped : Bool) (hdr : FileHeader) (fp : FILE) (precision : UInt) :
    Except CheckFailure Offline :=
  let linktype := linktype_to_dlt (LT_LINKTYPE hdr.linktype).toInt
  match scaleType magic precision with
  | .error e => .error e
  | .ok scale_type =>
    match snapshotLength magic linktype hdr.snaplen with
    | .error e => .error e
    | .ok snapshot =>
      .ok {
        activated := false
        snapshot := snapshot
        linktype := linktype
        linktype_ext := LT_LINKTYPE_EXT hdr.linktype
        tzoff := hdr.thiszone
        tstamp_precision := precision
        rfile := fp
        swapped := swapped
        version_major := hdr.version_major
        version_minor := hdr.version_minor
        priv := {
          hdrsize := hdrsize magic
          lengths_swapped := lengthsSwapped hdr.version_major hdr.version_minor
          scale_type := scale_type
          hdrsize_cases := by unfold hdrsize; split <;> simp }
        bufsize := bufferSize snapshot
        break_loop := false
        fcode := none
        errbuf := ""
        bufsize_pos := bufferSize_pos snapshot
        bufsize_lt := bufferSize_lt snapshot }

section Open

variable (host : WordOrder)

def pcap_check_header (magic : UInt) (fp : FILE) (precision : UInt) :
    Except CheckFailure Offline :=
  let swapped := !isMagic magic
  let magic := if swapped then SWAPLONG magic else magic
  if !isMagic magic then .error .other
  else
    let (rest, fp) := fread 20 fp
    if rest.length ≠ 20 then
      .error (.failed (readError fp ("truncated dump file; tried to read 24 file header bytes, " ++
        "only got " ++ toString rest.length)))
    else
      let read := FileHeader.load host magic rest
      let hdr := if swapped then { read.swap with magic := magic } else read
      if hdr.version_major < PCAP_VERSION_MAJOR then
        .error (.failed "archaic pcap savefile format")
      else newOffline magic swapped hdr fp precision

/-- `pcap_check_header`, and then the check for the other file type, which is a parameter. -/
def pcap_fopen_offline_with_tstamp_precision {α : Type}
    (pcap_ng_check_header : UInt → FILE → UInt → Except CheckFailure α) (fp : FILE)
    (precision : UInt) : Except CheckFailure (Offline ⊕ α) :=
  let (bytes, fp) := fread 4 fp
  if bytes.length ≠ 4 then
    .error (.failed (readError fp ("truncated dump file; tried to read 4 file header bytes, " ++
      "only got " ++ toString bytes.length)))
  else
    let magic := host.loadInt bytes 0
    match pcap_check_header host magic fp precision with
    | .ok p => .ok (.inl { p with activated := true })
    | .error .other =>
      match pcap_ng_check_header magic fp precision with
      | .ok p => .ok (.inr p)
      | .error .other => .error (.failed "unknown file format")
      | .error e => .error e
    | .error e => .error e

/-- A check for the other file type that no file passes. -/
def noOtherType (_ : UInt) (_ : FILE) (_ : UInt) : Except CheckFailure Unit := .error .other

/-- A handle that was just opened has no filter, and nobody has asked it to stop. -/
theorem fresh_of_open {α : Type} {host : WordOrder}
    {ng : UInt → FILE → UInt → Except CheckFailure α} {fp : FILE} {precision : UInt} {p : Offline}
    (h : pcap_fopen_offline_with_tstamp_precision host ng fp precision = .ok (.inl p)) :
    p.fcode = none ∧ p.break_loop = false := by
  have hnew : ∀ magic swapped hdr fp q, newOffline magic swapped hdr fp precision = .ok q →
      q.fcode = none ∧ q.break_loop = false := by
    intro magic swapped hdr fp q hq
    unfold newOffline at hq
    dsimp only at hq
    split at hq
    · cases hq
    · split at hq
      · cases hq
      · cases hq
        exact ⟨rfl, rfl⟩
  have hcheck : ∀ magic fp q, pcap_check_header host magic fp precision = .ok q →
      q.fcode = none ∧ q.break_loop = false := by
    intro magic fp q hq
    unfold pcap_check_header at hq
    dsimp only at hq
    generalize (if (!isMagic magic) = true then SWAPLONG magic else magic) = magic' at hq
    split at hq
    · cases hq
    · split at hq
      · cases hq
      · generalize (if (!isMagic magic) = true then _ else _ : FileHeader) = hdr at hq
        split at hq
        · cases hq
        · exact hnew _ _ _ _ _ hq
  unfold pcap_fopen_offline_with_tstamp_precision at h
  dsimp only at h
  split at h
  · cases h
  · split at h
    · next q hq =>
      cases h
      exact hcheck _ _ q hq
    · split at h <;> cases h
    · cases h

end Open

end Savefile

end Jxnet
