import Jxnet.Savefile.Contents

namespace Jxnet

open Java

namespace Savefile

open Bpf (UInt UShort)

/-! Writing a savefile. -/

/-- `pcap_open_dead_with_tstamp_precision`: a handle that is no source of packets. -/
def pcap_open_dead_with_tstamp_precision (linktype : Int) (snaplen : CInt) (precision : UInt) :
    Option Pcap :=
  if precision = PCAP_TSTAMP_PRECISION_MICRO ∨ precision = PCAP_TSTAMP_PRECISION_NANO then
    some {
      activated := true
      snapshot := snaplen
      linktype := linktype
      linktype_ext := 0
      tzoff := 0
      tstamp_precision := precision }
  else none

def pcap_open_dead (linktype : Int) (snaplen : CInt) : Option Pcap :=
  pcap_open_dead_with_tstamp_precision linktype snaplen PCAP_TSTAMP_PRECISION_MICRO

/-- What `pcap_open_dead` makes for Ethernet, with a snapshot length of 96. -/
def ethernet : Pcap := ⟨true, 96, DLT_EN10MB, 0, 0, PCAP_TSTAMP_PRECISION_MICRO⟩

example : pcap_open_dead DLT_EN10MB 96 = some ethernet := rfl

/-- A frame of 60 bytes of which three were captured. -/
def frame : Packet := ⟨⟨⟨1, 2⟩, 3, 60⟩, [1, 2, 3], rfl⟩

/-- A longer one behind it, of which four were captured. -/
def laterFrame : Packet := ⟨⟨⟨1, 5⟩, 4, 90⟩, [1, 2, 3, 4], rfl⟩

/-- What the calls of the C library come to while a file is opened for writing: the text of an
error, or none. -/
structure Calls where
  fopen : Option String
  fwrite : Option String
  fseek : Option String

section Dump

variable (host : WordOrder)

/-- The header that `sf_write_header` writes. -/
def fileHeader (p : Pcap) (linktype : CInt) : FileHeader where
  magic := if p.tstamp_precision = PCAP_TSTAMP_PRECISION_NANO then NSEC_TCPDUMP_MAGIC
    else TCPDUMP_MAGIC
  version_major := PCAP_VERSION_MAJOR
  version_minor := PCAP_VERSION_MINOR
  thiszone := p.tzoff
  sigfigs := 0
  snaplen := p.snapshot
  linktype := linktype

/-- The file after `pcap_setup_dump`, or the message that it leaves. -/
def pcap_setup_dump (p : Pcap) (linktype : CInt) (fname : String) (calls : Calls) :
    Except String Bytes :=
  match calls.fwrite with
  | some e => .error ("Can't write to " ++ fname ++ ": " ++ e)
  | none => .ok ((fileHeader p linktype).bytes host)

/-- The file is new: what was there before is gone. -/
def pcap_dump_open (p : Pcap) (fname : String) (calls : Calls) : Except String Bytes :=
  if !p.activated then
    .error (fname ++ ": not-yet-activated pcap_t passed to pcap_dump_open")
  else if dlt_to_linktype p.linktype = -1 then
    .error (fname ++ ": link-layer type " ++ toString p.linktype ++ " isn't supported in savefiles")
  else
    let linktype := BitVec.ofInt 32 (dlt_to_linktype p.linktype) ||| p.linktype_ext
    if fname = "-" then pcap_setup_dump host p linktype "standard output" calls
    else
      match calls.fopen with
      | some e => .error (fname ++ ": " ++ e)
      | none => pcap_setup_dump host p linktype fname calls

/-- The checks of `pcap_dump_open_append` on a header that is there. -/
def checkAppend (p : Pcap) (linktype : CInt) (ph : FileHeader) (fname : String) :
    Except String Unit :=
  if ph.magic = TCPDUMP_MAGIC ∧ p.tstamp_precision ≠ PCAP_TSTAMP_PRECISION_MICRO ∨
      ph.magic = NSEC_TCPDUMP_MAGIC ∧ p.tstamp_precision ≠ PCAP_TSTAMP_PRECISION_NANO then
    .error (fname ++ ": different time stamp precision, cannot append to file")
  else if ph.magic = TCPDUMP_MAGIC ∨ ph.magic = NSEC_TCPDUMP_MAGIC then
    if ph.version_major ≠ PCAP_VERSION_MAJOR ∨ ph.version_minor ≠ PCAP_VERSION_MINOR then
      .error (fname ++ ": version is " ++ toString ph.version_major.toNat ++ "." ++
        toString ph.version_minor.toNat ++ ", cannot append to file")
    else if linktype ≠ ph.linktype then
      .error (fname ++ ": different linktype, cannot append to file")
    else if p.snapshot ≠ ph.snaplen then
      .error (fname ++ ": different snaplen, cannot append to file")
    else .ok ()
  else if ph.magic = SWAPLONG TCPDUMP_MAGIC ∨ ph.magic = SWAPLONG NSEC_TCPDUMP_MAGIC then
    .error (fname ++ ": different byte order, cannot append to file")
  else if ph.magic = KUZNETZOV_TCPDUMP_MAGIC ∨ ph.magic = SWAPLONG KUZNETZOV_TCPDUMP_MAGIC ∨
      ph.magic = NAVTEL_TCPDUMP_MAGIC ∨ ph.magic = SWAPLONG NAVTEL_TCPDUMP_MAGIC then
    .error (fname ++ ": not a pcap file to which we can append")
  else .error (fname ++ ": not a pcap file")

/-- The file after `pcap_dump_open_append`, written on at its end, or the message that it leaves.
The extended link-layer information of the handle plays no part here. -/
def pcap_dump_open_append (p : Pcap) (fname : String) (calls : Calls) (f : FILE) :
    Except String Bytes :=
  if dlt_to_linktype p.linktype = -1 then
    .error (fname ++ ": link-layer type -1 isn't supported in savefiles")
  else
    let linktype := BitVec.ofInt 32 (dlt_to_linktype p.linktype)
    if fname = "-" then pcap_setup_dump host p linktype "standard output" calls
    else
      match calls.fopen with
      | some e => .error (fname ++ ": " ++ e)
      | none =>
        let (bytes, f') := fread 24 f
        if bytes.length ≠ 24 ∧ f'.error ≠ none then
          .error (fname ++ ": " ++ f'.error.getD "")
        else if bytes.length ≠ 24 ∧ 0 < bytes.length then
          .error (fname ++ ": truncated pcap file header")
        else
          let ph := FileHeader.load host (host.loadInt bytes 0) (bytes.drop 4)
          let file := if 0 < bytes.length then
              (checkAppend p linktype ph fname).map fun _ => f.ahead
            else pcap_setup_dump host p linktype fname calls
          match file, calls.fseek with
          | .error e, _ => .error e
          | .ok _, some e => .error ("Can't seek to end of " ++ fname ++ ": " ++ e)
          | .ok file, none => .ok file

/-- The record header of a packet: the time stamp loses what 32 bits do not hold. -/
def sfPkthdr (h : Pkthdr) : SfPkthdr where
  tv_sec := BitVec.ofInt 32 h.ts.tv_sec
  tv_usec := BitVec.ofInt 32 h.ts.tv_usec
  caplen := h.caplen
  len := h.len

/-- What `pcap_dump` adds to the file. -/
def pcap_dump (pkt : Packet) : Bytes := (sfPkthdr pkt.hdr).bytes host ++ pkt.data

end Dump

end Savefile

end Jxnet
