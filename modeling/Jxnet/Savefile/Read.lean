import Jxnet.Savefile.Open

namespace Jxnet

open Java

namespace Savefile

open Bpf (UInt UShort Insn)

/-! Reading the next packet. -/

/-- A packet as it is handed on: the bytes are those that `caplen` counts. -/
@[ext]
structure Packet where
  hdr : Pkthdr
  data : Bytes
  captured : data.length = hdr.caplen.toNat
  deriving DecidableEq

/-- What `pcap_next_packet` returns: 0 with a packet, 1, or -1 with a message. -/
inductive NextPacket where
  | packet (p : Packet)
  | eof
  | error (errbuf : String)

/-- The time stamp in the precision that was asked for. -/
def scale (scale_type : TstampScaleType) (ts : Timeval) : Timeval :=
  match scale_type with
  | .PASS_THROUGH => ts
  | .SCALE_UP => { ts with tv_usec := ts.tv_usec * 1000 }
  | .SCALE_DOWN => { ts with tv_usec := ts.tv_usec.tdiv 1000 }

/-- Swap the `caplen` and `len` fields, if necessary. -/
def swapLengths (lengths_swapped : SwappedType) (hdr : Pkthdr) : Pkthdr :=
  match lengths_swapped with
  | .NOT_SWAPPED => hdr
  | .MAYBE_SWAPPED =>
    if hdr.caplen ≤ hdr.len then hdr else { hdr with caplen := hdr.len, len := hdr.caplen }
  | .SWAPPED => { hdr with caplen := hdr.len, len := hdr.caplen }

section Read

/-- The header of a record: as it was read, scaled, and with its lengths in place. -/
def recordHeader (p : Reader) (sf_hdr : SfPkthdr) : Pkthdr :=
  let sf_hdr := if p.swapped then sf_hdr.swap else sf_hdr
  swapLengths p.priv.lengths_swapped {
    ts := scale p.priv.scale_type ⟨sf_hdr.tv_sec.toInt, sf_hdr.tv_usec.toInt⟩
    caplen := sf_hdr.caplen
    len := sf_hdr.len }

def truncatedData (caplen : UInt) (amt_read : Nat) : String :=
  "truncated dump file; tried to read " ++ toString caplen.toNat ++
    " captured bytes, only got " ++ toString amt_read

/-- The data of a record, with the header that goes with it: all of it, or what fits the buffer
of a record that is not grossly too long. -/
def recordData (bufsize : Int) (hdr : Pkthdr) (fp : FILE) : Except String (Pkthdr × Bytes) × FILE :=
  if BitVec.ofInt 32 bufsize < hdr.caplen then
    if MAXIMUM_SNAPLEN < hdr.caplen.toNat then
      (.error "bogus savefile header", fp)
    else
      let (data, fp) := fread hdr.caplen.toNat fp
      if data.length ≠ hdr.caplen.toNat then
        (.error (readError fp (truncatedData hdr.caplen data.length)), fp)
      else
        (.ok ({ hdr with caplen := BitVec.ofInt 32 bufsize }, data.take bufsize.toNat), fp)
  else
    let (data, fp) := fread hdr.caplen.toNat fp
    if data.length ≠ hdr.caplen.toNat then
      (.error (readError fp (truncatedData hdr.caplen data.length)), fp)
    else
      (.ok (hdr, data), fp)

/-- Either way the bytes are those that `caplen` counts, and no more than the buffer has. -/
theorem recordData_ok {bufsize : Int} (hpos : 0 < bufsize) (hlt : bufsize < 2 ^ 31)
    {hdr hdr' : Pkthdr} {data : Bytes} {fp fp' : FILE}
    (h : recordData bufsize hdr fp = (.ok (hdr', data), fp')) :
    data.length = hdr'.caplen.toNat ∧ hdr'.caplen.toNat ≤ bufsize := by
  have hofInt : (BitVec.ofInt 32 bufsize).toNat = bufsize.toNat := by
    rw [BitVec.toNat_ofInt, Int.emod_eq_of_lt (by omega) (by omega)]
  unfold recordData at h
  split at h
  · next hbig =>
    split at h
    · cases h
    · dsimp only at h
      split at h
      · cases h
      · next hdata =>
        injection h with h _
        injection h with h
        injection h with hhdr hbytes
        rw [← hhdr, ← hbytes, List.length_take]
        change bufsize.toNat ⊓ _ = (BitVec.ofInt 32 bufsize).toNat ∧
          ((BitVec.ofInt 32 bufsize).toNat : Int) ≤ bufsize
        rw [not_not] at hdata
        have hlt' : (BitVec.ofInt 32 bufsize).toNat < hdr.caplen.toNat := hbig
        rw [hdata, hofInt]
        omega
  · next hsmall =>
    dsimp only at h
    split at h
    · cases h
    · next hdata =>
      injection h with h _
      injection h with h
      injection h with hhdr hbytes
      rw [← hhdr, ← hbytes]
      rw [not_not] at hdata
      refine ⟨hdata, ?_⟩
      have hle : hdr.caplen.toNat ≤ (BitVec.ofInt 32 bufsize).toNat := Nat.not_lt.mp hsmall
      omega

variable (host : WordOrder)

/-- The data in the byte order of this host. -/
def swapData (p : Reader) (hdr : Pkthdr) (data : Bytes) : Except Undefined Bytes :=
  if p.swapped then (swap_pseudo_headers host p.linktype hdr).finish data else .ok data

variable {host}

theorem exists_swapData (host : WordOrder) (p : Reader) {hdr : Pkthdr} {data : Bytes}
    (hdata : data.length = hdr.caplen.toNat) (hlt : hdr.caplen.toNat < 2 ^ 31) :
    ∃ data', swapData host p hdr data = .ok data' ∧ data'.length = hdr.caplen.toNat := by
  unfold swapData
  split
  · exact (swap_pseudo_headers_safe p.linktype hdr hlt).finish hdata
  · exact ⟨data, rfl, hdata⟩

theorem swapData_length (p : Reader) {hdr : Pkthdr} {data data' : Bytes} {fp fp' : FILE}
    {hdr' : Pkthdr} (hr : recordData p.bufsize hdr' fp = (.ok (hdr, data), fp'))
    (hs : swapData host p hdr data = .ok data') : data'.length = hdr.caplen.toNat := by
  obtain ⟨hdata, hle⟩ := recordData_ok p.bufsize_pos p.bufsize_lt hr
  have hlt := p.bufsize_lt
  obtain ⟨data'', hdata', hlength⟩ := exists_swapData host p hdata (by omega)
  rw [hs] at hdata'
  injection hdata' with heq
  rw [heq, hlength]

variable (host)

/-- `pcap_next_packet` on the file. -/
def nextPacket (p : Reader) (fp : FILE) : Except Undefined (NextPacket × FILE) :=
  let (bytes, fp) := fread p.priv.hdrsize fp
  if bytes.length ≠ p.priv.hdrsize then
    if fp.error = none ∧ bytes.length = 0 then
      .ok (.eof, fp)
    else
      .ok (.error (readError fp ("truncated dump file; tried to read " ++
        toString p.priv.hdrsize ++ " header bytes, only got " ++ toString bytes.length)), fp)
  else
    match hr : recordData p.bufsize (recordHeader p (SfPkthdr.load host bytes)) fp with
    | (.error errbuf, fp) => .ok (.error errbuf, fp)
    | (.ok (hdr, data), fp) =>
      match hs : swapData host p hdr data with
      | .error e => .error e
      | .ok data => .ok (.packet ⟨hdr, data, swapData_length p hr hs⟩, fp)

def pcap_next_packet (p : Offline) : Except Undefined (NextPacket × Offline) :=
  match nextPacket host p.reader p.rfile with
  | .error e => .error e
  | .ok (.error errbuf, fp) => .ok (.error errbuf, { p with rfile := fp, errbuf := errbuf })
  | .ok (r, fp) => .ok (r, { p with rfile := fp })

end Read

section Next

theorem length_fread {n : Nat} {fp : FILE} (h : (fread n fp).1.length = n) :
    (fread n fp).2.ahead.length + n = fp.ahead.length := by
  simp only [fread, List.length_take, List.length_drop] at h ⊢
  omega

theorem recordData_ahead (bufsize : Int) (hdr : Pkthdr) (fp : FILE) :
    (recordData bufsize hdr fp).2.ahead.length ≤ fp.ahead.length := by
  have hread : ∀ n, (fread n fp).2.ahead.length ≤ fp.ahead.length := by
    intro n
    simp [fread]
  unfold recordData
  split
  · split
    · exact Nat.le_refl _
    · dsimp only
      split <;> exact hread _
  · dsimp only
    split <;> exact hread _

/-- What reading a packet comes to. It never leaves the data, and a packet takes at least its
header from the file. -/
theorem nextPacket_cases (host : WordOrder) (p : Reader) (fp : FILE) :
    ∃ r fp', nextPacket host p fp = .ok (r, fp') ∧ match r with
      | .packet pkt => fp'.ahead.length + p.priv.hdrsize ≤ fp.ahead.length ∧
          (pkt.hdr.caplen.toNat : Int) ≤ p.bufsize
      | .eof => fp = ⟨[], none⟩ ∧ fp' = fp
      | .error _ => True := by
  unfold nextPacket
  dsimp only
  split
  · next hshort =>
    split
    · next heof =>
      refine ⟨.eof, _, rfl, ?_⟩
      have hempty : fp.ahead = [] := by
        have hlen : (fp.ahead.take p.priv.hdrsize).length = 0 := heof.2
        rw [List.length_take] at hlen
        have hpos : 0 < p.priv.hdrsize := by
          rcases p.priv.hdrsize_cases with h | h <;> omega
        exact List.eq_nil_of_length_eq_zero (by omega)
      have hfile : fp = ⟨[], none⟩ := by
        have herror : fp.error = none := heof.1
        rw [← hempty, ← herror]
      refine ⟨hfile, ?_⟩
      rw [hfile]
      simp [fread]
    · exact ⟨.error _, _, rfl, trivial⟩
  · next hlong =>
    rw [not_not] at hlong
    have hfile := length_fread hlong
    have hahead := recordData_ahead p.bufsize (recordHeader p (SfPkthdr.load host
      (fread p.priv.hdrsize fp).1)) (fread p.priv.hdrsize fp).2
    split
    · next errbuf fp hr => exact ⟨.error errbuf, _, rfl, trivial⟩
    · next hdr data fp' hr =>
      rw [hr] at hahead
      obtain ⟨hdata, hle⟩ := recordData_ok p.bufsize_pos p.bufsize_lt hr
      have hlt := p.bufsize_lt
      split
      · next e hs =>
        obtain ⟨data', hdata', -⟩ := exists_swapData host p hdata (by omega)
        rw [hs] at hdata'
        cases hdata'
      · next data' hs =>
        refine ⟨.packet _, _, rfl, ?_, hle⟩
        have hle' : fp'.ahead.length ≤ (fread p.priv.hdrsize fp).2.ahead.length := hahead
        omega

end Next

end Savefile

end Jxnet
