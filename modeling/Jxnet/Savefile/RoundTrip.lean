import Jxnet.Savefile.Dump
import Jxnet.Savefile.HostData

namespace Jxnet

open Java

namespace Savefile

open Bpf (UInt UShort)

/-! What was written is read again, on a host of either byte order. -/

/-- What a file that was opened for writing starts with. -/
theorem pcap_dump_open_ok {writer : WordOrder} {p : Pcap} {fname : String} {calls : Calls}
    {file : Bytes} (h : pcap_dump_open writer p fname calls = .ok file) :
    ∃ linktype : CInt, (p.activated = true ∧ dlt_to_linktype p.linktype ≠ -1 ∧
        linktype = BitVec.ofInt 32 (dlt_to_linktype p.linktype) ||| p.linktype_ext) ∧
      file = (fileHeader p linktype).bytes writer := by
  have hsetup : ∀ linktype name, pcap_setup_dump writer p linktype name calls = .ok file →
      file = (fileHeader p linktype).bytes writer := by
    intro linktype name hfile
    unfold pcap_setup_dump at hfile
    split at hfile
    · cases hfile
    · injection hfile with hfile
      exact hfile.symm
  unfold pcap_dump_open at h
  split at h
  · cases h
  · next hactivated =>
    split at h
    · cases h
    · next hsupported =>
      refine ⟨_, ⟨by simpa using hactivated, hsupported, rfl⟩, ?_⟩
      dsimp only at h
      split at h
      · exact hsetup _ _ h
      · split at h
        · cases h
        · exact hsetup _ _ h

/-- How the time stamps of a file are scaled for who reads it. -/
def dumpScale (p : Pcap) (precision : UInt) : TstampScaleType :=
  if p.tstamp_precision = PCAP_TSTAMP_PRECISION_NANO then
    if precision = PCAP_TSTAMP_PRECISION_NANO then .PASS_THROUGH else .SCALE_DOWN
  else
    if precision = PCAP_TSTAMP_PRECISION_NANO then .SCALE_UP else .PASS_THROUGH

/-- What a handle for a file that was written from `p` looks at. -/
def dumpReader (swapped : Bool) (p : Pcap) (linktype : CInt) (precision : UInt) : Reader where
  swapped := swapped
  linktype := linktype_to_dlt (LT_LINKTYPE linktype).toInt
  priv := ⟨16, .NOT_SWAPPED, dumpScale p precision, hdrsize_sf_pkthdr⟩
  bufsize := bufferSize p.snapshot
  bufsize_pos := bufferSize_pos p.snapshot
  bufsize_lt := bufferSize_lt p.snapshot

/-- A file header that says what `sf_write_header` would say, but for the time zone. -/
structure Matches (p : Pcap) (linktype : CInt) (hdr : FileHeader) : Prop where
  magic : hdr.magic = (fileHeader p linktype).magic
  version_major : hdr.version_major = PCAP_VERSION_MAJOR
  version_minor : hdr.version_minor = PCAP_VERSION_MINOR
  snaplen : hdr.snaplen = p.snapshot
  linktype : hdr.linktype = linktype

theorem matches_fileHeader (p : Pcap) (linktype : CInt) :
    Matches p linktype (fileHeader p linktype) := ⟨rfl, rfl, rfl, rfl, rfl⟩

/-- The handle for a file with a header that matches `p`. -/
structure OpenedFrom (swapped : Bool) (p : Pcap) (hdr : FileHeader) (precision : UInt)
    (fp : FILE) (q : Offline) : Prop where
  reader : q.reader = dumpReader swapped p hdr.linktype precision
  rfile : q.rfile = fp
  activated : q.activated = true
  snapshot : q.snapshot = p.snapshot
  linktype_ext : q.linktype_ext = LT_LINKTYPE_EXT hdr.linktype
  tzoff : q.tzoff = hdr.thiszone
  tstamp_precision : q.tstamp_precision = precision

section Header

variable {p : Pcap} {linktype : CInt} {hdr : FileHeader} {precision : UInt}

theorem Matches.magic_cases (h : Matches p linktype hdr) :
    (p.tstamp_precision = PCAP_TSTAMP_PRECISION_NANO ∧ hdr.magic = NSEC_TCPDUMP_MAGIC) ∨
    (p.tstamp_precision ≠ PCAP_TSTAMP_PRECISION_NANO ∧ hdr.magic = TCPDUMP_MAGIC) := by
  rw [h.magic, fileHeader]
  split
  · next h => exact .inl ⟨h, rfl⟩
  · next h => exact .inr ⟨h, rfl⟩

theorem Matches.isMagic (h : Matches p linktype hdr) :
    isMagic hdr.magic = true ∧ Savefile.isMagic (SWAPLONG hdr.magic) = false := by
  rcases h.magic_cases with ⟨-, hmagic⟩ | ⟨-, hmagic⟩ <;> rw [hmagic] <;> decide

theorem newOffline_matches (h : Matches p linktype hdr) (swapped : Bool) (fp : FILE)
    (hprecision : precision = PCAP_TSTAMP_PRECISION_MICRO ∨
      precision = PCAP_TSTAMP_PRECISION_NANO) :
    ∃ q, newOffline hdr.magic swapped hdr fp precision = .ok q ∧
      OpenedFrom swapped p hdr precision fp { q with activated := true } := by
  have hscale : scaleType hdr.magic precision = .ok (dumpScale p precision) := by
    unfold dumpScale
    rcases h.magic_cases with ⟨hp, hmagic⟩ | ⟨hp, hmagic⟩ <;>
      rcases hprecision with rfl | rfl <;> simp only [hp, hmagic] <;> rfl
  have hsnapshot : snapshotLength hdr.magic
      (linktype_to_dlt (LT_LINKTYPE hdr.linktype).toInt) hdr.snaplen = .ok p.snapshot := by
    unfold snapshotLength
    rw [if_neg, h.snaplen]
    rintro ⟨hkuznetzov, -⟩
    rcases h.magic_cases with ⟨-, hmagic⟩ | ⟨-, hmagic⟩ <;>
      rw [hmagic] at hkuznetzov <;> exact absurd hkuznetzov (by decide)
  have hsize : hdrsize hdr.magic = 16 := by
    rcases h.magic_cases with ⟨-, hmagic⟩ | ⟨-, hmagic⟩ <;> rw [hmagic] <;> rfl
  have hlengths : lengthsSwapped hdr.version_major hdr.version_minor = .NOT_SWAPPED := by
    rw [h.version_major, h.version_minor]
    rfl
  unfold newOffline
  simp only [hscale, hsnapshot]
  refine ⟨_, rfl, ⟨?_, rfl, rfl, rfl, rfl, rfl, rfl⟩⟩
  simp only [Offline.reader, dumpReader, hsize, hlengths]

/-- A file that starts with such a header opens, on a host of the writer's byte order or of the
other. -/
theorem open_matches {α : Type} (h : Matches p linktype hdr) (host writer : WordOrder)
    (ng : UInt → FILE → UInt → Except CheckFailure α) (after : Bytes) (e : Option String)
    (hprecision : precision = PCAP_TSTAMP_PRECISION_MICRO ∨
      precision = PCAP_TSTAMP_PRECISION_NANO) :
    ∃ q, pcap_fopen_offline_with_tstamp_precision host ng
        ⟨hdr.bytes writer ++ after, e⟩ precision = .ok (.inl q) ∧
      OpenedFrom (decide (writer ≠ host)) p hdr precision ⟨after, e⟩ q := by
  obtain ⟨q, hq, hopened⟩ := newOffline_matches h (decide (writer ≠ host)) ⟨after, e⟩ hprecision
  refine ⟨{ q with activated := true }, ?_, hopened⟩
  obtain ⟨hmagic, hswapped⟩ := h.isMagic
  have hmajor : ¬ hdr.version_major < PCAP_VERSION_MAJOR := by
    rw [h.version_major]
    decide
  have hfread : ∀ (n : Nat) (xs ys : Bytes), xs.length = n →
      fread n ⟨xs ++ ys, e⟩ = (xs, ⟨ys, e⟩) := by
    rintro _ xs ys rfl
    simp [fread]
  have hcheck : pcap_check_header host (host.loadInt (writer.storeInt hdr.magic) 0)
      ⟨hdr.rest writer ++ after, e⟩ precision = .ok q := by
    unfold pcap_check_header
    rw [hfread 20 _ _ (hdr.length_rest writer)]
    by_cases hw : writer = host
    · subst hw
      rw [writer.loadInt_storeInt_nil]
      simp only [hmagic, Bool.not_true, Bool.false_eq_true, if_false, FileHeader.length_rest,
        ne_eq, not_true, FileHeader.load_rest, hmajor]
      rw [← hq, decide_eq_false (not_not.mpr rfl)]
    · have hother := WordOrder.eq_other_of_ne hw
      subst hother
      have hload : host.loadInt (host.other.storeInt hdr.magic) 0 = SWAPLONG hdr.magic := by
        rw [host.storeInt_other, host.loadInt_storeInt_nil, SWAPLONG_eq]
      rw [hload]
      simp only [hswapped, Bool.not_false, if_true, SWAPLONG_SWAPLONG, hmagic, Bool.not_true,
        Bool.false_eq_true, if_false, FileHeader.length_rest, ne_eq, not_true,
        FileHeader.load_rest_other, hmajor]
      rw [← hq, decide_eq_true hw]
  unfold pcap_fopen_offline_with_tstamp_precision
  rw [FileHeader.bytes_eq, List.append_assoc, hfread 4 _ _ (writer.length_storeInt _)]
  simp only [writer.length_storeInt, ne_eq, not_true, if_false, hcheck]

end Header

section Records

variable {host writer : WordOrder} {r : Reader}

/-- What 32 bits hold of a time stamp. -/
def narrow (ts : Timeval) : Timeval :=
  ⟨(BitVec.ofInt 32 ts.tv_sec).toInt, (BitVec.ofInt 32 ts.tv_usec).toInt⟩

theorem narrow_of_range {ts : Timeval} (hsec : -2 ^ 31 ≤ ts.tv_sec ∧ ts.tv_sec < 2 ^ 31)
    (husec : -2 ^ 31 ≤ ts.tv_usec ∧ ts.tv_usec < 2 ^ 31) : narrow ts = ts := by
  have hkeep : ∀ x : Int, -2 ^ 31 ≤ x ∧ x < 2 ^ 31 → (BitVec.ofInt 32 x).toInt = x := by
    intro x hx
    rw [BitVec.toInt_ofInt, Int.bmod_eq_of_le (by omega) (by omega)]
  rw [narrow, hkeep _ hsec, hkeep _ husec]

/-- How a packet that was written is read: the time stamp in 32 bits and scaled, the data cut to
the buffer and turned to the byte order of the host. -/
structure Reread (host : WordOrder) (r : Reader) (pkt pkt' : Packet) : Prop where
  ts : pkt'.hdr.ts = scale r.priv.scale_type (narrow pkt.hdr.ts)
  len : pkt'.hdr.len = pkt.hdr.len
  caplen : pkt'.hdr.caplen.toNat = min pkt.hdr.caplen.toNat r.bufsize.toNat
  data : swapData host r pkt'.hdr (pkt.data.take pkt'.hdr.caplen.toNat) = .ok pkt'.data

/-- The record data of a packet that is not grossly longer than the buffer. -/
theorem recordData_dumped (hdr : Pkthdr) (data after : Bytes) (e : Option String)
    (hdata : data.length = hdr.caplen.toNat)
    (hcaplen : hdr.caplen.toNat ≤ max r.bufsize MAXIMUM_SNAPLEN) :
    ∃ caplen : UInt, caplen.toNat = min hdr.caplen.toNat r.bufsize.toNat ∧
      recordData r.bufsize hdr ⟨data ++ after, e⟩ =
        (.ok ({ hdr with caplen := caplen }, data.take caplen.toNat), ⟨after, e⟩) := by
  have hpos := r.bufsize_pos
  have hlt := r.bufsize_lt
  have hofInt : (BitVec.ofInt 32 r.bufsize).toNat = r.bufsize.toNat := by
    rw [BitVec.toNat_ofInt, Int.emod_eq_of_lt (by omega) (by omega)]
  have hfread : fread hdr.caplen.toNat ⟨data ++ after, e⟩ = (data, ⟨after, e⟩) := by
    simp [fread, ← hdata]
  unfold recordData
  rw [hfread]
  by_cases hbig : BitVec.ofInt 32 r.bufsize < hdr.caplen
  · have hbig' : (BitVec.ofInt 32 r.bufsize).toNat < hdr.caplen.toNat := hbig
    refine ⟨BitVec.ofInt 32 r.bufsize, by omega, ?_⟩
    have hsalvage : ¬ MAXIMUM_SNAPLEN < hdr.caplen.toNat := by
      unfold MAXIMUM_SNAPLEN at hcaplen ⊢
      omega
    rw [if_pos hbig, if_neg hsalvage]
    simp only [hdata, ne_eq, not_true, if_false, hofInt]
  · have hsmall : hdr.caplen.toNat ≤ (BitVec.ofInt 32 r.bufsize).toNat := Nat.not_lt.mp hbig
    refine ⟨hdr.caplen, by omega, ?_⟩
    rw [if_neg hbig]
    simp only [hdata, ne_eq, not_true, if_false]
    rw [← hdata, List.take_length]

/-- One record is read back, and nothing behind it is touched. -/
theorem nextPacket_dumped (hsize : r.priv.hdrsize = 16)
    (hlengths : r.priv.lengths_swapped = .NOT_SWAPPED)
    (hswapped : r.swapped = decide (writer ≠ host)) (pkt : Packet) (after : Bytes)
    (e : Option String) (hcaplen : pkt.hdr.caplen.toNat ≤ max r.bufsize MAXIMUM_SNAPLEN) :
    ∃ pkt', nextPacket host r ⟨pcap_dump writer pkt ++ after, e⟩ =
      .ok (.packet pkt', ⟨after, e⟩) ∧ Reread host r pkt pkt' := by
  have hheader : recordHeader r (SfPkthdr.load host ((sfPkthdr pkt.hdr).bytes writer)) =
      { pkt.hdr with ts := scale r.priv.scale_type (narrow pkt.hdr.ts) } := by
    unfold recordHeader
    rw [hlengths, hswapped, ← List.append_nil ((sfPkthdr pkt.hdr).bytes writer)]
    by_cases hw : writer = host
    · subst hw
      rw [SfPkthdr.load_bytes, decide_eq_false (not_not.mpr rfl)]
      rfl
    · have hother := WordOrder.eq_other_of_ne hw
      subst hother
      rw [decide_eq_true hw, if_pos rfl, SfPkthdr.load_other]
      rfl
  have hfread : fread r.priv.hdrsize ⟨pcap_dump writer pkt ++ after, e⟩ =
      ((sfPkthdr pkt.hdr).bytes writer, ⟨pkt.data ++ after, e⟩) := by
    rw [hsize]
    simp [fread, pcap_dump]
  obtain ⟨caplen, hmin, hrecord⟩ := recordData_dumped
    { pkt.hdr with ts := scale r.priv.scale_type (narrow pkt.hdr.ts) } pkt.data after e
    pkt.captured hcaplen
  change caplen.toNat = min pkt.hdr.caplen.toNat r.bufsize.toNat at hmin
  have htake : (pkt.data.take caplen.toNat).length = caplen.toNat := by
    rw [List.length_take, pkt.captured, hmin]
    omega
  have hlt := r.bufsize_lt
  obtain ⟨data, hdata, hlength⟩ : ∃ data, swapData host r
      ⟨scale r.priv.scale_type (narrow pkt.hdr.ts), caplen, pkt.hdr.len⟩
      (pkt.data.take caplen.toNat) = .ok data ∧ data.length = caplen.toNat :=
    exists_swapData host r htake (by change caplen.toNat < _; omega)
  refine ⟨⟨⟨scale r.priv.scale_type (narrow pkt.hdr.ts), caplen, pkt.hdr.len⟩, data, hlength⟩,
    ?_, ⟨rfl, rfl, hmin, hdata⟩⟩
  refine nextPacket_packet_iff.mpr ⟨?_, pkt.data.take caplen.toNat, ?_, hdata⟩
  · rw [hsize, List.length_append, pcap_dump, List.length_append, SfPkthdr.length_bytes]
    omega
  · rw [hfread, hheader]
    exact hrecord

/-- The records of a file, behind its header. -/
def dumpAll (writer : WordOrder) (pkts : List Packet) : Bytes := pkts.flatMap (pcap_dump writer)

theorem contents_dumped (hsize : r.priv.hdrsize = 16)
    (hlengths : r.priv.lengths_swapped = .NOT_SWAPPED)
    (hswapped : r.swapped = decide (writer ≠ host)) (pkts : List Packet)
    (hcaplen : ∀ pkt ∈ pkts, pkt.hdr.caplen.toNat ≤ max r.bufsize MAXIMUM_SNAPLEN) :
    List.Forall₂ (Reread host r) pkts (contents host r ⟨dumpAll writer pkts, none⟩).1 ∧
      (contents host r ⟨dumpAll writer pkts, none⟩).2 = .eof := by
  induction pkts with
  | nil =>
    have heof : nextPacket host r ⟨[], none⟩ = .ok (.eof, ⟨[], none⟩) := by
      have hpos : ¬ 0 = r.priv.hdrsize := by omega
      simp [nextPacket, fread, hpos]
    have hnil : dumpAll writer [] = [] := rfl
    rw [hnil, contents_eof heof]
    exact ⟨.nil, rfl⟩
  | cons pkt pkts ih =>
    obtain ⟨pkt', hnext, hreread⟩ := nextPacket_dumped hsize hlengths hswapped pkt
      (dumpAll writer pkts) none (hcaplen pkt List.mem_cons_self)
    obtain ⟨hrest, heof⟩ := ih fun pkt hpkt => hcaplen pkt (List.mem_cons_of_mem _ hpkt)
    have hcons : dumpAll writer (pkt :: pkts) = pcap_dump writer pkt ++ dumpAll writer pkts := rfl
    rw [hcons, contents_packet hnext]
    exact ⟨.cons hreread hrest, heof⟩

end Records

/-- A file written from a handle, whoever reads it: it opens with what the handle says of it, it
contains the packets that were dumped, in their order, each once, and ends there. -/
theorem dumped_file_reread {α : Type} (host writer : WordOrder)
    (ng : UInt → FILE → UInt → Except CheckFailure α) (p : Pcap) (fname : String) (calls : Calls)
    (pkts : List Packet) (precision : UInt) (file : Bytes)
    (hopen : pcap_dump_open writer p fname calls = .ok file)
    (hprecision : precision = PCAP_TSTAMP_PRECISION_MICRO ∨
      precision = PCAP_TSTAMP_PRECISION_NANO)
    (hcaplen : ∀ pkt ∈ pkts, pkt.hdr.caplen.toNat ≤ max (bufferSize p.snapshot) MAXIMUM_SNAPLEN) :
    ∃ q : Offline, pcap_fopen_offline_with_tstamp_precision host ng
        ⟨file ++ dumpAll writer pkts, none⟩ precision = .ok (.inl q) ∧
      q.snapshot = p.snapshot ∧ q.tzoff = p.tzoff ∧
      List.Forall₂ (Reread host q.reader) pkts (contents host q.reader q.rfile).1 ∧
      (contents host q.reader q.rfile).2 = .eof := by
  obtain ⟨linktype, -, rfl⟩ := pcap_dump_open_ok hopen
  obtain ⟨q, hq, hopened⟩ := open_matches (matches_fileHeader p linktype) host writer ng
    (dumpAll writer pkts) none hprecision
  refine ⟨q, hq, hopened.snapshot, hopened.tzoff, ?_⟩
  rw [hopened.reader, hopened.rfile]
  exact contents_dumped rfl rfl rfl pkts hcaplen

/-- Written on a little-endian host, and read in nanoseconds on the other. -/
theorem dumped_file_reread_frame : ∃ q : Offline,
    pcap_fopen_offline_with_tstamp_precision .big noOtherType
      ⟨(fileHeader ethernet 1).bytes .little ++ dumpAll .little [frame], none⟩
        PCAP_TSTAMP_PRECISION_NANO = .ok (.inl q) ∧
    q.snapshot = ethernet.snapshot ∧ q.tzoff = ethernet.tzoff ∧
    List.Forall₂ (Reread .big q.reader) [frame] (contents .big q.reader q.rfile).1 ∧
    (contents .big q.reader q.rfile).2 = .eof :=
  dumped_file_reread .big .little noOtherType ethernet "x" ⟨none, none, none⟩ [frame] _ _ rfl
    (.inr rfl) (by decide)

section Exact

variable {host writer : WordOrder} {r : Reader}

/-- A packet that a file holds without loss for a handle. -/
structure Fits (bufsize : Int) (pkt : Packet) : Prop where
  sec : -2 ^ 31 ≤ pkt.hdr.ts.tv_sec ∧ pkt.hdr.ts.tv_sec < 2 ^ 31
  usec : -2 ^ 31 ≤ pkt.hdr.ts.tv_usec ∧ pkt.hdr.ts.tv_usec < 2 ^ 31
  caplen : pkt.hdr.caplen.toNat ≤ bufsize

instance (bufsize : Int) (pkt : Packet) : Decidable (Fits bufsize pkt) :=
  decidable_of_iff ((-2 ^ 31 ≤ pkt.hdr.ts.tv_sec ∧ pkt.hdr.ts.tv_sec < 2 ^ 31) ∧
    (-2 ^ 31 ≤ pkt.hdr.ts.tv_usec ∧ pkt.hdr.ts.tv_usec < 2 ^ 31) ∧
    (pkt.hdr.caplen.toNat : Int) ≤ bufsize)
    ⟨fun ⟨h, h', h''⟩ => ⟨h, h', h''⟩, fun ⟨h, h', h''⟩ => ⟨h, h', h''⟩⟩

theorem Reread.hdr_eq {pkt pkt' : Packet} (h : Reread host r pkt pkt')
    (hscale : r.priv.scale_type = .PASS_THROUGH) (hfits : Fits r.bufsize pkt) :
    pkt'.hdr = pkt.hdr := by
  have hcaplen : pkt'.hdr.caplen = pkt.hdr.caplen := by
    have hle := hfits.caplen
    apply BitVec.eq_of_toNat_eq
    rw [h.caplen]
    omega
  have hts := h.ts
  rw [hscale, narrow_of_range hfits.sec hfits.usec] at hts
  calc pkt'.hdr = ⟨pkt'.hdr.ts, pkt'.hdr.caplen, pkt'.hdr.len⟩ := rfl
    _ = ⟨pkt.hdr.ts, pkt.hdr.caplen, pkt.hdr.len⟩ := by rw [hts, hcaplen, h.len]; rfl

/-- A packet that is turned to `pkt'` is read as that one. -/
theorem Reread.eq_of_turned {pkt pkt' read : Packet} (h : Reread host r pkt read)
    (hscale : r.priv.scale_type = .PASS_THROUGH) (hfits : Fits r.bufsize pkt)
    (hhdr : pkt'.hdr = pkt.hdr) (hturned : swapData host r pkt.hdr pkt.data = .ok pkt'.data) :
    read = pkt' := by
  have hread := h.hdr_eq hscale hfits
  have hdata := h.data
  rw [hread, ← pkt.captured, List.take_length, hturned] at hdata
  injection hdata with hdata
  exact Packet.ext (hread.trans hhdr.symm) hdata.symm

theorem eq_map_of_forall₂ {ι : Type} {R : Packet → Packet → Prop} {f g : ι → Packet}
    {items : List ι} {reads : List Packet} (h : List.Forall₂ R (items.map f) reads)
    (hR : ∀ i ∈ items, ∀ read, R (f i) read → read = g i) : reads = items.map g := by
  induction items generalizing reads with
  | nil =>
    cases h
    rfl
  | cons i items ih =>
    cases h with
    | cons hhead htail =>
      rw [List.map_cons, hR i List.mem_cons_self _ hhead,
        ih htail fun i hi => hR i (List.mem_cons_of_mem _ hi)]

/-- Packets that stand in a file of the writer's byte order are read as those of the host. -/
theorem contents_rendered {ι : Type} (render : WordOrder → ι → Packet) (items : List ι)
    (hsize : r.priv.hdrsize = 16) (hlengths : r.priv.lengths_swapped = .NOT_SWAPPED)
    (hscale : r.priv.scale_type = .PASS_THROUGH)
    (hswapped : r.swapped = decide (writer ≠ host))
    (hfits : ∀ i ∈ items, Fits r.bufsize (render writer i))
    (hhdr : ∀ i ∈ items, (render host i).hdr = (render writer i).hdr)
    (hturned : ∀ i ∈ items, swapData host r (render writer i).hdr (render writer i).data =
      .ok (render host i).data) :
    contents host r ⟨dumpAll writer (items.map (render writer)), none⟩ =
      (items.map (render host), .eof) := by
  have hcaplen : ∀ pkt ∈ items.map (render writer),
      pkt.hdr.caplen.toNat ≤ max r.bufsize MAXIMUM_SNAPLEN := by
    intro pkt hpkt
    obtain ⟨i, hi, rfl⟩ := List.mem_map.mp hpkt
    exact (hfits i hi).caplen.trans (Int.le_max_left _ _)
  obtain ⟨hreread, heof⟩ := contents_dumped hsize hlengths hswapped _ hcaplen
  refine Prod.ext (eq_map_of_forall₂ hreread fun i hi read hread => ?_) heof
  exact hread.eq_of_turned hscale (hfits i hi) (hhdr i hi) (hturned i hi)

theorem swapData_plain (hplain : r.swapped = false ∨ PlainData r.linktype) (hdr : Pkthdr)
    (data : Bytes) : swapData host r hdr data = .ok data := by
  unfold swapData
  split
  · next hswapped =>
    rcases hplain with hplain | ⟨husb, hmmapped, hnflog⟩
    · rw [hplain] at hswapped
      cases hswapped
    · rw [swap_pseudo_headers, if_neg husb, if_neg hmmapped, if_neg hnflog]
      rfl
  · rfl

/-- What the linktype field of a file says of the handle that it was written from. -/
theorem linktype_field {dlt : Int} {ext : CInt} (hdlt : dlt_to_linktype dlt ≠ -1)
    (hext : LT_LINKTYPE ext = 0) :
    (LT_LINKTYPE (BitVec.ofInt 32 (dlt_to_linktype dlt) ||| ext)).toInt = dlt_to_linktype dlt ∧
      LT_LINKTYPE_EXT (BitVec.ofInt 32 (dlt_to_linktype dlt) ||| ext) = ext := by
  obtain ⟨hnonneg, hle⟩ := dlt_to_linktype_range dlt hdlt
  obtain ⟨n, hn⟩ := Int.eq_ofNat_of_zero_le hnonneg
  have hnat : (BitVec.ofInt 32 n).toNat = n := by
    rw [BitVec.toNat_ofInt]
    omega
  have hint : (BitVec.ofInt 32 n).toInt = n := by
    rw [BitVec.toInt_eq_toNat_cond, hnat, if_pos (by omega)]
  have hlow : BitVec.ofInt 32 n &&& 0x03ffffff = BitVec.ofInt 32 n := by
    apply BitVec.eq_of_toNat_eq
    rw [BitVec.toNat_and, hnat]
    change n &&& 2 ^ 26 - 1 = n
    rw [Nat.and_two_pow_sub_one_eq_mod]
    omega
  have hhigh : BitVec.ofInt 32 n &&& 0xfc000000 = 0 := by
    rw [← hlow, BitVec.and_assoc]
    exact BitVec.and_zero
  have hkeep : ext &&& 0xfc000000 = ext := (and_eq_self_iff ext 0xfc000000).mpr hext
  rw [hn]
  unfold LT_LINKTYPE LT_LINKTYPE_EXT at *
  constructor
  · rw [BitVec.and_or_distrib_right, hlow, hext]
    simpa using hint
  · rw [BitVec.and_or_distrib_right, hhigh, hkeep]
    simp

/-- What is opened again from a file says the same as the handle that it was written from. -/
theorem OpenedFrom.toPcap_eq {swapped : Bool} {p : Pcap} {linktype : CInt} {fp : FILE}
    {q : Offline} (h : OpenedFrom swapped p (fileHeader p linktype) p.tstamp_precision fp q)
    (hactivated : p.activated = true) (hdlt : dlt_to_linktype p.linktype ≠ -1)
    (hclip : p.linktype ≠ DLT_ATM_CLIP)
    (hlinktype : linktype = BitVec.ofInt 32 (dlt_to_linktype p.linktype) ||| p.linktype_ext)
    (hext : LT_LINKTYPE p.linktype_ext = 0) : q.toPcap = p := by
  obtain ⟨hlow, hhigh⟩ := linktype_field hdlt hext
  have hreader := congrArg Reader.linktype h.reader
  have hback : q.linktype = p.linktype := by
    change q.linktype = linktype_to_dlt (LT_LINKTYPE linktype).toInt at hreader
    rw [hreader, hlinktype, hlow, linktype_to_dlt_of_supported hdlt, if_neg hclip]
  have hqext : q.linktype_ext = p.linktype_ext := by
    rw [h.linktype_ext]
    change LT_LINKTYPE_EXT linktype = _
    rw [hlinktype, hhigh]
  calc q.toPcap = ⟨q.activated, q.snapshot, q.linktype, q.linktype_ext, q.tzoff,
        q.tstamp_precision⟩ := rfl
    _ = ⟨p.activated, p.snapshot, p.linktype, p.linktype_ext, p.tzoff, p.tstamp_precision⟩ := by
      rw [h.activated, h.snapshot, hback, hqext, h.tzoff, h.tstamp_precision, hactivated]
      rfl
    _ = p := rfl

/-- The file of a handle whose packets stand in the byte order of the writer. -/
theorem open_rendered {α ι : Type} (host : WordOrder)
    (ng : UInt → FILE → UInt → Except CheckFailure α) {p : Pcap} {fname : String} {calls : Calls}
    {file : Bytes} (hopen : pcap_dump_open writer p fname calls = .ok file)
    (hprecision : p.tstamp_precision = PCAP_TSTAMP_PRECISION_MICRO ∨
      p.tstamp_precision = PCAP_TSTAMP_PRECISION_NANO)
    (hclip : p.linktype ≠ DLT_ATM_CLIP) (hext : LT_LINKTYPE p.linktype_ext = 0)
    (render : WordOrder → ι → Packet) (items : List ι)
    (hfits : ∀ i ∈ items, Fits (bufferSize p.snapshot) (render writer i))
    (hhdr : ∀ i ∈ items, (render host i).hdr = (render writer i).hdr)
    (hturned : ∀ i ∈ items, ∀ r : Reader, r.swapped = decide (writer ≠ host) →
      r.linktype = p.linktype →
      swapData host r (render writer i).hdr (render writer i).data = .ok (render host i).data) :
    ∃ q : Offline, pcap_fopen_offline_with_tstamp_precision host ng
        ⟨file ++ dumpAll writer (items.map (render writer)), none⟩ p.tstamp_precision =
          .ok (.inl q) ∧
      q.toPcap = p ∧ contents host q.reader q.rfile = (items.map (render host), .eof) := by
  obtain ⟨linktype, ⟨hactivated, hdlt, hlinktype⟩, rfl⟩ := pcap_dump_open_ok hopen
  obtain ⟨q, hq, hopened⟩ := open_matches (matches_fileHeader p linktype) host writer ng
    (dumpAll writer (items.map (render writer))) none hprecision
  have heq := hopened.toPcap_eq hactivated hdlt hclip hlinktype hext
  refine ⟨q, hq, heq, ?_⟩
  have hscale : dumpScale p p.tstamp_precision = .PASS_THROUGH := by
    unfold dumpScale
    split <;> rfl
  have hback : q.reader.linktype = p.linktype := congrArg Pcap.linktype heq
  rw [hopened.reader] at hback ⊢
  rw [hopened.rfile]
  exact contents_rendered render items rfl rfl hscale rfl hfits hhdr
    fun i hi => hturned i hi _ rfl hback

/-- A file that is opened again, on a host of the same byte order or with data that is the same
on every host, gives the handle and the packets that it was written from. -/
theorem savefile_round_trip {α : Type} (host writer : WordOrder)
    (ng : UInt → FILE → UInt → Except CheckFailure α) (p : Pcap) (fname : String) (calls : Calls)
    (pkts : List Packet) (file : Bytes) (hopen : pcap_dump_open writer p fname calls = .ok file)
    (hprecision : p.tstamp_precision = PCAP_TSTAMP_PRECISION_MICRO ∨
      p.tstamp_precision = PCAP_TSTAMP_PRECISION_NANO)
    (hclip : p.linktype ≠ DLT_ATM_CLIP) (hext : LT_LINKTYPE p.linktype_ext = 0)
    (hplain : writer = host ∨ PlainData p.linktype)
    (hfits : ∀ pkt ∈ pkts, Fits (bufferSize p.snapshot) pkt) :
    ∃ q : Offline, pcap_fopen_offline_with_tstamp_precision host ng
        ⟨file ++ dumpAll writer pkts, none⟩ p.tstamp_precision = .ok (.inl q) ∧
      q.toPcap = p ∧ contents host q.reader q.rfile = (pkts, .eof) := by
  have hturned : ∀ pkt ∈ pkts, ∀ r : Reader, r.swapped = decide (writer ≠ host) →
      r.linktype = p.linktype → swapData host r pkt.hdr pkt.data = .ok pkt.data := by
    intro pkt _ r hswapped hlinktype
    refine swapData_plain ?_ _ _
    rcases hplain with rfl | hplain
    · exact .inl (by rw [hswapped]; simp)
    · exact .inr (hlinktype ▸ hplain)
  have h := open_rendered host ng hopen hprecision hclip hext (fun _ pkt => pkt) pkts hfits
    (fun _ _ => rfl) hturned
  simpa only [List.map_id'] using h

theorem savefile_round_trip_frame : ∃ q : Offline,
    pcap_fopen_offline_with_tstamp_precision .big noOtherType
      ⟨(fileHeader ethernet 1).bytes .little ++ dumpAll .little [frame], none⟩
        PCAP_TSTAMP_PRECISION_MICRO = .ok (.inl q) ∧
    q.toPcap = ethernet ∧ contents .big q.reader q.rfile = ([frame], .eof) :=
  savefile_round_trip .big .little noOtherType ethernet "x" ⟨none, none, none⟩ [frame] _ rfl
    (.inl rfl) (by decide) rfl (.inr (by decide)) (by decide)

/-- A packet before any host has laid it out. -/
structure HostPacket where
  ts : Timeval
  caplen : UInt
  len : UInt
  data : HostData
  captured : ∀ o, (data.bytes o).length = caplen.toNat

def HostPacket.packet (o : WordOrder) (pkt : HostPacket) : Packet :=
  ⟨⟨pkt.ts, pkt.caplen, pkt.len⟩, pkt.data.bytes o, pkt.captured o⟩

theorem HostData.turned {data : HostData} {hdr : Pkthdr} (h : data.IsOf r.linktype)
    (hw : writer ≠ host) (hswapped : r.swapped = true)
    (hcaptured : (data.bytes host).length = hdr.caplen.toNat)
    (hlen : r.linktype = DLT_NFLOG → hdr.caplen ≤ hdr.len) :
    swapData host r hdr (data.bytes writer) = .ok (data.bytes host) := by
  have hother := WordOrder.eq_other_of_ne hw
  subst hother
  cases data with
  | plain bytes => exact swapData_plain (.inr h) _ _
  | nflog packet =>
    rw [swapData, if_pos hswapped, h, swap_pseudo_headers, if_neg (by decide),
      if_neg (by decide), if_pos rfl]
    exact swap_nflog_header_order packet hdr hcaptured.symm (hlen h)
  | usb header data =>
    rw [bytes, List.length_append, length_header] at hcaptured
    rw [swapData, if_pos hswapped, h, swap_pseudo_headers, if_pos rfl]
    exact swap_linux_usb_header_order header hdr (by omega)
  | usbMmapped header e data =>
    rw [bytes, ← List.append_assoc, fieldBytes_append, List.length_append, List.length_append,
      length_header, length_extension] at hcaptured
    rw [swapData, if_pos hswapped, h.1, swap_pseudo_headers, if_neg (by decide), if_pos rfl]
    exact swap_linux_usb_header_mmapped_order header e hdr (by omega) h.2

/-- A packet that was captured with its whole pseudo-header. -/
theorem HostPacket.exists_of_whole {linktype : Int} {pkt : Packet}
    (h : Whole writer linktype pkt.data) :
    ∃ item : HostPacket, item.data.IsOf linktype ∧ item.packet writer = pkt := by
  obtain ⟨data, hof, hbytes⟩ := HostData.exists_of_whole writer h
  have hcaptured : ∀ o, (data.bytes o).length = pkt.hdr.caplen.toNat := by
    intro o
    rw [← pkt.captured, ← hbytes, data.length_bytes o writer]
  exact ⟨⟨pkt.hdr.ts, pkt.hdr.caplen, pkt.hdr.len, data, hcaptured⟩, hof, Packet.ext rfl hbytes⟩

theorem HostPacket.exists_items {linktype : Int} {pkts : List Packet}
    (h : ∀ pkt ∈ pkts, Whole writer linktype pkt.data) :
    ∃ items : List HostPacket, (∀ item ∈ items, item.data.IsOf linktype) ∧
      items.map (HostPacket.packet writer) = pkts := by
  induction pkts with
  | nil => exact ⟨[], by simp, rfl⟩
  | cons pkt pkts ih =>
    obtain ⟨item, hof, hpkt⟩ := exists_of_whole (h pkt List.mem_cons_self)
    obtain ⟨items, hofs, hpkts⟩ := ih fun pkt' hpkt' => h pkt' (List.mem_cons_of_mem pkt hpkt')
    exact ⟨item :: items, List.forall_mem_cons.mpr ⟨hof, hofs⟩, by rw [List.map_cons, hpkt, hpkts]⟩

/-- A packet of netfilter with an attribute of four bytes, as a little-endian host has it. -/
def nflogPacket : Packet :=
  ⟨⟨⟨1, 2⟩, 12, 12⟩, [2, 0, 0, 7, 8, 0, 9, 0, 1, 2, 3, 4], rfl⟩

end Exact

end Savefile

end Jxnet
