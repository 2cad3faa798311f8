import Jxnet.Savefile.RoundTrip

namespace Jxnet

open Java

namespace Savefile

open Bpf (UInt UShort)

/-! Savefiles that are written on at their end, or cut short. -/

theorem FileHeader.exists_bytes (o : WordOrder) {bytes : Bytes} (h : 24 ≤ bytes.length) :
    ∃ hdr rest, bytes = FileHeader.bytes o hdr ++ rest := by
  obtain ⟨magic, b4, rfl, h4⟩ := o.exists_storeInt (n := 20) h
  obtain ⟨version_major, b6, rfl, h6⟩ := o.exists_storeShort (n := 18) h4
  obtain ⟨version_minor, b8, rfl, h8⟩ := o.exists_storeShort (n := 16) h6
  obtain ⟨thiszone, b12, rfl, h12⟩ := o.exists_storeInt (n := 12) h8
  obtain ⟨sigfigs, b16, rfl, h16⟩ := o.exists_storeInt (n := 8) h12
  obtain ⟨snaplen, b20, rfl, h20⟩ := o.exists_storeInt (n := 4) h16
  obtain ⟨linktype, rest, rfl, -⟩ := o.exists_storeInt (n := 0) h20
  refine ⟨⟨magic, version_major, version_minor, thiszone, sigfigs, snaplen, linktype⟩, rest, ?_⟩
  simp only [FileHeader.bytes, List.append_assoc]

/-- The header that `pcap_dump_open_append` reads. -/
theorem FileHeader.load_front (o : WordOrder) (hdr : FileHeader) :
    load o (o.loadInt (hdr.bytes o) 0) ((hdr.bytes o).drop 4) = hdr := by
  have hmagic : o.loadInt (hdr.bytes o) 0 = hdr.magic := by
    rw [hdr.bytes_eq, o.loadInt_storeInt]
  rw [hmagic]
  exact hdr.load_rest o hdr.magic

variable {writer : WordOrder} {p : Pcap} {linktype : CInt} {hdr : FileHeader} {fname : String}

/-- The checks pass for the headers that match the handle, and for no other. -/
theorem checkAppend_ok_iff (hprecision : p.tstamp_precision = PCAP_TSTAMP_PRECISION_MICRO ∨
      p.tstamp_precision = PCAP_TSTAMP_PRECISION_NANO) :
    checkAppend p linktype hdr fname = .ok () ↔ Matches p linktype hdr := by
  constructor
  · intro h
    unfold checkAppend at h
    split at h
    · cases h
    · next hsame =>
      rw [not_or, not_and_not_right, not_and_not_right] at hsame
      split at h
      · next hmagic =>
        split at h
        · cases h
        · next hversion =>
          rw [not_or, not_not, not_not] at hversion
          split at h
          · cases h
          · next hlinktype =>
            split at h
            · cases h
            · next hsnaplen =>
              rw [not_not] at hlinktype hsnaplen
              refine ⟨?_, hversion.1, hversion.2, hsnaplen.symm, hlinktype.symm⟩
              rw [fileHeader]
              rcases hmagic with hmagic | hmagic
              · rw [hmagic, hsame.1 hmagic]
                rfl
              · rw [hmagic, hsame.2 hmagic]
                rfl
      · split at h
        · cases h
        · split at h <;> cases h
  · intro h
    have hmagic : ¬ (hdr.magic = TCPDUMP_MAGIC ∧ p.tstamp_precision ≠ PCAP_TSTAMP_PRECISION_MICRO ∨
        hdr.magic = NSEC_TCPDUMP_MAGIC ∧ p.tstamp_precision ≠ PCAP_TSTAMP_PRECISION_NANO) ∧
        (hdr.magic = TCPDUMP_MAGIC ∨ hdr.magic = NSEC_TCPDUMP_MAGIC) := by
      rw [h.magic, fileHeader]
      rcases hprecision with hp | hp <;> simp only [hp] <;> decide
    unfold checkAppend
    rw [if_neg hmagic.1, if_pos hmagic.2, if_neg (by simp [h.version_major, h.version_minor]),
      if_neg (by simp [h.linktype]), if_neg (by simp [h.snaplen])]

/-- What becomes of a file that starts with a header. -/
theorem append_of_header {calls : Calls} {rest : Bytes} (hfname : fname ≠ "-")
    (hdlt : dlt_to_linktype p.linktype ≠ -1) (hfopen : calls.fopen = none) :
    pcap_dump_open_append writer p fname calls ⟨hdr.bytes writer ++ rest, none⟩ =
      match checkAppend p (BitVec.ofInt 32 (dlt_to_linktype p.linktype)) hdr fname, calls.fseek with
      | .error e, _ => .error e
      | .ok _, some e => .error ("Can't seek to end of " ++ fname ++ ": " ++ e)
      | .ok _, none => .ok (hdr.bytes writer ++ rest) := by
  have htake : (hdr.bytes writer ++ rest).take 24 = hdr.bytes writer :=
    List.take_left' (hdr.length_bytes writer)
  unfold pcap_dump_open_append
  simp only [if_neg hdlt, if_neg hfname, hfopen, fread, htake, FileHeader.length_bytes, ne_eq,
    not_true, false_and, if_false, FileHeader.load_front]
  cases checkAppend p (BitVec.ofInt 32 (dlt_to_linktype p.linktype)) hdr fname <;>
    cases calls.fseek <;> rfl

/-- A file with something in it is appended to only if its header matches, and is kept. -/
theorem pcap_dump_open_append_ok {calls : Calls} {old file : Bytes} (hfname : fname ≠ "-")
    (hold : old ≠ []) (hprecision : p.tstamp_precision = PCAP_TSTAMP_PRECISION_MICRO ∨
      p.tstamp_precision = PCAP_TSTAMP_PRECISION_NANO)
    (h : pcap_dump_open_append writer p fname calls ⟨old, none⟩ = .ok file) :
    file = old ∧ ∃ hdr rest, old = FileHeader.bytes writer hdr ++ rest ∧
      Matches p (BitVec.ofInt 32 (dlt_to_linktype p.linktype)) hdr := by
  have hpos : 0 < old.length := List.length_pos_iff.mpr hold
  have hdlt : dlt_to_linktype p.linktype ≠ -1 := by
    intro hdlt
    rw [pcap_dump_open_append, if_pos hdlt] at h
    cases h
  cases hfopen : calls.fopen with
  | some e =>
    simp only [pcap_dump_open_append, if_neg hdlt, if_neg hfname, hfopen] at h
    cases h
  | none =>
    by_cases hlong : 24 ≤ old.length
    · obtain ⟨hdr, rest, rfl⟩ := FileHeader.exists_bytes writer hlong
      rw [append_of_header hfname hdlt hfopen] at h
      split at h
      · cases h
      · cases h
      · next hcheck _ =>
        injection h with h
        exact ⟨h.symm, hdr, rest, rfl, (checkAppend_ok_iff hprecision).mp hcheck⟩
    · have hshort : min 24 old.length ≠ 24 ∧ 0 < min 24 old.length := by omega
      simp only [pcap_dump_open_append, if_neg hdlt, if_neg hfname, hfopen, fread,
        List.length_take, ne_eq, not_true, and_false, if_false, if_pos hshort] at h
      cases h

/-- Appending loses nothing: a file that reads to its end yields the packets that it had and then
those that were appended, on a host of either byte order. -/
theorem append_reread {α : Type} (host writer : WordOrder)
    (ng : UInt → FILE → UInt → Except CheckFailure α) (p : Pcap) (fname : String) (calls : Calls)
    (pkts : List Packet) (precision : UInt) (old file : Bytes) (hfname : fname ≠ "-")
    (hold : old ≠ [])
    (hopen : pcap_dump_open_append writer p fname calls ⟨old, none⟩ = .ok file)
    (hhandle : p.tstamp_precision = PCAP_TSTAMP_PRECISION_MICRO ∨
      p.tstamp_precision = PCAP_TSTAMP_PRECISION_NANO)
    (hprecision : precision = PCAP_TSTAMP_PRECISION_MICRO ∨
      precision = PCAP_TSTAMP_PRECISION_NANO)
    (hcaplen : ∀ pkt ∈ pkts, pkt.hdr.caplen.toNat ≤ max (bufferSize p.snapshot) MAXIMUM_SNAPLEN) :
    ∃ q q' : Offline,
      pcap_fopen_offline_with_tstamp_precision host ng ⟨old, none⟩ precision = .ok (.inl q) ∧
      pcap_fopen_offline_with_tstamp_precision host ng ⟨file ++ dumpAll writer pkts, none⟩
        precision = .ok (.inl q') ∧
      ((contents host q.reader q.rfile).2 = .eof →
        ∃ reads, List.Forall₂ (Reread host q.reader) pkts reads ∧
          contents host q'.reader q'.rfile =
            ((contents host q.reader q.rfile).1 ++ reads, .eof)) := by
  obtain ⟨rfl, hdr, rest, rfl, hmatches⟩ := pcap_dump_open_append_ok hfname hold hhandle hopen
  obtain ⟨q, hq, hopened⟩ := open_matches hmatches host writer ng rest none hprecision
  obtain ⟨q', hq', hopened'⟩ := open_matches hmatches host writer ng
    (rest ++ dumpAll writer pkts) none hprecision
  rw [← List.append_assoc] at hq'
  refine ⟨q, q', hq, hq', ?_⟩
  rw [hopened.reader, hopened'.reader, hopened.rfile, hopened'.rfile]
  intro heof
  obtain ⟨hreads, hend⟩ := contents_dumped
    (r := dumpReader (decide (writer ≠ host)) p hdr.linktype precision) rfl rfl rfl pkts hcaplen
  refine ⟨_, hreads, ?_⟩
  rw [contents_append _ none heof, hend]

/-- A second frame behind the one that the file has. -/
theorem append_reread_frame : ∃ q q' : Offline,
    pcap_fopen_offline_with_tstamp_precision .big noOtherType
      ⟨(fileHeader ethernet 1).bytes .little ++ dumpAll .little [frame], none⟩
        PCAP_TSTAMP_PRECISION_MICRO = .ok (.inl q) ∧
    pcap_fopen_offline_with_tstamp_precision .big noOtherType
      ⟨(fileHeader ethernet 1).bytes .little ++ dumpAll .little [frame] ++
        dumpAll .little [laterFrame], none⟩ PCAP_TSTAMP_PRECISION_MICRO = .ok (.inl q') ∧
    ((contents .big q.reader q.rfile).2 = .eof →
      ∃ reads, List.Forall₂ (Reread .big q.reader) [laterFrame] reads ∧
        contents .big q'.reader q'.rfile =
          ((contents .big q.reader q.rfile).1 ++ reads, .eof)) :=
  append_reread .big .little noOtherType ethernet "x" ⟨none, none, none⟩ [laterFrame] _ _ _
    (by decide) (by decide) rfl (.inl rfl) (.inl rfl) (by decide)

/-- A handle can append to the file that it wrote exactly if it has no extended link-layer
information: that stands in the header of the file, and is missing in what appending compares. -/
theorem append_own_file (writer : WordOrder) (p : Pcap) (fname : String) (calls : Calls)
    (file records : Bytes) (hfname : fname ≠ "-") (hfopen : calls.fopen = none)
    (hfseek : calls.fseek = none) (hopen : pcap_dump_open writer p fname calls = .ok file)
    (hprecision : p.tstamp_precision = PCAP_TSTAMP_PRECISION_MICRO ∨
      p.tstamp_precision = PCAP_TSTAMP_PRECISION_NANO)
    (hext : LT_LINKTYPE p.linktype_ext = 0) :
    pcap_dump_open_append writer p fname calls ⟨file ++ records, none⟩ = .ok (file ++ records) ↔
      p.linktype_ext = 0 := by
  obtain ⟨linktype, ⟨-, hdlt, rfl⟩, rfl⟩ := pcap_dump_open_ok hopen
  have hheader : (fileHeader p (BitVec.ofInt 32 (dlt_to_linktype p.linktype) |||
      p.linktype_ext)).linktype = BitVec.ofInt 32 (dlt_to_linktype p.linktype) ↔
      p.linktype_ext = 0 := by
    obtain ⟨-, hhigh⟩ := linktype_field hdlt hext
    obtain ⟨-, hzero⟩ := linktype_field hdlt (show LT_LINKTYPE 0#32 = 0 from rfl)
    change BitVec.ofInt 32 (dlt_to_linktype p.linktype) ||| p.linktype_ext = _ ↔ _
    constructor
    · intro h
      rw [h] at hhigh
      rw [BitVec.or_zero] at hzero
      exact hhigh.symm.trans hzero
    · intro h
      rw [h]
      exact BitVec.or_zero
  rw [append_of_header hfname hdlt hfopen, hfseek]
  constructor
  · intro h
    split at h
    · cases h
    · cases h
    · next hcheck _ => exact hheader.mp ((checkAppend_ok_iff hprecision).mp hcheck).linktype
  · intro h
    have hmatches : Matches p (BitVec.ofInt 32 (dlt_to_linktype p.linktype))
        (fileHeader p (BitVec.ofInt 32 (dlt_to_linktype p.linktype) ||| p.linktype_ext)) :=
      ⟨rfl, rfl, rfl, rfl, hheader.mpr h⟩
    rw [(checkAppend_ok_iff hprecision).mpr hmatches]

/-- A handle whose file says how long the frame check sequence is. -/
def ethernetFcs : Pcap := { ethernet with linktype_ext := 0x24000000 }

/-- Of the one file the handle can go on, of the other it cannot. -/
theorem append_own_file_ethernet :
    (pcap_dump_open_append .little ethernet "x" ⟨none, none, none⟩
        ⟨(fileHeader ethernet 1).bytes .little ++ dumpAll .little [frame], none⟩ =
      .ok ((fileHeader ethernet 1).bytes .little ++ dumpAll .little [frame]) ↔
        ethernet.linktype_ext = 0) ∧
    (pcap_dump_open_append .little ethernetFcs "x" ⟨none, none, none⟩
        ⟨(fileHeader ethernetFcs 0x24000001).bytes .little ++ dumpAll .little [frame], none⟩ =
      .ok ((fileHeader ethernetFcs 0x24000001).bytes .little ++ dumpAll .little [frame]) ↔
        ethernetFcs.linktype_ext = 0) :=
  ⟨append_own_file .little ethernet "x" ⟨none, none, none⟩ _ _ (by decide) rfl rfl rfl (.inl rfl)
      rfl,
    append_own_file .little ethernetFcs "x" ⟨none, none, none⟩ _ _ (by decide) rfl rfl rfl
      (.inl rfl) rfl⟩

section Truncated

variable {host : WordOrder}

theorem newOffline_rfile {magic : UInt} {swapped : Bool} {hdr : FileHeader} {fp : FILE}
    {precision : UInt} {q : Offline} (h : newOffline magic swapped hdr fp precision = .ok q)
    (fp' : FILE) : q.rfile = fp ∧
      newOffline magic swapped hdr fp' precision = .ok { q with rfile := fp' } := by
  unfold newOffline at h ⊢
  dsimp only at h ⊢
  split at h
  · cases h
  · split at h
    · cases h
    · cases h
      exact ⟨rfl, rfl⟩

theorem check_header_append {magic precision : UInt} {a b : Bytes} {e e' : Option String}
    {q : Offline} (h : pcap_check_header host magic ⟨a ++ b, e'⟩ precision = .ok q)
    (ha : 20 ≤ a.length) : q.rfile = ⟨a.drop 20 ++ b, e'⟩ ∧
      pcap_check_header host magic ⟨a, e⟩ precision =
        .ok { q with rfile := ⟨a.drop 20, e⟩ } := by
  have hread := fread_append b e e' ha
  unfold pcap_check_header at h ⊢
  rw [hread] at h
  dsimp only [fread] at h ⊢
  generalize (if (!isMagic magic) = true then SWAPLONG magic else magic) = magic' at h ⊢
  split at h
  · cases h
  · next hmagic =>
    rw [if_neg hmagic]
    split at h
    · cases h
    · next hlength =>
      rw [if_neg hlength]
      generalize (if (!isMagic magic) = true then _ else _ : FileHeader) = hdr at h ⊢
      split at h
      · cases h
      · next hmajor =>
        rw [if_neg hmajor]
        exact newOffline_rfile h _

/-- A savefile that is cut short behind its header opens to the handle that the whole file opens
to, but for the bytes that are left, and yields a first part of its packets, as they are, and
nothing else. -/
theorem truncated_savefile {α : Type} (host : WordOrder)
    (ng : UInt → FILE → UInt → Except CheckFailure α) (a b : Bytes) (e e' : Option String)
    (precision : UInt) (q : Offline) (ha : 24 ≤ a.length)
    (hopen : pcap_fopen_offline_with_tstamp_precision host ng ⟨a ++ b, e'⟩ precision =
      .ok (.inl q)) :
    ∃ fp : FILE, pcap_fopen_offline_with_tstamp_precision host ng ⟨a, e⟩ precision =
        .ok (.inl { q with rfile := fp }) ∧
      (contents host q.reader fp).1 <+: (contents host q.reader q.rfile).1 := by
  have hread := fread_append b e e' (show 4 ≤ a.length by omega)
  unfold pcap_fopen_offline_with_tstamp_precision at hopen ⊢
  rw [hread] at hopen
  dsimp only [fread] at hopen ⊢
  split at hopen
  · cases hopen
  · next hlength =>
    rw [if_neg hlength]
    split at hopen
    · next q0 hcheck =>
      obtain ⟨hrfile, hcheck'⟩ := check_header_append (e := e) hcheck (by
        rw [List.length_drop]
        omega)
      cases hopen
      rw [hcheck']
      refine ⟨_, rfl, ?_⟩
      change (contents host q0.reader _).1 <+: (contents host q0.reader q0.rfile).1
      rw [hrfile]
      exact contents_prefix _ _ _ _
    · split at hopen <;> cases hopen
    · cases hopen

/-- The end of the second of two frames is missing. -/
theorem truncated_savefile_frame : ∃ (q : Offline) (fp : FILE),
    pcap_fopen_offline_with_tstamp_precision .little noOtherType
      ⟨((fileHeader ethernet 1).bytes .little ++ (dumpAll .little [frame, laterFrame]).take 37) ++
        (dumpAll .little [frame, laterFrame]).drop 37, none⟩ PCAP_TSTAMP_PRECISION_MICRO =
          .ok (.inl q) ∧
    pcap_fopen_offline_with_tstamp_precision .little noOtherType
      ⟨(fileHeader ethernet 1).bytes .little ++ (dumpAll .little [frame, laterFrame]).take 37, none⟩
        PCAP_TSTAMP_PRECISION_MICRO = .ok (.inl { q with rfile := fp }) ∧
    (contents .little q.reader fp).1 <+: (contents .little q.reader q.rfile).1 := by
  obtain ⟨q, hq, -⟩ := open_matches (matches_fileHeader ethernet 1) .little .little noOtherType
    ((dumpAll .little [frame, laterFrame]).take 37 ++
      (dumpAll .little [frame, laterFrame]).drop 37) none (.inl rfl)
  rw [← List.append_assoc] at hq
  obtain ⟨fp, h⟩ := truncated_savefile .little noOtherType _ _ none none _ q (by simp) hq
  exact ⟨q, fp, hq, h⟩

end Truncated

end Savefile

end Jxnet
