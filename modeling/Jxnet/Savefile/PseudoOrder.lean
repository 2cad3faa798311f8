import Jxnet.Savefile.PseudoHeader

namespace Jxnet

open Java

namespace Savefile

open Bpf (UInt UShort)

/-! Swapping turns the data of a host of the other byte order into that of this host. -/

namespace InPlace

variable {host : WordOrder} {i : Nat}

theorem finish_bind {α : Type} {m : InPlace α} {k : α → InPlace Unit} {buf buf' : Bytes} {a : α}
    (h : m buf = (.ok a, buf')) : (m >>= k).finish buf = (k a).finish buf' := by
  rw [finish, finish, Body.bind_apply, h]

theorem read_at (pre xs post : Bytes) {n : Nat} (hpre : pre.length = i) (hxs : xs.length = n) :
    read i n (pre ++ (xs ++ post)) = (.ok xs, pre ++ (xs ++ post)) := by
  have hslice : WordOrder.slice (pre ++ (xs ++ post)) i n = xs := by
    rw [← Nat.zero_add i, WordOrder.slice_add pre _ hpre, WordOrder.slice_zero xs post hxs]
  have hin : i + n ≤ (pre ++ (xs ++ post)).length := by
    simp only [List.length_append]
    omega
  simp only [read, Body.bind_apply, Body.read_apply, id_eq, if_pos hin, hslice, Body.pure_apply]

theorem write_at (pre xs ys post : Bytes) (hpre : pre.length = i) (hxs : xs.length = ys.length) :
    write i ys (pre ++ (xs ++ post)) = (.ok (), pre ++ (ys ++ post)) := by
  have hin : i + ys.length ≤ (pre ++ (xs ++ post)).length := by
    simp only [List.length_append]
    omega
  have htake : (pre ++ (xs ++ post)).take i = pre := List.take_left' hpre
  have hdrop : (pre ++ (xs ++ post)).drop (i + ys.length) = post := by
    rw [← List.drop_drop, List.drop_left' hpre, List.drop_left' hxs]
  simp only [write, Body.bind_apply, Body.read_apply, id_eq, if_pos hin, Body.update_apply,
    htake, hdrop]

theorem readByte_at (pre post : Bytes) (b : JByte) (hpre : pre.length = i) :
    readByte i (pre ++ b :: post) = (.ok b, pre ++ b :: post) := by
  have h := read_at pre [b] post hpre (n := 1) rfl
  rw [List.singleton_append] at h
  simp only [readByte, Body.bind_apply, h, Body.pure_apply]
  rfl

theorem readShort_at (host : WordOrder) (pre post : Bytes) (x : UShort) (hpre : pre.length = i) :
    readShort host i (pre ++ (host.storeShort x ++ post)) =
      (.ok x, pre ++ (host.storeShort x ++ post)) := by
  have h := read_at pre (host.storeShort x) post hpre (host.length_storeShort x)
  simp only [readShort, Body.bind_apply, h, Body.pure_apply]
  rw [← List.append_nil (host.storeShort x), host.loadShort_storeShort]

theorem readInt_at (pre post : Bytes) (x : UInt) (hpre : pre.length = i) :
    readInt host i (pre ++ (host.storeInt x ++ post)) =
      (.ok x, pre ++ (host.storeInt x ++ post)) := by
  have h := read_at pre (host.storeInt x) post hpre (host.length_storeInt x)
  simp only [readInt, Body.bind_apply, h, Body.pure_apply]
  rw [host.loadInt_storeInt_nil]

theorem swapShort_at (host : WordOrder) (pre post : Bytes) (x : UShort) (hpre : pre.length = i) :
    swapShort host i (pre ++ (host.other.storeShort x ++ post)) =
      (.ok (), pre ++ (host.storeShort x ++ post)) := by
  have hr := read_at pre (host.other.storeShort x) post hpre (host.other.length_storeShort x)
  have hswap : SWAPSHORT (host.loadShort (host.other.storeShort x) 0) = x := by
    rw [host.storeShort_other, SWAPSHORT_eq, ← List.append_nil (host.storeShort _),
      host.loadShort_storeShort, WordOrder.reverseShort_reverseShort]
  simp only [swapShort, Body.bind_apply, hr, hswap]
  exact write_at pre _ _ post hpre (by simp)

theorem swapLong_at (pre post : Bytes) (x : UInt) (hpre : pre.length = i) :
    swapLong host i (pre ++ (host.other.storeInt x ++ post)) =
      (.ok (), pre ++ (host.storeInt x ++ post)) := by
  have hr := read_at pre (host.other.storeInt x) post hpre (host.other.length_storeInt x)
  have hswap : SWAPLONG (host.loadInt (host.other.storeInt x) 0) = x := by
    rw [host.storeInt_other, SWAPLONG_eq, host.loadInt_storeInt_nil,
      WordOrder.reverseInt_reverseInt]
  simp only [swapLong, Body.bind_apply, hr, hswap]
  exact write_at pre _ _ post hpre (by simp)

theorem swapLL_at (pre post : Bytes) (x : JLong) (hpre : pre.length = i) :
    swapLL host i (pre ++ (host.other.storeLong x ++ post)) =
      (.ok (), pre ++ (host.storeLong x ++ post)) := by
  have hr := read_at pre (host.other.storeLong x) post hpre (host.other.length_storeLong x)
  have hswap : SWAPLL (host.loadLong (host.other.storeLong x) 0) = x := by
    rw [host.storeLong_other, SWAPLL_eq, host.loadLong_storeLong,
      WordOrder.reverseLong_reverseLong]
  simp only [swapLL, Body.bind_apply, hr, hswap]
  exact write_at pre _ _ post hpre (by simp)

theorem unlessShort_of_le (caplen offset : UInt) (h : offset.toNat ≤ caplen.toNat) (buf : Bytes) :
    unlessShort caplen offset buf = (.ok (), buf) := by
  rw [unlessShort, if_neg (by bv_omega)]
  rfl

end InPlace

open InPlace

/-! NFLOG packets. -/

/-- A TLV that is captured whole, with its padding. -/
structure Tlv where
  tlv_length : UShort
  tlv_type : UShort
  body : Bytes
  whole : 4 + body.length = (paddedSize tlv_length).toNat

/-- The TLV in the memory of a host. -/
def Tlv.bytes (o : WordOrder) (t : Tlv) : Bytes :=
  o.storeShort t.tlv_length ++ (o.storeShort t.tlv_type ++ t.body)

/-- What is left behind the last whole TLV: less than a type and a length, or a type and a length
without all the bytes that the length asks for. -/
inductive Tail where
  | short (bytes : Bytes) (h : bytes.length < 4)
  | cut (tlv_length tlv_type : UShort) (body : Bytes)
    (h : (paddedSize tlv_length).toNat < 4 ∨ 4 + body.length < (paddedSize tlv_length).toNat)

def Tail.bytes (o : WordOrder) : Tail → Bytes
  | short bytes _ => bytes
  | cut tlv_length tlv_type body _ => o.storeShort tlv_length ++ (o.storeShort tlv_type ++ body)

/-- A packet of version 0: the family and the resource identifier, which is big-endian on every
host, then the TLVs. -/
structure NflogPacket where
  nflog_family : JByte
  nflog_rid : UShort
  tlvs : List Tlv
  tail : Tail

def NflogPacket.bytes (o : WordOrder) (packet : NflogPacket) : Bytes :=
  packet.nflog_family :: 0 :: (shortBytes packet.nflog_rid ++
    (packet.tlvs.flatMap (Tlv.bytes o) ++ packet.tail.bytes o))

theorem Tlv.length_bytes (o : WordOrder) (t : Tlv) :
    (t.bytes o).length = (paddedSize t.tlv_length).toNat := by
  have h := t.whole
  simp only [bytes, List.length_append, WordOrder.length_storeShort]
  omega

theorem Tail.length_bytes (o o' : WordOrder) (t : Tail) :
    (t.bytes o).length = (t.bytes o').length := by
  cases t <;> simp [bytes]

section Nflog

variable {host : WordOrder}

/-- One pass turns the type and the length, and reads the length. -/
theorem swapTlvs_pass (caplen length : UInt) (hcaplen : 4 ≤ caplen) (pre body : Bytes)
    (tlv_length tlv_type : UShort) :
    (swapTlvs host caplen length pre.length).finish
        (pre ++ (host.other.storeShort tlv_length ++ (host.other.storeShort tlv_type ++ body))) =
      (let size := paddedSize tlv_length
        if size < 4 then return_
        else if caplen < size.setWidth 32 ∨ length < size.setWidth 32 then return_
        else swapTlvs host (caplen - size.setWidth 32) (length - size.setWidth 32)
          (pre.length + size.toNat) : InPlace Unit).finish
        (pre ++ (host.storeShort tlv_length ++ (host.storeShort tlv_type ++ body))) := by
  have htype := swapShort_at host (i := pre.length + 2)
    (pre ++ host.other.storeShort tlv_length) body tlv_type (by simp)
  have hlength := swapShort_at host pre (host.storeShort tlv_type ++ body) tlv_length rfl
  have hread := readShort_at host pre (host.storeShort tlv_type ++ body) tlv_length rfl
  rw [List.append_assoc, List.append_assoc] at htype
  rw [swapTlvs, if_pos hcaplen, finish_bind htype, finish_bind hlength, finish_bind hread]

theorem swapTlvs_tail (caplen length : UInt) (pre : Bytes) (tail : Tail)
    (hcaplen : caplen.toNat = (tail.bytes host).length) :
    (swapTlvs host caplen length pre.length).finish (pre ++ tail.bytes host.other) =
      .ok (pre ++ tail.bytes host) := by
  cases tail with
  | short bytes h =>
    have hout : ¬ 4 ≤ caplen := by
      change caplen.toNat = bytes.length at hcaplen
      bv_omega
    rw [swapTlvs, if_neg hout]
    rfl
  | cut tlv_length tlv_type body h =>
    simp only [Tail.bytes, List.length_append, WordOrder.length_storeShort] at hcaplen ⊢
    rw [swapTlvs_pass caplen length (by bv_omega) pre body tlv_length tlv_type]
    generalize paddedSize tlv_length = size at h ⊢
    rcases h with h | h
    · rw [if_pos (by bv_omega)]
      rfl
    · dsimp only
      split
      · rfl
      · rw [if_pos (by bv_omega)]
        rfl

theorem swapTlvs_order (tlvs : List Tlv) (tail : Tail) (caplen length : UInt) (pre : Bytes)
    (hlength : caplen ≤ length)
    (hcaplen : caplen.toNat = (tlvs.flatMap (Tlv.bytes host) ++ tail.bytes host).length) :
    (swapTlvs host caplen length pre.length).finish
        (pre ++ (tlvs.flatMap (Tlv.bytes host.other) ++ tail.bytes host.other)) =
      .ok (pre ++ (tlvs.flatMap (Tlv.bytes host) ++ tail.bytes host)) := by
  induction tlvs generalizing caplen length pre with
  | nil => exact swapTlvs_tail caplen length pre tail hcaplen
  | cons t ts ih =>
    have hsize := t.length_bytes host
    have hwhole := t.whole
    simp only [List.flatMap_cons, List.append_assoc, List.length_append, hsize] at hcaplen ⊢
    simp only [Tlv.bytes, List.append_assoc]
    rw [swapTlvs_pass caplen length (by bv_omega) pre _ t.tlv_length t.tlv_type]
    have hpre : pre.length + (paddedSize t.tlv_length).toNat =
        (pre ++ t.bytes host).length := by
      rw [List.length_append, hsize]
    have hstep := ih (caplen - (paddedSize t.tlv_length).setWidth 32)
      (length - (paddedSize t.tlv_length).setWidth 32) (pre ++ t.bytes host)
    simp only [Tlv.bytes, List.append_assoc] at hstep hpre
    dsimp only
    rw [if_neg (by bv_omega), if_neg (by rintro (h | h) <;> bv_omega), hpre]
    refine hstep (by bv_omega) ?_
    rw [List.length_append]
    bv_omega

/-- An NFLOG packet that was captured on a host of the other byte order, whole or cut short
anywhere, is read as it would stand on this host. -/
theorem swap_nflog_header_order (packet : NflogPacket) (hdr : Pkthdr)
    (hcaplen : hdr.caplen.toNat = (packet.bytes host).length) (hlen : hdr.caplen ≤ hdr.len) :
    (swap_nflog_header host hdr).finish (packet.bytes host.other) = .ok (packet.bytes host) := by
  have hsize : 4 ≤ hdr.caplen.toNat := by
    rw [hcaplen]
    simp [NflogPacket.bytes]
  have hversion := readByte_at (i := 1) [packet.nflog_family] (shortBytes packet.nflog_rid ++
    (packet.tlvs.flatMap (Tlv.bytes host.other) ++ packet.tail.bytes host.other)) 0 rfl
  rw [List.singleton_append] at hversion
  rw [swap_nflog_header, if_neg (by bv_omega)]
  rw [NflogPacket.bytes, finish_bind hversion, if_neg (by simp)]
  refine swapTlvs_order packet.tlvs packet.tail (hdr.caplen - 4) (hdr.len - 4)
    (packet.nflog_family :: 0 :: shortBytes packet.nflog_rid) (by bv_omega) ?_
  · simp only [NflogPacket.bytes, List.length_cons, List.length_append,
      shortBytes_length] at hcaplen
    rw [List.length_append]
    bv_omega

end Nflog

/-- Whatever stands behind the header of an NFLOG packet is some whole TLVs and a tail. -/
theorem exists_tlvs (o : WordOrder) (bytes : Bytes) :
    ∃ (tlvs : List Tlv) (tail : Tail), bytes = tlvs.flatMap (Tlv.bytes o) ++ tail.bytes o := by
  induction hn : bytes.length using Nat.strong_induction_on generalizing bytes with
  | _ n ih =>
    subst hn
    by_cases hshort : bytes.length < 4
    · exact ⟨[], .short bytes hshort, rfl⟩
    · obtain ⟨tlv_length, behind, rfl, hbehind⟩ :=
        o.exists_storeShort (n := 2) (Nat.not_lt.mp hshort)
      obtain ⟨tlv_type, body, rfl, -⟩ := o.exists_storeShort (n := 0) hbehind
      by_cases hcut : (paddedSize tlv_length).toNat < 4 ∨
          4 + body.length < (paddedSize tlv_length).toNat
      · exact ⟨[], .cut tlv_length tlv_type body hcut, rfl⟩
      · rw [not_or] at hcut
        obtain ⟨value, after, rfl, hvalue, -⟩ := ByteBuffer.exists_chunk
          ((paddedSize tlv_length).toNat - 4) (n := 0) (show _ ≤ body.length by omega)
        obtain ⟨tlvs, tail, hafter⟩ := ih after.length
          (by simp only [List.length_append, WordOrder.length_storeShort]; omega) after rfl
        refine ⟨⟨tlv_length, tlv_type, value, by omega⟩ :: tlvs, tail, ?_⟩
        simp only [List.flatMap_cons, Tlv.bytes, List.append_assoc, ← hafter]

/-! USB packets. -/

/-- A field of a structure with its value; `raw` stands for single bytes. -/
inductive Field where
  | raw (bytes : Bytes)
  | short (x : UShort)
  | int (x : UInt)
  | long (x : JLong)

def Field.bytes (o : WordOrder) : Field → Bytes
  | raw bytes => bytes
  | short x => o.storeShort x
  | int x => o.storeInt x
  | long x => o.storeLong x

def fieldBytes (o : WordOrder) (fields : List Field) : Bytes := fields.flatMap (Field.bytes o)

section Usb

variable {host : WordOrder} {caplen : UInt}

/-- A structure of which some fields are turned already. -/
def partly (host : WordOrder) (turned fields : List Field) (data : Bytes) : Bytes :=
  fieldBytes host turned ++ (fieldBytes host.other fields ++ data)

theorem partly_cons (turned fields : List Field) (f : Field) (data : Bytes) :
    partly host turned (f :: fields) data =
      fieldBytes host turned ++ (f.bytes host.other ++ (fieldBytes host.other fields ++ data)) := by
  have hcons : fieldBytes host.other (f :: fields) =
      f.bytes host.other ++ fieldBytes host.other fields := rfl
  rw [partly, hcons, List.append_assoc]

theorem partly_snoc (turned fields : List Field) (f : Field) (data : Bytes) :
    partly host (turned ++ [f]) fields data =
      fieldBytes host turned ++ (f.bytes host ++ (fieldBytes host.other fields ++ data)) := by
  rw [partly, fieldBytes, List.flatMap_append, List.append_assoc, List.flatMap_singleton]
  rfl

/-- Single bytes stand alike on every host. -/
theorem skip_raw (turned fields : List Field) (bytes data : Bytes) :
    partly host turned (.raw bytes :: fields) data =
      partly host (turned ++ [.raw bytes]) fields data := by
  rw [partly_cons, partly_snoc]
  rfl

variable {turned fields : List Field} {data : Bytes} {i : Nat} {offset : UInt}
  {k : Unit → InPlace Unit}

theorem turn_short {x : UShort} (hi : (fieldBytes host turned).length = i)
    (hoffset : offset.toNat ≤ caplen.toNat) :
    (unlessShort caplen offset >>= fun _ => swapShort host i >>= k).finish
        (partly host turned (.short x :: fields) data) =
      (k ()).finish (partly host (turned ++ [.short x]) fields data) := by
  rw [partly_cons, partly_snoc, finish_bind (unlessShort_of_le _ _ hoffset _)]
  exact finish_bind (swapShort_at _ _ _ x hi)

theorem swapLong_partly {x : UInt} (hi : (fieldBytes host turned).length = i) :
    swapLong host i (partly host turned (.int x :: fields) data) =
      (.ok (), partly host (turned ++ [.int x]) fields data) := by
  rw [partly_cons, partly_snoc]
  exact swapLong_at _ _ x hi

theorem turn_int {x : UInt} (hi : (fieldBytes host turned).length = i)
    (hoffset : offset.toNat ≤ caplen.toNat) :
    (unlessShort caplen offset >>= fun _ => swapLong host i >>= k).finish
        (partly host turned (.int x :: fields) data) =
      (k ()).finish (partly host (turned ++ [.int x]) fields data) := by
  rw [finish_bind (unlessShort_of_le _ _ hoffset _)]
  exact finish_bind (swapLong_partly hi)

theorem turn_long {x : JLong} (hi : (fieldBytes host turned).length = i)
    (hoffset : offset.toNat ≤ caplen.toNat) :
    (unlessShort caplen offset >>= fun _ => swapLL host i >>= k).finish
        (partly host turned (.long x :: fields) data) =
      (k ()).finish (partly host (turned ++ [.long x]) fields data) := by
  rw [partly_cons, partly_snoc, finish_bind (unlessShort_of_le _ _ hoffset _)]
  exact finish_bind (swapLL_at _ _ x hi)

end Usb

/-- `usb_isodesc`. -/
structure Isodesc where
  status : UInt
  offset : UInt
  len : UInt
  pad : Bytes
  length_pad : pad.length = 4

def Isodesc.fields (d : Isodesc) : List Field :=
  [.int d.status, .int d.offset, .int d.len, .raw d.pad]

/-- The union `s` of a USB header. -/
inductive UsbUnion where
  | setup (bytes : Bytes) (h : bytes.length = 8)
  | iso (error_count numdesc : UInt)

def UsbUnion.fields : UsbUnion → List Field
  | setup bytes _ => [.raw bytes]
  | iso error_count numdesc => [.int error_count, .int numdesc]

def UsbUnion.isochronous : UsbUnion → Bool
  | setup _ _ => false
  | iso _ _ => true

/-- `pcap_usb_header`. -/
structure UsbHeader where
  id : JLong
  event_type : JByte
  transfer_type : JByte
  endpoint_number : JByte
  device_address : JByte
  bus_id : UShort
  setup_flag : JByte
  data_flag : JByte
  ts_sec : JLong
  ts_usec : UInt
  status : UInt
  urb_len : UInt
  data_len : UInt
  s : UsbUnion
  union : s.isochronous = decide (transfer_type = URB_ISOCHRONOUS)

/-- The fields in front of the union. -/
def UsbHeader.front (h : UsbHeader) : List Field :=
  [.long h.id, .raw [h.event_type, h.transfer_type, h.endpoint_number, h.device_address],
   .short h.bus_id, .raw [h.setup_flag, h.data_flag], .long h.ts_sec, .int h.ts_usec,
   .int h.status, .int h.urb_len, .int h.data_len]

/-- What `pcap_usb_header_mmapped` has more, with the descriptors behind it. -/
structure UsbExtension where
  interval : UInt
  start_frame : UInt
  xfer_flags : UInt
  ndesc : UInt
  descs : List Isodesc

def UsbExtension.fields (e : UsbExtension) : List Field :=
  [.int e.interval, .int e.start_frame, .int e.xfer_flags, .int e.ndesc] ++
    e.descs.flatMap Isodesc.fields

section Usb

variable {host : WordOrder} {caplen : UInt} {data : Bytes}

theorem length_front (host : WordOrder) (h : UsbHeader) :
    (fieldBytes host h.front).length = 40 := by
  simp [UsbHeader.front, fieldBytes, Field.bytes]

theorem fieldBytes_append (o : WordOrder) (fs gs : List Field) :
    fieldBytes o (fs ++ gs) = fieldBytes o fs ++ fieldBytes o gs := by
  rw [fieldBytes, List.flatMap_append]
  rfl

theorem length_header (h : UsbHeader) : (fieldBytes host (h.front ++ h.s.fields)).length = 48 := by
  rw [fieldBytes_append, List.length_append, length_front]
  cases h.s with
  | setup bytes hbytes => simp [UsbUnion.fields, fieldBytes, Field.bytes, hbytes]
  | iso error_count numdesc => simp [UsbUnion.fields, fieldBytes, Field.bytes]

theorem length_extension (e : UsbExtension) :
    (fieldBytes host e.fields).length = 16 + 16 * e.descs.length := by
  have hdescs : ∀ ds : List Isodesc,
      (fieldBytes host (ds.flatMap Isodesc.fields)).length = 16 * ds.length := by
    intro ds
    induction ds with
    | nil => rfl
    | cons d ds ih =>
      have hd : (fieldBytes host d.fields).length = 16 := by
        simp [Isodesc.fields, fieldBytes, Field.bytes, d.length_pad]
      rw [List.flatMap_cons, fieldBytes_append, List.length_append, hd, ih, List.length_cons]
      omega
  rw [UsbExtension.fields, fieldBytes_append, List.length_append, hdescs]
  simp [fieldBytes, Field.bytes]

theorem swapIsodescs_order (descs : List Isodesc) (turned : List Field) {offset : UInt} {p : Nat}
    (hp : (fieldBytes host turned).length = p) (hoffset : offset.toNat = p)
    (hcaplen : p + 16 * descs.length ≤ caplen.toNat) :
    (swapIsodescs host caplen descs.length offset p).finish
        (partly host turned (descs.flatMap Isodesc.fields) data) =
      .ok (partly host (turned ++ descs.flatMap Isodesc.fields) [] data) := by
  have hmax := caplen.isLt
  induction descs generalizing turned offset p with
  | nil => rw [List.flatMap_nil, List.append_nil]; rfl
  | cons d ds ih =>
    have hadd : ∀ k : UInt, k.toNat ≤ 16 → (offset + k).toNat = p + k.toNat := by
      intro k hk
      rw [List.length_cons] at hcaplen
      rw [BitVec.toNat_add, hoffset]
      omega
    rw [List.length_cons] at hcaplen
    have h4 := hadd 4 (by decide)
    have h8 := hadd 8 (by decide)
    have h12 := hadd 12 (by decide)
    have h16 := hadd 16 (by decide)
    have hpad := d.length_pad
    change _ = p + 4 at h4
    change _ = p + 8 at h8
    change _ = p + 12 at h12
    change _ = p + 16 at h16
    rw [List.length_cons, swapIsodescs, List.flatMap_cons]
    simp only [Isodesc.fields, List.cons_append, List.nil_append]
    rw [turn_int hp (by omega), turn_int (by simp [fieldBytes, Field.bytes, ← hp]) (by omega),
      turn_int (by simp [fieldBytes, Field.bytes, ← hp]) (by omega), skip_raw]
    have hrest := ih (turned ++ [.int d.status] ++ [.int d.offset] ++ [.int d.len] ++ [.raw d.pad])
      (by simp [fieldBytes, Field.bytes, ← hp, hpad]) h16 (by omega)
    rw [hrest]
    simp only [List.append_assoc, List.cons_append, List.nil_append]

variable (host data)

/-- The front of the header is turned, and then the type of the transfer is read. -/
theorem swap_linux_usb_header_front (h : UsbHeader) (fields : List Field) (hdr : Pkthdr)
    (header_len_64_bytes : Bool) (hcaplen : 40 ≤ hdr.caplen.toNat) :
    (swap_linux_usb_header host hdr header_len_64_bytes).finish
        (partly host [] (h.front ++ fields) data) =
      (do
        (if h.s.isochronous then swapIsoRec host hdr.caplen else pure ())
        if header_len_64_bytes then swapExtension host hdr.caplen h.s.isochronous
        else pure () : InPlace Unit).finish (partly host h.front fields data) := by
  have hle : ∀ k : UInt, k.toNat ≤ 40 → k.toNat ≤ hdr.caplen.toNat := fun k hk => hk.trans hcaplen
  have htype : ∃ after, partly host h.front fields data =
      (host.storeLong h.id ++ [h.event_type]) ++ h.transfer_type :: after := by
    refine ⟨h.endpoint_number :: h.device_address :: (fieldBytes host
      [.short h.bus_id, .raw [h.setup_flag, h.data_flag], .long h.ts_sec, .int h.ts_usec,
       .int h.status, .int h.urb_len, .int h.data_len] ++
        (fieldBytes host.other fields ++ data)), ?_⟩
    simp [partly, fieldBytes, UsbHeader.front, Field.bytes]
  obtain ⟨after, hafter⟩ := htype
  have hread := readByte_at (i := 9) (host.storeLong h.id ++ [h.event_type]) after
    h.transfer_type (by simp)
  rw [← hafter] at hread
  simp only [UsbHeader.front, List.cons_append, List.nil_append, swap_linux_usb_header]
  rw [turn_long (i := 0) rfl (hle _ (by decide)), skip_raw,
    turn_short (by simp [fieldBytes, Field.bytes]) (hle _ (by decide)), skip_raw,
    turn_long (by simp [fieldBytes, Field.bytes]) (hle _ (by decide)),
    turn_int (by simp [fieldBytes, Field.bytes]) (hle _ (by decide)),
    turn_int (by simp [fieldBytes, Field.bytes]) (hle _ (by decide)),
    turn_int (by simp [fieldBytes, Field.bytes]) (hle _ (by decide)),
    turn_int (by simp [fieldBytes, Field.bytes]) (hle _ (by decide))]
  simp only [List.nil_append, List.cons_append]
  rw [h.union]
  exact finish_bind hread

theorem swapIsoRec_order (turned fields : List Field) (error_count numdesc : UInt)
    (hturned : (fieldBytes host turned).length = 40) (hcaplen : 48 ≤ caplen.toNat) :
    swapIsoRec host caplen (partly host turned (.int error_count :: .int numdesc :: fields) data) =
      (.ok (), partly host (turned ++ [.int error_count] ++ [.int numdesc]) fields data) := by
  have h44 := unlessShort_of_le caplen 44 (by change 44 ≤ _; omega)
  have h48 := unlessShort_of_le caplen 48 hcaplen
  have hlength : (fieldBytes host (turned ++ [.int error_count])).length = 44 := by
    rw [fieldBytes, List.flatMap_append, List.length_append]
    change _ = 40 at hturned
    simpa [fieldBytes, Field.bytes] using hturned
  simp only [swapIsoRec, Body.bind_apply, h44, h48, swapLong_partly hturned,
    swapLong_partly hlength]

theorem swapExtension_order (turned : List Field) (e : UsbExtension) (isochronous : Bool)
    (hturned : (fieldBytes host turned).length = 48)
    (hcaplen : 64 + 16 * e.descs.length ≤ caplen.toNat)
    (hdescs : e.descs.length = if isochronous then e.ndesc.toNat else 0) :
    (swapExtension host caplen isochronous).finish (partly host turned e.fields data) =
      .ok (partly host (turned ++ e.fields) [] data) := by
  have hle : ∀ k : UInt, k.toNat ≤ 64 → k.toNat ≤ caplen.toNat := fun k hk => by omega
  have hsnoc : ∀ (fs : List Field) (x : UInt), (fieldBytes host (fs ++ [.int x])).length =
      (fieldBytes host fs).length + 4 := by
    intro fs x
    simp [fieldBytes, Field.bytes]
  have h1 := hsnoc turned e.interval
  have h2 := hsnoc (turned ++ [.int e.interval]) e.start_frame
  have h3 := hsnoc (turned ++ [.int e.interval] ++ [.int e.start_frame]) e.xfer_flags
  have h4 := hsnoc (turned ++ [.int e.interval] ++ [.int e.start_frame] ++ [.int e.xfer_flags])
    e.ndesc
  rw [hturned] at h1
  rw [h1] at h2
  rw [h2] at h3
  rw [h3] at h4
  have hread : readInt host 60 (partly host (turned ++ [.int e.interval] ++ [.int e.start_frame] ++
      [.int e.xfer_flags] ++ [.int e.ndesc]) (e.descs.flatMap Isodesc.fields) data) =
      (.ok e.ndesc, partly host (turned ++ [.int e.interval] ++ [.int e.start_frame] ++
        [.int e.xfer_flags] ++ [.int e.ndesc]) (e.descs.flatMap Isodesc.fields) data) := by
    rw [partly_snoc]
    exact readInt_at _ _ e.ndesc h3
  simp only [swapExtension, UsbExtension.fields, List.cons_append, List.nil_append]
  rw [turn_int hturned (hle _ (by decide)), turn_int h1 (hle _ (by decide)),
    turn_int h2 (hle _ (by decide)), turn_int h3 (hle _ (by decide)), finish_bind hread]
  have hfields : turned ++ (Field.int e.interval :: .int e.start_frame :: .int e.xfer_flags ::
      .int e.ndesc :: e.descs.flatMap Isodesc.fields) =
      turned ++ [.int e.interval] ++ [.int e.start_frame] ++ [.int e.xfer_flags] ++
        [.int e.ndesc] ++ e.descs.flatMap Isodesc.fields := by
    simp
  rw [hfields]
  cases isochronous with
  | true =>
    rw [if_pos rfl] at hdescs
    rw [if_pos rfl, ← hdescs]
    exact swapIsodescs_order e.descs _ h4 rfl hcaplen
  | false =>
    rw [if_neg Bool.false_ne_true] at hdescs
    rw [if_neg Bool.false_ne_true, List.eq_nil_of_length_eq_zero hdescs, List.flatMap_nil,
      List.append_nil]
    rfl

/-- The union of a header is turned. -/
theorem union_order (h : UsbHeader) (fields : List Field) (k : Unit → InPlace Unit)
    (hcaplen : 48 ≤ caplen.toNat) :
    ((if h.s.isochronous then swapIsoRec host caplen else pure ()) >>= k : InPlace Unit).finish
        (partly host h.front (h.s.fields ++ fields) data) =
      (k ()).finish (partly host (h.front ++ h.s.fields) fields data) := by
  cases h.s with
  | setup bytes hlength =>
    rw [UsbUnion.fields, List.singleton_append, skip_raw]
    rfl
  | iso error_count numdesc =>
    have hrec := swapIsoRec_order host data h.front fields error_count numdesc
      (length_front host h) hcaplen
    rw [List.append_assoc] at hrec
    exact finish_bind hrec

variable {host data}

/-- A USB packet whose header is captured was captured on a host of the other byte order: it is
read as it would stand on this host. -/
theorem swap_linux_usb_header_order (h : UsbHeader) (hdr : Pkthdr)
    (hcaplen : 48 ≤ hdr.caplen.toNat) :
    (swap_linux_usb_header host hdr false).finish
        (fieldBytes host.other (h.front ++ h.s.fields) ++ data) =
      .ok (fieldBytes host (h.front ++ h.s.fields) ++ data) := by
  have hfront := swap_linux_usb_header_front host data h h.s.fields hdr false
    (by omega)
  have hunion := union_order host data h [] (fun _ => pure ()) hcaplen
  rw [List.append_nil] at hunion
  exact hfront.trans hunion

/-- The same with the longer header, and the descriptors that it announces. -/
theorem swap_linux_usb_header_mmapped_order (h : UsbHeader) (e : UsbExtension) (hdr : Pkthdr)
    (hcaplen : 64 + 16 * e.descs.length ≤ hdr.caplen.toNat)
    (hdescs : e.descs.length = if h.s.isochronous then e.ndesc.toNat else 0) :
    (swap_linux_usb_header host hdr true).finish
        (fieldBytes host.other (h.front ++ (h.s.fields ++ e.fields)) ++ data) =
      .ok (fieldBytes host (h.front ++ (h.s.fields ++ e.fields)) ++ data) := by
  have hfront := swap_linux_usb_header_front host data h
    (h.s.fields ++ e.fields) hdr true (by omega)
  have hunion := union_order host data h e.fields
    (fun _ => swapExtension host hdr.caplen h.s.isochronous)
    (show 48 ≤ hdr.caplen.toNat by omega)
  have hext := swapExtension_order host data (h.front ++ h.s.fields) e
    h.s.isochronous (length_header h) hcaplen hdescs
  rw [List.append_assoc] at hext
  exact (hfront.trans hunion).trans hext

end Usb

end Savefile

end Jxnet
