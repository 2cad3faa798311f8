import Jxnet.Savefile.Format
import Jxnet.Framework.Body

namespace Jxnet

open Java

namespace Savefile

open Bpf (UInt UShort)

/-! Packet headers that stand in the byte order of the host that captured them. -/

def SWAPLL (ull : JLong) : JLong :=
  ((ull &&& 0xff00000000000000) >>> 56) ||| ((ull &&& 0x00ff000000000000) >>> 40) |||
    ((ull &&& 0x0000ff0000000000) >>> 24) ||| ((ull &&& 0x000000ff00000000) >>> 8) |||
    ((ull &&& 0x00000000ff000000) <<< 8) ||| ((ull &&& 0x0000000000ff0000) <<< 24) |||
    ((ull &&& 0x000000000000ff00) <<< 40) ||| ((ull &&& 0x00000000000000ff) <<< 56)

/-- Each bit moves within its byte's place to the mirrored byte. -/
theorem getLsbD_SWAPLL (ull : JLong) (i : Nat) (hi : i < 64) :
    (SWAPLL ull).getLsbD i = ull.getLsbD (8 * (7 - i / 8) + i % 8) := by
  unfold SWAPLL
  interval_cases i <;> simp

theorem SWAPLL_longOf (a b c d e f g h : JByte) :
    SWAPLL (WordOrder.longOf a b c d e f g h) = WordOrder.longOf h g f e d c b a := by
  apply BitVec.eq_of_getLsbD_eq
  intro i hi
  rw [getLsbD_SWAPLL _ i hi, WordOrder.getLsbD_longOf, WordOrder.getLsbD_longOf]
  simp only [WordOrder.getLsbD_intOf]
  grind

theorem SWAPLL_eq (ull : JLong) : SWAPLL ull = WordOrder.reverseLong ull := by
  apply WordOrder.longBytes_injective
  obtain ⟨a, b, c, d, e, f, g, h, rfl⟩ := WordOrder.exists_longOf ull
  rw [WordOrder.longBytes_reverseLong, SWAPLL_longOf, WordOrder.longBytes_longOf,
    WordOrder.longBytes_longOf]
  rfl

/-- A procedure that changes packet data in place. It may return early, or access what is not
there. -/
abbrev InPlace (α : Type) := Body (Except Undefined Unit) Bytes α

namespace InPlace

def return_ {α : Type} : InPlace α := Body.exit (.ok ())

/-- The `n` bytes at offset `i`. -/
def read (i n : Nat) : InPlace Bytes := do
  let buf ← Body.read id
  if i + n ≤ buf.length then
    return WordOrder.slice buf i n
  else
    Body.exit (.error .access)

def write (i : Nat) (bytes : Bytes) : InPlace Unit := do
  let buf ← Body.read id
  if i + bytes.length ≤ buf.length then
    Body.update fun buf => buf.take i ++ (bytes ++ buf.drop (i + bytes.length))
  else
    Body.exit (.error .access)

/-- `if (hdr->caplen < offset) return;` -/
def unlessShort (caplen offset : UInt) : InPlace Unit :=
  if caplen < offset then return_ else pure ()

def readByte (i : Nat) : InPlace JByte := do
  let bytes ← read i 1
  return ByteBuffer.byteAt bytes 0

variable (host : WordOrder)

def readShort (i : Nat) : InPlace UShort := do
  let bytes ← read i 2
  return host.loadShort bytes 0

def readInt (i : Nat) : InPlace UInt := do
  let bytes ← read i 4
  return host.loadInt bytes 0

/-- `field = SWAPSHORT(field)`. -/
def swapShort (i : Nat) : InPlace Unit := do
  let bytes ← read i 2
  write i (host.storeShort (SWAPSHORT (host.loadShort bytes 0)))

/-- `field = SWAPLONG(field)`. -/
def swapLong (i : Nat) : InPlace Unit := do
  let bytes ← read i 4
  write i (host.storeInt (SWAPLONG (host.loadInt bytes 0)))

/-- `field = SWAPLL(field)`. -/
def swapLL (i : Nat) : InPlace Unit := do
  let bytes ← read i 8
  write i (host.storeLong (SWAPLL (host.loadLong bytes 0)))

/-- The data that a procedure leaves. -/
def finish (m : InPlace Unit) (buf : Bytes) : Except Undefined Bytes :=
  match m buf with
  | (.ok (), buf') => .ok buf'
  | (.error (.ok ()), buf') => .ok buf'
  | (.error (.error e), _) => .error e

end InPlace

open InPlace

def URB_ISOCHRONOUS : JByte := 0

section Swap

variable (host : WordOrder)

/-- The loop over the isochronous descriptors: `pisodesc` is the offset of the next one. -/
def swapIsodescs (caplen : UInt) : Nat → UInt → Nat → InPlace Unit
  | 0, _, _ => pure ()
  | n + 1, offset, pisodesc => do
    unlessShort caplen (offset + 4)
    swapLong host pisodesc
    unlessShort caplen (offset + 8)
    swapLong host (pisodesc + 4)
    unlessShort caplen (offset + 12)
    swapLong host (pisodesc + 8)
    swapIsodescs caplen n (offset + 16) (pisodesc + 16)

/-- `error_count` and `numdesc` of an isochronous transfer. -/
def swapIsoRec (caplen : UInt) : InPlace Unit := do
  unlessShort caplen 44
  swapLong host 40
  unlessShort caplen 48
  swapLong host 44

/-- `interval`, `start_frame`, `xfer_flags` and `ndesc`, which end the longer header, and the
descriptors behind it. -/
def swapExtension (caplen : UInt) (isochronous : Bool) : InPlace Unit := do
  unlessShort caplen 52
  swapLong host 48
  unlessShort caplen 56
  swapLong host 52
  unlessShort caplen 60
  swapLong host 56
  unlessShort caplen 64
  swapLong host 60
  let ndesc ← readInt host 60
  if isochronous then swapIsodescs host caplen ndesc.toNat 64 64 else pure ()

/-- The offsets of the fields are those of `pcap_usb_header_mmapped`; the check in front of each
is against the end of the field. -/
def swap_linux_usb_header (hdr : Pkthdr) (header_len_64_bytes : Bool) : InPlace Unit := do
  -- id
  unlessShort hdr.caplen 8
  swapLL host 0
  -- bus_id
  unlessShort hdr.caplen 14
  swapShort host 12
  -- ts_sec
  unlessShort hdr.caplen 24
  swapLL host 16
  -- ts_usec, status, urb_len, data_len
  unlessShort hdr.caplen 28
  swapLong host 24
  unlessShort hdr.caplen 32
  swapLong host 28
  unlessShort hdr.caplen 36
  swapLong host 32
  unlessShort hdr.caplen 40
  swapLong host 36
  let transfer_type ← readByte 9
  let isochronous := decide (transfer_type = URB_ISOCHRONOUS)
  (if isochronous then swapIsoRec host hdr.caplen else pure ())
  if header_len_64_bytes then swapExtension host hdr.caplen isochronous else pure ()

/-- The length of a TLV with its padding, in 16 bits. -/
def paddedSize (tlv_length : UShort) : UShort :=
  if tlv_length % 4 ≠ 0 then tlv_length + (4 - tlv_length % 4) else tlv_length

/-- The loop over the TLVs: `caplen` and `length` are what is left of the lengths, `p` is the
offset of the next TLV. -/
def swapTlvs (caplen length : UInt) (p : Nat) : InPlace Unit :=
  if 4 ≤ caplen then do
    swapShort host (p + 2)
    swapShort host p
    let tlv_length ← readShort host p
    let size := paddedSize tlv_length
    if size < 4 then
      return_
    else if caplen < size.setWidth 32 ∨ length < size.setWidth 32 then
      return_
    else
      swapTlvs (caplen - size.setWidth 32) (length - size.setWidth 32) (p + size.toNat)
  else
    pure ()
termination_by caplen.toNat
decreasing_by
  change (caplen - size.setWidth 32).toNat < caplen.toNat
  clear_value size
  bv_omega

def swap_nflog_header (hdr : Pkthdr) : InPlace Unit :=
  if hdr.caplen < 4 ∨ hdr.len < 4 then return_
  else do
    let nflog_version ← readByte 1
    if nflog_version ≠ 0 then return_
    else swapTlvs host (hdr.caplen - 4) (hdr.len - 4) 4

def swap_pseudo_headers (linktype : Int) (hdr : Pkthdr) : InPlace Unit :=
  if linktype = DLT_USB_LINUX then swap_linux_usb_header host hdr false
  else if linktype = DLT_USB_LINUX_MMAPPED then swap_linux_usb_header host hdr true
  else if linktype = DLT_NFLOG then swap_nflog_header host hdr
  else pure ()

end Swap

/-! Swapping never touches what is not captured. -/

/-- On data of `n` bytes the procedure accesses those only, and leaves as many. -/
def Safe {α : Type} (n : Nat) (m : InPlace α) : Prop :=
  ∀ buf, buf.length = n → (m buf).2.length = n ∧ ∀ e, (m buf).1 ≠ .error (.error e)

namespace Safe

variable {α β : Type} {n : Nat} {host : WordOrder} {caplen : UInt}

theorem pure (a : α) : Safe n (Pure.pure a) :=
  fun _ hbuf => ⟨hbuf, fun _ h => by cases h⟩

theorem return_ : Safe n (InPlace.return_ : InPlace α) :=
  fun _ hbuf => ⟨hbuf, fun _ h => by injection h with h; cases h⟩

theorem bind {m : InPlace α} {k : α → InPlace β} (hm : Safe n m) (hk : ∀ a, Safe n (k a)) :
    Safe n (m >>= k) := by
  intro buf hbuf
  obtain ⟨hlen, hfault⟩ := hm buf hbuf
  rw [Body.bind_apply]
  rcases hr : m buf with ⟨r | a, buf'⟩
  · rw [hr] at hlen hfault
    refine ⟨hlen, fun e h => hfault e ?_⟩
    injection h with h
    rw [h]
  · rw [hr] at hlen
    exact hk a buf' hlen

theorem finish {m : InPlace Unit} (hm : Safe n m) {buf : Bytes} (hbuf : buf.length = n) :
    ∃ buf', m.finish buf = .ok buf' ∧ buf'.length = n := by
  obtain ⟨hlen, hfault⟩ := hm buf hbuf
  unfold InPlace.finish
  rcases hr : m buf with ⟨(e | ⟨⟩) | ⟨⟩, buf'⟩ <;> rw [hr] at hlen hfault
  · exact absurd rfl (hfault e)
  · exact ⟨buf', rfl, hlen⟩
  · exact ⟨buf', rfl, hlen⟩

theorem ite {p : Prop} [Decidable p] {m k : InPlace α} (hm : p → Safe n m) (hk : ¬ p → Safe n k) :
    Safe n (if p then m else k) := by
  split
  · next hp => exact hm hp
  · next hp => exact hk hp

theorem read {i k : Nat} (h : i + k ≤ n) : Safe n (InPlace.read i k) := by
  intro buf hbuf
  simp only [InPlace.read, Body.bind_apply, Body.read_apply, id_eq, hbuf, if_pos h]
  exact ⟨hbuf, fun _ h => by cases h⟩

theorem write {i : Nat} {bytes : Bytes} (h : i + bytes.length ≤ n) :
    Safe n (InPlace.write i bytes) := by
  intro buf hbuf
  simp only [InPlace.write, Body.bind_apply, Body.read_apply, id_eq, hbuf, if_pos h,
    Body.update_apply]
  refine ⟨?_, fun _ h => by cases h⟩
  simp only [List.length_append, List.length_take, List.length_drop]
  omega

/-- After a check that returns, the data is known to be long enough. -/
theorem unlessShort {offset : UInt} {k : InPlace α}
    (hk : offset.toNat ≤ caplen.toNat → Safe n k) :
    Safe n (InPlace.unlessShort caplen offset >>= fun _ => k) := by
  intro buf hbuf
  rw [Body.bind_apply, InPlace.unlessShort]
  by_cases h : caplen < offset
  · rw [if_pos h]
    exact return_ buf hbuf
  · rw [if_neg h]
    exact hk (by bv_omega) buf hbuf

theorem readByte {i : Nat} (h : i + 1 ≤ n) : Safe n (InPlace.readByte i) :=
  (read h).bind fun _ => pure _

theorem readShort {i : Nat} (h : i + 2 ≤ n) : Safe n (InPlace.readShort host i) :=
  (read h).bind fun _ => pure _

theorem readInt {i : Nat} (h : i + 4 ≤ n) : Safe n (InPlace.readInt host i) :=
  (read h).bind fun _ => pure _

theorem swapShort {i : Nat} (h : i + 2 ≤ n) : Safe n (InPlace.swapShort host i) :=
  (read h).bind fun _ => write (by simpa using h)

theorem swapLong {i : Nat} (h : i + 4 ≤ n) : Safe n (InPlace.swapLong host i) :=
  (read h).bind fun _ => write (by simpa using h)

theorem swapLL {i : Nat} (h : i + 8 ≤ n) : Safe n (InPlace.swapLL host i) :=
  (read h).bind fun _ => write (by simpa using h)

end Safe

section SafeSwap

variable {host : WordOrder} {caplen : UInt}

theorem swapIsodescs_safe (hcaplen : caplen.toNat < 2 ^ 31) (count : Nat) {offset : UInt} {p : Nat}
    (hp : offset.toNat = p) (hoffset : p ≤ caplen.toNat + 4) :
    Safe caplen.toNat (swapIsodescs host caplen count offset p) := by
  induction count generalizing offset p with
  | zero => exact .pure ()
  | succ count ih =>
    have hadd : ∀ k : UInt, k.toNat ≤ 16 → (offset + k).toNat = p + k.toNat := by
      intro k hk
      rw [BitVec.toNat_add, hp]
      omega
    have h4 := hadd 4 (by decide)
    have h8 := hadd 8 (by decide)
    have h12 := hadd 12 (by decide)
    have h16 := hadd 16 (by decide)
    rw [swapIsodescs]
    refine .unlessShort fun h => .bind (.swapLong (by rw [h4] at h; exact h)) fun _ => ?_
    refine .unlessShort fun h => .bind (.swapLong (by rw [h8] at h; exact h)) fun _ => ?_
    refine .unlessShort fun h => .bind (.swapLong (by rw [h12] at h; exact h)) fun _ => ?_
    rw [h12] at h
    exact ih h16 (by change p + 12 ≤ _ at h; omega)

theorem swapExtension_safe (hcaplen : caplen.toNat < 2 ^ 31) (isochronous : Bool) :
    Safe caplen.toNat (swapExtension host caplen isochronous) := by
  refine .unlessShort fun _ => .bind (.swapLong ‹_›) fun _ => ?_
  refine .unlessShort fun _ => .bind (.swapLong ‹_›) fun _ => ?_
  refine .unlessShort fun _ => .bind (.swapLong ‹_›) fun _ => ?_
  refine .unlessShort fun h => .bind (.swapLong h) fun _ => .bind (.readInt h) fun ndesc => ?_
  exact .ite (fun _ => swapIsodescs_safe hcaplen _ rfl (Nat.le_add_right_of_le h)) fun _ => .pure ()

theorem swap_linux_usb_header_safe (hdr : Pkthdr) (hcaplen : hdr.caplen.toNat < 2 ^ 31)
    (header_len_64_bytes : Bool) :
    Safe hdr.caplen.toNat (swap_linux_usb_header host hdr header_len_64_bytes) := by
  refine .unlessShort fun h8 => .bind (.swapLL h8) fun _ => ?_
  refine .unlessShort fun h14 => .bind (.swapShort h14) fun _ => ?_
  refine .unlessShort fun h24 => .bind (.swapLL h24) fun _ => ?_
  refine .unlessShort fun h28 => .bind (.swapLong h28) fun _ => ?_
  refine .unlessShort fun h32 => .bind (.swapLong h32) fun _ => ?_
  refine .unlessShort fun h36 => .bind (.swapLong h36) fun _ => ?_
  refine .unlessShort fun h40 => .bind (.swapLong h40) fun _ => ?_
  refine .bind (.readByte (by change 40 ≤ _ at h40; omega)) fun transfer_type => ?_
  refine .bind (.ite (fun _ => ?_) fun _ => .pure ()) fun _ =>
    .ite (fun _ => swapExtension_safe hcaplen _) fun _ => .pure ()
  refine .unlessShort fun h44 => .bind (.swapLong h44) fun _ => ?_
  exact .unlessShort fun h48 => .swapLong h48

theorem swapTlvs_safe {n : Nat} (caplen length : UInt) (p : Nat) (hn : p + caplen.toNat = n) :
    Safe n (swapTlvs host caplen length p) := by
  fun_induction swapTlvs host caplen length p with
  | case1 caplen length p hcaplen ih =>
    have h4 : 4 ≤ caplen.toNat := hcaplen
    refine .bind (.swapShort (by omega)) fun _ => .bind (.swapShort (by omega)) fun _ =>
      .bind (.readShort (by omega)) fun tlv_length => ?_
    refine .ite (fun _ => .return_) fun hsize => .ite (fun _ => .return_) fun hshort => ?_
    refine ih _ hsize hshort ?_
    generalize paddedSize tlv_length = size at *
    bv_omega
  | case2 caplen length p hcaplen => exact .pure ()

theorem swap_nflog_header_safe (hdr : Pkthdr) :
    Safe hdr.caplen.toNat (swap_nflog_header host hdr) := by
  refine .ite (fun _ => .return_) fun hshort => ?_
  have h4 : 4 ≤ hdr.caplen.toNat := by bv_omega
  refine .bind (.readByte (by omega)) fun version => .ite (fun _ => .return_) fun _ => ?_
  exact swapTlvs_safe _ _ _ (by bv_omega)

theorem swap_pseudo_headers_safe (linktype : Int) (hdr : Pkthdr)
    (hcaplen : hdr.caplen.toNat < 2 ^ 31) :
    Safe hdr.caplen.toNat (swap_pseudo_headers host linktype hdr) :=
  .ite (fun _ => swap_linux_usb_header_safe hdr hcaplen false) fun _ =>
    .ite (fun _ => swap_linux_usb_header_safe hdr hcaplen true) fun _ =>
      .ite (fun _ => swap_nflog_header_safe hdr) fun _ => .pure ()

end SafeSwap

end Savefile

end Jxnet
