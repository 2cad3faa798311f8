import Jxnet.Savefile.PseudoOrder

namespace Jxnet

open Java

namespace Savefile

open Bpf (UInt UShort)

/-! Captured data as values that every host lays out in its own byte order. -/

/-- A link-layer type whose data is the same on every host. -/
def PlainData (linktype : Int) : Prop :=
  linktype ≠ DLT_USB_LINUX ∧ linktype ≠ DLT_USB_LINUX_MMAPPED ∧ linktype ≠ DLT_NFLOG

instance (linktype : Int) : Decidable (PlainData linktype) := by
  unfold PlainData
  infer_instance

/-- Packet data whose words stand in the byte order of the host that captured it. -/
inductive HostData where
  | plain (bytes : Bytes)
  | nflog (packet : NflogPacket)
  | usb (h : UsbHeader) (data : Bytes)
  | usbMmapped (h : UsbHeader) (e : UsbExtension) (data : Bytes)

def HostData.bytes (o : WordOrder) : HostData → Bytes
  | plain bytes => bytes
  | nflog packet => packet.bytes o
  | usb h data => fieldBytes o (h.front ++ h.s.fields) ++ data
  | usbMmapped h e data => fieldBytes o (h.front ++ (h.s.fields ++ e.fields)) ++ data

/-- The data is of a link-layer type, with the descriptors that its header announces. -/
def HostData.IsOf (linktype : Int) : HostData → Prop
  | plain _ => PlainData linktype
  | nflog _ => linktype = DLT_NFLOG
  | usb _ _ => linktype = DLT_USB_LINUX
  | usbMmapped h e _ => linktype = DLT_USB_LINUX_MMAPPED ∧
      e.descs.length = if h.s.isochronous then e.ndesc.toNat else 0

/-- Data with the whole pseudo-header of its link-layer type, as it stands in the memory of a
host. -/
def Whole (o : WordOrder) (linktype : Int) (data : Bytes) : Prop :=
  if linktype = DLT_USB_LINUX then 48 ≤ data.length
  else if linktype = DLT_USB_LINUX_MMAPPED then
    64 ≤ data.length ∧ (ByteBuffer.byteAt data 9 = URB_ISOCHRONOUS →
      64 + 16 * (o.loadInt data 60).toNat ≤ data.length)
  else if linktype = DLT_NFLOG then 4 ≤ data.length ∧ ByteBuffer.byteAt data 1 = 0
  else True

instance (o : WordOrder) (linktype : Int) (data : Bytes) : Decidable (Whole o linktype data) := by
  unfold Whole
  infer_instance

theorem length_fieldBytes (o o' : WordOrder) (fields : List Field) :
    (fieldBytes o fields).length = (fieldBytes o' fields).length := by
  induction fields with
  | nil => rfl
  | cons f fields ih =>
    have hf : (f.bytes o).length = (f.bytes o').length := by cases f <;> simp [Field.bytes]
    change (f.bytes o ++ fieldBytes o fields).length = (f.bytes o' ++ fieldBytes o' fields).length
    rw [List.length_append, List.length_append, hf, ih]

/-- The data is as long on every host. -/
theorem HostData.length_bytes (data : HostData) (o o' : WordOrder) :
    (data.bytes o).length = (data.bytes o').length := by
  cases data with
  | plain bytes => rfl
  | nflog packet =>
    have htlvs : (packet.tlvs.flatMap (Tlv.bytes o)).length =
        (packet.tlvs.flatMap (Tlv.bytes o')).length := by
      simp only [List.length_flatMap, Tlv.length_bytes]
    simp only [bytes, NflogPacket.bytes, List.length_cons, List.length_append, htlvs,
      packet.tail.length_bytes o o']
  | usb h data => simp only [bytes, List.length_append, length_fieldBytes o o']
  | usbMmapped h e data => simp only [bytes, List.length_append, length_fieldBytes o o']

theorem byteAt_behind {i n : Nat} (xs ys : Bytes) (h : xs.length = n) :
    ByteBuffer.byteAt (xs ++ ys) (i + n) = ByteBuffer.byteAt ys i := by
  subst h
  rw [ByteBuffer.byteAt, ByteBuffer.byteAt, List.getD_eq_getElem?_getD, List.getD_eq_getElem?_getD,
    List.getElem?_append_right (Nat.le_add_left _ _), Nat.add_sub_cancel]

section Exists

variable (o : WordOrder)

theorem exists_union {n : Nat} {bytes : Bytes} (h : n + 8 ≤ bytes.length) (transfer_type : JByte) :
    ∃ (s : UsbUnion) (rest : Bytes), s.isochronous = decide (transfer_type = URB_ISOCHRONOUS) ∧
      bytes = fieldBytes o s.fields ++ rest ∧ n ≤ rest.length := by
  by_cases hiso : transfer_type = URB_ISOCHRONOUS
  · obtain ⟨error_count, behind, rfl, hbehind⟩ := o.exists_storeInt (n := n + 4) h
    obtain ⟨numdesc, rest, rfl, hrest⟩ := o.exists_storeInt hbehind
    refine ⟨.iso error_count numdesc, rest, (decide_eq_true hiso).symm, ?_, hrest⟩
    simp [UsbUnion.fields, fieldBytes, Field.bytes]
  · obtain ⟨setup, rest, rfl, hsetup, hrest⟩ := ByteBuffer.exists_chunk 8 h
    refine ⟨.setup setup hsetup, rest, (decide_eq_false hiso).symm, ?_, hrest⟩
    simp [UsbUnion.fields, fieldBytes, Field.bytes]

theorem exists_usbHeader {n : Nat} {bytes : Bytes} (h : n + 48 ≤ bytes.length) :
    ∃ (header : UsbHeader) (rest : Bytes),
      bytes = fieldBytes o (header.front ++ header.s.fields) ++ rest ∧ n ≤ rest.length ∧
        ByteBuffer.byteAt bytes 9 = header.transfer_type := by
  obtain ⟨id, b8, rfl, h8⟩ := o.exists_storeLong (n := n + 40) h
  obtain ⟨event_type, transfer_type, endpoint_number, device_address, b12, rfl, h12⟩ :=
    ByteBuffer.exists_four (n := n + 36) h8
  obtain ⟨bus_id, b14, rfl, h14⟩ := o.exists_storeShort (n := n + 34) h12
  obtain ⟨setup_flag, b15, rfl, h15⟩ := ByteBuffer.exists_byte (n := n + 33) h14
  obtain ⟨data_flag, b16, rfl, h16⟩ := ByteBuffer.exists_byte (n := n + 32) h15
  obtain ⟨ts_sec, b24, rfl, h24⟩ := o.exists_storeLong (n := n + 24) h16
  obtain ⟨ts_usec, b28, rfl, h28⟩ := o.exists_storeInt (n := n + 20) h24
  obtain ⟨status, b32, rfl, h32⟩ := o.exists_storeInt (n := n + 16) h28
  obtain ⟨urb_len, b36, rfl, h36⟩ := o.exists_storeInt (n := n + 12) h32
  obtain ⟨data_len, b40, rfl, h40⟩ := o.exists_storeInt (n := n + 8) h36
  obtain ⟨s, rest, hunion, rfl, hrest⟩ := exists_union o h40 transfer_type
  refine ⟨⟨id, event_type, transfer_type, endpoint_number, device_address, bus_id, setup_flag,
    data_flag, ts_sec, ts_usec, status, urb_len, data_len, s, hunion⟩, rest, ?_, hrest, ?_⟩
  · simp [UsbHeader.front, fieldBytes, Field.bytes]
  · exact byteAt_behind (i := 1) _ _ (o.length_storeLong id)

theorem exists_isodescs (k : Nat) {bytes : Bytes} (h : 16 * k ≤ bytes.length) :
    ∃ (descs : List Isodesc) (rest : Bytes), descs.length = k ∧
      bytes = fieldBytes o (descs.flatMap Isodesc.fields) ++ rest := by
  induction k generalizing bytes with
  | zero => exact ⟨[], bytes, rfl, rfl⟩
  | succ k ih =>
    obtain ⟨status, b4, rfl, h4⟩ := o.exists_storeInt (n := 16 * k + 12) h
    obtain ⟨offset, b8, rfl, h8⟩ := o.exists_storeInt (n := 16 * k + 8) h4
    obtain ⟨len, b12, rfl, h12⟩ := o.exists_storeInt (n := 16 * k + 4) h8
    obtain ⟨pad, b16, rfl, hpad, h16⟩ := ByteBuffer.exists_chunk 4 h12
    obtain ⟨descs, rest, rfl, rfl⟩ := ih h16
    refine ⟨⟨status, offset, len, pad, hpad⟩ :: descs, rest, rfl, ?_⟩
    simp [Isodesc.fields, fieldBytes, Field.bytes]

/-- Whole data is some values in the byte order of its host. -/
theorem HostData.exists_of_whole {linktype : Int} {bytes : Bytes} (h : Whole o linktype bytes) :
    ∃ data : HostData, data.IsOf linktype ∧ data.bytes o = bytes := by
  unfold Whole at h
  split at h
  · next husb =>
    obtain ⟨header, rest, rfl, -⟩ := exists_usbHeader o (n := 0) h
    exact ⟨.usb header rest, husb, rfl⟩
  · split at h
    · next hmmapped =>
      obtain ⟨hlong, hdescs⟩ := h
      obtain ⟨header, b48, rfl, h48, htransfer⟩ := exists_usbHeader o (n := 16) hlong
      obtain ⟨interval, b52, rfl, h52⟩ := o.exists_storeInt (n := 12) h48
      obtain ⟨start_frame, b56, rfl, h56⟩ := o.exists_storeInt (n := 8) h52
      obtain ⟨xfer_flags, b60, rfl, h60⟩ := o.exists_storeInt (n := 4) h56
      obtain ⟨ndesc, b64, rfl, -⟩ := o.exists_storeInt (n := 0) h60
      have hndesc : o.loadInt (fieldBytes o (header.front ++ header.s.fields) ++
          (o.storeInt interval ++ (o.storeInt start_frame ++ (o.storeInt xfer_flags ++
            (o.storeInt ndesc ++ b64))))) 60 = ndesc := by
        have hbehind := o.loadInt_behind (i := 60)
          (fieldBytes o (header.front ++ header.s.fields) ++
            (o.storeInt interval ++ (o.storeInt start_frame ++ o.storeInt xfer_flags)))
          (o.storeInt ndesc ++ b64) (by simp [length_header])
        rw [o.loadInt_storeInt] at hbehind
        simpa only [List.append_assoc] using hbehind
      rw [htransfer, hndesc] at hdescs
      simp only [List.length_append, length_header, WordOrder.length_storeInt] at hdescs
      have hiso := header.union
      have hroom : 16 * (if header.s.isochronous then ndesc.toNat else 0) ≤ b64.length := by
        split
        · next htrue =>
          rw [htrue] at hiso
          have hfits := hdescs (of_decide_eq_true hiso.symm)
          omega
        · exact Nat.zero_le _
      obtain ⟨descs, rest, hcount, rfl⟩ := exists_isodescs o
        (if header.s.isochronous then ndesc.toNat else 0) hroom
      refine ⟨.usbMmapped header ⟨interval, start_frame, xfer_flags, ndesc, descs⟩ rest,
        ⟨hmmapped, hcount⟩, ?_⟩
      simp [HostData.bytes, UsbExtension.fields, fieldBytes, Field.bytes]
    · split at h
      · next hnflog =>
        obtain ⟨hlong, hversion⟩ := h
        obtain ⟨family, b1, rfl, h1⟩ := ByteBuffer.exists_byte (n := 3) hlong
        obtain ⟨version, b2, rfl, h2⟩ := ByteBuffer.exists_byte (n := 2) h1
        obtain ⟨rid, b4, rfl, -⟩ := ByteBuffer.exists_short (n := 0) h2
        obtain ⟨tlvs, tail, rfl⟩ := exists_tlvs o b4
        obtain rfl : version = 0 := hversion
        exact ⟨.nflog ⟨family, rid, tlvs, tail⟩, hnflog, rfl⟩
      · next husb hmmapped hnflog => exact ⟨.plain bytes, ⟨husb, hmmapped, hnflog⟩, rfl⟩

end Exists

end Savefile

end Jxnet
