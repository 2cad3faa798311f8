import Jxnet.Packet.PacketHelper

namespace Jxnet

open Java ByteBuffer

namespace ByteUtils

/-- A buffer in which nothing remains is taken to be one that was just filled. -/
def toByteArray (byteBuffer : ByteBuffer) : Except JavaException Bytes :=
  let byteBuffer := if byteBuffer.hasRemaining then byteBuffer else byteBuffer.flip
  eval (getArray byteBuffer.remaining) byteBuffer

theorem toByteArray_eq (b : ByteBuffer) :
    toByteArray b = .ok (if b.hasRemaining then b.rest else b.before) := by
  have harray : ∀ b : ByteBuffer, eval (getArray (b.remaining : Int)) b = .ok b.rest := fun b => by
    simp [eval, getArray_natCast, getBytes, remaining]
  rw [toByteArray, harray]
  cases b.hasRemaining <;> rfl

end ByteUtils

structure PcapPktHdr where
  caplen : JInt
  len : JInt
  tvSec : JInt
  tvUsec : JLong
  deriving DecidableEq, Repr

/-- A packet that libpcap hands out. -/
structure CapturedPacket where
  data : Bytes
  len : JInt
  tvSec : JInt
  tvUsec : JLong
  deriving DecidableEq, Repr

def CapturedPacket.caplen (packet : CapturedPacket) : Nat := packet.data.length

/-- What `pcap_next_ex` returns: its code, and the packet where the data pointer is not null. -/
structure PcapNextExReturn where
  code : Int
  packet : Option CapturedPacket
  deriving DecidableEq, Repr

/-- The native `PcapNextEx` on an open handle. -/
def pcapNextEx (r : PcapNextExReturn) (pktHdr : Option PcapPktHdr) (pktData : ByteBuffer) :
    Except JavaException (PcapPktHdr × ByteBuffer) :=
  match pktHdr with
  | none => .error .nullPointer
  | some pktHdr => match r.packet with
    | none => .ok (pktHdr, pktData)
    | some packet => match putBytes packet.data pktData.clear with
      | .error e => .error e
      | .ok ((), pktData) => .ok (⟨BitVec.ofNat 32 packet.caplen, packet.len, packet.tvSec,
          packet.tvUsec⟩, pktData)

/-- `allocateDirect`. -/
def allocateDirect (capacity : Int) : Except JavaException ByteBuffer :=
  if capacity < 0 then .error .illegalArgument else .ok (allocate capacity.toNat)

namespace PacketHelper

open Packet

/-- What a call of `nextEx` returns or raises, and the map that it leaves. -/
structure NextEx where
  result : Except JavaException (Int × PcapPktHdr)
  packets : HashMap PacketClass Packet

variable (R : Registries)

def nextEx (dataLinkType : Option DataLinkType) (snapshotLength : Int) (r : PcapNextExReturn)
    (pktHdr : Option PcapPktHdr) (packets : HashMap PacketClass Packet) : NextEx :=
  let packets := packets.clear
  match allocateDirect snapshotLength >>= pcapNextEx r pktHdr with
  | .error e => ⟨.error e, packets⟩
  | .ok (pktHdr, buffer) =>
    match ByteUtils.toByteArray buffer >>= parsePacket R dataLinkType with
    | .error e => ⟨.error e, packets⟩
    | .ok pkts => ⟨.ok (r.code, pktHdr), packets.putAll pkts⟩

/-- The number of bytes that the first decoder of a link type needs. -/
def headerLength : DataLinkType → Option Nat
  | .EN10MB => some Ethernet.ETHERNET_HEADER_LENGTH
  | DataLinkType.IEEE802_11_RADIO => some RadioTap.RADIO_TAP_HEADER
  | .LINUX_SLL => some SLL.SLL_HEADER_LENGTH
  | _ => none

/-- Bytes that decode as zeros do: RadioTap keeps one byte of its last header word. -/
def LooksZero (dataLinkType : DataLinkType) (data : Bytes) : Prop :=
  match dataLinkType with
  | DataLinkType.IEEE802_11_RADIO => ∀ x ∈ data.take 4 ++ data.drop 7, x = 0
  | _ => ∀ x ∈ data, x = 0

/-- The map that is left after `parsePacket` on the bytes: empty where it raises. -/
def layersOf (dataLinkType : Option DataLinkType) (bytes : Bytes) : HashMap PacketClass Packet :=
  match parsePacket R dataLinkType bytes with
  | .ok packets => packets
  | .error _ => HashMap.empty

theorem nextEx_packets {dataLinkType : Option DataLinkType} {s : Nat} {r : PcapNextExReturn}
    {pktHdr hdr : PcapPktHdr} {buffer : ByteBuffer} (packets : HashMap PacketClass Packet)
    (h : pcapNextEx r (some pktHdr) (allocate s) = .ok (hdr, buffer)) :
    (nextEx R dataLinkType s r (some pktHdr) packets).packets =
      layersOf R dataLinkType (if buffer.hasRemaining then buffer.rest else buffer.before) := by
  have hb : (allocateDirect s >>= pcapNextEx r (some pktHdr)) = .ok (hdr, buffer) := by
    rw [allocateDirect, if_neg (by omega)]
    exact h
  simp only [nextEx, hb, ByteUtils.toByteArray_eq]
  change (match parsePacket R dataLinkType _ with
    | .error e => _
    | .ok pkts => _ : NextEx).packets = _
  rw [layersOf]
  cases parsePacket R dataLinkType _ with
  | error e => rfl
  | ok pkts => simp

/-- After a packet that does not fill the buffer, what remains is zeros. -/
theorem nextEx_captured (dataLinkType : Option DataLinkType) {s : Nat} (c : CapturedPacket)
    (code : Int) (pktHdr : PcapPktHdr) (packets : HashMap PacketClass Packet) (h : c.caplen ≤ s) :
    (nextEx R dataLinkType s ⟨code, some c⟩ (some pktHdr) packets).packets =
      layersOf R dataLinkType
        (if c.caplen = s then c.data else List.replicate (s - c.caplen) 0) := by
  have hput : putBytes c.data (allocate s).clear =
      .ok ((), ⟨c.data, List.replicate (s - c.caplen) 0, []⟩) := by
    rw [CapturedPacket.caplen] at h ⊢
    simp [putBytes, clear, allocate, h]
  have hnext : pcapNextEx ⟨code, some c⟩ (some pktHdr) (allocate s) =
      .ok (⟨BitVec.ofNat 32 c.caplen, c.len, c.tvSec, c.tvUsec⟩,
        ⟨c.data, List.replicate (s - c.caplen) 0, []⟩) := by
    simp only [pcapNextEx, hput]
  rw [nextEx_packets R packets hnext]
  congr 1
  simp only [hasRemaining, List.isEmpty_replicate]
  by_cases hs : c.caplen = s
  · simp [hs]
  · have hlt : s - c.caplen ≠ 0 := by omega
    simp [hs, hlt]

theorem nextEx_nothing (dataLinkType : Option DataLinkType) (s : Nat) (code : Int)
    (pktHdr : PcapPktHdr) (packets : HashMap PacketClass Packet) :
    (nextEx R dataLinkType s ⟨code, none⟩ (some pktHdr) packets).packets =
      layersOf R dataLinkType (List.replicate s 0) := by
  have hnext : pcapNextEx ⟨code, none⟩ (some pktHdr) (allocate s) = .ok (pktHdr, allocate s) := rfl
  rw [nextEx_packets R packets hnext]
  congr 1
  cases s <;> simp [allocate, hasRemaining]

section Zeros

variable {R}

theorem decode_zero {type : ProtocolType} (h : type.value = 0) (data : Option Bytes) :
    type.decode R data = .ok none := by
  rw [ProtocolType.decode, h]
  cases data with
  | none => rfl
  | some own =>
    cases own with
    | nil => rfl
    | cons x xs => rfl

private theorem zeros_split (n k : Nat) (h : k ≤ n) :
    List.replicate n (0 : JByte) = List.replicate k 0 ++ List.replicate (n - k) 0 := by
  rw [List.replicate_append_replicate, Nat.add_sub_cancel' h]

theorem ethernet_zeros (hR : ProtocolType.Reachable R.protocolType) {n : Nat} (hn : 14 ≤ n) :
    ∃ e : Ethernet, e.ethernetType.value = 0 ∧
      ∀ data, Ethernet.newInstance R data = .ok e ↔ data = List.replicate n 0 := by
  have hvalue : (ProtocolType.getInstance R.protocolType 0).value = 0 :=
    ProtocolType.getInstance_value hR (.inr (by decide))
  refine ⟨{ Ethernet.new with
    ethernetType := ProtocolType.getInstance R.protocolType 0
    nextPacket := some (List.replicate (n - 14) 0) }, hvalue, fun data => ⟨fun h => ?_, ?_⟩⟩
  · obtain ⟨dst, src, type, rest, rfl, he⟩ := Ethernet.eq_of_newInstance h rfl
    simp only [Ethernet.new, Ethernet.mk.injEq, Option.some.injEq, true_and] at he
    obtain ⟨rfl, rfl, htype, rfl⟩ := he
    obtain rfl := ProtocolType.eq_of_getInstance_value hR (by decide)
      ((congrArg ProtocolType.value htype).symm.trans hvalue)
    rw [zeros_split n 14 hn]
    rfl
  · intro heq
    subst heq
    have hne : ProtocolType.getInstance R.protocolType 0 ≠
        ProtocolType.DOT1Q_VLAN_TAGGED_FRAMES := fun h =>
      absurd (ProtocolType.getInstance_eq_dot1q hR h) (by decide)
    rw [zeros_split n 14 hn]
    exact Ethernet.newInstance_of_plain R MacAddress.ZERO MacAddress.ZERO 0
      (List.replicate (n - 14) 0) hne

theorem sll_zeros (hR : ProtocolType.Reachable R.protocolType) {n : Nat} (hn : 16 ≤ n) :
    ∃ (s : SLL) (protocol : ProtocolType), s.protocol = some protocol ∧ protocol.value = 0 ∧
      ∀ data, SLL.newInstance R data = .ok s ↔ data = List.replicate n 0 := by
  have hvalue : (ProtocolType.getInstance R.protocolType 0).value = 0 :=
    ProtocolType.getInstance_value hR (.inr (by decide))
  refine ⟨⟨0, 0, 0, List.replicate 8 0, ProtocolType.getInstance R.protocolType 0,
    some (List.replicate (n - 16) 0)⟩, _, rfl, hvalue, fun data => ⟨fun h => ?_, ?_⟩⟩
  · obtain ⟨packetType, addressType, addressLength, address, protocol, rest, ha, rfl, hs⟩ :=
      SLL.eq_of_newInstance h
    simp only [SLL.mk.injEq, Option.some.injEq] at hs
    obtain ⟨rfl, rfl, rfl, rfl, hp, rfl⟩ := hs
    obtain rfl := ProtocolType.eq_of_getInstance_value hR (by decide)
      ((congrArg ProtocolType.value hp).symm.trans hvalue)
    rw [zeros_split n 16 hn]
    rfl
  · intro heq
    subst heq
    rw [zeros_split n 16 hn]
    exact SLL.newInstance_append R 0 0 0 (List.replicate 8 0) 0 (List.replicate (n - 16) 0) rfl

theorem radioTap_zeros {n : Nat} (hn : 8 ≤ n) :
    ∃ r : RadioTap, ∀ data, RadioTap.newInstance data = .ok r ↔
      data.length = n ∧ ∀ x ∈ data.take 4 ++ data.drop 7, x = 0 := by
  refine ⟨⟨0, 0, 0, 0, some (List.replicate (n - 8) 0)⟩, fun data => ?_⟩
  match data with
  | version :: padding :: a :: b :: c :: d :: e :: f :: rest =>
    have hlen : rest.length = n - 8 ↔ rest.length + 8 = n := by omega
    simp [RadioTap.newInstance_cons, List.eq_replicate_iff, hlen]
    tauto
  | [] | [_] | [_, _] | [_, _, _] | [_, _, _, _] | [_, _, _, _, _] | [_, _, _, _, _, _]
  | [_, _, _, _, _, _, _] =>
    rw [RadioTap.newInstance_short _ (by simp)]
    simp only [reduceCtorEq, false_iff, not_and, List.length_cons, List.length_nil]
    omega

/-- A frame of zeros is decoded as a link layer alone, and few other frames are. -/
theorem firstLayer_zeros (hR : ProtocolType.Reachable R.protocolType) {d : DataLinkType} {k n : Nat}
    (hk : headerLength d = some k) (hn : k ≤ n) :
    ∃ p : Packet, p.getPacket R = .ok none ∧
      ∀ data, firstLayer R d data = some (.ok p) ↔ data.length = n ∧ LooksZero d data := by
  cases d with
  | EN10MB =>
    cases hk
    obtain ⟨e, hvalue, he⟩ := ethernet_zeros hR hn
    refine ⟨.ethernet e, decode_zero hvalue _, fun data => ?_⟩
    rw [LooksZero, ← List.eq_replicate_iff, ← he]
    · cases hd : Ethernet.newInstance R data <;> simp [firstLayer, hd]
    · intro hd
      cases hd
  | IEEE802_11_RADIO =>
    cases hk
    obtain ⟨r, hr⟩ := radioTap_zeros hn
    refine ⟨.radioTap r, rfl, fun data => ?_⟩
    rw [LooksZero, ← hr]
    cases hd : RadioTap.newInstance data <;> simp [firstLayer, hd]
  | LINUX_SLL =>
    cases hk
    obtain ⟨s, protocol, hp, hvalue, hs⟩ := sll_zeros hR hn
    refine ⟨.sll s, by simp only [getPacket, hp, decode_zero hvalue], fun data => ?_⟩
    rw [LooksZero, ← List.eq_replicate_iff, ← hs]
    · cases hd : SLL.newInstance R data <;> simp [firstLayer, hd]
    · intro hd
      cases hd
  | _ => cases hk

theorem firstLayer_short {d : DataLinkType} {k : Nat} (hk : headerLength d = some k)
    {bytes : Bytes} (h : bytes.length < k) :
    firstLayer R d bytes = some (.error .bufferUnderflow) := by
  cases d with
  | EN10MB => cases hk; rw [firstLayer, Ethernet.newInstance_short bytes h]; rfl
  | IEEE802_11_RADIO => cases hk; rw [firstLayer, RadioTap.newInstance_short bytes h]; rfl
  | LINUX_SLL => cases hk; rw [firstLayer, SLL.newInstance_short bytes h]; rfl
  | _ => cases hk

theorem firstLayer_none {d : DataLinkType} (hd : headerLength d = none) (bytes : Bytes) :
    firstLayer R d bytes = none := by
  cases d <;> first | rfl | cases hd

theorem layersOf_eq {dataLinkType : Option DataLinkType} {bytes : Bytes}
    {m : HashMap PacketClass Packet} (h : parsePacket R dataLinkType bytes = .ok m) :
    layersOf R dataLinkType bytes = m := by
  rw [layersOf, h]

theorem layersOf_short {d : DataLinkType} {k : Nat} (hk : headerLength d = some k)
    {bytes : Bytes} (h : bytes.length < k) : layersOf R (some d) bytes = HashMap.empty := by
  simp only [layersOf, parsePacket, firstLayer_short hk h]
  rfl

/-- An unknown packet is not put into the map. -/
theorem parsePacket_none {d : DataLinkType} (hd : headerLength d = none) (bytes : Bytes) :
    parsePacket R (some d) bytes =
      if bytes = [] then .error .illegalArgument else .ok HashMap.empty := by
  simp only [parsePacket, firstLayer_none hd, UnknownPacket.newInstance_eq]
  by_cases hb : bytes = []
  · rw [if_pos hb, if_pos hb]
    rfl
  · rw [if_neg hb, if_neg hb]
    exact Loop.exec_eq (mapBody R) _ (mapBody_decreases R) (.unknown ⟨bytes⟩, HashMap.empty)

theorem layersOf_none {dataLinkType : Option DataLinkType}
    (hd : dataLinkType.bind headerLength = none) (bytes : Bytes) :
    layersOf R dataLinkType bytes = HashMap.empty := by
  cases dataLinkType with
  | none => rfl
  | some d =>
    rw [layersOf, parsePacket_none hd]
    by_cases hb : bytes = []
    · rw [if_pos hb]
    · rw [if_neg hb]

/-- The map of a frame holds its link layer. -/
theorem get_link {d : DataLinkType} {bytes : Bytes} {p : Packet}
    (h : firstLayer R d bytes = some (.ok p)) {m : HashMap PacketClass Packet}
    (hm : parsePacket R (some d) bytes = .ok m) : m.get p.getClass = some p := by
  obtain ⟨ps, ending, hc⟩ := exists_chain R p
  rw [parsePacket_of_chain R h hc] at hm
  obtain ⟨qs, rfl⟩ := hc.ne_nil
  cases ending with
  | raised x => cases hm
  | null =>
    cases hm
    have hqs : qs.reverse.find? (fun q => q.getClass = p.getClass) = none := by
      rw [List.find?_eq_none]
      intro q hq heq
      have hlink := hc.tail_not_link q (List.mem_reverse.mp hq)
      rw [isLink, of_decide_eq_true heq] at hlink
      exact absurd ((link_of_firstLayer R h).2.symm.trans hlink) (by decide)
    rw [HashMap.get_ofList, List.reverse_cons, List.find?_append, hqs]
    simp

theorem headerLength_le {d : DataLinkType} {k : Nat} (hk : headerLength d = some k)
    {bytes : Bytes} {m : HashMap PacketClass Packet}
    (hm : parsePacket R (some d) bytes = .ok m) : k ≤ bytes.length := by
  by_contra hlt
  simp only [parsePacket, firstLayer_short hk (by omega : bytes.length < k)] at hm
  cases hm

theorem exists_firstLayer {d : DataLinkType} {k : Nat} (hk : headerLength d = some k)
    {bytes : Bytes} {m : HashMap PacketClass Packet} (hm : parsePacket R (some d) bytes = .ok m) :
    ∃ p, firstLayer R d bytes = some (.ok p) := by
  have hsome : (firstLayer R d bytes).isSome := by
    cases d <;> first | rfl | cases hk
  obtain ⟨first, hf⟩ := Option.isSome_iff_exists.mp hsome
  simp only [parsePacket, hf] at hm
  cases first with
  | error x => cases hm
  | ok p => exact ⟨p, hf⟩

theorem ne_empty_of_parsePacket {d : DataLinkType} {k : Nat} (hk : headerLength d = some k)
    {bytes : Bytes} {m : HashMap PacketClass Packet} (hm : parsePacket R (some d) bytes = .ok m) :
    m ≠ HashMap.empty := by
  obtain ⟨p, hp⟩ := exists_firstLayer hk hm
  intro heq
  subst heq
  cases get_link hp hm

theorem looksZero_replicate (d : DataLinkType) (n : Nat) :
    LooksZero d (List.replicate n 0) := by
  have hmem : ∀ x ∈ List.replicate n (0 : JByte), x = 0 := fun x => List.eq_of_mem_replicate
  unfold LooksZero
  split
  · intro x hx
    rcases List.mem_append.mp hx with h | h
    · exact hmem x (List.mem_of_mem_take h)
    · exact hmem x (List.mem_of_mem_drop h)
  · exact hmem

/-- Zeros that are long enough leave one layer, and few other frames leave the same. -/
theorem layersOf_zeros (hR : ProtocolType.Reachable R.protocolType) {d : DataLinkType} {k n : Nat}
    (hk : headerLength d = some k) (hn : k ≤ n) :
    ∃ q : Packet, layersOf R (some d) (List.replicate n 0) = HashMap.ofList getClass [q] ∧
      ∀ bytes m, parsePacket R (some d) bytes = .ok m →
        (HashMap.ofList getClass [q] = m ↔ bytes.length = n ∧ LooksZero d bytes) := by
  obtain ⟨q, hq, hiff⟩ := firstLayer_zeros hR hk hn
  have hparse : ∀ bytes, firstLayer R d bytes = some (.ok q) →
      parsePacket R (some d) bytes = .ok (HashMap.ofList getClass [q]) := fun bytes h =>
    parsePacket_of_chain R h (.last hq)
  refine ⟨q, layersOf_eq (hparse _ ((hiff _).mpr ⟨by simp, looksZero_replicate d n⟩)),
    fun bytes m hm => ?_⟩
  obtain ⟨p, hp⟩ := exists_firstLayer hk hm
  have hget := get_link hp hm
  rw [← hiff]
  refine ⟨?_, fun h => Except.ok.inj ((hparse bytes h).symm.trans hm)⟩
  intro heq
  subst heq
  have hqp : q.getClass = p.getClass ∧ q = p := by simpa [HashMap.get_ofList] using hget
  rw [hp, hqp.2]

end Zeros

/-- A packet was captured: the zeros behind it are read as a layer if there are enough of them. -/
theorem nextEx_captured_iff (hR : ProtocolType.Reachable R.protocolType)
    {dataLinkType : Option DataLinkType} {s : Nat} (pktHdr : PcapPktHdr)
    (packets : HashMap PacketClass Packet) {c : CapturedPacket} {m : HashMap PacketClass Packet}
    (hs : c.caplen ≤ s) (hm : parsePacket R dataLinkType c.data = .ok m) :
    (nextEx R dataLinkType s ⟨1, some c⟩ (some pktHdr) packets).packets = m ↔
      s = c.caplen ∨ dataLinkType.bind headerLength = none ∨
        s = 2 * c.caplen ∧ ∃ d, dataLinkType = some d ∧ LooksZero d c.data := by
  rw [nextEx_captured R dataLinkType c 1 pktHdr packets hs]
  by_cases hfull : c.caplen = s
  · rw [if_pos hfull, layersOf_eq hm]
    exact iff_of_true rfl (.inl hfull.symm)
  · rw [if_neg hfull]
    cases hk : dataLinkType.bind headerLength with
    | none =>
      rw [← layersOf_eq hm, layersOf_none hk, layersOf_none hk]
      exact iff_of_true rfl (.inr (.inl rfl))
    | some k =>
      cases dataLinkType with
      | none => cases hk
      | some d =>
        have hle := headerLength_le hk hm
        by_cases hn : k ≤ s - c.caplen
        · obtain ⟨q, hq, hiff⟩ := layersOf_zeros hR hk hn
          rw [hq, hiff _ _ hm]
          constructor
          · intro h
            obtain ⟨hlen, hzero⟩ := h
            rw [CapturedPacket.caplen] at hlen ⊢
            exact .inr (.inr ⟨by omega, d, rfl, hzero⟩)
          · intro hcases
            rcases hcases with heq | hnone | ⟨heq, d, hd, hzero⟩
            · omega
            · cases hnone
            · cases hd
              refine ⟨?_, hzero⟩
              rw [CapturedPacket.caplen] at heq ⊢
              omega
        · rw [layersOf_short hk (by simpa using hn)]
          refine iff_of_false (ne_empty_of_parsePacket hk hm).symm ?_
          intro hcases
          rcases hcases with heq | hnone | ⟨heq, -⟩
          · omega
          · cases hnone
          · rw [CapturedPacket.caplen] at heq hn
            omega

/-- Nothing was captured: the whole buffer of zeros is read. -/
theorem nextEx_nothing_iff (hR : ProtocolType.Reachable R.protocolType)
    (dataLinkType : Option DataLinkType) (s : Int) (pktHdr : PcapPktHdr)
    (packets : HashMap PacketClass Packet) (code : Int) :
    (nextEx R dataLinkType s ⟨code, none⟩ (some pktHdr) packets).packets = HashMap.empty ↔
      ∀ k, dataLinkType.bind headerLength = some k → s < k := by
  by_cases hs : s < 0
  · have hnegative : (allocateDirect s >>= pcapNextEx ⟨code, none⟩ (some pktHdr)) =
        .error .illegalArgument := by
      rw [allocateDirect, if_pos hs]
      rfl
    simp only [nextEx, hnegative]
    exact iff_of_true rfl fun k _ => by omega
  · obtain ⟨s, rfl⟩ := Int.eq_ofNat_of_zero_le (show 0 ≤ s by omega)
    rw [nextEx_nothing]
    cases hk : dataLinkType.bind headerLength with
    | none => exact iff_of_true (layersOf_none hk _) (by simp)
    | some k =>
      cases dataLinkType with
      | none => cases hk
      | some d =>
        by_cases hn : k ≤ s
        · obtain ⟨q, hq, -⟩ := layersOf_zeros (R := R) hR hk hn
          rw [hq]
          refine iff_of_false (fun h => ?_) (fun h => ?_)
          · have hget := congrArg (fun m => m.get q.getClass) h
            simp [HashMap.get_ofList] at hget
          · have hlt := h k rfl
            omega
        · rw [layersOf_short hk (by simpa using hn)]
          exact iff_of_true rfl fun _ h => by cases h; omega

/-- After `nextEx` the map holds the layers of the captured packet iff the packet fills the
buffer or its bytes look like the zeros behind it, and it is empty without a packet iff the
buffer of zeros is no frame. -/
theorem nextEx_packets_iff (hR : ProtocolType.Reachable R.protocolType)
    (dataLinkType : Option DataLinkType) (s : Int) (pktHdr : PcapPktHdr)
    (packets : HashMap PacketClass Packet) :
    (∀ c m, (c.caplen : Int) ≤ s → parsePacket R dataLinkType c.data = .ok m →
      ((nextEx R dataLinkType s ⟨1, some c⟩ (some pktHdr) packets).packets = m ↔
        s = c.caplen ∨ dataLinkType.bind headerLength = none ∨
          s = 2 * c.caplen ∧ ∃ d, dataLinkType = some d ∧ LooksZero d c.data)) ∧
    ∀ code, code ≠ 1 →
      ((nextEx R dataLinkType s ⟨code, none⟩ (some pktHdr) packets).packets = HashMap.empty ↔
        ∀ k, dataLinkType.bind headerLength = some k → s < k) := by
  constructor
  · intro c m hs hm
    obtain ⟨n, rfl⟩ := Int.eq_ofNat_of_zero_le (show 0 ≤ s by omega)
    have hsame : (n : Int) = c.caplen ↔ n = c.caplen := Int.ofNat_inj
    have hdouble : (n : Int) = 2 * c.caplen ↔ n = 2 * c.caplen := by omega
    rw [nextEx_captured_iff R hR pktHdr packets (Int.ofNat_le.mp hs) hm, hsame, hdouble]
  · intro code _
    exact nextEx_nothing_iff R hR dataLinkType s pktHdr packets code

/-- A header of type IPv4 whose addresses are not zero. -/
def shortCapture : CapturedPacket := ⟨List.replicate 12 1 ++ [0x08, 0x00], 14, 0, 0⟩

/-- A packet that leaves 18 bytes of the buffer is not seen, and a time-out yields a frame. -/
theorem shortCapture_is_lost :
    (∃ m, (shortCapture.caplen : Int) ≤ 32 ∧
      parsePacket Registries.initial (some .EN10MB) shortCapture.data = .ok m ∧
      (nextEx Registries.initial (some .EN10MB) 32 ⟨1, some shortCapture⟩ (some ⟨0, 0, 0, 0⟩)
        HashMap.empty).packets ≠ m) ∧
    (nextEx Registries.initial (some .EN10MB) 32 ⟨0, none⟩ (some ⟨0, 0, 0, 0⟩)
      HashMap.empty).packets ≠ HashMap.empty := by
  refine ⟨⟨_, by decide, rfl, fun h => ?_⟩, fun h => ?_⟩
  · exact absurd (congrArg (fun m => m.get .Ethernet) h) (by decide)
  · exact absurd (congrArg (fun m => m.get .Ethernet) h) (by decide)

theorem fullCapture_is_seen :
    ∃ m, parsePacket Registries.initial (some .EN10MB) shortCapture.data = .ok m ∧
      (nextEx Registries.initial (some .EN10MB) 14 ⟨1, some shortCapture⟩ (some ⟨0, 0, 0, 0⟩)
        HashMap.empty).packets = m :=
  ⟨_, rfl, ((nextEx_packets_iff Registries.initial .initial (some .EN10MB) 14 ⟨0, 0, 0, 0⟩
    HashMap.empty).1 shortCapture _ (by decide) rfl).mpr (.inl rfl)⟩

end PacketHelper

end Jxnet
