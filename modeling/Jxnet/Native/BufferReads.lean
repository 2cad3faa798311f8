import Jxnet.Native.Calls
import Jxnet.Packet.Capture

namespace Jxnet

open Java Body

namespace Native

/-! What libpcap is told to read of a buffer. -/

/-- A `ByteBuffer`, with the capacity that it has. -/
structure SizedBuffer extends Buffer where
  capacity : JInt
  capacity_nonneg : 0 ≤ capacity.toInt

def SizedBuffer.isDirect (buffer : SizedBuffer) : Prop := buffer.directAddress ≠ 0

variable (lib : LibCall → JLong)

/-- `PcapDump`, with the `struct pcap_pkthdr` that it fills: the lengths are unsigned there. -/
def pcapDumpHeader (jpcap_dumper : Option PcapDumper) (jh : Option PcapPktHdr)
    (jsp : Option Buffer) : Code Value := do
  let jpcap_dumper ← checkNotNull jpcap_dumper (.text "") .void
  let jh ← checkNotNull jh .null .void
  let jsp ← checkNotNull jsp .null .void
  let pcap_dumper ← getPointer (some jpcap_dumper)
  if pcap_dumper.address = 0 then do
    throwNew .pcapDumperClose .null
    pure .void
  else do
    let tv_sec := jh.tvSec.toInt
    let tv_usec := (jh.tvUsec.setWidth 32).toInt
    let caplen := (jh.caplen.toNat : Int)
    let len := (jh.len.toNat : Int)
    let _ ← libpcap lib .dump [pcap_dumper, ⟨none, jsp.directAddress⟩]
      [tv_sec, tv_usec, caplen, len] []
    pure .void

/-- How many bytes a call of the library reads, and from where. -/
def LibCall.readLength (call : LibCall) : Option Int :=
  match call.function with
  | .sendPacket => call.numbers[0]?
  | .dump => call.numbers[2]?
  | _ => none

def LibCall.readFrom (call : LibCall) : Option JLong := call.pointers[1]?.map Pointer.address

/-- A call of the library reads from a direct buffer as much as is there, and a call of the entry
point that makes none raises an exception. -/
structure ReadsInside (buffer : SizedBuffer) (w : World) : Prop where
  inside : ∀ call ∈ w.calls, call.readFrom = some buffer.directAddress ∧ buffer.isDirect ∧
    ∃ n, call.readLength = some n ∧ 0 ≤ n ∧ n ≤ buffer.capacity.toInt
  raises : w.calls = [] → w.thrown ≠ []

/-- The handle is neither null nor closed. -/
def Heap.IsOpen {kind : Kind} (heap : Heap) (jobj : Option (Object kind)) : Prop :=
  ∃ o, jobj = some o ∧ ¬ heap.isClosed o.handle

variable {lib}

theorem readsInside_of_thrown {buffer : SizedBuffer} {w : World} (hcalls : w.calls = [])
    (hthrown : w.thrown ≠ []) : ReadsInside buffer w := by
  refine ⟨?_, fun _ => hthrown⟩
  intro call hcall
  rw [hcalls] at hcall
  cases hcall

theorem readsInside_of_call {buffer : SizedBuffer} {w : World} {call : LibCall} {n : Int}
    (hcalls : w.calls = [call]) (hfrom : call.readFrom = some buffer.directAddress)
    (hlength : call.readLength = some n) :
    ReadsInside buffer w ↔ buffer.isDirect ∧ 0 ≤ n ∧ n ≤ buffer.capacity.toInt := by
  constructor
  · intro h
    have hmem : call ∈ w.calls := hcalls ▸ List.mem_singleton_self call
    obtain ⟨-, hdirect, m, hm, hrange⟩ := h.inside call hmem
    cases hlength.symm.trans hm
    exact ⟨hdirect, hrange⟩
  · intro h
    refine ⟨?_, ?_⟩
    · intro call' hcall
      rw [hcalls] at hcall
      cases List.mem_singleton.mp hcall
      exact ⟨hfrom, h.1, n, hlength, h.2⟩
    · intro hnil
      rw [hcalls] at hnil
      cases hnil

/-- What a length reads as unsigned is at most the capacity where it is not negative. -/
theorem SizedBuffer.toNat_le_iff (buffer : SizedBuffer) (length : JInt) :
    (0 ≤ (length.toNat : Int) ∧ (length.toNat : Int) ≤ buffer.capacity.toInt) ↔
      0 ≤ length.toInt ∧ length.toInt ≤ buffer.capacity.toInt := by
  have hcapacity := BitVec.toInt_lt (x := buffer.capacity)
  have hlength := BitVec.toInt_eq_toNat_cond length
  have hlt := length.isLt
  split at hlength <;> omega

section Dump

variable {heap : Heap} {jpcap_dumper : Option PcapDumper} {jh : Option PcapPktHdr}

theorem Heap.isOpen_some {kind : Kind} {o : Object kind} :
    heap.IsOpen (some o) ↔ ¬heap.isClosed o.handle := by
  constructor
  · intro h
    obtain ⟨o', ho, hopen⟩ := h
    cases ho
    exact hopen
  · intro h
    exact ⟨o, rfl, h⟩

variable (buffer : SizedBuffer)

theorem pcapDumpHeader_raises (hstop : ¬heap.IsOpen jpcap_dumper ∨ jh = none) :
    ReadsInside buffer
      ((pcapDumpHeader lib jpcap_dumper jh (some buffer.toBuffer)).run ⟨heap, [], []⟩).2 := by
  unfold pcapDumpHeader
  cases jpcap_dumper with
  | none => exact readsInside_of_thrown rfl (List.cons_ne_nil _ _)
  | some o =>
    cases jh with
    | none => exact readsInside_of_thrown rfl (List.cons_ne_nil _ _)
    | some h =>
      have hnot : ¬heap.IsOpen (some o) := hstop.resolve_right (by simp)
      rw [Heap.isOpen_some, not_not] at hnot
      have hzero : heap.address o.handle = 0 := hnot
      simp only [run_checkNotNull_some, run_getPointer_some, hzero, if_true, if_pos hnot,
        run_throwNew, run_pure]
      exact readsInside_of_thrown rfl (by simp)

theorem pcapDumpHeader_calls {o : PcapDumper} {h : PcapPktHdr}
    (hopen : ¬heap.isClosed o.handle) :
    ((pcapDumpHeader lib (some o) (some h) (some buffer.toBuffer)).run ⟨heap, [], []⟩).2.calls =
      [⟨.dump, [⟨some o.handle, heap.address o.handle⟩, ⟨none, buffer.directAddress⟩],
        [h.tvSec.toInt, (h.tvUsec.setWidth 32).toInt, h.caplen.toNat, h.len.toNat], []⟩] := by
  have hne : heap.address o.handle ≠ 0 := hopen
  unfold pcapDumpHeader
  simp only [run_checkNotNull_some, run_getPointer_some, if_neg hne, if_neg hopen]
  rfl

/-- The header's length is not compared with the capacity, nor the buffer's address tested. -/
theorem pcapDumpHeader_readsInside :
    ReadsInside buffer
        ((pcapDumpHeader lib jpcap_dumper jh (some buffer.toBuffer)).run ⟨heap, [], []⟩).2 ↔
      (heap.IsOpen jpcap_dumper → ∀ h, jh = some h →
        buffer.isDirect ∧ 0 ≤ h.caplen.toInt ∧ h.caplen.toInt ≤ buffer.capacity.toInt) := by
  by_cases hopen : heap.IsOpen jpcap_dumper
  · cases jh with
    | none =>
      refine iff_of_true (pcapDumpHeader_raises buffer (.inr rfl)) ?_
      intro _ h hh
      cases hh
    | some h =>
      obtain ⟨o, ho, hne⟩ := hopen
      subst ho
      rw [readsInside_of_call (pcapDumpHeader_calls buffer hne) rfl rfl, buffer.toNat_le_iff]
      constructor
      · intro hinside _ h' hh
        cases hh
        exact hinside
      · intro hinside
        exact hinside ⟨o, rfl, hne⟩ h rfl
  · refine iff_of_true (pcapDumpHeader_raises buffer (.inl hopen)) ?_
    intro h
    exact absurd h hopen

end Dump

section SendPacket

variable {heap : Heap} {jpcap : Option Pcap} (buffer : SizedBuffer) (jsize : JInt)

theorem pcapSendPacket_raises (hstop : ¬heap.IsOpen jpcap ∨ ¬buffer.isDirect) :
    ReadsInside buffer
      ((pcapSendPacket lib jpcap (some buffer.toBuffer) jsize.toInt).run ⟨heap, [], []⟩).2 := by
  unfold pcapSendPacket
  cases jpcap with
  | none => exact readsInside_of_thrown rfl (List.cons_ne_nil _ _)
  | some o =>
    simp only [run_checkNotNull_some, run_guardArgument, run_withPointer]
    by_cases hclosed : heap.isClosed o.handle
    · -- The exception of the closed handle follows that of the argument, if there is one.
      split <;> simp only [throw_heap, hclosed, if_true] <;>
        exact readsInside_of_thrown rfl (by simp)
    · have hbuffer : buffer.directAddress = 0 :=
        not_not.mp (hstop.resolve_left (not_not.mpr (Heap.isOpen_some.mpr hclosed)))
      -- The test of the address is decided by `hbuffer` as the guard is split.
      split <;> simp only [throw_heap, hclosed, if_false, run_throwNew, run_pure] <;>
        exact readsInside_of_thrown rfl (by simp)

theorem pcapSendPacket_calls {o : Pcap} (hopen : ¬heap.isClosed o.handle)
    (hdirect : buffer.isDirect) :
    ((pcapSendPacket lib (some o) (some buffer.toBuffer) jsize.toInt).run
      ⟨heap, [], []⟩).2.calls =
      [⟨.sendPacket, [⟨some o.handle, heap.address o.handle⟩, ⟨none, buffer.directAddress⟩],
        [jsize.toInt], []⟩] := by
  have hne : buffer.directAddress ≠ 0 := hdirect
  unfold pcapSendPacket
  simp only [run_checkNotNull_some, run_guardArgument, run_withPointer]
  split <;> simp only [throw_heap, hopen, if_false] <;> rfl

/-- The size is not compared with the capacity, and the guard lets the negative ones pass. -/
theorem pcapSendPacket_readsInside :
    ReadsInside buffer
        ((pcapSendPacket lib jpcap (some buffer.toBuffer) jsize.toInt).run ⟨heap, [], []⟩).2 ↔
      (heap.IsOpen jpcap → buffer.isDirect →
        0 ≤ jsize.toInt ∧ jsize.toInt ≤ buffer.capacity.toInt) := by
  by_cases hcall : heap.IsOpen jpcap ∧ buffer.isDirect
  · obtain ⟨⟨o, ho, hne⟩, hdirect⟩ := hcall
    subst ho
    rw [readsInside_of_call (pcapSendPacket_calls buffer jsize hne hdirect) rfl rfl]
    constructor
    · intro hinside _ _
      exact hinside.2
    · intro hinside
      exact ⟨hdirect, hinside ⟨o, rfl, hne⟩ hdirect⟩
  · refine iff_of_true (pcapSendPacket_raises buffer jsize (not_and_or.mp hcall)) ?_
    intro hopen hdirect
    exact absurd ⟨hopen, hdirect⟩ hcall

/-- What the two entry points let the library read is inside the buffer exactly where the caller
sees to it: the size of a packet to send, the buffer and the header of one to save. -/
theorem send_dump_readsInside_iff (lib : LibCall → JLong) (heap : Heap) (buffer : SizedBuffer)
    (jpcap : Option Pcap) (jsize : JInt) (jpcap_dumper : Option PcapDumper)
    (jh : Option PcapPktHdr) :
    (ReadsInside buffer
        ((pcapSendPacket lib jpcap (some buffer.toBuffer) jsize.toInt).run ⟨heap, [], []⟩).2 ↔
      (heap.IsOpen jpcap → buffer.isDirect →
        0 ≤ jsize.toInt ∧ jsize.toInt ≤ buffer.capacity.toInt)) ∧
    (ReadsInside buffer
        ((pcapDumpHeader lib jpcap_dumper jh (some buffer.toBuffer)).run ⟨heap, [], []⟩).2 ↔
      (heap.IsOpen jpcap_dumper → ∀ h, jh = some h →
        buffer.isDirect ∧ 0 ≤ h.caplen.toInt ∧ h.caplen.toInt ≤ buffer.capacity.toInt)) :=
  ⟨pcapSendPacket_readsInside buffer jsize, pcapDumpHeader_readsInside buffer⟩

end SendPacket

section Outside

private def openHeap : Heap := ⟨fun _ => 1, fun _ => 1⟩

private def direct : SizedBuffer := ⟨⟨4096⟩, 60, by decide⟩

private def indirect : SizedBuffer := ⟨⟨0⟩, 60, by decide⟩

/-- A packet of size -1 is handed to the library, and a header of one byte over no memory. -/
theorem send_dump_outside :
    ((pcapSendPacket (fun _ => 0) (some ⟨0⟩) (some direct.toBuffer) (-1)).run
        ⟨openHeap, [], []⟩).2.calls =
      [⟨.sendPacket, [⟨some ⟨.pcap, 0⟩, 1⟩, ⟨none, 4096⟩], [-1], []⟩] ∧
    ¬ReadsInside direct
      ((pcapSendPacket (fun _ => 0) (some ⟨0⟩) (some direct.toBuffer) (-1)).run
        ⟨openHeap, [], []⟩).2 ∧
    ¬ReadsInside indirect
      ((pcapDumpHeader (fun _ => 0) (some ⟨0⟩) (some ⟨1, 1, 0, 0⟩) (some indirect.toBuffer)).run
        ⟨openHeap, [], []⟩).2 := by
  refine ⟨by decide, ?_, ?_⟩
  · intro h
    obtain ⟨-, -, n, hn, hpositive, -⟩ := h.inside _ (List.mem_singleton_self _)
    cases hn
    exact absurd hpositive (by decide)
  · intro h
    obtain ⟨-, hdirect, -⟩ := h.inside _ (List.mem_singleton_self _)
    exact hdirect rfl

end Outside

end Native

end Jxnet
