import Jxnet.Framework.Transition
import Jxnet.Native.Calls

namespace Jxnet

open Java Body

namespace Native

variable (lib : LibCall → JLong)

section Keeps

variable {α : Type} {value : Value} {m : Message}

theorem keeps_checked {jobj : Option α} {body : α → Code Value}
    (h : ∀ a, Keeps World.heap (body a)) :
    Keeps World.heap (checkNotNull jobj m value >>= body) :=
  .bind (keeps_checkNotNull _ _ _) h

theorem keeps_guarded {expression : Bool} {body : Unit → Code Value}
    (h : Keeps World.heap (body ())) :
    Keeps World.heap (guardArgument expression m value >>= body) :=
  .bind (keeps_guardArgument _ _ _) fun _ => h

theorem keeps_fetched {kind : Kind} {jobj : Option (Object kind)} {body : Pointer → Code Value}
    (h : ∀ p, Keeps World.heap (body p)) : Keeps World.heap (getPointer jobj >>= body) :=
  .bind (keeps_getPointer _) h

theorem keeps_withPointer {kind : Kind} {jobj : Object kind} {body : Pointer → Code Value}
    (h : ∀ p, Keeps World.heap (body p)) : Keeps World.heap (withPointer jobj value body) :=
  keeps_fetched fun _ => .bind (keeps_returnIf _ _) fun _ => h _

theorem keeps_return {function : Libpcap} {pointers : List Pointer} {numbers : List Int}
    {strings : List String} {value : JLong → Value} :
    Keeps World.heap
      (libpcap lib function pointers numbers strings >>= fun r => pure (value r)) :=
  .bind (keeps_libpcap _ _ _ _ _) fun _ => .pure _

theorem keeps_raise {e : NativeException} :
    Keeps World.heap (throwNew e m >>= fun _ => pure value) :=
  .bind (keeps_throwNew _ _) fun _ => .pure _

theorem keeps_withProgram {jfp : BpfProgram} {pcap : Pointer} {body : Pointer → Code Value}
    (h : ∀ p, Keeps World.heap (body p)) : Keeps World.heap (withProgram lib jfp pcap body) :=
  keeps_fetched fun _ => .ite (.bind (keeps_libpcap _ _ _ _ _) fun _ => keeps_raise) (h _)

end Keeps

/-- A call leaves the objects as they are, makes one, or resets the one that it closes. -/
inductive Effect (call : Call) (heap : Heap) : Heap → Prop
  | keeps : Effect call heap heap
  | makes (kind : Kind) (address : JLong) : Effect call heap (heap.new kind address)
  | closes {h : Handle} (hc : call.closes = some h) : Effect call heap (heap.setAddress h 0)

theorem newObject_affects (call : Call) (kind : Kind) (address : JLong) :
    Affects World.heap (Effect call) (newObject kind address) :=
  fun _ => .inr (.makes kind address)

theorem openPcap_affects (call : Call) (function : Libpcap) (numbers : List Int)
    (name : String) : Affects World.heap (Effect call) (openPcap lib function numbers name) :=
  .bind (keeps_libpcap _ _ _ _ _) fun _ => .bind (keeps_returnIf _ _) fun _ =>
    newObject_affects _ _ _

theorem resetAddress_affects {call : Call} {h : Handle} (hc : call.closes = some h) :
    Affects World.heap (Effect call) (resetAddress h) := fun _ => .inr (.closes hc)

theorem body_affects (call : Call) : Affects World.heap (Effect call) (call.body lib) := by
  cases call with
  | pcapDataLink | pcapIsSwapped | pcapSnapshot | pcapMajorVersion | pcapMinorVersion |
  pcapBreakLoop | pcapGetErr =>
    exact .of_keeps (keeps_checked fun _ => keeps_withPointer fun _ => keeps_return lib)
  | pcapLoop | pcapNext | pcapGetNonBlock =>
    exact .of_keeps (keeps_checked fun _ => keeps_checked fun _ => keeps_withPointer fun _ =>
      keeps_return lib)
  | pcapNextEx =>
    exact .of_keeps (keeps_checked fun _ => keeps_checked fun _ => keeps_checked fun _ =>
      keeps_withPointer fun _ => keeps_return lib)
  | pcapDispatch =>
    exact .of_keeps (keeps_checked fun _ => keeps_checked fun _ => keeps_guarded <|
      keeps_withPointer fun _ => keeps_return lib)
  | pcapSetDataLink =>
    exact .of_keeps (keeps_checked fun _ => keeps_guarded <| keeps_withPointer fun _ =>
      keeps_return lib)
  | pcapSetNonBlock =>
    exact .of_keeps (keeps_checked fun _ => keeps_guarded <| keeps_checked fun _ =>
      keeps_withPointer fun _ => keeps_return lib)
  | pcapSendPacket =>
    exact .of_keeps (keeps_checked fun _ => keeps_checked fun _ => keeps_guarded <|
      keeps_withPointer fun _ => .ite keeps_raise (keeps_return lib))
  | pcapDump =>
    exact .of_keeps (keeps_checked fun _ => keeps_checked fun _ => keeps_checked fun _ =>
      keeps_fetched fun _ => .ite keeps_raise (keeps_return lib))
  | pcapFreeCode =>
    exact .of_keeps (keeps_checked fun _ => keeps_fetched fun _ =>
      .ite keeps_raise (keeps_return lib))
  | pcapCompileNoPcap =>
    exact .of_keeps (keeps_guarded <| keeps_guarded <| keeps_checked fun _ =>
      keeps_checked fun _ => keeps_guarded <| keeps_fetched fun _ =>
        .ite keeps_raise (keeps_return lib))
  | pcapCompile =>
    exact .of_keeps (keeps_checked fun _ => keeps_checked fun _ => keeps_checked fun _ =>
      keeps_guarded <| keeps_withPointer fun _ => keeps_withProgram lib fun _ => keeps_return lib)
  | pcapSetFilter =>
    exact .of_keeps (keeps_checked fun _ => keeps_checked fun _ => keeps_withPointer fun _ =>
      keeps_withProgram lib fun _ => keeps_return lib)
  | pcapDumpFlush | pcapDumpFTell | pcapFile | pcapDumpFile | pcapCanSetRfMon | pcapActivate =>
    exact .of_keeps (keeps_checked fun _ => keeps_fetched fun _ => keeps_return lib)
  | pcapStats | pcapPError | pcapSetDirection =>
    exact .of_keeps (keeps_checked fun _ => keeps_checked fun _ => keeps_fetched fun _ =>
      keeps_return lib)
  | pcapSetSnaplen | pcapSetPromisc | pcapSetTimeout | pcapSetBufferSize | pcapSetRfMon =>
    exact .of_keeps (keeps_checked fun _ => keeps_guarded <| keeps_fetched fun _ =>
      keeps_return lib)
  | pcapSetImmediateMode =>
    exact .of_keeps (keeps_guarded <| keeps_fetched fun _ => keeps_return lib)
  | pcapDataLinkValToName | pcapDataLinkValToDescription =>
    exact .of_keeps (keeps_guarded <| keeps_return lib)
  | pcapDumpOpen =>
    exact .bind (keeps_checkNotNull _ _ _) fun _ => .bind (keeps_checkNotNull _ _ _) fun _ =>
      .bind (keeps_getPointer _) fun _ => .bind (keeps_returnIf _ _) fun _ =>
        .bind (keeps_libpcap _ _ _ _ _) fun _ => .ite
          (.of_keeps (.bind (keeps_libpcap _ _ _ _ _) fun _ => keeps_raise))
          (newObject_affects _ _ _)
  | pcapOpenLive =>
    exact .bind (keeps_checkNotNull _ _ _) fun _ => .bind (keeps_guardArgument _ _ _) fun _ =>
      .bind (keeps_checkNotNull _ _ _) fun _ => openPcap_affects lib _ _ _ _
  | pcapOpenOffline | pcapCreate =>
    exact .bind (keeps_checkNotNull _ _ _) fun _ => .bind (keeps_checkNotNull _ _ _) fun _ =>
      openPcap_affects lib _ _ _ _
  | pcapOpenDead =>
    exact .bind (keeps_guardArgument _ _ _) fun _ => .bind (keeps_guardArgument _ _ _) fun _ =>
      .bind (keeps_libpcap _ _ _ _ _) fun _ => newObject_affects _ _ _
  | newBpfProgram =>
    exact .bind (keeps_libpcap _ _ _ _ _) fun _ => .ite (.of_keeps keeps_raise)
      (newObject_affects _ _ _)
  | pcapClose jpcap =>
    cases jpcap with
    | none => exact fun _ => .inl rfl
    | some o =>
      change Affects World.heap _ (Native.pcapClose lib (some o))
      unfold Native.pcapClose
      rw [checkNotNull_some_bind]
      exact .bind (keeps_getPointer _) fun _ => .bind (keeps_returnIf _ _) fun _ =>
        .bind (keeps_libpcap _ _ _ _ _) fun _ =>
          .bind_keeps (resetAddress_affects rfl) fun _ => .pure _
  | pcapDumpClose jpcap_dumper =>
    cases jpcap_dumper with
    | none => exact fun _ => .inl rfl
    | some o =>
      change Affects World.heap _ (Native.pcapDumpClose lib (some o))
      unfold Native.pcapDumpClose
      rw [checkNotNull_some_bind]
      exact .bind (keeps_getPointer _) fun _ => .bind (keeps_libpcap _ _ _ _ _) fun _ =>
        .bind_keeps (resetAddress_affects rfl) fun _ => .pure _

theorem exec_effect (call : Call) (heap : Heap) :
    Effect call heap (exec lib call heap).heap := by
  rcases (body_affects lib call).run ⟨heap, [], []⟩ with h | h
  · rw [show (exec lib call heap).heap = heap from h]
    exact .keeps
  · exact h

/-- The entry point tests the pointer, and the other arguments get it that far. -/
def Call.Tests : Call → Prop
  | pcapDataLink _ | pcapIsSwapped _ | pcapSnapshot _ | pcapMajorVersion _ | pcapMinorVersion _
  | pcapClose _ | pcapBreakLoop _ | pcapGetErr _ => True
  | pcapLoop _ _ jcallback => jcallback.isSome
  | pcapDispatch _ jcnt jcallback => jcallback.isSome ∧ jcnt > 0
  | pcapDumpOpen _ jfname => jfname.isSome
  | pcapDump _ jh jsp => jh.isSome ∧ jsp.isSome
  | pcapCompile _ jfp jstr joptimize _ =>
    jfp.isSome ∧ jstr.isSome ∧ (joptimize = 0 ∨ joptimize = 1)
  | pcapSetFilter _ jfp => jfp.isSome
  | pcapSendPacket _ jbuf jsize => jbuf.isSome ∧ jsize > 0
  | pcapNext _ jh => jh.isSome
  | pcapNextEx _ jpkt_header jpkt_data => jpkt_header.isSome ∧ jpkt_data.isSome
  | pcapSetDataLink _ jdtl => jdtl > -1
  | pcapSetNonBlock _ jnonblock jerrbuf => (jnonblock = 0 ∨ jnonblock = 1) ∧ jerrbuf.isSome
  | pcapGetNonBlock _ jerrbuf => jerrbuf.isSome
  | _ => False

/-- The call raises the close exception of the handle, whichever exception stays pending, and the
library is not given the handle's pointer. -/
structure Refuses (call : Call) (heap : Heap) (h : Handle) : Prop where
  raises : ∀ rethrow : Rethrow,
    rethrow.pending (exec lib call heap).thrown = some h.kind.closeException
  withholds : ∀ c ∈ (exec lib call heap).calls, ∀ p ∈ c.pointers, p.owner ≠ some h

theorem refuses_iff {call : Call} {heap : Heap} {h : Handle} : Refuses lib call heap h ↔
    (exec lib call heap).thrown.head?.map Thrown.exception = some h.kind.closeException ∧
    (exec lib call heap).thrown.getLast?.map Thrown.exception = some h.kind.closeException ∧
    ∀ c ∈ (exec lib call heap).calls, ∀ p ∈ c.pointers, p.owner ≠ some h := by
  constructor
  · intro h
    exact ⟨h.raises .keepsFirst, h.raises .keepsLast, h.withholds⟩
  · intro htests
    obtain ⟨h1, h2, h3⟩ := htests
    refine ⟨fun rethrow => ?_, h3⟩
    cases rethrow
    · exact h1
    · exact h2

theorem exists_of_mem {kind : Kind} {jobj : Option (Object kind)} {h : Handle}
    (hm : h ∈ (jobj.map Object.handle).toList) : ∃ o, jobj = some o ∧ o.handle = h := by
  simpa [Option.mem_toList, Option.map_eq_some_iff] using hm

theorem exists_pcap_of_mem {jpcap : Option Pcap} {jfp : Option BpfProgram} {h : Handle}
    (hm : h ∈ (jpcap.map Object.handle).toList ++ (jfp.map Object.handle).toList)
    (hk : h.kind ≠ .bpfProgram) : ∃ o, jpcap = some o ∧ o.handle = h := by
  rcases List.mem_append.mp hm with hm | hm
  · exact exists_of_mem hm
  · obtain ⟨o, -, rfl⟩ := exists_of_mem hm
    exact absurd rfl hk

theorem refuses_iff_tests {call : Call} {heap : Heap} {h : Handle}
    (hc : heap.isClosed h) (hk : h.kind ≠ .bpfProgram) (hm : h ∈ call.handles) :
    Refuses lib call heap h ↔ call.Tests := by
  cases call with
  | pcapDataLink | pcapIsSwapped | pcapSnapshot | pcapMajorVersion | pcapMinorVersion |
    pcapClose | pcapBreakLoop | pcapGetErr =>
    obtain ⟨o, rfl, rfl⟩ := exists_of_mem hm
    simp [refuses_iff, exec, Call.body, Call.Tests, pcapDataLink, pcapIsSwapped, pcapSnapshot,
      pcapMajorVersion, pcapMinorVersion, pcapClose, pcapBreakLoop, pcapGetErr, pcapGetter, hc]
  | pcapLoop jpcap jcnt jcallback =>
    obtain ⟨o, rfl, rfl⟩ := exists_of_mem hm
    cases jcallback <;>
      simp [refuses_iff, exec, Call.body, Call.Tests, pcapLoop, Kind.closeException, hc]
  | pcapDispatch jpcap jcnt jcallback =>
    obtain ⟨o, rfl, rfl⟩ := exists_of_mem hm
    cases jcallback <;> by_cases hn : jcnt > 0 <;>
      simp [refuses_iff, exec, Call.body, Call.Tests, pcapDispatch, Kind.closeException, hc, hn]
  | pcapDumpOpen jpcap jfname =>
    obtain ⟨o, rfl, rfl⟩ := exists_of_mem hm
    cases jfname <;>
      simp [refuses_iff, exec, Call.body, Call.Tests, pcapDumpOpen, Kind.closeException, hc]
  | pcapDump jpcap_dumper jh jsp =>
    obtain ⟨o, rfl, rfl⟩ := exists_of_mem hm
    have ha : heap.address o.handle = 0 := hc
    cases jh <;> cases jsp <;>
      simp [refuses_iff, exec, Call.body, Call.Tests, pcapDump, Kind.closeException, hc, ha]
  | pcapCompile jpcap jfp jstr joptimize jnetmask =>
    obtain ⟨o, rfl, rfl⟩ := exists_pcap_of_mem hm hk
    cases jfp <;> cases jstr <;> by_cases hn : joptimize = 0 ∨ joptimize = 1 <;>
      simp [refuses_iff, exec, Call.body, Call.Tests, pcapCompile, Kind.closeException, hc, hn]
  | pcapSetFilter jpcap jfp =>
    obtain ⟨o, rfl, rfl⟩ := exists_pcap_of_mem hm hk
    cases jfp <;>
      simp [refuses_iff, exec, Call.body, Call.Tests, pcapSetFilter, Kind.closeException, hc]
  | pcapSendPacket jpcap jbuf jsize =>
    obtain ⟨o, rfl, rfl⟩ := exists_of_mem hm
    cases jbuf <;> by_cases hn : jsize > 0 <;>
      simp [refuses_iff, exec, Call.body, Call.Tests, pcapSendPacket, Kind.closeException, hc, hn]
  | pcapNext jpcap jh =>
    obtain ⟨o, rfl, rfl⟩ := exists_of_mem hm
    cases jh <;>
      simp [refuses_iff, exec, Call.body, Call.Tests, pcapNext, Kind.closeException, hc]
  | pcapNextEx jpcap jpkt_header jpkt_data =>
    obtain ⟨o, rfl, rfl⟩ := exists_of_mem hm
    cases jpkt_header <;> cases jpkt_data <;>
      simp [refuses_iff, exec, Call.body, Call.Tests, pcapNextEx, Kind.closeException, hc]
  | pcapSetDataLink jpcap jdtl =>
    obtain ⟨o, rfl, rfl⟩ := exists_of_mem hm
    by_cases hn : jdtl > -1 <;>
      simp [refuses_iff, exec, Call.body, Call.Tests, pcapSetDataLink, Kind.closeException, hc, hn]
  | pcapSetNonBlock jpcap jnonblock jerrbuf =>
    obtain ⟨o, rfl, rfl⟩ := exists_of_mem hm
    cases jerrbuf <;> by_cases hn : jnonblock = 0 ∨ jnonblock = 1 <;>
      simp [refuses_iff, exec, Call.body, Call.Tests, pcapSetNonBlock, Kind.closeException, hc, hn]
  | pcapGetNonBlock jpcap jerrbuf =>
    obtain ⟨o, rfl, rfl⟩ := exists_of_mem hm
    cases jerrbuf <;>
      simp [refuses_iff, exec, Call.body, Call.Tests, pcapGetNonBlock, Kind.closeException, hc]
  | pcapDumpFlush | pcapDumpFTell | pcapDumpClose | pcapFile | pcapDumpFile | pcapCanSetRfMon |
    pcapActivate =>
    obtain ⟨o, rfl, rfl⟩ := exists_of_mem hm
    simp [refuses_iff, exec, Call.body, Call.Tests, pcapDumpFlush, pcapDumpFTell, pcapDumpGetter,
      pcapDumpClose, pcapFile, pcapDumpFile, pcapCanSetRfMon, pcapActivate, pcapAction, hc]
  | pcapStats jpcap jpcap_stat =>
    obtain ⟨o, rfl, rfl⟩ := exists_of_mem hm
    cases jpcap_stat <;>
      simp [refuses_iff, exec, Call.body, Call.Tests, pcapStats, Kind.closeException, hc]
  | pcapPError jpcap jprefixText =>
    obtain ⟨o, rfl, rfl⟩ := exists_of_mem hm
    cases jprefixText <;>
      simp [refuses_iff, exec, Call.body, Call.Tests, pcapPError, Kind.closeException, hc]
  | pcapSetSnaplen | pcapSetPromisc | pcapSetTimeout | pcapSetBufferSize | pcapSetRfMon =>
    obtain ⟨o, rfl, rfl⟩ := exists_of_mem hm
    simp [refuses_iff, exec, Call.body, Call.Tests, pcapSetSnaplen, pcapSetPromisc,
      pcapSetTimeout, pcapSetBufferSize, pcapSetRfMon, pcapSetter]
  | pcapSetImmediateMode jpcap jimmediate =>
    obtain ⟨o, rfl, rfl⟩ := exists_of_mem hm
    simp [refuses_iff, exec, Call.body, Call.Tests, pcapSetImmediateMode]
  | pcapSetDirection jpcap jdirection =>
    obtain ⟨o, rfl, rfl⟩ := exists_of_mem hm
    cases jdirection <;>
      simp [refuses_iff, exec, Call.body, Call.Tests, pcapSetDirection, Kind.closeException, hc]
  | pcapFreeCode | pcapCompileNoPcap =>
    obtain ⟨o, rfl, rfl⟩ := exists_of_mem hm
    exact absurd rfl hk
  | pcapOpenLive | pcapOpenOffline | pcapCreate | pcapOpenDead | pcapDataLinkValToName |
    pcapDataLinkValToDescription | newBpfProgram => exact absurd hm List.not_mem_nil

/-! Runs. -/

/-- The objects, and the handles that a close operation has been called on. -/
structure State where
  heap : Heap
  closed : List Handle

namespace State

def initial : State := ⟨.empty, []⟩

/-- A call is made, and the library answers. -/
def step (s : State) (i : Call × (LibCall → JLong)) : State :=
  ⟨(exec i.2 i.1 s.heap).heap, s.closed ++ i.1.closes.toList⟩

/-- The arguments are objects that exist. -/
def Possible (s : State) (i : Call × (LibCall → JLong)) : Prop :=
  ∀ h ∈ i.1.handles, s.heap.Allocated h

/-- No program is freed. -/
structure May (s : State) (i : Call × (LibCall → JLong)) : Prop where
  possible : s.Possible i
  frees_not : ∀ jfp, i.1 ≠ .pcapFreeCode (some jfp)

structure Invariant (s : State) : Prop where
  allocated : ∀ h ∈ s.closed, s.heap.Allocated h
  isClosed : ∀ h ∈ s.closed, s.heap.isClosed h
  kind : ∀ h ∈ s.closed, h.kind ≠ .bpfProgram

end State

theorem Effect.allocated {call : Call} {heap heap' : Heap} (he : Effect call heap heap')
    {h : Handle} (ha : heap.Allocated h) : heap'.Allocated h := by
  cases he with
  | keeps => exact ha
  | makes kind address => exact Heap.new_allocated kind address ha
  | closes hc => exact ha

theorem Effect.isClosed {call : Call} {heap heap' : Heap} (he : Effect call heap heap')
    {h : Handle} (ha : heap.Allocated h) (hc : heap.isClosed h) : heap'.isClosed h := by
  cases he with
  | keeps => exact hc
  | makes kind address => exact Heap.new_isClosed kind address ha hc
  | closes _ => exact Heap.setAddress_isClosed hc

/-- A close operation leaves no address behind, unless it frees a program. -/
theorem exec_closes {call : Call} (heap : Heap) {h : Handle} (hc : call.closes = some h)
    (hk : ∀ jfp, call ≠ .pcapFreeCode (some jfp)) :
    h ∈ call.handles ∧ h.kind ≠ .bpfProgram ∧ (exec lib call heap).heap.isClosed h := by
  cases call with
  | pcapClose jpcap =>
    obtain ⟨o, rfl, rfl⟩ := Option.map_eq_some_iff.mp hc
    refine ⟨List.mem_cons_self, nofun, ?_⟩
    by_cases hcl : heap.isClosed o.handle
    · simp [exec, Call.body, pcapClose, hcl]
    · simpa [exec, Call.body, pcapClose, hcl] using heap.setAddress_isClosed_self o.handle
  | pcapDumpClose jpcap_dumper =>
    obtain ⟨o, rfl, rfl⟩ := Option.map_eq_some_iff.mp hc
    refine ⟨List.mem_cons_self, nofun, ?_⟩
    by_cases hcl : heap.isClosed o.handle <;>
      simpa [exec, Call.body, pcapDumpClose, hcl] using heap.setAddress_isClosed_self o.handle
  | pcapFreeCode jfp =>
    obtain ⟨o, rfl, rfl⟩ := Option.map_eq_some_iff.mp hc
    exact absurd rfl (hk o)
  | _ => cases hc

theorem State.invariant_step {s : State} {i : Call × (LibCall → JLong)} (hs : s.Invariant)
    (hi : s.May i) : (s.step i).Invariant := by
  have he : Effect i.1 s.heap (s.step i).heap := exec_effect i.2 i.1 s.heap
  have hnew : ∀ h ∈ i.1.closes.toList, s.heap.Allocated h ∧ h.kind ≠ .bpfProgram ∧
      (s.step i).heap.isClosed h := by
    intro h hh
    obtain ⟨hm, hk, hc⟩ := exec_closes i.2 s.heap (Option.mem_toList.mp hh) hi.frees_not
    exact ⟨hi.possible h hm, hk, hc⟩
  constructor <;> intro h hh <;> rcases List.mem_append.mp hh with hh | hh
  · exact he.allocated (hs.allocated h hh)
  · exact he.allocated (hnew h hh).1
  · exact he.isClosed (hs.allocated h hh) (hs.isClosed h hh)
  · exact (hnew h hh).2.2
  · exact hs.kind h hh
  · exact (hnew h hh).2.1

theorem State.invariant_initial : State.initial.Invariant :=
  ⟨fun _ h => absurd h List.not_mem_nil, fun _ h => absurd h List.not_mem_nil,
    fun _ h => absurd h List.not_mem_nil⟩

/-- While no program is freed, the closed handles have lost their address, and a call is refused
them if and only if it tests for it. -/
theorem closedHandles_refused {s : State}
    (hs : Transition.Reachable State.initial State.May State.step s) {h : Handle}
    (hh : h ∈ s.closed) : s.heap.isClosed h ∧ ∀ call lib, h ∈ call.handles →
      (Refuses lib call s.heap h ↔ call.Tests) := by
  have hinv : s.Invariant :=
    hs.invariant State.invariant_initial fun _ _ hs hi => State.invariant_step hs hi
  exact ⟨hinv.isClosed h hh, fun call lib hm =>
    refuses_iff_tests lib (hinv.isClosed h hh) (hinv.kind h hh) hm⟩

section Sequences

/-- A library whose calls all return 1. -/
def one : LibCall → JLong := fun _ => 1

/-- `PcapClose(PcapOpenDead(1, 100))`. -/
def deadPcapClosed : State :=
  (State.initial.step (.pcapOpenDead 1 100, one)).step (.pcapClose (some ⟨0⟩), one)

theorem deadPcapClosed_reachable :
    Transition.Reachable State.initial State.May State.step deadPcapClosed :=
  .step (.step .initial ⟨fun _ h => absurd h List.not_mem_nil, nofun⟩)
    ⟨fun h hh => by obtain rfl := List.mem_singleton.mp hh; decide, nofun⟩

theorem deadPcapClosed_refused : deadPcapClosed.heap.isClosed ⟨.pcap, 0⟩ ∧
    Refuses one (.pcapDataLink (some ⟨0⟩)) deadPcapClosed.heap ⟨.pcap, 0⟩ := by
  have h := closedHandles_refused deadPcapClosed_reachable (h := ⟨.pcap, 0⟩) (by decide)
  exact ⟨h.1, (h.2 _ _ (by decide)).mpr trivial⟩

/-- `PcapFreeCode(new BpfProgram())`. -/
def programFreed : State :=
  (State.initial.step (.newBpfProgram, one)).step (.pcapFreeCode (some ⟨0⟩), one)

/-- A freed program keeps its address, and `PcapStats` passes on the one of a closed Pcap. -/
theorem closedHandles_leak :
    (∃ s, Transition.Reachable State.initial State.Possible State.step s ∧
      ∃ h ∈ s.closed, ¬s.heap.isClosed h) ∧
    ∃ s, Transition.Reachable State.initial State.Possible State.step s ∧
      ∃ h ∈ s.closed, ∃ i, s.Possible i ∧ h ∈ i.1.handles ∧ ¬Refuses i.2 i.1 s.heap h := by
  refine ⟨⟨programFreed, .step (.step .initial ?_) ?_, ⟨.bpfProgram, 0⟩, by decide, by decide⟩,
    deadPcapClosed, .step (.step .initial ?_) ?_, ⟨.pcap, 0⟩, by decide,
    (.pcapStats (some ⟨0⟩) (some ()), one), ?_, by decide, fun h => ?_⟩
  · exact fun _ h => absurd h List.not_mem_nil
  · intro h hh
    obtain rfl := List.mem_singleton.mp hh
    decide
  · exact fun _ h => absurd h List.not_mem_nil
  · intro h hh
    obtain rfl := List.mem_singleton.mp hh
    decide
  · intro h hh
    obtain rfl := List.mem_singleton.mp hh
    decide
  · exact h.withholds ⟨.stats, [⟨some ⟨.pcap, 0⟩, 0⟩], [], []⟩ (by decide) _
      List.mem_cons_self rfl

end Sequences

end Native

end Jxnet
