import Jxnet.Native.Calls

namespace Jxnet

open Java Body

namespace Native

namespace Call

/-- What the entry point checks of its numbers. -/
def guard : Call → Option Bool
  | pcapOpenLive _ jsnaplen jpromisc jto_ms _ =>
    some (jsnaplen > 0 ∧ jsnaplen < 65536 ∧ (jpromisc = 0 ∨ jpromisc = 1) ∧ jto_ms > 0)
  | pcapDispatch _ jcnt _ => some (jcnt > 0)
  | pcapCompile _ _ _ joptimize _ => some (joptimize = 0 ∨ joptimize = 1)
  | pcapSendPacket _ _ jsize => some (jsize > 0)
  | pcapSetDataLink _ jdtl => some (jdtl > -1)
  | pcapDataLinkValToName jdtl | pcapDataLinkValToDescription jdtl => some (jdtl > -1)
  | pcapSetNonBlock _ jnonblock _ => some (jnonblock = 0 ∨ jnonblock = 1)
  | pcapOpenDead jlinktype jsnaplen => some (jlinktype > -1 ∧ (jsnaplen > 0 ∨ jsnaplen < 65535))
  | pcapCompileNoPcap jsnaplen_arg jlinktype_arg _ _ joptimize _ =>
    some ((jsnaplen_arg > 0 ∧ jsnaplen_arg < 65536) ∧ jlinktype_arg > -1 ∧
      (joptimize = 0 ∨ joptimize = 1))
  | pcapSetSnaplen _ jsnaplen => some (jsnaplen > 0 ∧ jsnaplen < 65535)
  | pcapSetPromisc _ jpromisc => some (jpromisc = 0 ∨ jpromisc = 1)
  | pcapSetTimeout _ jtimeout => some (jtimeout > 0)
  | pcapSetBufferSize _ jbuffer_size => some (jbuffer_size > 0 ∧ jbuffer_size < 65535)
  | pcapSetRfMon _ jrfmon => some (jrfmon = 0 ∨ jrfmon = 1)
  | pcapSetImmediateMode _ jimmediate => some (jimmediate = 0 ∨ jimmediate = 1)
  | _ => none

/-- What the entry point returns where a check of its arguments fails. -/
def errorValue : Call → Value
  | pcapOpenLive .. | pcapOpenDead .. | pcapDataLinkValToName .. |
    pcapDataLinkValToDescription .. => .null
  | _ => .error

/-- The checks before the argument check pass, and one after it fails. -/
def StopsLater (heap : Heap) : Call → Prop
  | pcapOpenLive jsource _ _ _ jerrbuf => jsource.isSome ∧ jerrbuf = none
  | pcapDispatch jpcap _ jcallback => jcallback.isSome ∧ heap.IsClosed jpcap
  | pcapCompile jpcap jfp jstr _ _ => jfp.isSome ∧ jstr.isSome ∧ heap.IsClosed jpcap
  | pcapSendPacket jpcap jbuf _ =>
    ∃ pcap buf, jpcap = some pcap ∧ jbuf = some buf ∧
      (heap.isClosed pcap.handle ∨ buf.directAddress = 0)
  | pcapSetDataLink jpcap _ => heap.IsClosed jpcap
  | pcapSetNonBlock jpcap _ jerrbuf => jpcap.isSome ∧ (jerrbuf = none ∨ heap.IsClosed jpcap)
  | pcapCompileNoPcap jsnaplen_arg jlinktype_arg jprogram jbuf _ _ =>
    ((jsnaplen_arg > 0 ∧ jsnaplen_arg < 65536) ∧ jlinktype_arg > -1 →
      jprogram.isSome ∧ jbuf.isSome) ∧
    (jprogram = none ∨ jbuf = none ∨ heap.IsClosed jprogram)
  | _ => False

end Call

/-- The call raises `IllegalArgumentException` and does nothing else. -/
structure Rejects (rethrow : Rethrow) (lib : LibCall → JLong) (call : Call) (heap : Heap) :
    Prop where
  raises : rethrow.pending (exec lib call heap).thrown = some .illegalArgument
  value : (exec lib call heap).value = call.errorValue
  calls : (exec lib call heap).calls = []
  heap : (exec lib call heap).heap = heap

/-- The call raises `IllegalArgumentException` and then another exception, and does nothing else. -/
def Stopped (lib : LibCall → JLong) (call : Call) (heap : Heap) : Prop :=
  (exec lib call heap).thrown.head?.map Thrown.exception = some .illegalArgument ∧
  (exec lib call heap).thrown.getLast?.map Thrown.exception ≠ some .illegalArgument ∧
  (exec lib call heap).value = call.errorValue ∧ (exec lib call heap).calls = [] ∧
  (exec lib call heap).heap = heap

variable (rethrow : Rethrow) (lib : LibCall → JLong)

theorem Stopped.rejects_iff {call : Call} {heap : Heap} (h : Stopped lib call heap) :
    Rejects rethrow lib call heap ↔ rethrow = .keepsFirst := by
  obtain ⟨hfirst, hlast, hvalue, hcalls, hheap⟩ := h
  constructor
  · intro hr
    cases rethrow with
    | keepsFirst => rfl
    | keepsLast => exact absurd hr.raises hlast
  · intro heq
    subst heq
    exact ⟨hfirst, hvalue, hcalls, hheap⟩

/-- The library is called, or an earlier check stops the call. -/
def Missed (lib : LibCall → JLong) (call : Call) (heap : Heap) : Prop :=
  (exec lib call heap).calls ≠ [] ∨
    ∀ t ∈ (exec lib call heap).thrown, t.exception ≠ .illegalArgument

theorem Missed.not_rejects {call : Call} {heap : Heap} (h : Missed lib call heap) :
    ¬Rejects rethrow lib call heap := by
  intro hr
  rcases h with h | h
  · exact h hr.calls
  · have hmem : ∃ t ∈ (exec lib call heap).thrown, t.exception = .illegalArgument := by
      cases rethrow with
      | keepsFirst =>
        obtain ⟨t, ht, he⟩ := Option.map_eq_some_iff.mp hr.raises
        exact ⟨t, List.mem_of_head? ht, he⟩
      | keepsLast =>
        obtain ⟨t, ht, he⟩ := Option.map_eq_some_iff.mp hr.raises
        exact ⟨t, List.mem_of_getLast? ht, he⟩
    obtain ⟨t, ht, he⟩ := hmem
    exact h t ht he

@[simp] theorem openPcap_calls (function : Libpcap) (numbers : List Int) (name : String)
    (w : World) : ((openPcap lib function numbers name).run w).2.calls =
      w.calls ++ [⟨function, [], numbers, [name]⟩] := by
  unfold openPcap
  rw [run_libpcap, run_returnIf]
  split <;> rfl

/-- Three checks of its own stand around the two null checks. -/
theorem guard_outcome_compileNoPcap {call : Call} (heap : Heap) {jsnaplen_arg jlinktype_arg : Int}
    {jprogram : Option BpfProgram} {jbuf : Option String} {joptimize jmask : Int}
    (hcall : call =
      .pcapCompileNoPcap jsnaplen_arg jlinktype_arg jprogram jbuf joptimize jmask)
    (hg : call.guard = some false) :
    (call.StopsLater heap ∧ Stopped lib call heap) ∨
      (¬call.StopsLater heap ∧ Missed lib call heap) := by
  subst hcall
  simp only [Call.guard, Option.some.injEq, decide_eq_false_iff_not] at hg
  cases jprogram with
  | none =>
    by_cases h1 : jsnaplen_arg > 0 ∧ jsnaplen_arg < 65536 <;>
      by_cases h2 : jlinktype_arg > -1 <;>
      simp [exec, Call.body, pcapCompileNoPcap, h1, h2, Call.StopsLater, Missed, Stopped,
        Call.errorValue]
  | some o =>
    cases jbuf with
    | none =>
      by_cases h1 : jsnaplen_arg > 0 ∧ jsnaplen_arg < 65536 <;>
        by_cases h2 : jlinktype_arg > -1 <;>
        simp [exec, Call.body, pcapCompileNoPcap, h1, h2, Call.StopsLater, Missed, Stopped,
          Call.errorValue]
    | some buf =>
      by_cases hc : heap.address o.handle = 0#64
      · have hcl : heap.isClosed o.handle := hc
        by_cases h12 : (jsnaplen_arg > 0 ∧ jsnaplen_arg < 65536) ∧ jlinktype_arg > -1
        · have h3 : ¬(joptimize = 0 ∨ joptimize = 1) := fun h3 => hg ⟨h12.1, h12.2, h3⟩
          simp [exec, Call.body, pcapCompileNoPcap, h12, h3, hc, hcl, Call.StopsLater,
            Heap.IsClosed, Stopped, Call.errorValue, Kind.closeException]
        · rcases not_and_or.mp h12 with h1 | h2
          · by_cases h2 : jlinktype_arg > -1 <;>
              by_cases h3 : joptimize = 0 ∨ joptimize = 1 <;>
              simp [exec, Call.body, pcapCompileNoPcap, h1, h2, h3, hc, hcl, Call.StopsLater,
              Heap.IsClosed, Stopped, Call.errorValue, Kind.closeException]
          · by_cases h1 : jsnaplen_arg > 0 ∧ jsnaplen_arg < 65536 <;>
              by_cases h3 : joptimize = 0 ∨ joptimize = 1 <;>
              simp [exec, Call.body, pcapCompileNoPcap, h1, h2, h3, hc, hcl, Call.StopsLater,
              Heap.IsClosed, Stopped, Call.errorValue, Kind.closeException]
      · simp [exec, Call.body, pcapCompileNoPcap, hc, Call.StopsLater, Missed, Heap.IsClosed,
          Heap.isClosed, apply_ite World.heap, apply_ite World.calls]

/-- The guard lets the call through, so only a later check can stop it. -/
theorem guard_outcome {call : Call} (heap : Heap) (hg : call.guard = some false) :
    (call.StopsLater heap ∧ Stopped lib call heap) ∨
      (¬call.StopsLater heap ∧ Missed lib call heap) := by
  cases call with
  | pcapOpenLive jsource jsnaplen jpromisc jto_ms jerrbuf =>
    simp only [Call.guard, Option.some.injEq] at hg
    cases jsource <;> cases jerrbuf <;>
      simp [exec, Call.body, pcapOpenLive, hg, Call.StopsLater, Missed, Stopped, Call.errorValue]
  | pcapDispatch jpcap jcnt jcallback =>
    simp only [Call.guard, Option.some.injEq] at hg
    cases jpcap with
    | none =>
      simp [exec, Call.body, pcapDispatch, Call.StopsLater, Missed, Heap.IsClosed]
    | some o =>
      by_cases hc : heap.isClosed o.handle <;> cases jcallback <;>
        simp [exec, Call.body, pcapDispatch, hg, hc, Call.StopsLater, Missed, Heap.IsClosed,
          Stopped, Call.errorValue, Kind.closeException]
  | pcapCompile jpcap jfp jstr joptimize jnetmask =>
    simp only [Call.guard, Option.some.injEq] at hg
    cases jpcap with
    | none =>
      simp [exec, Call.body, pcapCompile, Call.StopsLater, Missed, Heap.IsClosed]
    | some o =>
      by_cases hc : heap.isClosed o.handle
      · cases jfp <;> cases jstr <;>
          simp [exec, Call.body, pcapCompile, hg, hc, Call.StopsLater, Missed, Heap.IsClosed,
            Stopped, Call.errorValue, Kind.closeException]
      · cases jfp with
        | none =>
          simp [exec, Call.body, pcapCompile, Call.StopsLater, Missed]
        | some fp =>
          by_cases hp : heap.address fp.handle = 0#64 <;> cases jstr <;>
            simp [exec, Call.body, pcapCompile, withProgram, hg, hc, hp, Call.StopsLater, Missed,
              Heap.IsClosed]
  | pcapSendPacket jpcap jbuf jsize =>
    simp only [Call.guard, Option.some.injEq] at hg
    cases jpcap with
    | none =>
      simp [exec, Call.body, pcapSendPacket, Call.StopsLater, Missed]
    | some o =>
      cases jbuf with
      | none =>
        simp [exec, Call.body, pcapSendPacket, Call.StopsLater, Missed]
      | some buf =>
        by_cases hc : heap.isClosed o.handle <;> by_cases hb : buf.directAddress = 0#64 <;>
          simp [exec, Call.body, pcapSendPacket, hg, hc, hb, Call.StopsLater, Missed, Stopped,
            Call.errorValue, Kind.closeException]
  | pcapSetDataLink jpcap jdtl =>
    simp only [Call.guard, Option.some.injEq] at hg
    cases jpcap with
    | none =>
      simp [exec, Call.body, pcapSetDataLink, Call.StopsLater, Missed, Heap.IsClosed]
    | some o =>
      by_cases hc : heap.isClosed o.handle <;>
        simp [exec, Call.body, pcapSetDataLink, hg, hc, Call.StopsLater, Missed, Heap.IsClosed,
          Stopped, Call.errorValue, Kind.closeException]
  | pcapSetNonBlock jpcap jnonblock jerrbuf =>
    simp only [Call.guard, Option.some.injEq] at hg
    cases jpcap with
    | none =>
      simp [exec, Call.body, pcapSetNonBlock, Call.StopsLater, Missed]
    | some o =>
      by_cases hc : heap.isClosed o.handle <;> cases jerrbuf <;>
        simp [exec, Call.body, pcapSetNonBlock, hg, hc, Call.StopsLater, Missed, Heap.IsClosed,
          Stopped, Call.errorValue, Kind.closeException]
  | pcapCompileNoPcap => exact guard_outcome_compileNoPcap lib heap rfl hg
  | pcapOpenDead | pcapDataLinkValToName | pcapDataLinkValToDescription =>
    simp [exec, Call.body, pcapOpenDead, pcapDataLinkValToName, pcapDataLinkValToDescription,
      pcapDataLinkText, Call.StopsLater, Missed]
  | pcapSetSnaplen jpcap | pcapSetPromisc jpcap | pcapSetTimeout jpcap
  | pcapSetBufferSize jpcap | pcapSetRfMon jpcap =>
    cases jpcap <;>
      simp [exec, Call.body, pcapSetSnaplen, pcapSetPromisc, pcapSetTimeout, pcapSetBufferSize,
        pcapSetRfMon, pcapSetter, Call.StopsLater, Missed]
  | pcapSetImmediateMode jpcap =>
    cases jpcap <;>
      simp [exec, Call.body, pcapSetImmediateMode, Call.StopsLater, Missed]
  | _ => cases hg

/-- A call with a false guard is rejected where a later check stops it and the first exception
stays pending. -/
theorem guard_rejects_iff {call : Call} {heap : Heap} (hg : call.guard = some false) :
    Rejects rethrow lib call heap ↔ rethrow = .keepsFirst ∧ call.StopsLater heap := by
  rcases guard_outcome lib heap hg with ⟨hs, h⟩ | ⟨hs, h⟩
  · rw [h.rejects_iff rethrow lib, and_iff_left hs]
  · exact iff_of_false (h.not_rejects rethrow lib) fun hr => hs hr.2

/-- A Pcap that has been closed stops the call that the guard let through. -/
theorem dispatch_rejected :
    (Call.pcapDispatch (some ⟨0⟩) 0 (some ())).guard = some false ∧
    Rejects .keepsFirst (fun _ => 1) (.pcapDispatch (some ⟨0⟩) 0 (some ()))
      (Heap.empty.new .pcap 0) :=
  ⟨by decide, (guard_rejects_iff .keepsFirst _ (by decide)).mpr
    ⟨rfl, rfl, ⟨0⟩, rfl, by decide⟩⟩

/-- `PcapOpenLive` opens a Pcap with a snapshot length of 0. -/
theorem openLive_opens :
    (Call.pcapOpenLive (some "eth0") 0 0 1 (some ())).guard = some false ∧
    ∀ rethrow, ¬Rejects rethrow (fun _ => 1) (.pcapOpenLive (some "eth0") 0 0 1 (some ()))
      Heap.empty := by
  refine ⟨by decide, fun rethrow h => ?_⟩
  have hcalls : (exec (fun _ => 1) (.pcapOpenLive (some "eth0") 0 0 1 (some ()))
      Heap.empty).calls = [⟨.openLive, [], [0, 0, 1], ["eth0"]⟩] := by decide
  exact List.cons_ne_nil _ _ (hcalls.symm.trans h.calls)

end Native

end Jxnet
