import Jxnet.Native.Calls
import Jxnet.Packet.Capture

namespace Jxnet

open Java

namespace Native

/-- The two entry points that hand packets to a `PcapHandler`. -/
inductive EntryPoint where
  | PcapLoop
  | PcapDispatch
  deriving DecidableEq, Repr

def EntryPoint.call (entry : EntryPoint) (jpcap : Option Pcap) (jcnt : Int)
    (jcallback : Option Unit) : Call :=
  match entry with
  | PcapLoop => .pcapLoop jpcap jcnt jcallback
  | PcapDispatch => .pcapDispatch jpcap jcnt jcallback

variable {ε υ : Type}

/-- What one call of `nextPacket` does: what it throws, and whether it breaks the loop. -/
structure Invocation (ε : Type) where
  thrown : Option ε
  breaks : Bool

/-- The arguments of one call of `nextPacket`. -/
structure Delivery (υ : Type) where
  user : υ
  pkt_hdr : PcapPktHdr
  buffer : Bytes
  deriving DecidableEq

/-- An exception that waits for the return to Java. -/
inductive Pending (ε : Type) where
  | native (e : NativeException)
  | handler (e : ε)
  deriving DecidableEq

/-- What the C callback works on: the calls made, the exception pending in the environment, and
the flag that `pcap_breakloop` sets. -/
structure Env (ε υ : Type) where
  delivered : List (Delivery υ)
  pending : Option (Pending ε)
  breakLoop : Bool
  deriving DecidableEq

/-- The handler's n-th call may do anything; nothing here looks at the exception it leaves. -/
def pcapCallback (handler : Nat → Invocation ε) (user : υ) (packet : CapturedPacket)
    (env : Env ε υ) : Env ε υ :=
  let pkt_hdr : PcapPktHdr :=
    ⟨BitVec.ofNat 32 packet.caplen, packet.len, packet.tvSec, packet.tvUsec⟩
  let invocation := handler env.delivered.length
  { delivered := env.delivered ++ [⟨user, pkt_hdr, packet.data⟩]
    pending := match invocation.thrown with
      | some e => some (.handler e)
      | none => env.pending
    breakLoop := env.breakLoop || invocation.breaks }

/-- A call of an entry point under way. -/
structure Capture (ε υ : Type) where
  env : Env ε υ
  returned : Bool
  deriving DecidableEq

/-- The entry point up to its call of libpcap, which it may return without. -/
def enter (lib : LibCall → JLong) (entry : EntryPoint) (jpcap : Option Pcap) (jcnt : Int)
    (jcallback : Option Unit) (heap : Heap) : Capture ε υ :=
  let o := exec lib (entry.call jpcap jcnt jcallback) heap
  ⟨⟨[], o.thrown.getLast?.map fun t => .native t.exception, false⟩, o.calls.isEmpty⟩

/-- One pass of `pcap_loop` or `pcap_dispatch`: `source n` is the packet that comes after `n`
others, or the end of what the call reads. -/
def pass (source : Nat → Option CapturedPacket) (handler : Nat → Invocation ε) (user : υ)
    (cnt : Int) (s : Capture ε υ) : Capture ε υ :=
  if s.returned then s
  else if s.env.breakLoop then { s with returned := true }
  else match source s.env.delivered.length with
    | none => { s with returned := true }
    | some packet =>
      let env := pcapCallback handler user packet s.env
      ⟨env, 0 < cnt && cnt ≤ env.delivered.length⟩

section Passes

variable (source : Nat → Option CapturedPacket) (handler : Nat → Invocation ε) (user : υ)
  (cnt : Int)

def passes : Nat → Capture ε υ → Capture ε υ
  | 0, s => s
  | n + 1, s => pass source handler user cnt (passes n s)

/-- A pass makes one call of the handler or ends the loop. -/
theorem pass_cases (s : Capture ε υ) :
    (s.returned = true ∧ pass source handler user cnt s = s) ∨
    (s.returned = false ∧ (s.env.breakLoop = true ∨ source s.env.delivered.length = none) ∧
      pass source handler user cnt s = { s with returned := true }) ∨
    (s.returned = false ∧ s.env.breakLoop = false ∧
      ∃ packet, source s.env.delivered.length = some packet ∧
        pass source handler user cnt s = ⟨pcapCallback handler user packet s.env,
          decide (0 < cnt ∧ cnt ≤ (s.env.delivered.length + 1 : Nat))⟩) := by
  unfold pass
  by_cases hr : s.returned = true
  · exact .inl ⟨hr, if_pos hr⟩
  · rw [if_neg hr]
    rw [Bool.not_eq_true] at hr
    by_cases hb : s.env.breakLoop = true
    · exact .inr (.inl ⟨hr, .inl hb, if_pos hb⟩)
    · rw [if_neg hb]
      rw [Bool.not_eq_true] at hb
      cases hsource : source s.env.delivered.length with
      | none => exact .inr (.inl ⟨hr, .inr rfl, rfl⟩)
      | some packet =>
        refine .inr (.inr ⟨hr, hb, packet, rfl, ?_⟩)
        simp [pcapCallback]

theorem pass_length_le (s : Capture ε υ) :
    s.env.delivered.length ≤ (pass source handler user cnt s).env.delivered.length ∧
      (pass source handler user cnt s).env.delivered.length ≤ s.env.delivered.length + 1 := by
  rcases pass_cases source handler user cnt s with
    ⟨-, h⟩ | ⟨-, -, h⟩ | ⟨-, -, packet, -, h⟩ <;> rw [h] <;> simp [pcapCallback]

variable {source handler user cnt}

theorem pass_of_returned {s : Capture ε υ} (h : s.returned = true) :
    pass source handler user cnt s = s := by
  rw [pass, if_pos h]

theorem passes_length_mono (s : Capture ε υ) {m n : Nat} (h : m ≤ n) :
    (passes source handler user cnt m s).env.delivered.length ≤
      (passes source handler user cnt n s).env.delivered.length := by
  induction h with
  | refl => exact Nat.le_refl _
  | step _ ih => exact Nat.le_trans ih (pass_length_le source handler user cnt _).1

theorem passes_of_returned (s : Capture ε υ) {m n : Nat} (h : m ≤ n)
    (hr : (passes source handler user cnt m s).returned = true) :
    passes source handler user cnt n s = passes source handler user cnt m s := by
  induction h with
  | refl => rfl
  | step _ ih => rw [passes, ih, pass_of_returned hr]

/-- What holds between two passes: the count has not been reached. -/
def Going (cnt : Int) (s : Capture ε υ) : Prop :=
  s.returned = false → ¬ (0 < cnt ∧ cnt ≤ s.env.delivered.length)

theorem going_pass {s : Capture ε υ} (h : Going cnt s) :
    Going cnt (pass source handler user cnt s) := by
  rcases pass_cases source handler user cnt s with
    ⟨-, hs⟩ | ⟨-, -, hs⟩ | ⟨-, -, packet, -, hs⟩
  · rw [hs]
    exact h
  · rw [hs]
    intro hr
    cases hr
  · rw [hs]
    intro hr
    simpa [pcapCallback] using of_decide_eq_false hr

theorem going_passes {s : Capture ε υ} (h : Going cnt s) (n : Nat) :
    Going cnt (passes source handler user cnt n s) := by
  induction n with
  | zero => exact h
  | succ n ih => exact going_pass ih

/-- The pass that makes call number `k`, which is reached from a start without calls. -/
theorem exists_delivery {s : Capture ε υ} (h0 : s.env.delivered = []) {k n : Nat}
    (h : k < (passes source handler user cnt n s).env.delivered.length) :
    ∃ m packet, (passes source handler user cnt m s).returned = false ∧
      (passes source handler user cnt m s).env.delivered.length = k ∧
      (passes source handler user cnt m s).env.breakLoop = false ∧
      passes source handler user cnt (m + 1) s =
        ⟨pcapCallback handler user packet (passes source handler user cnt m s).env,
          decide (0 < cnt ∧ cnt ≤ (k + 1 : Nat))⟩ := by
  induction n with
  | zero =>
    rw [passes, h0] at h
    cases h
  | succ n ih =>
    by_cases hn : k < (passes source handler user cnt n s).env.delivered.length
    · exact ih hn
    rcases pass_cases source handler user cnt
      (passes source handler user cnt n s) with ⟨-, hs⟩ | ⟨-, -, hs⟩ | ⟨hr, hb, packet, -, hs⟩
    · rw [passes, hs] at h
      exact absurd h hn
    · rw [passes, hs] at h
      exact absurd h hn
    · have hlen : (passes source handler user cnt n s).env.delivered.length = k := by
        have hle := (pass_length_le source handler user cnt (passes source handler user cnt n s)).2
        rw [passes] at h
        omega
      refine ⟨n, packet, hr, hlen, hb, ?_⟩
      rw [passes, hs, hlen]

/-- What call number `k` leaves when it throws. -/
theorem exists_after_call {s : Capture ε υ} (h0 : s.env.delivered = []) (hgoing : Going cnt s)
    {k n : Nat} {e : ε} (hthrown : (handler k).thrown = some e)
    (h : k < (passes source handler user cnt n s).env.delivered.length) :
    ∃ m, (passes source handler user cnt m s).env.delivered.length = k + 1 ∧
      (passes source handler user cnt m s).env.pending = some (.handler e) ∧
      (passes source handler user cnt m s).env.breakLoop = (handler k).breaks ∧
      (passes source handler user cnt m s).returned = decide (cnt = (k + 1 : Nat)) := by
  obtain ⟨m, packet, hr, hlen, hb, hpass⟩ := exists_delivery h0 h
  have hcount : ¬ (0 < cnt ∧ cnt ≤ (passes source handler user cnt m s).env.delivered.length) :=
    going_passes hgoing m hr
  rw [hlen] at hcount
  refine ⟨m + 1, ?_, ?_, ?_, ?_⟩
  · rw [hpass]
    simp [pcapCallback, hlen]
  · rw [hpass]
    simp [pcapCallback, hlen, hthrown]
  · rw [hpass]
    simp [pcapCallback, hlen, hb]
  · rw [hpass]
    apply decide_eq_decide.mpr
    omega

end Passes

/-- No call of the handler follows call number `k`, and the entry point returns with `e` pending. -/
def StopsAt (run : Nat → Capture ε υ) (k : Nat) (e : ε) : Prop :=
  (∀ n, (run n).env.delivered.length ≤ k + 1) ∧
    ∃ n, (run n).returned = true ∧ (run n).env.pending = some (.handler e)

theorem stopsAt_of_returned {source : Nat → Option CapturedPacket}
    {handler : Nat → Invocation ε} {user : υ} {cnt : Int} {s : Capture ε υ} {k m : Nat} {e : ε}
    (hr : (passes source handler user cnt m s).returned = true)
    (hlen : (passes source handler user cnt m s).env.delivered.length = k + 1)
    (hpending : (passes source handler user cnt m s).env.pending = some (.handler e)) :
    StopsAt (fun n => passes source handler user cnt n s) k e := by
  refine ⟨?_, m, hr, hpending⟩
  intro n
  rcases Nat.le_total n m with hle | hle
  · exact hlen ▸ passes_length_mono s hle
  · change (passes source handler user cnt n s).env.delivered.length ≤ k + 1
    rw [passes_of_returned s hle hr, hlen]

/-- A call of an entry point, pass by pass. -/
def captureRun (lib : LibCall → JLong) (entry : EntryPoint) (jpcap : Option Pcap) (jcnt : Int)
    (jcallback : Option Unit) (heap : Heap) (source : Nat → Option CapturedPacket)
    (handler : Nat → Invocation ε) (user : υ) (n : Nat) : Capture ε υ :=
  passes source handler user jcnt n (enter lib entry jpcap jcnt jcallback heap)

/-- A call that throws is the last one only if the loop ends there anyway: the count is reached,
the call itself broke the loop, or no packet is left. -/
theorem stopsAt_iff (lib : LibCall → JLong) (entry : EntryPoint) (jpcap : Option Pcap)
    (jcnt : Int) (jcallback : Option Unit) (heap : Heap) (source : Nat → Option CapturedPacket)
    (handler : Nat → Invocation ε) (user : υ) (k : Nat) (e : ε)
    (hthrown : (handler k).thrown = some e)
    (hcalled : ∃ n, k < (captureRun lib entry jpcap jcnt jcallback heap source handler user
      n).env.delivered.length) :
    StopsAt (captureRun lib entry jpcap jcnt jcallback heap source handler user) k e ↔
      jcnt = (k + 1 : Nat) ∨ (handler k).breaks = true ∨ source (k + 1) = none := by
  obtain ⟨n, hn⟩ := hcalled
  have hgoing : Going jcnt (enter lib entry jpcap jcnt jcallback heap : Capture ε υ) := by
    intro _ hcount
    obtain ⟨hpos, hle⟩ := hcount
    change jcnt ≤ (0 : Nat) at hle
    omega
  obtain ⟨m, hlen, hpending, hbreak, hreturned⟩ := exists_after_call rfl hgoing hthrown hn
  rcases pass_cases source handler user jcnt
    (passes source handler user jcnt m (enter lib entry jpcap jcnt jcallback heap)) with
    ⟨hr, -⟩ | ⟨hr, hend, hpass⟩ | ⟨hr, hb, packet, hsource, hpass⟩
  · -- the count is reached
    have hcnt : jcnt = (k + 1 : Nat) := of_decide_eq_true (hreturned.symm.trans hr)
    exact ⟨fun _ => .inl hcnt, fun _ => stopsAt_of_returned hr hlen hpending⟩
  · -- libpcap ends the loop before the next packet
    rw [hbreak, hlen] at hend
    refine ⟨fun _ => .inr hend, fun _ => ?_⟩
    apply stopsAt_of_returned (m := m + 1)
    · rw [passes, hpass]
    · rw [passes, hpass, hlen]
    · rw [passes, hpass, hpending]
  · -- the next packet is delivered
    have hmore : ¬ StopsAt (captureRun lib entry jpcap jcnt jcallback heap source handler user)
        k e := by
      intro hstops
      have hle := hstops.1 (m + 1)
      rw [captureRun, passes, hpass] at hle
      simp [pcapCallback, hlen] at hle
    rw [hreturned] at hr
    rw [hbreak] at hb
    rw [hlen] at hsource
    refine ⟨fun h => absurd h hmore, ?_⟩
    intro hcases
    rcases hcases with hcnt | hbreaks | hnone
    · exact absurd hcnt (of_decide_eq_false hr)
    · rw [hb] at hbreaks
      cases hbreaks
    · rw [hsource] at hnone
      cases hnone

/-- A call on an open handle, of a handler that throws on every packet. -/
def throwingRun (jcnt : Int) : Nat → Capture Unit Unit :=
  captureRun (fun _ => 0) .PcapLoop (some ⟨0⟩) jcnt (some ()) (Heap.empty.new .pcap 1)
    (fun _ => some ⟨[], 0, 0, 0⟩) (fun _ => ⟨some (), false⟩) ()

/-- Without a count the packet after the first exception is delivered too. -/
theorem throwingRun_goes_on : (throwingRun (-1) 1).env.pending = some (.handler ()) ∧
    (throwingRun (-1) 1).env.delivered.length = 1 ∧ ¬ StopsAt (throwingRun (-1)) 0 () := by
  refine ⟨rfl, rfl, ?_⟩
  intro h
  exact absurd (h.1 2) (by decide)

theorem throwingRun_counted : StopsAt (throwingRun 1) 0 () :=
  (stopsAt_iff (fun _ => 0) .PcapLoop (some ⟨0⟩) 1 (some ()) (Heap.empty.new .pcap 1)
    (fun _ => some ⟨[], 0, 0, 0⟩) (fun _ => ⟨some (), false⟩) () 0 () rfl
    ⟨1, by decide⟩).mpr (.inl rfl)

end Native

end Jxnet
