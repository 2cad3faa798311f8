import Jxnet.Savefile.Dump
import Jxnet.Framework.Delivery
import Jxnet.Framework.LoopRuns

namespace Jxnet

open Java

namespace Savefile

open Bpf (UInt UShort Insn BPF_MEMWORDS)

/-! Handing the packets of a savefile on to a callback. -/

/-- What the run of the program depends on besides the file: the byte order, how many instructions
a filter may take, and what its scratch memory holds at first. -/
structure Machine where
  host : WordOrder
  steps : Nat
  scratch : FILE → Fin BPF_MEMWORDS → UInt

variable {σ : Type} (m : Machine)

/-- `pcap_offline_filter`: no program rejects all. -/
def pcap_offline_filter (mem : Fin BPF_MEMWORDS → UInt) (fp : Option (List Insn)) (pkt : Packet) :
    Except Undefined UInt :=
  match fp with
  | none => .ok 0
  | some fcode =>
    match Bpf.bpf_filter m.steps (some fcode) pkt.data pkt.hdr.len pkt.hdr.caplen mem with
    | none => .error .running
    | some (.error e) => .error (.filter e)
    | some (.ok v) => .ok v

/-- The test of the loop: no program accepts all. -/
def passes (p : Offline) (pkt : Packet) : Except Undefined Bool :=
  match p.fcode with
  | none => .ok true
  | some fcode =>
    match Bpf.bpf_filter m.steps (some fcode) pkt.data pkt.hdr.len pkt.hdr.caplen
        (m.scratch p.rfile) with
    | none => .error .running
    | some (.error e) => .error (.filter e)
    | some (.ok v) => .ok (v ≠ 0)

/-- `pcap_offline_read` under way: `n` counts the packets that were handed on. -/
structure Reading (σ : Type) where
  p : Offline
  n : Nat
  user : σ

/-- What a call returns, the handle, and what the callback has made of its argument. -/
abbrev Returned (σ : Type) := Int × Offline × σ

def pcap_breakloop (p : Offline) : Offline := { p with break_loop := true }

/-- One pass. The callback may call `pcap_breakloop`. -/
def offlinePass (cnt : Int) (callback : σ → Packet → σ × Bool) (s : Reading σ) :
    Except Undefined (Loop.Step (Reading σ) (Returned σ)) :=
  if s.p.break_loop then
    if s.n = 0 then .ok (.done (-2, { s.p with break_loop := false }, s.user))
    else .ok (.done (s.n, s.p, s.user))
  else
    match pcap_next_packet m.host s.p with
    | .error e => .error e
    | .ok (.eof, p) => .ok (.done (0, p, s.user))
    | .ok (.error _, p) => .ok (.done (-1, p, s.user))
    | .ok (.packet pkt, p) =>
      match passes m p pkt with
      | .error e => .error e
      | .ok false => .ok (.next ⟨p, s.n, s.user⟩)
      | .ok true =>
        let (user, breaks) := callback s.user pkt
        let p := if breaks then pcap_breakloop p else p
        -- `n` is an `int`; a positive `cnt`, which is one too, ends the loop before it overflows
        if cnt ≤ 0 ∧ 2 ^ 31 ≤ s.n + 1 then .error .overflow
        else if cnt ≤ s.n + 1 ∧ 0 < cnt then .ok (.done (s.n + 1, p, user))
        else .ok (.next ⟨p, s.n + 1, user⟩)

/-- The outcome of reading one packet with the handle. -/
theorem pcap_next_packet_cases (host : WordOrder) (p : Offline) :
    (∃ pkt fp, nextPacket host p.reader p.rfile = .ok (.packet pkt, fp) ∧
      pcap_next_packet host p = .ok (.packet pkt, { p with rfile := fp }) ∧
      fp.ahead.length < p.rfile.ahead.length ∧
      contents host p.reader p.rfile =
        (pkt :: (contents host p.reader fp).1, (contents host p.reader fp).2)) ∨
    (pcap_next_packet host p = .ok (.eof, p) ∧ contents host p.reader p.rfile = ([], .eof)) ∨
    ∃ errbuf fp, pcap_next_packet host p =
        .ok (.error errbuf, { p with rfile := fp, errbuf := errbuf }) ∧
      contents host p.reader p.rfile = ([], .error errbuf) := by
  unfold pcap_next_packet
  rcases contents_cases host p.reader p.rfile with
    ⟨pkt, fp, hr, hlt, hc⟩ | ⟨hr, -, hc⟩ | ⟨errbuf, fp, hr, hc⟩
  · exact .inl ⟨pkt, fp, hr, by rw [hr], hlt, hc⟩
  · exact .inr (.inl ⟨by rw [hr], hc⟩)
  · exact .inr (.inr ⟨errbuf, fp, by rw [hr], hc⟩)

/-- What a pass that goes on did: it read a packet, which the filter rejected or which was handed
on. -/
theorem next_of_offlinePass {cnt : Int} {callback : σ → Packet → σ × Bool} {s s' : Reading σ}
    (h : offlinePass m cnt callback s = .ok (.next s')) :
    s.p.break_loop = false ∧ ∃ pkt fp,
      pcap_next_packet m.host s.p = .ok (.packet pkt, { s.p with rfile := fp }) ∧
      fp.ahead.length < s.p.rfile.ahead.length ∧
      ((passes m { s.p with rfile := fp } pkt = .ok false ∧
          s' = ⟨{ s.p with rfile := fp }, s.n, s.user⟩) ∨
        (passes m { s.p with rfile := fp } pkt = .ok true ∧ ¬(cnt ≤ s.n + 1 ∧ 0 < cnt) ∧
          s' = ⟨{ s.p with rfile := fp, break_loop := (callback s.user pkt).2 }, s.n + 1,
            (callback s.user pkt).1⟩)) := by
  unfold offlinePass at h
  split at h
  · split at h <;> cases h
  · next hbreak =>
    rw [Bool.not_eq_true] at hbreak
    refine ⟨hbreak, ?_⟩
    rcases pcap_next_packet_cases m.host s.p with
      ⟨pkt, fp, -, hr, hlt, -⟩ | ⟨hr, -⟩ | ⟨errbuf, fp, hr, -⟩
    · refine ⟨pkt, fp, hr, hlt, ?_⟩
      rw [hr] at h
      dsimp only at h
      split at h
      · cases h
      · next hpass =>
        injection h with h
        injection h with h
        exact .inl ⟨hpass, h.symm⟩
      · next hpass =>
        split at h
        · cases h
        · split at h
          · cases h
          · next hcount =>
            injection h with h
            injection h with h
            refine .inr ⟨hpass, hcount, ?_⟩
            rw [← h]
            cases hbreaks : (callback s.user pkt).2
            · simp [hbreak]
            · simp [pcap_breakloop]
    · rw [hr] at h
      cases h
    · rw [hr] at h
      cases h

theorem offlinePass_decreases (cnt : Int) (callback : σ → Packet → σ × Bool) :
    Loop.Decreases (offlinePass m cnt callback) fun s => s.p.rfile.ahead.length := by
  intro s s' h
  obtain ⟨-, pkt, fp, -, hlt, ⟨-, rfl⟩ | ⟨-, -, rfl⟩⟩ := next_of_offlinePass m h
  · exact hlt
  · exact hlt

/-- The loop of `pcap_offline_read`, from a state in the middle of it. -/
def offlineLoop (cnt : Int) (callback : σ → Packet → σ × Bool) :
    Reading σ → Except Undefined (Returned σ) :=
  Loop.exec (offlinePass m cnt callback) (fun s => s.p.rfile.ahead.length)
    (offlinePass_decreases m cnt callback)

def pcap_offline_read (cnt : Int) (callback : σ → Packet → σ × Bool) (p : Offline) (user : σ) :
    Except Undefined (Returned σ) :=
  offlineLoop m cnt callback ⟨p, 0, user⟩

/-- `pcap_dispatch` on a savefile. -/
def pcap_dispatch (cnt : Int) (callback : σ → Packet → σ × Bool) (p : Offline) (user : σ) :
    Except Undefined (Returned σ) :=
  pcap_offline_read m cnt callback p user

/-- `pcap_oneshot`. -/
def pcap_oneshot (_ : Option Packet) (pkt : Packet) : Option Packet × Bool := (some pkt, false)

/-- What `pcap_next_ex` returns, and the packet that it has set. -/
def pcap_next_ex (p : Offline) : Except Undefined (Returned (Option Packet)) :=
  match pcap_offline_read m 1 pcap_oneshot p none with
  | .error e => .error e
  | .ok (status, p, pkt) => .ok (if status = 0 then -2 else status, p, pkt)

def pcap_next (p : Offline) : Except Undefined (Option Packet × Offline) :=
  match pcap_dispatch m 1 pcap_oneshot p none with
  | .error e => .error e
  | .ok (status, p, pkt) => .ok (if status ≤ 0 then none else pkt, p)

/-- `pcap_loop` under way. -/
structure Looping (σ : Type) where
  p : Offline
  cnt : Int
  user : σ

/-- One pass of `pcap_loop`. -/
def loopPass (callback : σ → Packet → σ × Bool) (s : Looping σ) :
    Except Undefined (Loop.Step (Looping σ) (Returned σ)) :=
  match pcap_offline_read m s.cnt callback s.p s.user with
  | .error e => .error e
  | .ok (n, p, user) =>
    if n ≤ 0 then .ok (.done (n, p, user))
    else if s.cnt ≤ 0 then .ok (.next ⟨p, s.cnt, user⟩)
    else if s.cnt - n ≤ 0 then .ok (.done (0, p, user))
    else .ok (.next ⟨p, s.cnt - n, user⟩)

/-- A call that returns a number of packets has read some of the file, and has handed on as many
as it may or was asked to stop. -/
theorem pcap_offline_read_pos {cnt : Int} {callback : σ → Packet → σ × Bool} {p p' : Offline}
    {user user' : σ} {n : Int} (h : pcap_offline_read m cnt callback p user = .ok (n, p', user'))
    (hn : 0 < n) : p'.rfile.ahead.length < p.rfile.ahead.length ∧
      (p'.break_loop = true ∨ 0 < cnt ∧ cnt ≤ n) := by
  have hends : Loop.Ends (offlinePass m cnt callback) ⟨p, 0, user⟩
      (pcap_offline_read m cnt callback p user) :=
    Loop.ends_exec _ _ (offlinePass_decreases m cnt callback) _
  -- a packet that was counted was read
  refine Loop.Ends.of_invariant
    (P := fun s => s.p.rfile.ahead.length ≤ p.rfile.ahead.length ∧
      (0 < s.n → s.p.rfile.ahead.length < p.rfile.ahead.length))
    (Q := fun r => ∀ n p' user', r = .ok (n, p', user') → 0 < n →
      p'.rfile.ahead.length < p.rfile.ahead.length ∧ (p'.break_loop = true ∨ 0 < cnt ∧ cnt ≤ n))
    ?_ ?_ ?_ ⟨Nat.le_refl _, fun h0 => absurd h0 (Nat.lt_irrefl 0)⟩ hends n p' user' h hn
  · rintro s s' ⟨hle, hcounted⟩ hpass
    obtain ⟨-, pkt, fp, -, hlt, ⟨-, rfl⟩ | ⟨-, -, rfl⟩⟩ := next_of_offlinePass m hpass
    · exact ⟨Nat.le_trans (Nat.le_of_lt hlt) hle, fun _ => Nat.lt_of_lt_of_le hlt hle⟩
    · exact ⟨Nat.le_trans (Nat.le_of_lt hlt) hle, fun _ => Nat.lt_of_lt_of_le hlt hle⟩
  · intro s e _ _ n p' user' hr
    cases hr
  · rintro s ⟨n, p', user'⟩ ⟨hle, hcounted⟩ hpass n' p'' user'' hr hpos
    cases hr
    unfold offlinePass at hpass
    split at hpass
    · next hbreak =>
      split at hpass
      · cases hpass
        omega
      · next hzero =>
        cases hpass
        exact ⟨hcounted (Nat.pos_of_ne_zero hzero), .inl hbreak⟩
    · rcases pcap_next_packet_cases m.host s.p with
        ⟨pkt, fp, -, hr, hlt, -⟩ | ⟨hr, -⟩ | ⟨errbuf, fp, hr, -⟩
      · rw [hr] at hpass
        dsimp only at hpass
        split at hpass
        · cases hpass
        · cases hpass
        · split at hpass
          · cases hpass
          · split at hpass
            · next hcount =>
              cases hpass
              refine ⟨?_, .inr ⟨hcount.2, hcount.1⟩⟩
              split
              · exact Nat.lt_of_lt_of_le hlt hle
              · exact Nat.lt_of_lt_of_le hlt hle
            · cases hpass
      · rw [hr] at hpass
        cases hpass
        omega
      · rw [hr] at hpass
        cases hpass
        omega

theorem loopPass_decreases (callback : σ → Packet → σ × Bool) :
    Loop.Decreases (loopPass m callback) fun s => s.p.rfile.ahead.length := by
  intro s s' h
  unfold loopPass at h
  split at h
  · cases h
  · next n p user hr =>
    split at h
    · cases h
    · next hpos =>
      have hlt := (pcap_offline_read_pos m hr (Int.not_le.mp hpos)).1
      split at h
      · cases h
        exact hlt
      · split at h
        · cases h
        · cases h
          exact hlt

def pcap_loop (cnt : Int) (callback : σ → Packet → σ × Bool) (p : Offline) (user : σ) :
    Except Undefined (Returned σ) :=
  Loop.exec (loopPass m callback) (fun s => s.p.rfile.ahead.length)
    (loopPass_decreases m callback) ⟨p, cnt, user⟩

/-- `pcap_offline_read` leaves `break_loop` set when it returns the packets that were handed on
before it saw it; `pcap_loop` calls it once more, and then returns -2. -/
def finishLoop (cnt : Int) : Returned σ → Returned σ
  | (n, p, user) =>
    if n ≤ 0 then (n, p, user)
    else if 0 < cnt ∧ cnt ≤ n then (0, p, user)
    else (-2, { p with break_loop := false }, user)

theorem offlineLoop_broken {cnt : Int} {callback : σ → Packet → σ × Bool} {p : Offline}
    (h : p.break_loop = true) (user : σ) :
    pcap_offline_read m cnt callback p user = .ok (-2, { p with break_loop := false }, user) := by
  rw [pcap_offline_read, offlineLoop, Loop.exec_eq, offlinePass, if_pos h, if_pos rfl]

/-- The two loops of `pcap_loop` come to one. -/
theorem pcap_loop_eq (cnt : Int) (callback : σ → Packet → σ × Bool) (p : Offline) (user : σ) :
    pcap_loop m cnt callback p user =
      (pcap_offline_read m cnt callback p user).map (finishLoop cnt) := by
  rw [pcap_loop, Loop.exec_eq]
  have hagain : ∀ cnt' (p' : Offline) (user' : σ), p'.break_loop = true →
      Loop.exec (loopPass m callback) (fun s => s.p.rfile.ahead.length)
        (loopPass_decreases m callback) ⟨p', cnt', user'⟩ =
        .ok (-2, { p' with break_loop := false }, user') := by
    intro cnt' p' user' hbreak
    rw [Loop.exec_eq, loopPass, offlineLoop_broken m hbreak]
    rfl
  unfold loopPass
  cases hr : pcap_offline_read m cnt callback p user with
  | error e => rfl
  | ok r =>
    obtain ⟨n, p', user'⟩ := r
    simp only [Except.map, finishLoop]
    by_cases hn : n ≤ 0
    · rw [if_pos hn, if_pos hn]
    · have hstop := (pcap_offline_read_pos m hr (Int.not_le.mp hn)).2
      rw [if_neg hn, if_neg hn]
      by_cases hunlimited : cnt ≤ 0
      · have hbreak := hstop.resolve_right fun h => absurd h.1 (Int.not_lt.mpr hunlimited)
        rw [if_pos hunlimited, if_neg fun h => absurd h.1 (Int.not_lt.mpr hunlimited)]
        exact hagain _ _ _ hbreak
      · rw [if_neg hunlimited]
        by_cases hfull : cnt - n ≤ 0
        · rw [if_pos hfull, if_pos (by omega)]
        · have hbreak := hstop.resolve_right fun h => by omega
          rw [if_neg hfull, if_neg (by omega)]
          exact hagain _ _ _ hbreak

/-! What a call hands on: the packets of the file that the filter accepts. -/

/-- What the filter says about a packet, whatever its scratch memory holds at first. -/
def Decides (fcode : Option (List Insn)) (pkt : Packet) (accept : Bool) : Prop :=
  match fcode with
  | none => accept = true
  | some fcode => ∀ mem, ∃ v, pcap_offline_filter m mem (some fcode) pkt = .ok v ∧
      accept = decide (v ≠ 0)

variable {m}

theorem Decides.passes {p : Offline} {pkt : Packet} {accept : Bool}
    (h : Decides m p.fcode pkt accept) (fp : FILE) :
    passes m { p with rfile := fp } pkt = .ok accept := by
  unfold Savefile.passes
  cases hfcode : p.fcode with
  | none =>
    rw [hfcode] at h
    have haccept : accept = true := h
    rw [haccept]
  | some fcode =>
    rw [hfcode] at h
    obtain ⟨v, hv, haccept⟩ := h (m.scratch fp)
    unfold pcap_offline_filter at hv
    dsimp only at hv ⊢
    split at hv
    · cases hv
    · cases hv
    · next v' hrun =>
      cases hv
      rw [haccept]

/-- How many packets may still be handed on. -/
def remaining (cnt : Int) (n : Nat) : Option Nat := if 0 < cnt then some (cnt.toNat - n) else none

theorem remaining_succ (cnt : Int) (n : Nat) :
    (remaining cnt n).map (· - 1) = remaining cnt (n + 1) := by
  unfold remaining
  split
  · exact congrArg some (Nat.sub_sub _ _ _)
  · rfl

theorem remaining_le_one {cnt : Int} {n : Nat} :
    (remaining cnt n).any (· ≤ 1) = true ↔ cnt ≤ n + 1 ∧ 0 < cnt := by
  unfold remaining
  split
  · simp only [Option.any_some, decide_eq_true_eq]
    omega
  · simp only [Option.any_none, Bool.false_eq_true, false_iff]
    omega

/-- What `pcap_offline_read` returns after it handed on `n` packets. -/
def readCode (n : Nat) (ending : Ending) : Delivery.Stop → Int
  | .asked => if n = 0 then -2 else n
  | .full => n
  | .ended => match ending with
    | .eof => 0
    | .error _ => -1

/-- What a call leaves: the file behind what was read, but for what an error makes of it, and the
request to stop, unless the call has reported it. -/
structure Left (host : WordOrder) (p : Offline) (o : Delivery.Outcome σ Packet) (ending : Ending)
    (code : Int) (p' : Offline) : Prop where
  toPcap : p'.toPcap = p.toPcap
  reader : p'.reader = p.reader
  fcode : p'.fcode = p.fcode
  break_loop : p'.break_loop = (o.asked && decide (code ≠ -2))
  contents : o.stop ≠ .ended ∨ ending = .eof →
    contents host p'.reader p'.rfile = (o.rest, ending)
  errbuf : ∀ e, o.stop = .ended → ending = .error e → p'.errbuf = e

variable {accept : Packet → Bool} {cnt : Int} {callback : σ → Packet → σ × Bool}

theorem asked_of_breaks {p : Offline} (h : p.break_loop = false) (fp : FILE) (breaks : Bool) :
    (if breaks then pcap_breakloop { p with rfile := fp } else { p with rfile := fp }) =
      { p with rfile := fp, break_loop := breaks } := by
  cases breaks
  · simp [h]
  · rfl

theorem and_reported {asked : Bool} {code : Int} (h : 0 ≤ code) :
    asked = (asked && decide (code ≠ -2)) := by
  rw [decide_eq_true (by omega), Bool.and_true]

/-- A call that stops because of the flag. -/
theorem left_asked (host : WordOrder) (p : Offline) (n : Nat) (user : σ) :
    Left host p ⟨[], .asked, (contents host p.reader p.rfile).1, true, user⟩
      (contents host p.reader p.rfile).2 (readCode n (contents host p.reader p.rfile).2 .asked)
      { p with break_loop := decide (n ≠ 0) } := by
  refine ⟨rfl, rfl, rfl, ?_, fun _ => rfl, ?_⟩
  · simp only [readCode, Bool.true_and]
    apply decide_eq_decide.mpr
    split
    · simp [*]
    · omega
  · intro e hstop
    cases hstop

/-- A call that stops because it has handed on as many packets as it may. -/
theorem left_full (host : WordOrder) (p : Offline) (fp : FILE) (pkt : Packet) (asked : Bool)
    (user : σ) (ending : Ending) (n : Nat)
    (hrest : (contents host p.reader fp).2 = ending) :
    Left host p ⟨[pkt], .full, (contents host p.reader fp).1, asked, user⟩ ending
      (readCode n ending .full) { p with rfile := fp, break_loop := asked } := by
  refine ⟨rfl, rfl, rfl, and_reported (Int.natCast_nonneg n), fun _ => Prod.ext rfl hrest, ?_⟩
  intro e hstop
  cases hstop

/-- A call that stops because the file cannot be read on. -/
theorem left_error (host : WordOrder) {p : Offline} (hbreak : p.break_loop = false) (fp : FILE)
    (errbuf : String) (user : σ) (n : Nat) :
    Left host p ⟨[], .ended, [], false, user⟩ (.error errbuf) (readCode n (.error errbuf) .ended)
      { p with rfile := fp, errbuf := errbuf } := by
  refine ⟨rfl, rfl, rfl, hbreak, ?_, ?_⟩
  · rintro (hstop | heof)
    · exact absurd rfl hstop
    · cases heof
  · intro e _ he
    cases he
    rfl

/-- From the middle of the loop, as long as the packets can be counted. -/
theorem offlineLoop_delivers (s : Reading σ) (hcnt : 0 < cnt → (s.n : Int) < cnt)
    (hsmall : 0 < cnt ∨
      s.n + ((contents m.host s.p.reader s.p.rfile).1.filter accept).length < 2 ^ 31)
    (hdecides : ∀ pkt ∈ (contents m.host s.p.reader s.p.rfile).1,
      Decides m s.p.fcode pkt (accept pkt))
    {o : Delivery.Outcome σ Packet} (ho : Delivery.deliver accept callback (remaining cnt s.n)
      (contents m.host s.p.reader s.p.rfile).1 s.p.break_loop s.user = o)
    {ending : Ending} (hending : (contents m.host s.p.reader s.p.rfile).2 = ending) :
    ∃ p', offlineLoop m cnt callback s =
        .ok (readCode (s.n + (o.handed accept).length) ending o.stop, p', o.user) ∧
      Left m.host s.p o ending (readCode (s.n + (o.handed accept).length) ending o.stop) p' := by
  induction hlen : s.p.rfile.ahead.length using Nat.strong_induction_on generalizing s o with
  | _ len ih =>
    subst hlen
    rw [offlineLoop, Loop.exec_eq]
    unfold offlinePass
    cases hbreak : s.p.break_loop with
    | true =>
      rw [hbreak, Delivery.deliver_asked] at ho
      subst ho hending
      refine ⟨{ s.p with break_loop := decide (s.n ≠ 0) }, ?_, left_asked m.host s.p s.n s.user⟩
      by_cases hn : s.n = 0
      · simp [hn, Delivery.Outcome.handed, readCode]
      · rw [if_pos rfl, if_neg hn]
        simp [hn, Delivery.Outcome.handed, readCode, ← hbreak]
    | false =>
      rw [hbreak] at ho
      rw [if_neg Bool.false_ne_true]
      rcases pcap_next_packet_cases m.host s.p with
        ⟨pkt, fp, hnext, hr, hlt, hc⟩ | ⟨hr, hc⟩ | ⟨errbuf, fp, hr, hc⟩
      · rw [hr]
        rw [hc] at ho hending hdecides hsmall
        have hpass := (hdecides pkt List.mem_cons_self).passes fp
        have hrest := fun pkt' hpkt => hdecides pkt' (List.mem_cons_of_mem pkt hpkt)
        rw [Delivery.deliver] at ho
        simp only [hpass]
        cases haccept : accept pkt with
        | false =>
          rw [haccept, if_neg Bool.false_ne_true] at ho
          subst ho
          have hhanded : ∀ read : List Packet, (pkt :: read).filter accept = read.filter accept :=
            fun read => List.filter_cons_of_neg (by rw [haccept]; exact Bool.false_ne_true)
          rw [hhanded] at hsmall
          obtain ⟨p', hloop, hleft⟩ := ih _ hlt ⟨{ s.p with rfile := fp }, s.n, s.user⟩ hcnt
            hsmall hrest (by rw [hbreak]) hending rfl
          simp only [Delivery.Outcome.handed, hhanded]
          exact ⟨p', hloop, { hleft with }⟩
        | true =>
          rw [haccept, if_pos rfl] at ho
          have hhanded : ∀ (n : Nat) (read : List Packet),
              n + ((pkt :: read).filter accept).length = n + 1 + (read.filter accept).length := by
            intro n read
            rw [List.filter_cons_of_pos haccept, List.length_cons]
            omega
          rw [hhanded] at hsmall
          have hcounts : ¬ (cnt ≤ 0 ∧ 2 ^ 31 ≤ s.n + 1) := by
            rintro ⟨hunlimited, hmany⟩
            rcases hsmall with hpos | hsmall
            · omega
            · omega
          by_cases hfull : cnt ≤ s.n + 1 ∧ 0 < cnt
          · rw [if_pos (remaining_le_one.mpr hfull)] at ho
            subst ho
            refine ⟨{ s.p with rfile := fp, break_loop := (callback s.user pkt).2 }, ?_,
              left_full m.host s.p fp pkt _ _ ending _ hending⟩
            simp only [if_neg hcounts, if_pos hfull, Delivery.Outcome.handed, hhanded,
              List.filter_nil, List.length_nil, readCode, asked_of_breaks hbreak]
            rfl
          · rw [if_neg fun h => hfull (remaining_le_one.mp h), remaining_succ] at ho
            subst ho
            obtain ⟨p', hloop, hleft⟩ := ih _ hlt
              ⟨{ s.p with rfile := fp, break_loop := (callback s.user pkt).2 }, s.n + 1,
                (callback s.user pkt).1⟩
              (fun _ => by dsimp only; omega) hsmall hrest rfl hending rfl
            simp only [if_neg hcounts, if_neg hfull, Delivery.Outcome.handed, hhanded,
              asked_of_breaks hbreak]
            exact ⟨p', hloop, { hleft with }⟩
      · rw [hr]
        rw [hc] at ho hending
        rw [Delivery.deliver] at ho
        subst ho hending
        exact ⟨s.p, rfl, rfl, rfl, rfl, hbreak, fun _ => hc, fun e _ he => by cases he⟩
      · rw [hr]
        rw [hc] at ho hending
        rw [Delivery.deliver] at ho
        subst ho hending
        exact ⟨_, rfl, left_error m.host hbreak fp errbuf s.user _⟩

/-- What `pcap_loop` returns. -/
def loopCode (ending : Ending) : Delivery.Stop → Int
  | .asked => -2
  | .full => 0
  | .ended => match ending with
    | .eof => 0
    | .error _ => -1

/-- When the count ends a call. -/
theorem handed_count {items : List Packet} {asked : Bool} {user : σ} {o : Delivery.Outcome σ Packet}
    (ho : Delivery.deliver accept callback (remaining cnt 0) items asked user = o) :
    (o.stop = .full ↔ 0 < cnt ∧ cnt ≤ (o.handed accept).length) ∧
      (0 < cnt → ((o.handed accept).length : Int) ≤ cnt) := by
  subst ho
  by_cases hcnt : 0 < cnt
  · have hlimit : remaining cnt 0 = some (cnt.toNat - 1 + 1) := by
      rw [remaining, if_pos hcnt]
      exact congrArg some (by omega)
    rw [hlimit]
    have hlimited := Delivery.deliver_limited accept callback (cnt.toNat - 1) items asked user
    split at hlimited
    · next hstop =>
      simp only [hstop, true_iff]
      omega
    · next hstop =>
      simp only [hstop, false_iff]
      omega
  · rw [remaining, if_neg hcnt]
    refine ⟨⟨fun h => absurd h (Delivery.deliver_unlimited items asked user), fun h => ?_⟩,
      fun h => absurd h hcnt⟩
    exact absurd h.1 hcnt

theorem pcap_loop_outcome (cnt : Int) (callback : σ → Packet → σ × Bool) (p : Offline) (user : σ)
    (hsmall : 0 < cnt ∨ ((contents m.host p.reader p.rfile).1.filter accept).length < 2 ^ 31)
    (hdecides : ∀ pkt ∈ (contents m.host p.reader p.rfile).1, Decides m p.fcode pkt (accept pkt))
    {o : Delivery.Outcome σ Packet} (ho : Delivery.deliver accept callback (remaining cnt 0)
      (contents m.host p.reader p.rfile).1 p.break_loop user = o)
    {ending : Ending} (hending : (contents m.host p.reader p.rfile).2 = ending) :
    ∃ p', pcap_loop m cnt callback p user = .ok (loopCode ending o.stop, p', o.user) ∧
      Left m.host p o ending (loopCode ending o.stop) p' := by
  have hfull := (handed_count ho).1
  obtain ⟨p', hloop, hleft⟩ := offlineLoop_delivers ⟨p, 0, user⟩ id (by simpa using hsmall)
    hdecides ho hending
  rw [pcap_loop_eq, pcap_offline_read, hloop, Except.map]
  simp only [Nat.zero_add] at hleft ⊢
  cases hstop : o.stop with
  | asked =>
    rw [hstop] at hfull hleft
    by_cases hnone : (o.handed accept).length = 0
    · have hcode : readCode (o.handed accept).length ending .asked = -2 := by
        simp [readCode, hnone]
      rw [hcode] at hleft ⊢
      exact ⟨p', rfl, hleft⟩
    · have hcode : readCode (o.handed accept).length ending .asked = (o.handed accept).length := by
        simp [readCode, hnone]
      rw [hcode, finishLoop, if_neg (by omega), if_neg fun h => by cases hfull.mpr h]
      refine ⟨{ p' with break_loop := false }, rfl, { hleft with break_loop := ?_ }⟩
      exact (Bool.and_false _).symm
  | full =>
    rw [hstop] at hfull hleft
    have hcount := hfull.mp rfl
    refine ⟨p', ?_, { hleft with break_loop := ?_ }⟩
    · rw [readCode, finishLoop, if_neg (by omega), if_pos hcount]
      rfl
    · have hasked : (o.asked && decide (readCode (o.handed accept).length ending .full ≠ -2)) =
          o.asked := (and_reported (Int.natCast_nonneg _)).symm
      rw [hleft.break_loop, hasked]
      exact and_reported (Int.le_refl 0)
  | ended =>
    rw [hstop] at hleft
    cases ending with
    | eof => exact ⟨p', rfl, hleft⟩
    | error e => exact ⟨p', rfl, hleft⟩

/-- What a loop hands on of the packets that the filter accepts, and what it returns. -/
structure HandsOn (callback : σ → Packet → σ × Bool) (cnt : Int) (p : Offline) (user : σ)
    (accepted : List Packet) (ending : Ending) (handed : List Packet) (code : Int) (p' : Offline) :
    Prop where
  front : handed <+: accepted
  count : 0 < cnt → (handed.length : Int) ≤ cnt
  quiet : ∀ front, front <+: handed → front ≠ handed → ¬ Delivery.Asks callback user front
  already : p.break_loop = true → handed = [] ∧ code = -2 ∧ p'.break_loop = false
  full : p.break_loop = false → 0 < cnt → (handed.length : Int) = cnt →
    code = 0 ∧ (p'.break_loop = true ↔ Delivery.Asks callback user handed)
  asked : p.break_loop = false → ¬ (0 < cnt ∧ (handed.length : Int) = cnt) →
    Delivery.Asks callback user handed → code = -2 ∧ p'.break_loop = false
  all : p.break_loop = false → ¬ (0 < cnt ∧ (handed.length : Int) = cnt) →
    ¬ Delivery.Asks callback user handed → handed = accepted ∧ p'.break_loop = false ∧
      (code = 0 ∧ ending = .eof ∨ code = -1 ∧ ending = .error p'.errbuf)

/-- What a loop over a savefile does: the callback gets the packets that the filter accepts, from
the first on, each once, until it has got as many as it may or asks to stop, and the loop returns
what that comes to. -/
theorem pcap_loop_hands_on (m : Machine) (cnt : Int) (callback : σ → Packet → σ × Bool)
    (accept : Packet → Bool) (p : Offline) (user : σ)
    (hsmall : 0 < cnt ∨ ((contents m.host p.reader p.rfile).1.filter accept).length < 2 ^ 31)
    (hdecides : ∀ pkt ∈ (contents m.host p.reader p.rfile).1,
      Decides m p.fcode pkt (accept pkt)) :
    ∃ code p' handed, pcap_loop m cnt callback p user =
        .ok (code, p', handed.foldl (fun u pkt => (callback u pkt).1) user) ∧
      HandsOn callback cnt p user ((contents m.host p.reader p.rfile).1.filter accept)
        (contents m.host p.reader p.rfile).2 handed code p' := by
  obtain ⟨o, ho⟩ : ∃ o, Delivery.deliver accept callback (remaining cnt 0)
    (contents m.host p.reader p.rfile).1 p.break_loop user = o := ⟨_, rfl⟩
  obtain ⟨p', hloop, hleft⟩ := pcap_loop_outcome cnt callback p user hsmall hdecides ho rfl
  have hread := Delivery.deliver_read_rest accept callback (remaining cnt 0)
    (contents m.host p.reader p.rfile).1 p.break_loop user
  have huser := Delivery.deliver_user accept callback (remaining cnt 0)
    (contents m.host p.reader p.rfile).1 p.break_loop user
  rw [ho] at hread huser
  obtain ⟨hfull, hle⟩ := handed_count ho
  have hbreak := hleft.break_loop
  have hasks : p.break_loop = false →
      (o.asked = true ↔ Delivery.Asks callback user (o.handed accept)) := by
    intro hfresh
    have h := Delivery.deliver_asked_iff accept callback (remaining cnt 0)
      (contents m.host p.reader p.rfile).1 user
    rwa [← hfresh, ho] at h
  -- why the loop stops, where the count is not what ends it
  have hstops : ¬ (0 < cnt ∧ ((o.handed accept).length : Int) = cnt) →
      o.stop = .asked ∧ o.asked = true ∨ o.stop = .ended ∧ o.rest = [] ∧ o.asked = false := by
    intro hnot
    cases hstop : o.stop with
    | asked =>
      subst ho
      exact .inl ⟨rfl, Delivery.deliver_stop_asked hstop⟩
    | full =>
      obtain ⟨hpos, hge⟩ := hfull.mp hstop
      exact absurd ⟨hpos, Int.le_antisymm (hle hpos) hge⟩ hnot
    | ended =>
      subst ho
      exact .inr ⟨rfl, Delivery.deliver_ended hstop⟩
  refine ⟨_, p', o.handed accept, by rw [hloop, huser], ?_⟩
  constructor
  case front =>
    rw [← hread, List.filter_append]
    exact List.prefix_append _ _
  case count => exact hle
  case quiet =>
    intro front hfront hne
    rw [← ho] at hfront hne
    exact Delivery.deliver_quiet _ _ _ _ hfront hne
  case already =>
    intro hflag
    rw [hflag, Delivery.deliver_asked] at ho
    subst ho
    exact ⟨rfl, rfl, by rw [hbreak]; rfl⟩
  case full =>
    intro hfresh hpos hlength
    have hstop := hfull.mpr ⟨hpos, Int.le_of_eq hlength.symm⟩
    rw [hstop] at hbreak ⊢
    refine ⟨rfl, ?_⟩
    rw [hbreak, ← hasks hfresh]
    simp [loopCode]
  case asked =>
    intro hfresh hnot hlast
    rcases hstops hnot with ⟨hstop, -⟩ | ⟨-, -, hnone⟩
    · rw [hstop] at hbreak ⊢
      exact ⟨rfl, by rw [hbreak]; exact Bool.and_false _⟩
    · rw [← hasks hfresh, hnone] at hlast
      cases hlast
  case all =>
    intro hfresh hnot hlast
    rcases hstops hnot with ⟨-, hasked⟩ | ⟨hstop, hrest, hnone⟩
    · exact absurd ((hasks hfresh).mp hasked) hlast
    · refine ⟨?_, by rw [hbreak, hnone]; rfl, ?_⟩
      · rw [← hread, hrest, List.append_nil]
        rfl
      · rw [hstop]
        cases hending : (contents m.host p.reader p.rfile).2 with
        | eof => exact .inl ⟨rfl, rfl⟩
        | error e => exact .inr ⟨rfl, by rw [hleft.errbuf e hstop hending]⟩

/-- The handle of a file of Ethernet frames. -/
def frames (pkts : List Packet) : Offline where
  toPcap := ethernet
  rfile := ⟨pkts.flatMap (pcap_dump .little), none⟩
  swapped := false
  version_major := 2
  version_minor := 4
  priv := ⟨16, .NOT_SWAPPED, .PASS_THROUGH, hdrsize_sf_pkthdr⟩
  bufsize := 96
  break_loop := false
  fcode := none
  errbuf := ""
  bufsize_pos := by decide
  bufsize_lt := by decide

def machine : Machine := ⟨.little, 9, fun _ _ => 0⟩

/-- Two frames, and no filter. -/
def twoFrames : Offline := frames [frame, laterFrame]

theorem twoFrames_contents :
    contents machine.host twoFrames.reader twoFrames.rfile = ([frame, laterFrame], .eof) := by
  have hfirst : nextPacket machine.host twoFrames.reader twoFrames.rfile =
      .ok (.packet frame, ⟨pcap_dump .little laterFrame ++ [], none⟩) := rfl
  have hsecond : nextPacket machine.host twoFrames.reader
      ⟨pcap_dump .little laterFrame ++ [], none⟩ = .ok (.packet laterFrame, ⟨[], none⟩) := rfl
  rw [contents_packet hfirst, contents_packet hsecond, contents_eof rfl]

/-- A callback that keeps the packet and asks to stop at once, in a loop without a limit. -/
theorem pcap_loop_hands_on_first : ∃ p',
    pcap_loop machine (-1) (fun log pkt => (log ++ [pkt], true)) twoFrames [] =
      .ok (-2, p', [frame]) ∧ p'.break_loop = false := by
  obtain ⟨code, p', handed, hloop, h⟩ := pcap_loop_hands_on machine (-1)
    (fun log pkt => (log ++ [pkt], true)) (fun _ => true) twoFrames []
    (.inr (by rw [twoFrames_contents]; decide)) fun _ _ => rfl
  rw [twoFrames_contents] at h
  have hasks : Delivery.Asks (fun (log : List Packet) pkt => (log ++ [pkt], true)) [] [frame] :=
    ⟨[], frame, rfl, rfl⟩
  have hhanded : handed = [frame] := by
    rcases List.prefix_cons_iff.mp h.front with hnil | ⟨rest, rfl, -⟩
    · have hnone := Delivery.not_asks_nil (fun (log : List Packet) pkt => (log ++ [pkt], true)) []
      rw [← hnil] at hnone
      have hall := (h.all rfl (by simp) hnone).1
      rw [hnil] at hall
      cases hall
    · by_contra hne
      exact h.quiet [frame] (List.prefix_append [frame] rest) (Ne.symm hne) hasks
  subst hhanded
  obtain ⟨rfl, hflag⟩ := h.asked rfl (by simp) hasks
  exact ⟨p', hloop, hflag⟩

end Savefile

end Jxnet
