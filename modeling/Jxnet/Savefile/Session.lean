import Jxnet.Savefile.Source

namespace Jxnet

open Java

namespace Savefile

open Bpf (UInt UShort Insn)

/-! Several calls on one handle, one after the other. -/

variable {σ : Type} {m : Machine} {callback : σ → Packet → σ × Bool}

/-- What the first pass of a loop does, whatever the count; a packet that is handed on is counted,
which a positive count keeps in range. -/
theorem offlineLoop_step (callback : σ → Packet → σ × Bool) (p : Offline) (user : σ) :
    (∀ cnt n, offlineLoop m cnt callback ⟨p, n, user⟩ =
      .ok (if n = 0 then (-2, { p with break_loop := false }, user) else ((n : Int), p, user))) ∨
    (∀ cnt n, offlineLoop m cnt callback ⟨p, n, user⟩ = .ok (0, p, user)) ∨
    (∃ p', ∀ cnt n, offlineLoop m cnt callback ⟨p, n, user⟩ = .ok (-1, p', user)) ∨
    (∃ e, ∀ cnt n, offlineLoop m cnt callback ⟨p, n, user⟩ = .error e) ∨
    (∃ p', p'.rfile.ahead.length < p.rfile.ahead.length ∧
      ∀ cnt n, offlineLoop m cnt callback ⟨p, n, user⟩ =
        offlineLoop m cnt callback ⟨p', n, user⟩) ∨
    ∃ p' user', p'.rfile.ahead.length < p.rfile.ahead.length ∧
      ∀ cnt n, 0 < cnt → offlineLoop m cnt callback ⟨p, n, user⟩ =
        if cnt ≤ n + 1 then .ok ((n : Int) + 1, p', user')
        else offlineLoop m cnt callback ⟨p', n + 1, user'⟩ := by
  simp only [offlineLoop]
  cases hbreak : p.break_loop with
  | true =>
    refine .inl fun cnt n => ?_
    rw [Loop.exec_eq, offlinePass, if_pos hbreak]
    by_cases hn : n = 0
    · rw [if_pos hn, if_pos hn]
    · rw [if_neg hn, if_neg hn]
  | false =>
    right
    have hfalse : ¬ p.break_loop = true := by rw [hbreak]; exact Bool.false_ne_true
    rcases pcap_next_packet_cases m.host p with
      ⟨pkt, fp, -, hr, hlt, -⟩ | ⟨hr, -⟩ | ⟨errbuf, fp, hr, -⟩
    · right
      right
      cases hpass : passes m { p with rfile := fp } pkt with
      | error e =>
        refine .inl ⟨e, fun cnt n => ?_⟩
        rw [Loop.exec_eq, offlinePass, if_neg hfalse]
        simp only [hr, hpass]
      | ok accept =>
        right
        cases accept with
        | false =>
          refine .inl ⟨{ p with rfile := fp }, hlt, fun cnt n => ?_⟩
          rw [Loop.exec_eq, offlinePass, if_neg hfalse]
          simp only [hr, hpass]
        | true =>
          refine .inr ⟨{ p with rfile := fp, break_loop := (callback user pkt).2 },
            (callback user pkt).1, hlt, fun cnt n hcnt => ?_⟩
          have hcounts : ¬ (cnt ≤ 0 ∧ 2 ^ 31 ≤ n + 1) := fun h => absurd hcnt (Int.not_lt.mpr h.1)
          rw [Loop.exec_eq, offlinePass, if_neg hfalse]
          simp only [hr, hpass, asked_of_breaks hbreak, if_neg hcounts]
          by_cases hfull : cnt ≤ (n : Int) + 1
          · rw [if_pos hfull, if_pos ⟨hfull, hcnt⟩]
          · rw [if_neg hfull, if_neg fun h => hfull h.1]
    · refine .inl fun cnt n => ?_
      rw [Loop.exec_eq, offlinePass, if_neg hfalse]
      simp only [hr]
    · refine .inr (.inl ⟨{ p with rfile := fp, errbuf := errbuf }, fun cnt n => ?_⟩)
      rw [Loop.exec_eq, offlinePass, if_neg hfalse]
      simp only [hr]

theorem finishLoop_asked {cnt n : Nat} (hpos : 0 < n) (hlt : n < cnt) (p : Offline) (user : σ) :
    finishLoop cnt ((n : Int), p, user) = (-2, { p with break_loop := false }, user) := by
  rw [finishLoop, if_neg (by omega), if_neg (by omega)]

theorem finishLoop_full (cnt : Nat) (hpos : 0 < cnt) (p : Offline) (user : σ) :
    finishLoop cnt ((cnt : Int), p, user) = (0, p, user) := by
  rw [finishLoop, if_neg (by omega), if_pos (by omega)]

/-- The packets that a loop has already counted make it stop earlier, and nothing else. -/
theorem offlineLoop_shift (m : Machine) (callback : σ → Packet → σ × Bool) {a b : Nat}
    (ha : 0 < a) {k : Nat} (hk : k < b) (p : Offline) (user : σ) :
    (offlineLoop m (a + b : Nat) callback ⟨p, a + k, user⟩).map (finishLoop (a + b : Nat)) =
      (offlineLoop m b callback ⟨p, k, user⟩).map (finishLoop b) := by
  induction hlen : p.rfile.ahead.length using Nat.strong_induction_on
    generalizing p user k with
  | _ len ih =>
    subst hlen
    rcases offlineLoop_step (m := m) callback p user with
      h | h | ⟨p', h⟩ | ⟨e, h⟩ | ⟨p', hlt, h⟩ | ⟨p', user', hlt, h⟩
    · rw [h, h, if_neg (by omega), Except.map, finishLoop_asked (by omega) (by omega)]
      by_cases hzero : k = 0
      · rw [if_pos hzero]
        rfl
      · rw [if_neg hzero, Except.map, finishLoop_asked (by omega) hk]
    · rw [h, h]
      rfl
    · rw [h, h]
      rfl
    · rw [h, h]
      rfl
    · rw [h, h]
      exact ih _ hlt hk p' user rfl
    · rw [h _ _ (by omega), h _ _ (by omega)]
      by_cases hfull : k + 1 = b
      · subst hfull
        rw [if_pos (by omega), if_pos (by omega)]
        have hleft := finishLoop_full (a + (k + 1)) (by omega) p' user'
        have hright := finishLoop_full (k + 1) (by omega) p' user'
        push_cast at hleft hright ⊢
        rw [Except.map, Except.map, hright, add_assoc, hleft]
      · rw [if_neg (by omega), if_neg (by omega)]
        exact ih _ hlt (k := k + 1) (by omega) p' user' rfl

/-- Up to the packet that fills the first of two loops. -/
theorem offlineLoop_split {a b : Nat} (hb : 0 < b) {k : Nat} (hk : k < a) (p : Offline)
    (user : σ) :
    (offlineLoop m (a + b : Nat) callback ⟨p, k, user⟩).map (finishLoop (a + b : Nat)) =
      ((offlineLoop m a callback ⟨p, k, user⟩).map (finishLoop a)).bind fun r =>
        if r.1 = 0 then pcap_loop m b callback r.2.1 r.2.2 else .ok r := by
  induction hlen : p.rfile.ahead.length using Nat.strong_induction_on
    generalizing p user k with
  | _ len ih =>
    subst hlen
    rcases offlineLoop_step (m := m) callback p user with
      h | h | ⟨p', h⟩ | ⟨e, h⟩ | ⟨p', hlt, h⟩ | ⟨p', user', hlt, h⟩
    · rw [h, h]
      by_cases hzero : k = 0
      · rw [if_pos hzero]
        rfl
      · rw [if_neg hzero, Except.map, Except.map, finishLoop_asked (by omega) (by omega),
          finishLoop_asked (by omega) hk]
        rfl
    · rw [h, h]
      have hagain : pcap_loop m b callback p user = .ok (0, p, user) := by
        rw [pcap_loop_eq, pcap_offline_read, h]
        rfl
      exact hagain.symm
    · rw [h, h]
      rfl
    · rw [h, h]
      rfl
    · rw [h, h]
      exact ih _ hlt hk p' user rfl
    · rw [h _ _ (by omega), h _ _ (by omega)]
      by_cases hfull : k + 1 = a
      · subst hfull
        rw [if_neg (by omega), if_pos (by omega)]
        have hleft := finishLoop_full (k + 1) (by omega) p' user'
        push_cast at hleft ⊢
        have hshift := offlineLoop_shift m callback (a := k + 1) (by omega) hb p' user'
        push_cast at hshift
        rw [← pcap_offline_read, ← pcap_loop_eq] at hshift
        rw [hshift]
        simp only [Except.map, Except.bind, hleft, if_true]
      · rw [if_neg (by omega), if_neg (by omega)]
        exact ih _ hlt (by omega) p' user' rfl

/-- A loop over `a + b` packets is a loop over `a` and then, unless that ends with an error or is
broken off, a loop over `b` more: whatever the file and the filter are, and whatever the callback
does. -/
theorem pcap_loop_split (m : Machine) (callback : σ → Packet → σ × Bool) (a b : Nat) (ha : 0 < a)
    (hb : 0 < b) (p : Offline) (user : σ) :
    pcap_loop m (a + b : Nat) callback p user =
      (pcap_loop m a callback p user).bind fun r =>
        if r.1 = 0 then pcap_loop m b callback r.2.1 r.2.2 else .ok r := by
  rw [pcap_loop_eq, pcap_loop_eq, pcap_offline_read, pcap_offline_read]
  exact offlineLoop_split hb ha p user

/-- Two loops over one packet each. -/
theorem pcap_loop_split_frames : pcap_loop machine (1 + 1 : Nat) pcap_oneshot twoFrames none =
    (pcap_loop machine (1 : Nat) pcap_oneshot twoFrames none).bind fun r =>
      if r.1 = 0 then pcap_loop machine (1 : Nat) pcap_oneshot r.2.1 r.2.2 else .ok r :=
  pcap_loop_split machine pcap_oneshot 1 1 (by decide) (by decide) twoFrames none

/-! Sessions: calls of every kind, in any order. -/

/-- `install_bpf_program`: a program that does not pass the checks changes nothing. -/
def install_bpf_program (fp : Bpf.Program) (malloc : Option String) (p : Offline) :
    Int × Offline :=
  if !Bpf.bpf_validate fp then (-1, { p with errbuf := "BPF program is not valid" })
  else
    match malloc with
    | some e => (-1, { p with fcode := none, errbuf := "malloc: " ++ e })
    | none => (0, { p with fcode := some fp.bf_insns })

/-- `pcap_setfilter` on a savefile. -/
def pcap_setfilter (fp : Bpf.Program) (malloc : Option String) (p : Offline) : Int × Offline :=
  install_bpf_program fp malloc p

/-- The handle, and the packets that it has handed out. -/
structure Session where
  p : Offline
  log : List Packet

def serve (m : Machine) (s : Session) : Request → Except Undefined (Reply × Session)
  | .loop cnt breaks =>
    (pcap_loop m cnt (logging breaks) s.p s.log).map fun r => (.code r.1, ⟨r.2.1, r.2.2⟩)
  | .dispatch cnt breaks =>
    (pcap_dispatch m cnt (logging breaks) s.p s.log).map fun r => (.code r.1, ⟨r.2.1, r.2.2⟩)
  | .next_ex =>
    (pcap_next_ex m s.p).map fun r => (.packet r.1 r.2.2, ⟨r.2.1, s.log ++ r.2.2.toList⟩)
  | .next => (pcap_next m s.p).map fun r => (.next r.1, ⟨r.2, s.log ++ r.1.toList⟩)
  | .breakloop => .ok (.done, { s with p := pcap_breakloop s.p })
  | .setfilter fp malloc =>
    .ok (.code (pcap_setfilter fp malloc s.p).1, { s with p := (pcap_setfilter fp malloc s.p).2 })

/-- Calls one after the other, with all that they return. -/
def serveAll (m : Machine) (s : Session) :
    List Request → Except Undefined (List Reply × Session)
  | [] => .ok ([], s)
  | request :: requests => do
    let (reply, s) ← serve m s request
    let (replies, s) ← serveAll m s requests
    return (reply :: replies, s)

/-- What a session has ahead of it on a file that reads to its end. -/
structure Session.Shows (m : Machine) (s : Session) (source : Source) : Prop where
  contents : contents m.host s.p.reader s.p.rfile = (source.packets, .eof)
  asked : s.p.break_loop = source.asked
  fcode : s.p.fcode = source.fcode
  log : s.log = source.log

section Serve

variable {verdict : Option (List Insn) → Packet → Bool} {s : Session} {source : Source}

/-- A call for one packet, from the handle of a session. -/
theorem pcap_offline_read_one (h : s.Shows m source)
    (hdecides : ∀ pkt ∈ source.packets, Decides m source.fcode pkt (verdict source.fcode pkt))
    (made : Option Packet → Reply) :
    ∃ code p' pkt, pcap_offline_read m 1 pcap_oneshot s.p none = .ok (code, p', pkt) ∧
      Session.Shows m ⟨p', s.log ++ pkt.toList⟩ (source.serveOne verdict made).source ∧
      (source.serveOne verdict made).reply = made pkt ∧
      (pkt.isSome = true ∧ code = 1 ∨ pkt = none ∧ (code = 0 ∨ code = -2)) := by
  have hcontents := h.contents
  have hlog : s.log ++ [] = source.log := by rw [List.append_nil, h.log]
  obtain ⟨o, ho⟩ : ∃ o, Delivery.deliver (verdict source.fcode) pcap_oneshot (remaining 1 0)
    (contents m.host s.p.reader s.p.rfile).1 s.p.break_loop none = o := ⟨_, rfl⟩
  obtain ⟨p', hloop, hleft⟩ := offlineLoop_delivers ⟨s.p, 0, none⟩ id (.inl Int.one_pos)
    (by rw [hcontents, h.fcode]; exact hdecides) ho (congrArg Prod.snd hcontents)
  have hfcode := hleft.fcode.trans h.fcode
  rw [hcontents, h.asked] at ho
  rw [Source.serveOne]
  cases hasked : source.asked with
  | true =>
    rw [hasked, Delivery.deliver_asked] at ho
    subst ho
    rw [if_pos rfl]
    exact ⟨-2, p', none, hloop, ⟨hleft.contents (.inr rfl), hleft.break_loop, hfcode, hlog⟩, rfl,
      .inr ⟨rfl, .inr rfl⟩⟩
  | false =>
    have hone : remaining 1 0 = some 1 := rfl
    rw [hasked, hone, Delivery.deliver_one] at ho
    rw [if_neg Bool.false_ne_true]
    cases hnext : source.packets.dropWhile fun pkt => !verdict source.fcode pkt with
    | nil =>
      simp only [hnext] at ho
      subst ho
      exact ⟨0, p', none, hloop, ⟨hleft.contents (.inr rfl), hleft.break_loop, hfcode, hlog⟩, rfl,
        .inr ⟨rfl, .inl rfl⟩⟩
    | cons pkt rest =>
      simp only [hnext] at ho
      have hcode : readCode (0 + (o.handed (verdict source.fcode)).length) .eof o.stop = 1 := by
        rw [← ho, Delivery.Outcome.handed, Delivery.filter_first hnext]
        rfl
      rw [hcode] at hloop hleft
      subst ho
      refine ⟨1, p', some pkt, hloop, ⟨hleft.contents (.inr rfl), ?_, hfcode, ?_⟩, rfl,
        .inl ⟨rfl, rfl⟩⟩
      · rw [hleft.break_loop]
        rfl
      · rw [← h.log]
        rfl

/-- Only the filter changes. -/
theorem pcap_setfilter_shows (h : s.Shows m source) (fp : Bpf.Program) (malloc : Option String) :
    (pcap_setfilter fp malloc s.p).1 = (if Bpf.bpf_validate fp ∧ malloc.isNone then 0 else -1) ∧
      Session.Shows m { s with p := (pcap_setfilter fp malloc s.p).2 }
        { source with fcode := Request.filterAfter source.fcode (.setfilter fp malloc) } := by
  have hcontents := h.contents
  have hfcode := h.fcode
  unfold pcap_setfilter install_bpf_program
  rw [Request.filterAfter]
  cases Bpf.bpf_validate fp with
  | false => exact ⟨rfl, hcontents, h.asked, hfcode, h.log⟩
  | true =>
    cases malloc with
    | some e => exact ⟨rfl, hcontents, h.asked, rfl, h.log⟩
    | none => exact ⟨rfl, hcontents, h.asked, rfl, h.log⟩

/-- One call. -/
theorem serve_shows (h : s.Shows m source) (request : Request)
    (hsmall : source.packets.length < 2 ^ 31)
    (hdecides : ∀ pkt ∈ source.packets, Decides m source.fcode pkt (verdict source.fcode pkt)) :
    ∃ s', serve m s request = .ok ((source.serve verdict request).reply, s') ∧
      s'.Shows m (source.serve verdict request).source := by
  have hcontents := h.contents
  have haccepted : (source.packets.filter (verdict source.fcode)).length < 2 ^ 31 :=
    Nat.lt_of_le_of_lt (List.length_filter_le _ _) hsmall
  cases request with
  | loop cnt breaks =>
    obtain ⟨o, ho⟩ : ∃ o, Delivery.deliver (verdict source.fcode) (logging breaks) (remaining cnt 0)
      (contents m.host s.p.reader s.p.rfile).1 s.p.break_loop s.log = o := ⟨_, rfl⟩
    obtain ⟨p', hloop, hleft⟩ := pcap_loop_outcome cnt (logging breaks) s.p s.log
      (.inr (by rw [hcontents]; exact haccepted))
      (by rw [hcontents, h.fcode]; exact hdecides) ho (congrArg Prod.snd hcontents)
    rw [hcontents, h.asked, h.log] at ho
    rw [Source.serve, Source.serveMany, ho]
    refine ⟨⟨p', o.user⟩, ?_, hleft.contents (.inr rfl), hleft.break_loop,
      hleft.fcode.trans h.fcode, rfl⟩
    rw [serve, hloop]
    rfl
  | dispatch cnt breaks =>
    obtain ⟨o, ho⟩ : ∃ o, Delivery.deliver (verdict source.fcode) (logging breaks) (remaining cnt 0)
      (contents m.host s.p.reader s.p.rfile).1 s.p.break_loop s.log = o := ⟨_, rfl⟩
    obtain ⟨p', hloop, hleft⟩ := offlineLoop_delivers ⟨s.p, 0, s.log⟩ id
      (.inr (by rw [hcontents, Nat.zero_add]; exact haccepted))
      (by rw [hcontents, h.fcode]; exact hdecides) ho (congrArg Prod.snd hcontents)
    rw [hcontents, h.asked, h.log] at ho
    rw [Nat.zero_add] at hloop hleft
    rw [Source.serve, Source.serveMany, ho]
    refine ⟨⟨p', o.user⟩, ?_, hleft.contents (.inr rfl), hleft.break_loop,
      hleft.fcode.trans h.fcode, rfl⟩
    rw [serve, pcap_dispatch, pcap_offline_read, hloop]
    rfl
  | next_ex =>
    rw [Source.serve]
    obtain ⟨code, p', pkt, hread, hshows, hreply, hcode⟩ := pcap_offline_read_one h hdecides
      fun pkt => .packet (if pkt.isSome then 1 else -2) pkt
    refine ⟨_, ?_, hshows⟩
    rw [serve, pcap_next_ex, hread, hreply]
    rcases hcode with ⟨hsome, rfl⟩ | ⟨rfl, rfl | rfl⟩
    · simp [Except.map, hsome]
    · rfl
    · rfl
  | next =>
    rw [Source.serve]
    obtain ⟨code, p', pkt, hread, hshows, hreply, hcode⟩ := pcap_offline_read_one h hdecides .next
    refine ⟨_, ?_, hshows⟩
    rw [serve, pcap_next, pcap_dispatch, hread, hreply]
    rcases hcode with ⟨hsome, rfl⟩ | ⟨rfl, rfl | rfl⟩
    · rfl
    · rfl
    · rfl
  | breakloop => exact ⟨_, rfl, hcontents, rfl, h.fcode, h.log⟩
  | setfilter fp malloc =>
    obtain ⟨hcode, hshows⟩ := pcap_setfilter_shows h fp malloc
    refine ⟨_, ?_, hshows⟩
    rw [serve, hcode]
    rfl

/-- All calls. -/
theorem serveAll_shows (requests : List Request) (h : s.Shows m source)
    (hsmall : source.packets.length < 2 ^ 31)
    (hdecides : ∀ fcode ∈ filters source.fcode requests, ∀ pkt ∈ source.packets,
      Decides m fcode pkt (verdict fcode pkt)) :
    ∃ s', serveAll m s requests = .ok ((source.run verdict requests).1.map Prod.snd, s') ∧
      s'.Shows m (source.run verdict requests).2 := by
  induction requests generalizing s source with
  | nil => exact ⟨s, rfl, h⟩
  | cons request requests ih =>
    obtain ⟨s1, hserve, hshows⟩ := serve_shows h request hsmall (hdecides _ List.mem_cons_self)
    have htakes := source.serve_takes verdict request
    have hlength := congrArg List.length htakes.packets
    rw [List.length_append] at hlength
    obtain ⟨s', hrun, hshows'⟩ := ih hshows (by omega) (by
      intro fcode hfcode pkt hpkt
      rw [htakes.fcode] at hfcode
      refine hdecides fcode (List.mem_cons_of_mem _ hfcode) pkt ?_
      rw [← htakes.packets]
      exact List.mem_append_right _ hpkt)
    refine ⟨s', ?_, hshows'⟩
    rw [serveAll, hserve]
    change (serveAll m s1 requests >>= fun r => pure ((_ :: r.1, r.2) : List Reply × Session)) = _
    rw [hrun]
    rfl

/-- Whatever calls are made on a savefile that reads to its end, in whatever order: they return
what the calls on its packets return, and leave what those leave. Each takes the next packets, so
that none is lost or taken twice, and hands out those of them that the filter then installed
accepts. -/
theorem session_exact (m : Machine) (verdict : Option (List Insn) → Packet → Bool)
    (requests : List Request) (p : Offline)
    (heof : (contents m.host p.reader p.rfile).2 = .eof)
    (hsmall : (contents m.host p.reader p.rfile).1.length < 2 ^ 31)
    (hdecides : ∀ fcode ∈ filters p.fcode requests, ∀ pkt ∈ (contents m.host p.reader p.rfile).1,
      Decides m fcode pkt (verdict fcode pkt)) :
    ∃ s answers source,
      Source.run verdict ⟨(contents m.host p.reader p.rfile).1, p.break_loop, p.fcode, []⟩
        requests = (answers, source) ∧
      serveAll m ⟨p, []⟩ requests = .ok (answers.map Prod.snd, s) ∧ s.Shows m source ∧
      (answers.map Prod.fst).flatten ++ source.packets = (contents m.host p.reader p.rfile).1 ∧
      s.log = (List.zipWith (fun fcode block => block.filter (verdict fcode))
        (filters p.fcode requests) (answers.map Prod.fst)).flatten := by
  have hstart : Session.Shows m ⟨p, []⟩
      ⟨(contents m.host p.reader p.rfile).1, p.break_loop, p.fcode, []⟩ :=
    ⟨Prod.ext rfl heof, rfl, rfl, rfl⟩
  obtain ⟨s, hrun, hshows⟩ := serveAll_shows requests hstart hsmall hdecides
  obtain ⟨hpackets, hlog⟩ := Source.run_takes verdict
    ⟨(contents m.host p.reader p.rfile).1, p.break_loop, p.fcode, []⟩ requests
  exact ⟨s, _, _, rfl, hrun, hshows, hpackets, hshows.log.trans hlog⟩

/-- `len > 80`, as instructions. -/
def longOnly : Bpf.Program :=
  ⟨[⟨Bpf.Op.LD_LEN.code, 0, 0, 0⟩, ⟨(Bpf.Op.JMP .JGT .K).code, 0, 1, 80⟩,
    ⟨Bpf.Op.RET_K.code, 0, 0, 96⟩, ⟨Bpf.Op.RET_K.code, 0, 0, 0⟩], by decide⟩

/-- What the packets say to `longOnly`, and to no filter. -/
def longVerdict (fcode : Option (List Insn)) (pkt : Packet) : Bool :=
  fcode.isNone || decide (80 < pkt.hdr.len)

theorem longOnly_decides {pkt : Packet} (h : pkt ∈ [frame, laterFrame]) :
    Decides machine (some longOnly.bf_insns) pkt
      (longVerdict (some longOnly.bf_insns) pkt) := by
  intro mem
  rcases List.mem_cons.mp h with rfl | h
  · exact ⟨0, rfl, rfl⟩
  · obtain rfl := List.mem_singleton.mp h
    exact ⟨96, rfl, rfl⟩

/-- The loop is stopped before it reads; the next call skips the frame that the filter rejects. -/
def longCalls : List Request :=
  [.setfilter longOnly none, .breakloop, .loop (-1) fun _ _ => false, .next_ex,
    .dispatch (-1) fun _ _ => false]

theorem session_exact_long : ∃ s, serveAll machine ⟨twoFrames, []⟩ longCalls =
      .ok ([.code 0, .done, .code (-2), .packet 1 (some laterFrame), .code 0], s) ∧
    s.log = [laterFrame] ∧ contents machine.host s.p.reader s.p.rfile = ([], .eof) := by
  have hcontents := twoFrames_contents
  have hfilters : ∀ fcode ∈ filters twoFrames.fcode longCalls,
      fcode = none ∨ fcode = some longOnly.bf_insns := by decide
  obtain ⟨s, answers, source, hrun, hserve, hshows, -⟩ := session_exact machine longVerdict
    longCalls twoFrames (by rw [hcontents]) (by rw [hcontents]; decide) (by
      rw [hcontents]
      intro fcode hfcode pkt hpkt
      rcases hfilters fcode hfcode with rfl | rfl
      · rfl
      · exact longOnly_decides hpkt)
  rw [hcontents] at hrun
  cases hrun
  exact ⟨s, hserve, hshows.log, hshows.contents⟩

end Serve

section Safe

/-- What may still happen to a program that passed the checks. -/
def Tolerated : Undefined → Prop
  | .running => True
  | .overflow => True
  | .filter (.fault .abort) => True
  | .filter (.fault .shiftCount) => True
  | _ => False

/-- The filter of a handle is one that passed the checks. -/
def Checked (fcode : Option (List Insn)) : Prop := ∀ insns, fcode = some insns → Bpf.Valid insns

/-- A result that is not undefined but for what is tolerated, with a handle whose filter passed
the checks. -/
def SafeCall {α : Type} (p : α → Offline) (r : Except Undefined α) : Prop :=
  match r with
  | .error e => Tolerated e
  | .ok a => Checked (p a).fcode

theorem SafeCall.map {α β : Type} {p : α → Offline} {q : β → Offline} {r : Except Undefined α}
    {f : α → β} (h : SafeCall p r) (hf : ∀ a, (q (f a)).fcode = (p a).fcode) :
    SafeCall q (r.map f) := by
  cases r with
  | error e => exact h
  | ok a =>
    have hchecked : Checked (p a).fcode := h
    rw [← hf a] at hchecked
    exact hchecked

theorem tolerated_of_passes {p : Offline} (h : Checked p.fcode) {pkt : Packet} {e : Undefined}
    (he : passes m p pkt = .error e) : Tolerated e := by
  unfold passes at he
  split at he
  · cases he
  · next fcode hfcode =>
    split at he
    · cases he
      trivial
    · next stop hrun =>
      cases he
      have hholds : Bpf.Input.Holds ⟨pkt.data, pkt.hdr.len, pkt.hdr.caplen, none⟩ :=
        Nat.le_of_eq pkt.captured.symm
      rcases (h fcode hfcode).ends_cases hholds ⟨m.steps, hrun⟩ with
        ⟨v, hv⟩ | ⟨hstop, -⟩ | ⟨hstop, -⟩
      · cases hv
      · cases hstop
        trivial
      · cases hstop
        trivial
    · cases he

/-- A loop keeps the filter, and does nothing that is undefined but for what the checks tolerate. -/
theorem offlineLoop_safe (m : Machine) (cnt : Int) (callback : σ → Packet → σ × Bool)
    (s : Reading σ) (h : Checked s.p.fcode) :
    SafeCall (fun r : Returned σ => r.2.1) (offlineLoop m cnt callback s) := by
  have hends : Loop.Ends (offlinePass m cnt callback) s (offlineLoop m cnt callback s) :=
    Loop.ends_exec _ _ (offlinePass_decreases m cnt callback) s
  refine Loop.Ends.of_invariant (P := fun s' => Checked s'.p.fcode)
    (Q := SafeCall fun r : Returned σ => r.2.1) ?_ ?_ ?_ h hends
  · rintro s1 s2 hfcode hpass
    obtain ⟨-, pkt, fp, -, -, ⟨-, rfl⟩ | ⟨-, -, rfl⟩⟩ := next_of_offlinePass m hpass
    · exact hfcode
    · exact hfcode
  · rintro s1 e hfcode hpass
    unfold offlinePass at hpass
    split at hpass
    · split at hpass <;> cases hpass
    · rcases pcap_next_packet_cases m.host s1.p with
        ⟨pkt, fp, -, hr, -⟩ | ⟨hr, -⟩ | ⟨errbuf, fp, hr, -⟩
      · rw [hr] at hpass
        dsimp only at hpass
        split at hpass
        · next e' he =>
          cases hpass
          exact tolerated_of_passes (p := { s1.p with rfile := fp }) hfcode he
        · cases hpass
        · split at hpass
          · cases hpass
            trivial
          · split at hpass <;> cases hpass
      · rw [hr] at hpass
        cases hpass
      · rw [hr] at hpass
        cases hpass
  · rintro s1 r hfcode hpass
    unfold offlinePass at hpass
    split at hpass
    · split at hpass
      · cases hpass
        exact hfcode
      · cases hpass
        exact hfcode
    · rcases pcap_next_packet_cases m.host s1.p with
        ⟨pkt, fp, -, hr, -⟩ | ⟨hr, -⟩ | ⟨errbuf, fp, hr, -⟩
      · rw [hr] at hpass
        dsimp only at hpass
        split at hpass
        · cases hpass
        · cases hpass
        · split at hpass
          · cases hpass
          · split at hpass
            · cases hpass
              cases (callback s1.user pkt).2 <;> exact hfcode
            · cases hpass
      · rw [hr] at hpass
        cases hpass
        exact hfcode
      · rw [hr] at hpass
        cases hpass
        exact hfcode

/-- The same of every call. -/
theorem serve_safe (m : Machine) (s : Session) (request : Request) (h : Checked s.p.fcode) :
    SafeCall (fun r => r.2.p) (serve m s request) := by
  cases request with
  | loop cnt breaks =>
    rw [serve, pcap_loop_eq]
    refine ((offlineLoop_safe m cnt (logging breaks) ⟨s.p, 0, s.log⟩ h).map ?_).map fun _ => rfl
    rintro ⟨n, p', log⟩
    rw [finishLoop]
    split
    · rfl
    · split <;> rfl
  | dispatch cnt breaks =>
    exact (offlineLoop_safe m cnt (logging breaks) ⟨s.p, 0, s.log⟩ h).map fun _ => rfl
  | next_ex =>
    have hmap : pcap_next_ex m s.p = (pcap_offline_read m 1 pcap_oneshot s.p none).map
        fun r => (if r.1 = 0 then -2 else r.1, r.2.1, r.2.2) := by
      unfold pcap_next_ex
      cases pcap_offline_read m 1 pcap_oneshot s.p none <;> rfl
    rw [serve, hmap]
    exact ((offlineLoop_safe m 1 pcap_oneshot ⟨s.p, 0, none⟩ h).map
      (q := fun r => r.2.1) fun _ => rfl).map fun _ => rfl
  | next =>
    have hmap : pcap_next m s.p = (pcap_offline_read m 1 pcap_oneshot s.p none).map
        fun r => (if r.1 ≤ 0 then none else r.2.2, r.2.1) := by
      unfold pcap_next pcap_dispatch
      cases pcap_offline_read m 1 pcap_oneshot s.p none <;> rfl
    rw [serve, hmap]
    exact ((offlineLoop_safe m 1 pcap_oneshot ⟨s.p, 0, none⟩ h).map
      (q := Prod.snd) fun _ => rfl).map fun _ => rfl
  | breakloop => exact h
  | setfilter fp malloc =>
    change Checked (pcap_setfilter fp malloc s.p).2.fcode
    unfold pcap_setfilter install_bpf_program
    cases hvalid : Bpf.bpf_validate fp with
    | false => exact h
    | true =>
      cases malloc with
      | some e =>
        intro insns hinsns
        cases hinsns
      | none =>
        intro insns hinsns
        cases hinsns
        exact (Bpf.bpf_validate_iff fp).mp hvalid

theorem serveAll_safe (m : Machine) (requests : List Request) (s : Session)
    (h : Checked s.p.fcode) : SafeCall (fun r => r.2.p) (serveAll m s requests) := by
  induction requests generalizing s with
  | nil => exact h
  | cons request requests ih =>
    have hsafe := serve_safe m s request h
    rw [serveAll]
    cases hr : serve m s request with
    | error e =>
      rw [hr] at hsafe
      exact hsafe
    | ok r =>
      rw [hr] at hsafe
      have hrest := ih r.2 hsafe
      change SafeCall _ (serveAll m r.2 requests >>= fun r' =>
        pure ((r.1 :: r'.1, r'.2) : List Reply × Session))
      cases hrs : serveAll m r.2 requests with
      | error e =>
        rw [hrs] at hrest
        exact hrest
      | ok r' =>
        rw [hrs] at hrest
        exact hrest

/-- A program with a code of `BPF_MISC` that is no case of the switch: the checks let it pass. -/
def badMisc : Bpf.Program := ⟨[⟨Bpf.BPF_MISC ||| 8, 0, 0, 0⟩, ⟨Bpf.BPF_RET, 0, 0, 0⟩], by decide⟩

end Safe

end Savefile

end Jxnet
