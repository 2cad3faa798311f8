import Jxnet.Savefile.Loop
import Jxnet.Bpf.Validate

namespace Jxnet

open Java

namespace Savefile

open Bpf (UInt UShort Insn)

/-! What a savefile is to who makes the calls: packets, of which each call takes the next ones. -/

/-- A call, with what it brings along: when the callback calls `pcap_breakloop`, and whether
memory is left. -/
inductive Request where
  | loop (cnt : Int) (breaks : List Packet → Packet → Bool)
  | dispatch (cnt : Int) (breaks : List Packet → Packet → Bool)
  | next_ex
  | next
  | breakloop
  | setfilter (fp : Bpf.Program) (malloc : Option String)

/-- What a call returns; `pcap_next_ex` also sets a packet. -/
inductive Reply where
  | code (n : Int)
  | packet (n : Int) (pkt : Option Packet)
  | next (pkt : Option Packet)
  | done

/-- A callback that keeps what it gets, and that may look at all of it. -/
def logging (breaks : List Packet → Packet → Bool) (log : List Packet) (pkt : Packet) :
    List Packet × Bool :=
  (log ++ [pkt], breaks log pkt)

/-- The filter behind a call. -/
def Request.filterAfter (fcode : Option (List Insn)) : Request → Option (List Insn)
  | .setfilter fp malloc =>
    if Bpf.bpf_validate fp then (if malloc.isNone then some fp.bf_insns else none) else fcode
  | _ => fcode

/-- The filters that the calls meet. -/
def filters : Option (List Insn) → List Request → List (Option (List Insn))
  | _, [] => []
  | fcode, request :: requests => fcode :: filters (request.filterAfter fcode) requests

/-- The packets ahead, whether a call was asked to stop, the filter, and the packets that were
handed out. -/
structure Source where
  packets : List Packet
  asked : Bool
  fcode : Option (List Insn)
  log : List Packet

/-- The packets that a call takes, what it returns, and what it leaves. -/
structure Served where
  read : List Packet
  reply : Reply
  source : Source

namespace Source

variable (verdict : Option (List Insn) → Packet → Bool)

/-- The next packet that the filter accepts, with those in front of it; `made` is the reply that
brings it. A request to stop is answered by `none` as the end of the packets is. -/
def serveOne (made : Option Packet → Reply) (s : Source) : Served :=
  if s.asked then ⟨[], made none, { s with asked := false }⟩
  else
    match s.packets.dropWhile (fun pkt => !verdict s.fcode pkt) with
    | [] => ⟨s.packets, made none, { s with packets := [] }⟩
    | pkt :: rest => ⟨s.packets.takeWhile (fun pkt => !verdict s.fcode pkt) ++ [pkt],
        made (some pkt), { s with packets := rest, log := s.log ++ [pkt] }⟩

/-- A call that hands packets to a callback; `code` is what it returns. -/
def serveMany (cnt : Int) (breaks : List Packet → Packet → Bool) (code : Nat → Delivery.Stop → Int)
    (s : Source) : Served :=
  let o := Delivery.deliver (verdict s.fcode) (logging breaks) (remaining cnt 0) s.packets s.asked
    s.log
  let n := code (o.handed (verdict s.fcode)).length o.stop
  ⟨o.read, .code n, ⟨o.rest, o.asked && decide (n ≠ -2), s.fcode, o.user⟩⟩

def serve (s : Source) : Request → Served
  | .loop cnt breaks => s.serveMany verdict cnt breaks fun _ => loopCode .eof
  | .dispatch cnt breaks => s.serveMany verdict cnt breaks fun n => readCode n .eof
  | .next_ex => s.serveOne verdict fun pkt => .packet (if pkt.isSome then 1 else -2) pkt
  | .next => s.serveOne verdict .next
  | .breakloop => ⟨[], .done, { s with asked := true }⟩
  | .setfilter fp malloc => ⟨[], .code (if Bpf.bpf_validate fp ∧ malloc.isNone then 0 else -1),
      { s with fcode := Request.filterAfter s.fcode (.setfilter fp malloc) }⟩

/-- The blocks of packets that the calls take, what they return, and what the last one leaves. -/
def run (s : Source) : List Request → List (List Packet × Reply) × Source
  | [] => ([], s)
  | request :: requests =>
    let served := s.serve verdict request
    let r := served.source.run requests
    ((served.read, served.reply) :: r.1, r.2)

section Takes

variable {verdict} (s : Source)

theorem foldl_logging (breaks : List Packet → Packet → Bool) (log pkts : List Packet) :
    pkts.foldl (fun log pkt => (logging breaks log pkt).1) log = log ++ pkts := by
  induction pkts generalizing log with
  | nil => exact (List.append_nil log).symm
  | cons pkt pkts ih =>
    rw [List.foldl_cons, ih, logging, List.append_assoc]
    rfl

/-- What a call takes, leaves and hands out. -/
structure Takes (verdict : Option (List Insn) → Packet → Bool) (s : Source) (request : Request)
    (served : Served) : Prop where
  packets : served.read ++ served.source.packets = s.packets
  fcode : served.source.fcode = request.filterAfter s.fcode
  log : served.source.log = s.log ++ served.read.filter (verdict s.fcode)

theorem serveOne_takes (request : Request) (made : Option Packet → Reply)
    (hfilter : request.filterAfter s.fcode = s.fcode) :
    Takes verdict s request (s.serveOne verdict made) := by
  have hsplit := List.takeWhile_append_dropWhile (l := s.packets)
    (p := fun pkt => !verdict s.fcode pkt)
  rw [serveOne]
  split
  · exact ⟨rfl, hfilter.symm, (List.append_nil _).symm⟩
  · split
    · next hnone =>
      rw [hnone, List.append_nil] at hsplit
      have hall := Delivery.filter_rejected (verdict s.fcode) s.packets
      rw [hsplit] at hall
      exact ⟨List.append_nil _, hfilter.symm, by rw [hall, List.append_nil]⟩
    · next pkt rest hnext =>
      rw [hnext] at hsplit
      refine ⟨by simpa using hsplit, hfilter.symm, ?_⟩
      rw [Delivery.filter_first hnext]

theorem serveMany_takes (request : Request) (cnt : Int) (breaks : List Packet → Packet → Bool)
    (code : Nat → Delivery.Stop → Int)
    (hfilter : request.filterAfter s.fcode = s.fcode) :
    Takes verdict s request (s.serveMany verdict cnt breaks code) := by
  refine ⟨Delivery.deliver_read_rest .., hfilter.symm, ?_⟩
  have huser := Delivery.deliver_user (verdict s.fcode) (logging breaks) (remaining cnt 0)
    s.packets s.asked s.log
  rw [foldl_logging] at huser
  exact huser

end Takes

variable (s : Source)

/-- Each call takes the next packets, and hands out those of them that the filter accepts. -/
theorem serve_takes (request : Request) : Takes verdict s request (s.serve verdict request) := by
  cases request with
  | loop cnt breaks =>
    rw [serve]
    exact s.serveMany_takes _ cnt breaks _ rfl
  | dispatch cnt breaks =>
    rw [serve]
    exact s.serveMany_takes _ cnt breaks _ rfl
  | next_ex =>
    rw [serve]
    exact s.serveOne_takes _ _ rfl
  | next =>
    rw [serve]
    exact s.serveOne_takes _ _ rfl
  | breakloop => exact ⟨rfl, rfl, (List.append_nil _).symm⟩
  | setfilter fp malloc => exact ⟨rfl, rfl, (List.append_nil _).symm⟩

/-- Over all calls no packet is lost or taken twice, and each is handed out or not as the filter
of its call says. -/
theorem run_takes (requests : List Request) :
    ((s.run verdict requests).1.map Prod.fst).flatten ++ (s.run verdict requests).2.packets =
        s.packets ∧
      (s.run verdict requests).2.log = s.log ++
        (List.zipWith (fun fcode block => block.filter (verdict fcode)) (filters s.fcode requests)
          ((s.run verdict requests).1.map Prod.fst)).flatten := by
  induction requests generalizing s with
  | nil => exact ⟨rfl, (List.append_nil _).symm⟩
  | cons request requests ih =>
    have h := s.serve_takes verdict request
    obtain ⟨hpackets, hlog⟩ := ih (s.serve verdict request).source
    rw [run, filters]
    constructor
    · simp only [List.map_cons, List.flatten_cons, List.append_assoc, hpackets, h.packets]
    · simp only [List.map_cons, List.zipWith_cons_cons, List.flatten_cons, hlog, h.log, h.fcode,
        List.append_assoc]

end Source

end Savefile

end Jxnet
