import Jxnet.Savefile.Session
import Jxnet.Savefile.RoundTrip
import Jxnet.Bpf.Expression

namespace Jxnet

open Java

namespace Savefile

open Bpf (UInt UShort Insn FilterExpr)

/-! From the text of a filter to the packets of a file. -/

/-- The packet as a filter sees it. -/
def Packet.input (pkt : Packet) : Bpf.Input := ⟨pkt.data, pkt.hdr.len, pkt.hdr.caplen, none⟩

theorem Packet.input_holds (pkt : Packet) : pkt.input.Holds := Nat.le_of_eq pkt.captured.symm

/-- What an expression says about a packet: one that is too short for it does not match. -/
def matchesExpr (v : Bpf.Input → Bpf.Read Bool) (pkt : Packet) : Bool :=
  match v pkt.input with
  | .ok b => b
  | .error (.ok r) => r ≠ 0
  | .error (.error _) => false

/-- A program that comes to what an expression says decides every packet for which the expression
has a value. -/
theorem decides_of_filtered {m : Machine} {program : List Insn} {snaplen : UInt}
    {v : Bpf.Input → Bpf.Read Bool} (hsnaplen : snaplen ≠ 0) (hsteps : program.length ≤ m.steps)
    (hruns : ∀ input : Bpf.Input, input.Holds → ∀ mem,
      Bpf.bpf_filter_with_aux_data program.length (some program) input mem =
        some (Bpf.Blocks.outcome (Bpf.filtered snaplen (v input))))
    {pkt : Packet} (hvalue : ∀ e, v pkt.input ≠ .error (.error e)) :
    Decides m (some program) pkt (matchesExpr v pkt) := by
  intro mem
  have hrun := hruns pkt.input pkt.input_holds mem
  have hmore : Bpf.bpf_filter m.steps (some program) pkt.data pkt.hdr.len pkt.hdr.caplen mem =
      some (Bpf.Blocks.outcome (Bpf.filtered snaplen (v pkt.input))) :=
    Loop.run_mono _ hsteps _ _ hrun
  unfold pcap_offline_filter matchesExpr
  dsimp only
  rw [hmore]
  rcases hv : v pkt.input with (e | r) | (_ | _)
  · exact absurd hv (hvalue e)
  · exact ⟨r, rfl, rfl⟩
  · exact ⟨0, rfl, rfl⟩
  · exact ⟨snaplen, rfl, (decide_eq_true hsnaplen).symm⟩

/-- A callback that never asks to stop gets everything that is accepted. -/
theorem deliver_all {σ : Type} (accept : Packet → Bool) (pkts : List Packet)
    (callback : σ → Packet → σ) (user : σ) :
    (Delivery.deliver accept (fun u pkt => (callback u pkt, false)) none pkts false user).stop =
        .ended ∧
      (Delivery.deliver accept (fun u pkt => (callback u pkt, false)) none pkts false user).user =
        (pkts.filter accept).foldl callback user := by
  have hended : (Delivery.deliver accept (fun u pkt => (callback u pkt, false)) none pkts false
      user).stop = .ended := by
    cases hstop : (Delivery.deliver accept (fun u pkt => (callback u pkt, false)) none pkts false
      user).stop with
    | ended => rfl
    | full => exact absurd hstop (Delivery.deliver_unlimited pkts false user)
    | asked =>
      obtain ⟨before, pkt, -, hasked⟩ :=
        (Delivery.deliver_asked_iff accept _ none pkts user).mp (Delivery.deliver_stop_asked hstop)
      cases hasked
  refine ⟨hended, ?_⟩
  have hread := Delivery.deliver_read_rest accept (fun u pkt => (callback u pkt, false)) none pkts
    false user
  rw [(Delivery.deliver_ended hended).1, List.append_nil] at hread
  rw [Delivery.deliver_user, Delivery.Outcome.handed, hread]

end Savefile

end Jxnet
