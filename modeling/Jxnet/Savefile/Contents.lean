import Jxnet.Savefile.Read

namespace Jxnet

open Java

namespace Savefile

open Bpf (UInt UShort Insn)

/-! The packets of a savefile, and how reading ends. -/

inductive Ending where
  | eof
  | error (errbuf : String)
  deriving DecidableEq, Repr

variable {host : WordOrder} {p : Reader}

theorem nextPacket_packet_iff {fp fp' : FILE} {pkt : Packet} :
    nextPacket host p fp = .ok (.packet pkt, fp') ↔
      p.priv.hdrsize ≤ fp.ahead.length ∧ ∃ data,
        recordData p.bufsize (recordHeader p (SfPkthdr.load host (fread p.priv.hdrsize fp).1))
          (fread p.priv.hdrsize fp).2 = (.ok (pkt.hdr, data), fp') ∧
        swapData host p pkt.hdr data = .ok pkt.data := by
  have hlong : (fread p.priv.hdrsize fp).1.length ≠ p.priv.hdrsize ↔
      ¬ p.priv.hdrsize ≤ fp.ahead.length := by
    rw [fread, List.length_take]
    omega
  constructor
  · intro h
    unfold nextPacket at h
    dsimp only at h
    split at h
    · split at h <;> cases h
    · next hshort =>
      rw [hlong, not_not] at hshort
      refine ⟨hshort, ?_⟩
      split at h
      · cases h
      · next hdr data fp'' hr =>
        split at h
        · cases h
        · next data' hs =>
          injection h with h
          injection h with hpkt hfp
          injection hpkt with hpkt
          rw [← hpkt, ← hfp]
          exact ⟨data, hr, hs⟩
  · rintro ⟨hlength, data, hr, hs⟩
    unfold nextPacket
    dsimp only
    rw [if_neg (by rw [hlong, not_not]; exact hlength)]
    split
    · next errbuf fp'' hr' =>
      rw [hr] at hr'
      cases hr'
    · next hdr data' fp'' hr' =>
      rw [hr] at hr'
      injection hr' with hok hfp
      injection hok with hok
      injection hok with hhdr hdata
      subst hhdr hdata hfp
      split
      · next e hs' =>
        rw [hs] at hs'
        cases hs'
      · next data'' hs' =>
        rw [hs] at hs'
        injection hs' with hdata
        congr
        exact hdata.symm

theorem nextPacket_packet_lt {fp fp' : FILE} {pkt : Packet}
    (h : nextPacket host p fp = .ok (.packet pkt, fp')) :
    fp'.ahead.length + p.priv.hdrsize ≤ fp.ahead.length ∧
      (pkt.hdr.caplen.toNat : Int) ≤ p.bufsize := by
  obtain ⟨r, fp'', hr, hcase⟩ := nextPacket_cases host p fp
  rw [h] at hr
  injection hr with hr
  injection hr with hpkt hfp
  subst hpkt hfp
  exact hcase

variable (host p)

/-- What is read until the first read that is no packet. -/
def contents (fp : FILE) : List Packet × Ending :=
  match _h : nextPacket host p fp with
  | .ok (.packet pkt, fp') => (pkt :: (contents fp').1, (contents fp').2)
  | .ok (.error errbuf, _) => ([], .error errbuf)
  | _ => ([], .eof)
termination_by fp.ahead.length
decreasing_by
  all_goals
    have hlt := (nextPacket_packet_lt _h).1
    rcases p.priv.hdrsize_cases with hsize | hsize <;> omega

variable {host p}

theorem contents_packet {fp fp' : FILE} {pkt : Packet}
    (h : nextPacket host p fp = .ok (.packet pkt, fp')) :
    contents host p fp = (pkt :: (contents host p fp').1, (contents host p fp').2) := by
  rw [contents]
  split
  · next pkt' fp'' h' =>
    rw [h] at h'
    injection h' with h'
    injection h' with hpkt hfp
    injection hpkt with hpkt
    rw [hpkt, hfp]
  · next errbuf fp'' h' =>
    rw [h] at h'
    cases h'
  · next hno _ => exact absurd h (hno pkt fp')

theorem contents_error {fp fp' : FILE} {errbuf : String}
    (h : nextPacket host p fp = .ok (.error errbuf, fp')) :
    contents host p fp = ([], .error errbuf) := by
  rw [contents]
  split
  · next pkt' fp'' h' =>
    rw [h] at h'
    cases h'
  · next errbuf' fp'' h' =>
    rw [h] at h'
    injection h' with h'
    injection h' with herr _
    injection herr with herr
    rw [herr]
  · next hno => exact absurd h (hno errbuf fp')

theorem contents_eof {fp fp' : FILE} (h : nextPacket host p fp = .ok (.eof, fp')) :
    contents host p fp = ([], .eof) := by
  rw [contents]
  split
  · next pkt' fp'' h' =>
    rw [h] at h'
    cases h'
  · next errbuf' fp'' h' =>
    rw [h] at h'
    cases h'
  · rfl

/-- The first read of a file decides what it contains. -/
theorem contents_cases (host : WordOrder) (p : Reader) (fp : FILE) :
    (∃ pkt fp', nextPacket host p fp = .ok (.packet pkt, fp') ∧
      fp'.ahead.length < fp.ahead.length ∧
      contents host p fp = (pkt :: (contents host p fp').1, (contents host p fp').2)) ∨
    (nextPacket host p fp = .ok (.eof, fp) ∧ fp = ⟨[], none⟩ ∧ contents host p fp = ([], .eof)) ∨
    ∃ errbuf fp', nextPacket host p fp = .ok (.error errbuf, fp') ∧
      contents host p fp = ([], .error errbuf) := by
  obtain ⟨r, fp', hr, hcase⟩ := nextPacket_cases host p fp
  cases r with
  | packet pkt =>
    refine .inl ⟨pkt, fp', hr, ?_, contents_packet hr⟩
    rcases p.priv.hdrsize_cases with h | h <;> omega
  | eof =>
    obtain ⟨hfile, rfl⟩ := hcase
    exact .inr (.inl ⟨hr, hfile, contents_eof hr⟩)
  | error errbuf => exact .inr (.inr ⟨errbuf, fp', hr, contents_error hr⟩)

/-! What is read depends on the bytes that are taken only. -/

theorem fread_append {n : Nat} {a : Bytes} (b : Bytes) (e e' : Option String) (h : n ≤ a.length) :
    fread n ⟨a ++ b, e'⟩ = ((fread n ⟨a, e⟩).1, ⟨(fread n ⟨a, e⟩).2.ahead ++ b, e'⟩) := by
  rw [fread, fread, List.take_append_of_le_length h, List.drop_append_of_le_length h]

theorem recordData_append {bufsize : Int} {hdr hdr' : Pkthdr} {a data : Bytes}
    {e e' : Option String} {fp : FILE} (b : Bytes)
    (h : recordData bufsize hdr ⟨a, e⟩ = (.ok (hdr', data), fp)) :
    recordData bufsize hdr ⟨a ++ b, e'⟩ = (.ok (hdr', data), ⟨fp.ahead ++ b, e'⟩) := by
  have hread : (fread hdr.caplen.toNat ⟨a, e⟩).1.length = hdr.caplen.toNat →
      fread hdr.caplen.toNat ⟨a ++ b, e'⟩ = ((fread hdr.caplen.toNat ⟨a, e⟩).1,
        ⟨(fread hdr.caplen.toNat ⟨a, e⟩).2.ahead ++ b, e'⟩) := by
    intro hlength
    refine fread_append b e e' ?_
    rw [fread, List.length_take] at hlength
    exact min_eq_left_iff.mp hlength
  unfold recordData at h ⊢
  split at h
  · next hbig =>
    rw [if_pos hbig]
    split at h
    · cases h
    · next hsalvage =>
      rw [if_neg hsalvage]
      dsimp only at h ⊢
      split at h
      · cases h
      · next hlength =>
        rw [not_not] at hlength
        injection h with hok hfp
        rw [hread hlength, if_neg (by rw [not_not]; exact hlength), hok, ← hfp]
  · next hsmall =>
    rw [if_neg hsmall]
    dsimp only at h ⊢
    split at h
    · cases h
    · next hlength =>
      rw [not_not] at hlength
      injection h with hok hfp
      rw [hread hlength, if_neg (by rw [not_not]; exact hlength), hok, ← hfp]

theorem nextPacket_append {a : Bytes} {e : Option String} {fp : FILE} {pkt : Packet} (b : Bytes)
    (e' : Option String) (h : nextPacket host p ⟨a, e⟩ = .ok (.packet pkt, fp)) :
    nextPacket host p ⟨a ++ b, e'⟩ = .ok (.packet pkt, ⟨fp.ahead ++ b, e'⟩) := by
  obtain ⟨hlength, data, hr, hs⟩ := nextPacket_packet_iff.mp h
  refine nextPacket_packet_iff.mpr ⟨?_, data, ?_, hs⟩
  · rw [List.length_append]
    exact Nat.le_add_right_of_le hlength
  · rw [fread_append b e e' hlength]
    exact recordData_append b hr

/-- Packets that follow a file that reads to its end are read after it. -/
theorem contents_append {a : Bytes} (b : Bytes) (e : Option String)
    (h : (contents host p ⟨a, none⟩).2 = .eof) :
    contents host p ⟨a ++ b, e⟩ =
      ((contents host p ⟨a, none⟩).1 ++ (contents host p ⟨b, e⟩).1,
        (contents host p ⟨b, e⟩).2) := by
  induction hn : a.length using Nat.strong_induction_on generalizing a with
  | _ n ih =>
    subst hn
    rcases contents_cases host p ⟨a, none⟩ with
      ⟨pkt, fp, hr, hlt, hc⟩ | ⟨-, hfile, hc⟩ | ⟨errbuf, fp, -, hc⟩
    · rw [hc] at h
      have herror : fp = ⟨fp.ahead, none⟩ := by
        have happ := nextPacket_append [] none hr
        rw [List.append_nil, hr] at happ
        injection happ with happ
        injection happ with _ hfp
        rw [List.append_nil] at hfp
        exact hfp
      rw [herror] at h hc
      rw [contents_packet (nextPacket_append b e hr), ih _ hlt h rfl, hc]
      rfl
    · injection hfile with hnil _
      rw [hc, hnil]
      rfl
    · rw [hc] at h
      cases h

/-- A file that is cut short yields a first part of its packets and nothing else. -/
theorem contents_prefix (a b : Bytes) (e e' : Option String) :
    (contents host p ⟨a, e⟩).1 <+: (contents host p ⟨a ++ b, e'⟩).1 := by
  induction hn : a.length using Nat.strong_induction_on generalizing a e with
  | _ n ih =>
    subst hn
    rcases contents_cases host p ⟨a, e⟩ with
      ⟨pkt, fp, hr, hlt, hc⟩ | ⟨-, -, hc⟩ | ⟨errbuf, fp, -, hc⟩
    · rw [contents_packet (nextPacket_append b e' hr), hc]
      exact List.cons_prefix_cons.mpr ⟨rfl, ih _ hlt fp.ahead fp.error rfl⟩
    · rw [hc]
      exact List.nil_prefix
    · rw [hc]
      exact List.nil_prefix

end Savefile

end Jxnet
