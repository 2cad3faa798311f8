import Jxnet.Packet.Packet

namespace Jxnet

open Java ByteBuffer

namespace IPv4

/-- The word sum of the header, folded once and cut to 16 bits. -/
def foldedSum (p : IPv4) : Nat := OnesComplement.fold 0xffff p.headerSum % 2 ^ 16

theorem headerChecksum_toNat (p : IPv4) : p.headerChecksum.toNat = 0xffff - p.foldedSum := by
  have hlt := p.headerSum_lt
  rw [headerChecksum, foldChecksum_toNat, BitVec.toNat_ofNat, Nat.mod_eq_of_lt hlt, foldedSum]

/-- The states that encode the same way a second time. A checksum that was computed is written
again from its low byte alone, sign-extended, behind which the payload must find its old place. -/
def Repeats (p : IPv4) : Prop :=
  p.getChecksum ≠ 0 ∨ p.setLengths.foldedSum = 0xffff ∨
    (p.setLengths.writtenSize = p.setLengths.declaredSize ∧
      (p.setLengths.foldedSum < 0x80 ∨ 0xff80 ≤ p.setLengths.foldedSum))

instance (p : IPv4) : Decidable p.Repeats := inferInstanceAs (Decidable (_ ∨ _ ∨ (_ ∧ (_ ∨ _))))

/-- `(short) (byte) (c & 0xffff)` keeps the values of a signed byte. -/
theorem lowByte_eq_iff (c : JShort) :
    (toByte (promote c &&& 0xffff#32)).signExtend 16 = c ↔ c.toNat < 0x80 ∨ 0xff80 ≤ c.toNat := by
  have hbyte : toByte (promote c &&& 0xffff#32) = c.setWidth 8 := by
    apply BitVec.eq_of_getLsbD_eq
    intro i hi
    rw [getLsbD_toByte _ i hi, BitVec.getLsbD_and, getLsbD_promote c i (by omega) (by decide)]
    interval_cases i <;> simp
  have hc := c.isLt
  rw [hbyte, ← BitVec.toNat_inj, BitVec.toNat_signExtend, BitVec.msb_eq_decide]
  simp only [BitVec.toNat_setWidth, decide_eq_true_eq]
  split <;> omega

theorem headerBytes_inj (p : IPv4) (c w : JShort) :
    p.headerBytes c = p.headerBytes w ↔ c = w := by
  rw [headerBytes, headerBytes, List.append_cancel_left_eq, List.append_cancel_right_eq,
    shortBytes_inj]

theorem toBytes_setLengths (p : IPv4) : p.setLengths.toBytes = p.toBytes := by
  rw [toBytes, toBytes, setLengths_setLengths]

/-- A call that stores nothing new is repeated. -/
theorem toBytes_again (p : IPv4) {bytes : Bytes} (h : p.toBytes = .ok (p.setLengths, bytes)) :
    Prod.snd <$> p.setLengths.toBytes = .ok bytes := by
  rw [toBytes_setLengths, h]
  rfl

theorem stored_setLengths (p : IPv4) : p.stored.setLengths = p.stored := by
  have h := setLengths_setLengths p
  change { p.setLengths.setLengths with checksum := p.setLengths.headerChecksum } = p.stored
  rw [h, stored]

theorem stored_getChecksum (p : IPv4) :
    p.stored.setLengths.getChecksum = p.setLengths.headerChecksum := by
  rw [stored_setLengths, getChecksum, mask16_eq, stored]

theorem Fits.stored {p : IPv4} (h : p.Fits) : p.stored.Fits := by
  refine ⟨?_, ?_⟩
  · rw [stored_setLengths]
    exact h.total
  · rw [stored_setLengths]
    exact h.written

/-- A stored checksum is repeated iff its low byte tells all of it and the written header is as
long as the header length says. -/
theorem toBytes_stored_iff (p : IPv4) (hT : p.Fits) (hc : p.setLengths.headerChecksum ≠ 0) :
    Prod.snd <$> p.stored.toBytes = .ok ((p.setLengths.headerBytes
        p.setLengths.headerChecksum).take p.setLengths.declaredSize ++ p.nextPacket.getD []) ↔
      p.setLengths.writtenSize = p.setLengths.declaredSize ∧
        (p.setLengths.headerChecksum.toNat < 0x80 ∨
          0xff80 ≤ p.setLengths.headerChecksum.toNat) := by
  have hne : p.stored.setLengths.getChecksum ≠ 0 := by
    rw [stored_getChecksum]
    exact hc
  by_cases hfill : p.setLengths.writtenSize = p.setLengths.declaredSize
  · have hlen : (p.setLengths.headerBytes p.setLengths.headerChecksum).length =
        p.setLengths.declaredSize := by
      rw [headerBytes_length_eq, hfill]
    have hfill' : p.stored.setLengths.writtenSize = p.stored.setLengths.declaredSize := by
      rw [stored_setLengths]
      exact hfill
    have hrun := toBytes_stored p.stored hne hT.stored hfill'
    rw [stored_getChecksum, stored_setLengths] at hrun
    have hbytes : p.stored.headerBytes ((toByte (promote p.setLengths.headerChecksum &&&
        0xffff#32)).signExtend 16) ++ p.stored.nextPacket.getD [] =
        p.setLengths.headerBytes p.setLengths.headerChecksum ++ p.nextPacket.getD [] ↔
          (p.setLengths.headerChecksum.toNat < 0x80 ∨
            0xff80 ≤ p.setLengths.headerChecksum.toNat) := by
      rw [← lowByte_eq_iff, ← headerBytes_inj p.setLengths]
      exact List.append_left_inj _
    have htake : (p.setLengths.headerBytes p.setLengths.headerChecksum).take
        p.setLengths.declaredSize = p.setLengths.headerBytes p.setLengths.headerChecksum := by
      rw [← hlen, List.take_length]
    rw [hrun, htake, and_iff_right hfill, ← hbytes]
    exact ⟨Except.ok.inj, congrArg Except.ok⟩
  · refine iff_of_false ?_ (fun h => hfill h.1)
    intro h
    cases hrun : p.stored.toBytes with
    | error e =>
      rw [hrun] at h
      cases h
    | ok r =>
      have hfill' := (fits_of_stored _ hne hrun).2
      rw [stored_setLengths] at hfill'
      exact hfill hfill'

theorem toBytes_toBytes_iff (p p' : IPv4) (bytes : Bytes) (h : p.toBytes = .ok (p', bytes)) :
    Prod.snd <$> p'.toBytes = .ok bytes ↔ p.Repeats := by
  by_cases h0 : p.getChecksum = 0
  · have hT := fits_of_fresh p h0 h
    have hfresh := toBytes_fresh p h0 hT
    rw [hfresh] at h
    cases h
    have hnat := p.setLengths.headerChecksum_toNat
    have hfold : p.setLengths.foldedSum < 2 ^ 16 := Nat.mod_lt _ (by decide)
    have hrepeats : p.Repeats ↔ p.setLengths.foldedSum = 0xffff ∨
        (p.setLengths.writtenSize = p.setLengths.declaredSize ∧
          (p.setLengths.foldedSum < 0x80 ∨ 0xff80 ≤ p.setLengths.foldedSum)) :=
      or_iff_right (not_not.mpr h0)
    rw [hrepeats]
    by_cases hc : p.setLengths.headerChecksum = 0
    · have hsame : p.stored = p.setLengths := by
        have hzero : p.setLengths.checksum = 0 := by
          rw [← h0, getChecksum, mask16_eq]
          rfl
        rw [stored, hc, ← hzero]
      have hz : p.setLengths.foldedSum = 0xffff := by
        rw [hc] at hnat
        change 0 = _ at hnat
        omega
      rw [hsame] at hfresh ⊢
      exact iff_of_true (toBytes_again p hfresh) (.inl hz)
    · have hz : p.setLengths.foldedSum ≠ 0xffff := by
        intro hz
        apply hc
        apply BitVec.eq_of_toNat_eq
        rw [hnat, hz]
        rfl
      rw [toBytes_stored_iff p hT hc, hnat]
      omega
  · obtain ⟨hT, hfill⟩ := fits_of_stored p h0 h
    have hstored := toBytes_stored p h0 hT hfill
    rw [hstored] at h
    cases h
    exact iff_of_true (toBytes_again p hstored) (.inl h0)

end IPv4

namespace UDP

/-- The length that is stored is computed again. -/
theorem toBytes_again (u u' : UDP) (bytes : Bytes) (h : u.toBytes = .ok (u', bytes)) :
    Prod.snd <$> u'.toBytes = .ok bytes := by
  rw [toBytes_eq] at h
  cases h
  rw [toBytes_eq]
  rfl

end UDP

namespace ICMPv4

/-- The checksum that is stored stands in the bytes; a computed 0 is computed again. -/
theorem toBytes_again (p p' : ICMPv4) (bytes : Bytes) (h : p.toBytes = .ok (p', bytes)) :
    Prod.snd <$> ICMPv4.toBytes p' = .ok bytes := by
  cases ht : p.typeAndCode with
  | none =>
    rw [toBytes, ht] at h
    cases h
  | some typeAndCode =>
    by_cases h0 : p.getChecksum = 0
    · have hfresh := toBytes_fresh p typeAndCode ht h0
      rw [hfresh] at h
      cases h
      by_cases hc : p.messageChecksum typeAndCode = 0
      · have hsame : { p with checksum := p.messageChecksum typeAndCode } = p := by
          rw [hc, ← h0]
          rfl
        rw [hsame] at hfresh ⊢
        rw [hfresh]
        rfl
      · rw [toBytes_stored { p with checksum := p.messageChecksum typeAndCode } typeAndCode ht hc]
        rfl
    · have hstored := toBytes_stored p typeAndCode ht h0
      rw [hstored] at h
      cases h
      rw [hstored]
      rfl

end ICMPv4

namespace Packet

/-- An IPv4 object may change its encoding; every other object repeats it. -/
def Repeats : Packet → Prop
  | ipv4 p => p.Repeats
  | _ => True

/-- An encoder that leaves its object alone. -/
private theorem pure_again {make : Packet} {encoded : Except JavaException Bytes} {p' : Packet}
    {bytes : Bytes} (hmake : make.toBytes = (fun bytes => (make, bytes)) <$> encoded)
    (h : make.toBytes = .ok (p', bytes)) : Prod.snd <$> p'.toBytes = .ok bytes := by
  rw [hmake] at h
  obtain ⟨b, hb, heq⟩ := ok_of_map h
  cases heq
  rw [hmake, hb]
  rfl

theorem toBytes_toBytes_iff (p p' : Packet) (bytes : Bytes) (h : p.toBytes = .ok (p', bytes)) :
    Prod.snd <$> p'.toBytes = .ok bytes ↔ p.Repeats := by
  cases p with
  | ipv4 p =>
    obtain ⟨⟨q, b⟩, hq, heq⟩ := ok_of_map h
    cases heq
    rw [Repeats, ← IPv4.toBytes_toBytes_iff p q b hq, toBytes]
    cases q.toBytes with
    | error e => exact Iff.rfl
    | ok r => exact Iff.rfl
  | udp p =>
    obtain ⟨⟨q, b⟩, hq, heq⟩ := ok_of_map h
    cases heq
    have hagain := UDP.toBytes_again p q b hq
    obtain ⟨r, hr, hb⟩ := ok_of_map hagain
    refine iff_of_true ?_ trivial
    rw [toBytes, hr, ← hb]
    rfl
  | icmpv4 p =>
    obtain ⟨⟨q, b⟩, hq, heq⟩ := ok_of_map h
    cases heq
    have hagain := ICMPv4.toBytes_again p q b hq
    obtain ⟨r, hr, hb⟩ := ok_of_map hagain
    refine iff_of_true ?_ trivial
    rw [toBytes, hr, ← hb]
    rfl
  | ethernet p => exact iff_of_true (pure_again rfl h) trivial
  | sll p => exact iff_of_true (pure_again rfl h) trivial
  | radioTap p => exact iff_of_true (pure_again rfl h) trivial
  | arp p => exact iff_of_true (pure_again rfl h) trivial
  | ipv6 p => exact iff_of_true (pure_again rfl h) trivial
  | routing p => exact iff_of_true (pure_again rfl h) trivial
  | fragment p => exact iff_of_true (pure_again rfl h) trivial
  | tcp p => exact iff_of_true (pure_again rfl h) trivial
  | icmpv6 p => exact iff_of_true (pure_again rfl h) trivial
  | unknown p =>
    cases h
    exact iff_of_true rfl trivial

theorem setPacket_getClass {carrier packet carrier' packet' : Packet}
    (h : carrier.setPacket packet = .ok (carrier', packet')) :
    carrier'.getClass = carrier.getClass := by
  cases carrier with
  | arp p | routing p | fragment p | unknown p =>
    cases h
    rfl
  | ethernet p | ipv4 p | ipv6 p | sll p | radioTap p | tcp p | udp p | icmpv4 p | icmpv6 p =>
    obtain ⟨r, -, heq⟩ := ok_of_map h
    cases heq
    rfl

namespace PacketBuilder

/-- The loop leaves the outermost packet in its place and class. -/
theorem stack_head {carrier : Packet} {packets result : List Packet}
    (h : stack (carrier :: packets) = .ok result) :
    ∃ p rest, result = p :: rest ∧ p.getClass = carrier.getClass := by
  cases packets with
  | nil =>
    cases h
    exact ⟨carrier, [], rfl, rfl⟩
  | cons packet packets =>
    rw [stack] at h
    cases hs : stack (packet :: packets) with
    | error e =>
      rw [hs] at h
      cases h
    | ok inner =>
      rw [hs] at h
      cases inner with
      | nil =>
        cases h
        exact ⟨carrier, [], rfl, rfl⟩
      | cons q qs =>
        change (do
          let r ← carrier.setPacket q
          pure (r.1 :: r.2 :: qs)) = _ at h
        cases hset : carrier.setPacket q with
        | error e =>
          rw [hset] at h
          cases h
        | ok r =>
          rw [hset] at h
          cases h
          exact ⟨r.1, r.2 :: qs, rfl, setPacket_getClass hset⟩

/-- The packet that is built is the outermost one, in its own class. -/
theorem build_getClass {carrier p : Packet} {packets : List Packet}
    (h : build (carrier :: packets) = .ok p) : p.getClass = carrier.getClass := by
  rw [build] at h
  cases hs : stack (carrier :: packets) with
  | error e =>
    rw [hs] at h
    cases h
  | ok result =>
    obtain ⟨q, rest, rfl, hq⟩ := stack_head hs
    rw [hs] at h
    cases h
    exact hq

end PacketBuilder

/-- A second `toBytes` gives the same bytes iff the object is no IPv4 object whose computed
checksum or header size gets lost; so a stack below any other carrier is sent twice alike. -/
theorem toBytes_twice_iff (p p' : Packet) (bytes : Bytes) (h : p.toBytes = .ok (p', bytes)) :
    (Prod.snd <$> p'.toBytes = .ok bytes ↔ p.Repeats) ∧
    (∀ (carrier : Packet) (packets : List Packet),
      PacketBuilder.build (carrier :: packets) = .ok p → carrier.getClass ≠ .IPv4 →
        Prod.snd <$> p'.toBytes = .ok bytes) := by
  have hiff := toBytes_toBytes_iff p p' bytes h
  refine ⟨hiff, ?_⟩
  intro carrier packets hbuild hclass
  have hp := PacketBuilder.build_getClass hbuild
  rw [hiff]
  cases p with
  | ipv4 p => exact absurd hp.symm hclass
  | _ => trivial

theorem new_encodable : IPv4.new.Encodable := ⟨by decide, by decide, by decide⟩

/-- The checksum of a new header does not survive the cast to a byte. -/
theorem toBytes_twice_differs :
    ∃ p' bytes, (ipv4 IPv4.new).toBytes = .ok (p', bytes) ∧
      Prod.snd <$> p'.toBytes ≠ .ok bytes := by
  have hfresh := IPv4.toBytes_encodable IPv4.new new_encodable (by decide)
  have hrun : (ipv4 IPv4.new).toBytes = .ok (ipv4 IPv4.new.stored,
      IPv4.new.setLengths.headerBytes IPv4.new.setLengths.headerChecksum ++
        IPv4.new.nextPacket.getD []) := by
    rw [toBytes, hfresh]
    rfl
  refine ⟨_, _, hrun, ?_⟩
  rw [ne_eq, toBytes_toBytes_iff _ _ _ hrun]
  have hnot : ¬ IPv4.new.Repeats := by decide
  exact hnot

/-- A datagram of three bytes. -/
def datagram : UDP := { UDP.new with sourcePort := 53, nextPacket := some [1, 2, 3] }

/-- The datagram gets its length, and the frame around it is sent twice alike. -/
theorem toBytes_twice_datagram :
    ∃ p p' bytes, PacketBuilder.build [ethernet Ethernet.new, udp datagram] = .ok p ∧
      p.toBytes = .ok (p', bytes) ∧ bytes.length = 25 ∧
      Prod.snd <$> p'.toBytes = .ok bytes ∧ p.Repeats := by
  have hencoded : ∃ p p' bytes,
      PacketBuilder.build [ethernet Ethernet.new, udp datagram] = .ok p ∧
        p.toBytes = .ok (p', bytes) ∧ bytes.length = 25 := ⟨_, _, _, rfl, rfl, rfl⟩
  obtain ⟨p, p', bytes, hbuild, hrun, hlen⟩ := hencoded
  obtain ⟨hiff, hstack⟩ := toBytes_twice_iff p p' bytes hrun
  have hsame := hstack (ethernet Ethernet.new) [udp datagram] hbuild (by decide)
  exact ⟨p, p', bytes, hbuild, hrun, hlen, hsame, hiff.mp hsame⟩

end Packet

end Jxnet
