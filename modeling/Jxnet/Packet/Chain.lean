import Jxnet.Packet.Packet

namespace Jxnet

open Java ByteBuffer

namespace Packet

variable (R : Registries)

/-- `p` is what the whole-array decoder of its class makes of `own`. -/
inductive DecodedFrom : Bytes → Packet → Prop
  | ethernet {own p} (h : Ethernet.newInstance R own = .ok p) : DecodedFrom own (.ethernet p)
  | sll {own p} (h : SLL.newInstance R own = .ok p) : DecodedFrom own (.sll p)
  | radioTap {own p} (h : RadioTap.newInstance own = .ok p) : DecodedFrom own (.radioTap p)
  | arp {own p} (h : ARP.newInstance R own = .ok p) : DecodedFrom own (.arp p)
  | ipv4 {own p} (h : IPv4.newInstance R own = .ok p) : DecodedFrom own (.ipv4 p)
  | ipv6 {own p} (h : IPv6.newInstance R own = .ok p) : DecodedFrom own (.ipv6 p)
  | routing {own p} (h : Routing.newInstance R own = .ok p) : DecodedFrom own (.routing p)
  | fragment {own p} (h : Fragment.newInstance R own = .ok p) : DecodedFrom own (.fragment p)
  | tcp {own p} (h : TCP.newInstance own = .ok p) : DecodedFrom own (.tcp p)
  | udp {own p} (h : UDP.newInstance own = .ok p) : DecodedFrom own (.udp p)
  | icmpv4 {own p} (h : ICMPv4.newInstance R own = .ok p) : DecodedFrom own (.icmpv4 p)
  | icmpv6 {own p} (h : ICMPv6.newInstance R own = .ok p) : DecodedFrom own (.icmpv6 p)
  | unknown {own p} (h : UnknownPacket.newInstance own = .ok p) : DecodedFrom own (.unknown p)

/-- What following `getPacket()` ends with. -/
inductive Ending where
  | null
  | raised (e : JavaException)
  deriving DecidableEq, Repr

/-- A walk along the chain returns a value or lets the exception through. -/
def Ending.result {α : Type} (ending : Ending) (a : α) : Except JavaException α :=
  match ending with
  | null => .ok a
  | raised e => .error e

/-- The layers that `getPacket()` leads to from the first one on, and how they end. -/
inductive Chain : Packet → List Packet → Ending → Prop
  | last {p : Packet} (h : p.getPacket R = .ok none) : Chain p [p] .null
  | failed {p : Packet} {e : JavaException} (h : p.getPacket R = .error e) :
      Chain p [p] (.raised e)
  | next {p q : Packet} {ps : List Packet} {ending : Ending} (h : p.getPacket R = .ok (some q))
      (hc : Chain q ps ending) : Chain p (p :: ps) ending

variable {R}

theorem Chain.ne_nil {p : Packet} {ps : List Packet} {ending : Ending} (h : Chain R p ps ending) :
    ∃ qs, ps = p :: qs := by
  cases h with
  | last => exact ⟨[], rfl⟩
  | failed => exact ⟨[], rfl⟩
  | next h hc => exact ⟨_, rfl⟩

theorem Chain.unique {p : Packet} {ps qs : List Packet} {a b : Ending} (hp : Chain R p ps a)
    (hq : Chain R p qs b) : ps = qs ∧ a = b := by
  induction hp generalizing qs b with
  | last h =>
    cases hq with
    | last => exact ⟨rfl, rfl⟩
    | failed h' => rw [h] at h'; cases h'
    | next h' => rw [h] at h'; cases h'
  | failed h =>
    cases hq with
    | last h' => rw [h] at h'; cases h'
    | failed h' => rw [h] at h'; cases h'; exact ⟨rfl, rfl⟩
    | next h' => rw [h] at h'; cases h'
  | next h hc ih =>
    cases hq with
    | last h' => rw [h] at h'; cases h'
    | failed h' => rw [h] at h'; cases h'
    | next h' hc' =>
      rw [h] at h'
      cases h'
      obtain ⟨rfl, rfl⟩ := ih hc'
      exact ⟨rfl, rfl⟩

/-! One step of the chain: the next layer is decoded from the stored payload. -/

private theorem map_some {α : Type} {f : α → Packet} {r : Except JavaException α} {q : Packet}
    (h : (some ∘ f) <$> r = .ok (some q)) : ∃ p, r = .ok p ∧ q = f p := by
  obtain ⟨a, ha, hq⟩ := ok_of_map h
  exact ⟨a, ha, (Option.some.inj hq).symm⟩

private theorem exists_of_decodeWith {decoder : Bytes → Except JavaException (Option Packet)}
    {data : Option Bytes} {q : Packet} (h : decodeWith decoder data = .ok (some q)) :
    ∃ own, data = some own ∧ own ≠ [] ∧ decoder own = .ok (some q) := by
  match data, h with
  | some (x :: xs), h => exact ⟨x :: xs, rfl, by simp, h⟩

/-- The classes that the first decoder of a link type makes. -/
def isLink (p : Packet) : Bool := p.getClass ∈ [.Ethernet, .SLL, .RadioTap]

/-- `q` is decoded from the bytes that are stored as `data`, and is no link layer. -/
def DecodedIn (R : Registries) (data : Option Bytes) (q : Packet) : Prop :=
  ∃ own, data = some own ∧ own ≠ [] ∧ DecodedFrom R own q ∧ q.isLink = false

theorem decode_protocolType {type : ProtocolType} {data : Option Bytes} {q : Packet}
    (h : type.decode R data = .ok (some q)) : DecodedIn R data q := by
  rw [ProtocolType.decode] at h
  obtain ⟨own, hd, hne, h⟩ := exists_of_decodeWith h
  refine ⟨own, hd, hne, ?_⟩
  split_ifs at h
  · obtain ⟨p, hp, rfl⟩ := map_some h
    exact ⟨.ipv4 hp, rfl⟩
  · obtain ⟨p, hp, rfl⟩ := map_some h
    exact ⟨.arp hp, rfl⟩
  · obtain ⟨p, hp, rfl⟩ := map_some h
    exact ⟨.ipv6 hp, rfl⟩
  · cases h

theorem decode_ipProtocolType {protocol : IPProtocolType} {data : Option Bytes} {q : Packet}
    (h : protocol.decode R data = .ok (some q)) : DecodedIn R data q := by
  rw [IPProtocolType.decode] at h
  obtain ⟨own, hd, hne, h⟩ := exists_of_decodeWith h
  refine ⟨own, hd, hne, ?_⟩
  split_ifs at h
  · obtain ⟨p, hp, rfl⟩ := map_some h
    exact ⟨.icmpv4 hp, rfl⟩
  · obtain ⟨p, hp, rfl⟩ := map_some h
    exact ⟨.ipv6 hp, rfl⟩
  · obtain ⟨p, hp, rfl⟩ := map_some h
    exact ⟨.icmpv6 hp, rfl⟩
  · obtain ⟨p, hp, rfl⟩ := map_some h
    exact ⟨.routing hp, rfl⟩
  · obtain ⟨p, hp, rfl⟩ := map_some h
    exact ⟨.fragment hp, rfl⟩
  · obtain ⟨p, hp, rfl⟩ := map_some h
    exact ⟨.tcp hp, rfl⟩
  · obtain ⟨p, hp, rfl⟩ := map_some h
    exact ⟨.udp hp, rfl⟩
  · cases h

theorem decode_unknown {data : Option Bytes} {q : Packet}
    (h : decodeUnknown data = .ok (some q)) : DecodedIn R data q := by
  rw [decodeUnknown] at h
  obtain ⟨own, hd, hne, h⟩ := exists_of_decodeWith h
  obtain ⟨p, hp, rfl⟩ := map_some h
  exact ⟨own, hd, hne, .unknown hp, rfl⟩

theorem decode_routing {nextHeader : Option IPProtocolType} {data : Option Bytes} {q : Packet}
    (h : decodeRouting R nextHeader data = .ok (some q)) : DecodedIn R data q := by
  rw [decodeRouting] at h
  obtain ⟨own, hd, hne, h⟩ := exists_of_decodeWith h
  refine ⟨own, hd, hne, ?_⟩
  cases nextHeader with
  | none => cases h
  | some nextHeader =>
    simp only at h
    split_ifs at h
    · obtain ⟨p, hp, rfl⟩ := map_some h
      exact ⟨.tcp hp, rfl⟩
    · obtain ⟨p, hp, rfl⟩ := map_some h
      exact ⟨.udp hp, rfl⟩
    · obtain ⟨p, hp, rfl⟩ := map_some h
      exact ⟨.ipv6 hp, rfl⟩
    · obtain ⟨p, hp, rfl⟩ := map_some h
      exact ⟨.routing hp, rfl⟩
    · obtain ⟨p, hp, rfl⟩ := map_some h
      exact ⟨.fragment hp, rfl⟩
    · obtain ⟨p, hp, rfl⟩ := map_some h
      exact ⟨.unknown hp, rfl⟩

/-- Every class decodes its next layer from its own payload, whatever dispatch table it uses. -/
theorem getPacket_some {p q : Packet} (h : p.getPacket R = .ok (some q)) :
    DecodedIn R p.payload q := by
  cases p with
  | ethernet p => exact decode_protocolType h
  | sll p =>
    rw [getPacket] at h
    split at h
    · cases h
    · exact decode_protocolType h
  | ipv4 p => exact decode_ipProtocolType h
  | ipv6 p => exact decode_ipProtocolType h
  | routing p => exact decode_routing h
  | fragment p =>
    rw [getPacket] at h
    obtain ⟨own, hd, hne, h⟩ := exists_of_decodeWith h
    split at h
    · cases h
    · obtain ⟨own', hd', hne', hq⟩ := decode_ipProtocolType h
      cases hd'
      exact ⟨own, hd, hne, hq⟩
  | tcp p => exact decode_unknown h
  | udp p => exact decode_unknown h
  | radioTap p => cases h
  | arp p => cases h
  | icmpv4 p => cases h
  | icmpv6 p => cases h
  | unknown p => cases h

/-! What a decoded layer stores: a proper suffix of the bytes it was decoded from. -/

/-- `rest` is what follows a header of at least `n` bytes in `own`. -/
def Behind (n : Nat) (own rest : Bytes) : Prop := ∃ hdr, own = hdr ++ rest ∧ n ≤ hdr.length

private theorem behind_of_headerPayload {α : Type} {m : Op α} {payload : α → Option Bytes}
    {header : Bytes → Except JavaException Nat} (hm : HeaderPayload m payload header) {n : Nat}
    {own rest : Bytes} {v : α} (h : decode m own 0 own.length = .ok v)
    (hr : payload v = some rest) (hn : ∀ k, header own = .ok k → n ≤ k) : Behind n own rest := by
  rw [decode_whole] at h
  obtain ⟨k, hk, hl, hp⟩ := hm.whole_ok h
  rw [hr] at hp
  cases hp
  refine ⟨own.take k, (List.take_append_drop k own).symm, ?_⟩
  rw [List.length_take]
  have := hn k hk
  omega

private theorem behind_of_fixed {α : Type} {m : Op α} {payload : α → Option Bytes} {c n : Nat}
    (hm : HeaderPayload m payload (fixedHeader c)) {own rest : Bytes} {v : α}
    (h : decode m own 0 own.length = .ok v) (hr : payload v = some rest) (hn : n ≤ c) :
    Behind n own rest := by
  refine behind_of_headerPayload hm h hr fun k hk => ?_
  rw [(fixedHeader_ok hk).1]
  exact hn

/-- The classes that have a next layer have headers of eight bytes and more. -/
def headerAtLeast : Packet → Nat
  | icmpv4 _ | icmpv6 _ => 4
  | _ => 8

theorem DecodedFrom.behind {own rest : Bytes} {q : Packet} (h : DecodedFrom R own q)
    (hr : q.payload = some rest) : Behind q.headerAtLeast own rest := by
  cases h with
  | ethernet h =>
    refine behind_of_headerPayload (Ethernet.headerPayload R) h hr fun k hk => ?_
    rw [Ethernet.header] at hk
    split at hk
    · rw [(fixedHeader_ok hk).1]
      simp [headerAtLeast]
    · rw [(fixedHeader_ok hk).1]
      simp [headerAtLeast]
  | sll h => exact behind_of_fixed (SLL.headerPayload R) h hr (by simp [headerAtLeast])
  | radioTap h => exact behind_of_fixed RadioTap.headerPayload h hr (by simp [headerAtLeast])
  | arp h => cases hr
  | ipv4 h =>
    refine behind_of_headerPayload (IPv4.headerPayload R) h hr fun k hk => ?_
    rw [(fixedHeader_ok hk).1]
    exact le_trans (by simp [headerAtLeast]) (Nat.le_max_left 20 _)
  | ipv6 h => exact behind_of_fixed (IPv6.headerPayload R) h hr (by simp [headerAtLeast])
  | routing h =>
    refine behind_of_headerPayload (Routing.headerPayload R) h hr fun k hk => ?_
    rw [Routing.header] at hk
    split_ifs at hk
    rw [(fixedHeader_ok hk).1]
    exact Nat.le_add_right 8 _
  | fragment h =>
    rw [Fragment.newInstance, Fragment.newInstanceAt, decode_whole] at h
    have hnone := Fragment.read_payload R h
    rw [payload, hnone] at hr
    cases hr
  | tcp h =>
    refine behind_of_headerPayload TCP.headerPayload h hr fun k hk => ?_
    rw [TCP.header] at hk
    split at hk
    · cases hk
      exact le_trans (by simp [headerAtLeast]) (Nat.le_add_right 20 _)
    · cases hk
  | udp h => exact behind_of_fixed UDP.headerPayload h hr (by simp [headerAtLeast])
  | icmpv4 h => exact behind_of_fixed (ICMP.headerPayload R) h hr (by simp [headerAtLeast])
  | icmpv6 h => exact behind_of_fixed (ICMP.headerPayload R) h hr (by simp [headerAtLeast])
  | unknown h => cases hr

/-- A layer that has a next one has a header of eight bytes and more. -/
theorem headerAtLeast_of_some {p q : Packet} (h : p.getPacket R = .ok (some q)) :
    p.headerAtLeast = 8 := by
  cases p with
  | icmpv4 p => cases h
  | icmpv6 p => cases h
  | _ => rfl

def payloadSize (p : Packet) : Nat := (p.payload.getD []).length

theorem payloadSize_of_some {p q : Packet} (h : p.getPacket R = .ok (some q)) :
    q.payloadSize < p.payloadSize := by
  obtain ⟨own, hown, hne, hq, -⟩ := getPacket_some h
  have hpos : 0 < own.length := List.length_pos_iff.mpr hne
  rw [payloadSize, payloadSize, hown]
  cases hr : q.payload with
  | none => simpa using hpos
  | some rest =>
    obtain ⟨hdr, hb, hl⟩ := hq.behind hr
    have hhdr : 4 ≤ q.headerAtLeast := by cases q <;> simp [headerAtLeast]
    simp only [Option.getD_some, hb, List.length_append]
    omega

/-- Following `getPacket()` comes to an end from every packet. -/
theorem exists_chain (R : Registries) (p : Packet) : ∃ ps ending, Chain R p ps ending := by
  induction hn : p.payloadSize using Nat.strongRecOn generalizing p with
  | ind n ih =>
    cases hg : p.getPacket R with
    | error e => exact ⟨_, _, .failed hg⟩
    | ok next =>
      cases next with
      | none => exact ⟨_, _, .last hg⟩
      | some q =>
        have hlt := payloadSize_of_some hg
        obtain ⟨ps, ending, hc⟩ := ih q.payloadSize (by omega) q rfl
        exact ⟨_, _, .next hg hc⟩

/-- Each payload is a proper suffix of the bytes its layer was decoded from, and holds the next
layer. -/
def Nested : Bytes → List Packet → Prop
  | _, [] => True
  | own, p :: ps => (∀ rest, p.payload = some rest → Behind 1 own rest) ∧
      (ps ≠ [] → ∃ inner, p.payload = some inner ∧ Nested inner ps)

theorem Behind.mono {n k : Nat} {own rest : Bytes} (h : Behind n own rest) (hk : k ≤ n) :
    Behind k own rest := by
  obtain ⟨hdr, hb, hl⟩ := h
  exact ⟨hdr, hb, le_trans hk hl⟩

theorem DecodedFrom.behind_one {own rest : Bytes} {q : Packet} (h : DecodedFrom R own q)
    (hr : q.payload = some rest) : Behind 1 own rest :=
  (h.behind hr).mono (by cases q <;> simp [headerAtLeast])

theorem Chain.nested {p : Packet} {ps : List Packet} {ending : Ending} (hc : Chain R p ps ending)
    {own : Bytes} (h : DecodedFrom R own p) : Nested own ps := by
  induction hc generalizing own with
  | last => exact ⟨fun rest hr => h.behind_one hr, fun hne => absurd rfl hne⟩
  | failed => exact ⟨fun rest hr => h.behind_one hr, fun hne => absurd rfl hne⟩
  | next hg hc ih =>
    refine ⟨fun rest hr => h.behind_one hr, fun _ => ?_⟩
    obtain ⟨inner, hi, -, hq, -⟩ := getPacket_some hg
    exact ⟨inner, hi, ih hq⟩

/-- Only the first layer of a chain can be a link layer. -/
theorem Chain.tail_not_link {p : Packet} {ps : List Packet} {ending : Ending}
    (hc : Chain R p ps ending) : ∀ q ∈ ps.tail, q.isLink = false := by
  induction hc with
  | last => simp
  | failed => simp
  | next hg hc ih =>
    intro q hq
    obtain ⟨qs, rfl⟩ := hc.ne_nil
    rcases List.mem_cons.mp hq with rfl | hmem
    · obtain ⟨-, -, -, -, hlink⟩ := getPacket_some hg
      exact hlink
    · exact ih q hmem

theorem Chain.length_le {p : Packet} {ps : List Packet} {ending : Ending}
    (hc : Chain R p ps ending) {own : Bytes} (h : DecodedFrom R own p) :
    ps.length ≤ 1 + own.length / 8 := by
  induction hc generalizing own with
  | last => simp
  | failed => simp
  | next hg hc ih =>
    obtain ⟨inner, hi, -, hq, -⟩ := getPacket_some hg
    obtain ⟨hdr, hb, hl⟩ := h.behind hi
    rw [headerAtLeast_of_some hg] at hl
    have hle := ih hq
    simp only [hb, List.length_append, List.length_cons]
    omega

/-- A payload of any layer is a proper suffix of the whole frame. -/
theorem Nested.behind_frame {own : Bytes} {ps : List Packet} (h : Nested own ps) :
    ∀ p ∈ ps, ∀ rest, p.payload = some rest → Behind 1 own rest := by
  induction ps generalizing own with
  | nil => simp
  | cons q qs ih =>
    intro p hp rest hr
    rcases List.mem_cons.mp hp with rfl | hmem
    · exact h.1 rest hr
    · obtain ⟨inner, hi, hn⟩ := h.2 (List.ne_nil_of_mem hmem)
      obtain ⟨hdr, hb, hl⟩ := h.1 inner hi
      obtain ⟨hdr', hb', hl'⟩ := ih hn p hmem rest hr
      exact ⟨hdr ++ hdr', by simp [hb, hb'], by simp; omega⟩

end Packet

end Jxnet
