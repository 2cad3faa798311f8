import Jxnet.Framework.Loop
import Jxnet.Packet.Chain

namespace Jxnet

open Java ByteBuffer

/-- The annotation `@Type` on the packet parameter of a listener. -/
structure TypeAnnotation where
  value : PacketClass
  number : Int
  deriving DecidableEq, Repr

namespace PacketHelper

open Packet

variable (R : Registries)

/-- The first decoder of a link type that `PacketHelper` names. -/
def firstLayer (dataLinkType : DataLinkType) (bytes : Bytes) :
    Option (Except JavaException Packet) :=
  match dataLinkType with
  | .EN10MB => some (.ethernet <$> Ethernet.newInstance R bytes)
  | DataLinkType.IEEE802_11_RADIO => some (.radioTap <$> RadioTap.newInstance bytes)
  | .LINUX_SLL => some (.sll <$> SLL.newInstance R bytes)
  | _ => none

/-- `while ((packet = packet.getPacket()) != null) pkts.put(packet.getClass(), packet)`. -/
def mapBody (s : Packet × HashMap PacketClass Packet) :
    Except JavaException
      (Loop.Step (Packet × HashMap PacketClass Packet) (HashMap PacketClass Packet)) :=
  match s.1.getPacket R with
  | .error e => .error e
  | .ok none => .ok (.done s.2)
  | .ok (some packet) => .ok (.next (packet, s.2.put packet.getClass packet))

theorem mapBody_decreases : Loop.Decreases (mapBody R) fun s => s.1.payloadSize := by
  intro s s' h
  unfold mapBody at h
  split at h
  · cases h
  · cases h
  · next packet hp =>
    cases h
    exact payloadSize_of_some hp

/-- The map version of `parsePacket`. A null link type fails in the switch. -/
def parsePacket (dataLinkType : Option DataLinkType) (bytes : Bytes) :
    Except JavaException (HashMap PacketClass Packet) :=
  match dataLinkType with
  | none => .error .nullPointer
  | some dataLinkType => match firstLayer R dataLinkType bytes with
    | some first => do
      let packet ← first
      Loop.exec (mapBody R) _ (mapBody_decreases R)
        (packet, HashMap.empty.put packet.getClass packet)
    | none => do
      let packet ← UnknownPacket.newInstance bytes
      Loop.exec (mapBody R) _ (mapBody_decreases R) (.unknown packet, HashMap.empty)

/-- The variables of the search loop. -/
structure Search where
  packet : Packet
  result : Option Packet
  packetNumber : Int

/-- One pass of `while (packet != null)` in the `Type` version of `parsePacket`. -/
def typeBody (type : TypeAnnotation) (s : Search) :
    Except JavaException (Loop.Step Search (Option Packet)) :=
  let found := s.packet.getClass = type.value
  if found ∧ type.number ≠ 0 ∧ s.packetNumber = type.number then .ok (.done s.packet)
  else
    let result := if found ∧ type.number = 0 then some s.packet else s.result
    let packetNumber := if found ∧ type.number ≠ 0 then s.packetNumber + 1 else s.packetNumber
    match s.packet.getPacket R with
    | .error e => .error e
    | .ok none => .ok (.done result)
    | .ok (some packet) => .ok (.next ⟨packet, result, packetNumber⟩)

theorem typeBody_decreases (type : TypeAnnotation) :
    Loop.Decreases (typeBody R type) fun s => s.packet.payloadSize := by
  intro s s' h
  simp only [typeBody] at h
  split at h
  · cases h
  · split at h
    · cases h
    · cases h
    · next packet hp =>
      cases h
      exact payloadSize_of_some hp

/-- The `Type` version of `parsePacket`. -/
def parsePacketType (dataLinkType : Option DataLinkType) (bytes : Bytes)
    (type : Option TypeAnnotation) : Except JavaException (Option Packet) :=
  match dataLinkType with
  | none => .error .nullPointer
  | some dataLinkType => match firstLayer R dataLinkType bytes with
    | some first => do
      let packet ← first
      match type with
      | none => .ok packet
      | some type => Loop.exec (typeBody R type) _ (typeBody_decreases R type) ⟨packet, none, 1⟩
    | none => (some ∘ .unknown) <$> UnknownPacket.newInstance bytes

section Loops

variable {R}

/-- The loop walks the chain: it leaves the later layers in the map, or the exception that
ended the chain. -/
theorem mapLoop_eq {p : Packet} {ps : List Packet} {ending : Ending} (hc : Chain R p ps ending)
    (m : HashMap PacketClass Packet) :
    Loop.run (mapBody R) ps.length (p, m) =
      some (ending.result (ps.tail.foldl (fun m q => m.put q.getClass q) m)) := by
  induction hc generalizing m with
  | last h => simp [Loop.run, mapBody, h, Ending.result]
  | failed h => simp [Loop.run, mapBody, h, Ending.result]
  | @next p q ps ending h hc ih =>
    obtain ⟨qs, rfl⟩ := hc.ne_nil
    have hrun := ih (m.put q.getClass q)
    rw [List.length_cons, Loop.run]
    simp only [mapBody, h]
    exact hrun

theorem mapExec_eq {p : Packet} {ps : List Packet} {ending : Ending} (hc : Chain R p ps ending)
    (m : HashMap PacketClass Packet) :
    Loop.exec (mapBody R) _ (mapBody_decreases R) (p, m) =
      ending.result (ps.tail.foldl (fun m q => m.put q.getClass q) m) :=
  Loop.run_eq_exec _ _ _ (mapLoop_eq hc m)

/-- The search ends within the chain: it makes at most one pass for each layer. -/
theorem typeLoop_isSome {p : Packet} {ps : List Packet} {ending : Ending}
    (hc : Chain R p ps ending) (type : TypeAnnotation) (result : Option Packet) (n : Int) :
    (Loop.run (typeBody R type) ps.length ⟨p, result, n⟩).isSome := by
  induction hc generalizing result n with
  | last h =>
    simp only [List.length_singleton, Loop.run, typeBody, h]
    split_ifs <;> rfl
  | failed h =>
    simp only [List.length_singleton, Loop.run, typeBody, h]
    split_ifs <;> rfl
  | next h hc ih =>
    simp only [List.length_cons, Loop.run, typeBody, h]
    split_ifs
    · rfl
    all_goals exact ih _ _

variable (R)

/-- The first decoder of a link type made `p` of the frame. -/
theorem link_of_firstLayer {d : DataLinkType} {bytes : Bytes} {p : Packet}
    (h : firstLayer R d bytes = some (.ok p)) : DecodedFrom R bytes p ∧ p.isLink = true := by
  unfold firstLayer at h
  split at h
  · obtain ⟨e, he, rfl⟩ := ok_of_map (Option.some.inj h)
    exact ⟨.ethernet he, rfl⟩
  · obtain ⟨r, hr, rfl⟩ := ok_of_map (Option.some.inj h)
    exact ⟨.radioTap hr, rfl⟩
  · obtain ⟨s, hs, rfl⟩ := ok_of_map (Option.some.inj h)
    exact ⟨.sll hs, rfl⟩
  · cases h

/-- The map that `parsePacket` returns, or the exception that it lets through. -/
theorem parsePacket_of_chain {d : DataLinkType} {bytes : Bytes} {p : Packet} {ps : List Packet}
    {ending : Ending} (h : firstLayer R d bytes = some (.ok p)) (hc : Chain R p ps ending) :
    parsePacket R (some d) bytes = ending.result (HashMap.ofList getClass ps) := by
  obtain ⟨qs, rfl⟩ := hc.ne_nil
  simp only [parsePacket, h]
  exact mapExec_eq hc _

end Loops

/-- The layers of a frame are few, each stores a proper suffix of its own bytes, and both search
loops end within that many passes. -/
theorem layers_bounded (d : DataLinkType) (bytes : Bytes) (p : Packet)
    (h : firstLayer R d bytes = some (.ok p)) :
    ∃ ps ending, Chain R p ps ending ∧ ps.length ≤ 1 + bytes.length / 8 ∧ Nested bytes ps ∧
      (∀ q ∈ ps, ∀ rest, q.payload = some rest → Behind 1 bytes rest) ∧
      (∀ m, (Loop.run (mapBody R) (1 + bytes.length / 8) (p, m)).isSome) ∧
      (∀ type, (Loop.run (typeBody R type) (1 + bytes.length / 8) ⟨p, none, 1⟩).isSome) := by
  obtain ⟨ps, ending, hc⟩ := exists_chain R p
  have hd := (link_of_firstLayer R h).1
  have hlen := hc.length_le hd
  have hnest := hc.nested hd
  refine ⟨ps, ending, hc, hlen, hnest, hnest.behind_frame, fun m => ?_, fun type => ?_⟩
  · exact Option.isSome_iff_exists.mpr ⟨_, Loop.run_mono _ hlen _ _ (mapLoop_eq hc m)⟩
  · obtain ⟨r, hr⟩ := Option.isSome_iff_exists.mp (typeLoop_isSome hc type none 1)
    exact Option.isSome_iff_exists.mpr ⟨r, Loop.run_mono _ hlen _ _ hr⟩

/-- A cooked frame around an IPv4 header with two routing headers one inside the other. -/
def nestedFrame : Bytes :=
  List.replicate 14 0 ++ [0x08, 0x00] ++ [0x45] ++ List.replicate 8 0 ++ [43] ++
    List.replicate 10 0 ++ [43, 0, 0, 0, 0, 0, 0, 0] ++ [59, 0, 0, 1, 0, 0, 0, 0]

theorem nestedFrame_layers :
    ∃ sll ipv4 outer inner, SLL.newInstance Registries.initial nestedFrame = .ok sll ∧
      (Packet.sll sll).getPacket Registries.initial = .ok (some (.ipv4 ipv4)) ∧
      (Packet.ipv4 ipv4).getPacket Registries.initial = .ok (some (.routing outer)) ∧
      (Packet.routing outer).getPacket Registries.initial = .ok (some (.routing inner)) ∧
      (Packet.routing inner).getPacket Registries.initial = .ok none ∧ outer ≠ inner :=
  ⟨_, _, _, _, rfl, rfl, rfl, rfl, rfl, by decide⟩

theorem layers_bounded_nestedFrame :
    ∃ p ps ending, firstLayer Registries.initial .LINUX_SLL nestedFrame = some (.ok p) ∧
      Chain Registries.initial p ps ending ∧ ps.length ≤ 1 + nestedFrame.length / 8 ∧
      Nested nestedFrame ps ∧
      (∀ q ∈ ps, ∀ rest, q.payload = some rest → Behind 1 nestedFrame rest) ∧
      (∀ m, (Loop.run (mapBody Registries.initial) (1 + nestedFrame.length / 8) (p, m)).isSome) ∧
      ∀ type, (Loop.run (typeBody Registries.initial type) (1 + nestedFrame.length / 8)
        ⟨p, none, 1⟩).isSome := by
  obtain ⟨sll, -, -, -, hsll, -⟩ := nestedFrame_layers
  have hfirst : firstLayer Registries.initial .LINUX_SLL nestedFrame = some (.ok (.sll sll)) := by
    rw [firstLayer, hsll]
    rfl
  obtain ⟨ps, ending, h⟩ :=
    layers_bounded Registries.initial .LINUX_SLL nestedFrame (.sll sll) hfirst
  exact ⟨.sll sll, ps, ending, hfirst, h⟩

/-- On a complete Ethernet header, `parsePacket` returns the layers of the frame, the innermost
of each class, or lets the exception of the first inner decoder that fails through. -/
theorem parsePacket_ethernet (hR : ProtocolType.Reachable R.protocolType) (bytes : Bytes)
    (h14 : 14 ≤ bytes.length) (h18 : shortAt bytes 12 = 0x8100 → 18 ≤ bytes.length) :
    ∃ e ps ending, Ethernet.newInstance R bytes = .ok e ∧ Chain R (.ethernet e) ps ending ∧
      (ending = .null → ∃ m, parsePacket R (some .EN10MB) bytes = .ok m ∧
        ∀ c, m.get c = ps.reverse.find? (fun q => q.getClass = c)) ∧
      ∀ x, ending = .raised x → parsePacket R (some .EN10MB) bytes = .error x := by
  obtain ⟨e, he⟩ := Ethernet.newInstance_ok hR bytes h14 h18
  obtain ⟨ps, ending, hc⟩ := exists_chain R (.ethernet e)
  have hfirst : firstLayer R .EN10MB bytes = some (.ok (.ethernet e)) := by simp [firstLayer, he]
  have hp := parsePacket_of_chain R hfirst hc
  refine ⟨e, ps, ending, he, hc, ?_, ?_⟩
  · intro heq
    subst heq
    exact ⟨_, hp, HashMap.get_ofList getClass ps⟩
  · intro x heq
    subst heq
    exact hp

/-- An Ethernet header of type IPv4 in front of a single byte. -/
def truncatedFrame : Bytes := List.replicate 12 0 ++ [0x08, 0x00, 0x45]

theorem truncatedFrame_escapes :
    14 ≤ truncatedFrame.length ∧ shortAt truncatedFrame 12 ≠ 0x8100 ∧
      parsePacket Registries.initial (some .EN10MB) truncatedFrame = .error .bufferUnderflow :=
  ⟨by decide, by decide, by rfl⟩

theorem parsePacket_truncatedFrame :
    ∃ e ps ending, Ethernet.newInstance Registries.initial truncatedFrame = .ok e ∧
      Chain Registries.initial (.ethernet e) ps ending := by
  obtain ⟨e, ps, ending, he, hc, -⟩ := parsePacket_ethernet Registries.initial .initial
    truncatedFrame (by decide) (by decide)
  exact ⟨e, ps, ending, he, hc⟩

end PacketHelper

end Jxnet
