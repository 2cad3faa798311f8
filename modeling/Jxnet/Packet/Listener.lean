import Jxnet.Packet.PacketHelper

namespace Jxnet

open Java

namespace AbstractPacketListener

open Packet PacketHelper

/-- What a call of `decode` does that can be seen from outside. -/
inductive Event where
  | interpreted (dataLinkType : DataLinkType)
  | nextPacket (packet : Option Packet)
  deriving DecidableEq, Repr

/-- The events of a call, and what it returns or raises. -/
structure Outcome where
  trace : List Event
  result : Except JavaException (Option Packet)

variable (R : Registries)

/-- `while (packet != null)`: stop at the first packet of class `clazz`. -/
def searchBody (clazz : PacketClass) (packet : Packet) :
    Except JavaException (Loop.Step Packet (Option Packet)) :=
  if packet.getClass = clazz then .ok (.done packet)
  else match packet.getPacket R with
    | .error e => .error e
    | .ok none => .ok (.done none)
    | .ok (some packet) => .ok (.next packet)

theorem searchBody_decreases (clazz : PacketClass) :
    Loop.Decreases (searchBody R clazz) payloadSize := by
  intro p q h
  unfold searchBody at h
  split at h
  · cases h
  · split at h
    · cases h
    · cases h
    · next packet hp =>
      cases h
      exact payloadSize_of_some hp

def search (clazz : PacketClass) (packet : Packet) : Except JavaException (Option Packet) :=
  Loop.exec (searchBody R clazz) payloadSize (searchBody_decreases R clazz) packet

/-- The case bodies from one label on. A search that finds nothing has no `break` behind it, so
control enters the next case. -/
def runCases (clazz : PacketClass) (data : Bytes) : List DataLinkType → Outcome
  | [] => ⟨[.nextPacket none], .ok none⟩
  | label :: labels => match firstLayer R label data with
    | none => runCases clazz data labels
    | some first => match first >>= search R clazz with
      | .error e => ⟨[.interpreted label], .error e⟩
      | .ok (some packet) => ⟨[.interpreted label, .nextPacket packet], .ok packet⟩
      | .ok none =>
        let rest := runCases clazz data labels
        ⟨.interpreted label :: rest.trace, rest.result⟩

/-- The labels that control passes through when the switch jumps to a link type. -/
def casesFrom : DataLinkType → List DataLinkType
  | .EN10MB => [.EN10MB, DataLinkType.IEEE802_11_RADIO, .LINUX_SLL]
  | DataLinkType.IEEE802_11_RADIO => [ DataLinkType.IEEE802_11_RADIO, .LINUX_SLL]
  | .LINUX_SLL => [.LINUX_SLL]
  | _ => []

def decode (dataLinkType : Option DataLinkType) (clazz : PacketClass) (data : Bytes) : Outcome :=
  match dataLinkType with
  | none => ⟨[], .error .nullPointer⟩
  | some dataLinkType => runCases R clazz data (casesFrom dataLinkType)

/-- The layers of a frame in its own link type: none where the link type has no decoder. -/
def Layers (dataLinkType : Option DataLinkType) (data : Bytes) (ps : List Packet) : Prop :=
  match dataLinkType.bind (firstLayer R · data) with
  | none => ps = []
  | some first => ∃ p, first = .ok p ∧ Chain R p ps .null

/-- One call of `nextPacket`, with the packet that is returned, and no other link type tried. -/
structure Delivers (o : Outcome) (dataLinkType : Option DataLinkType) (packet : Option Packet) :
    Prop where
  result : o.result = .ok packet
  nextPacket : o.trace.filter (fun e => e matches .nextPacket _) = [.nextPacket packet]
  interpreted : ∀ d, .interpreted d ∈ o.trace → some d = dataLinkType

variable {R}

theorem search_of_chain {p : Packet} {ps : List Packet} (hc : Chain R p ps .null)
    (clazz : PacketClass) :
    search R clazz p = .ok (ps.find? (fun q => q.getClass = clazz)) := by
  generalize he : Ending.null = ending at hc
  induction hc with
  | @last p h =>
    rw [search, Loop.exec_eq]
    by_cases hq : p.getClass = clazz <;> simp [searchBody, hq, h]
  | failed h => cases he
  | @next p q ps ending h hc ih =>
    rw [search, Loop.exec_eq]
    by_cases hq : p.getClass = clazz
    · simp [searchBody, hq]
    · have hs := ih he
      rw [search] at hs
      simp [searchBody, hq, h, hs]

theorem interpreted_mem_runCases {d : DataLinkType} {data : Bytes} {labels : List DataLinkType}
    (h : (firstLayer R d data).isSome) (clazz : PacketClass) :
    .interpreted d ∈ (runCases R clazz data (d :: labels)).trace := by
  obtain ⟨first, hf⟩ := Option.isSome_iff_exists.mp h
  simp only [runCases, hf]
  split <;> simp

/-- A search that finds its class ends the call. -/
theorem runCases_of_found {d : DataLinkType} {data : Bytes} {labels : List DataLinkType}
    {p q : Packet} {ps : List Packet} {clazz : PacketClass}
    (h : firstLayer R d data = some (.ok p)) (hc : Chain R p ps .null)
    (hq : ps.find? (fun q => q.getClass = clazz) = some q) :
    runCases R clazz data (d :: labels) = ⟨[.interpreted d, .nextPacket q], .ok (some q)⟩ := by
  have hs : (Except.ok p >>= search R clazz) = .ok (some q) :=
    (search_of_chain hc clazz).trans (by rw [hq])
  simp only [runCases, h, hs]

/-- A search that finds nothing goes on with the labels behind. -/
theorem runCases_of_missing {d : DataLinkType} {data : Bytes} {labels : List DataLinkType}
    {p : Packet} {ps : List Packet} {clazz : PacketClass}
    (h : firstLayer R d data = some (.ok p)) (hc : Chain R p ps .null)
    (hq : ps.find? (fun q => q.getClass = clazz) = none) :
    runCases R clazz data (d :: labels) =
      ⟨.interpreted d :: (runCases R clazz data labels).trace,
        (runCases R clazz data labels).result⟩ := by
  have hs : (Except.ok p >>= search R clazz) = .ok none :=
    (search_of_chain hc clazz).trans (by rw [hq])
  simp only [runCases, h, hs]

theorem delivers_found {d : DataLinkType} {q : Packet} :
    Delivers ⟨[.interpreted d, .nextPacket q], .ok (some q)⟩ (some d) (some q) :=
  ⟨rfl, rfl, by simp⟩

/-- Once control has entered the case of another link type, the frame is decoded as that one. -/
theorem not_delivers_of_interpreted {o : Outcome} {d d' : DataLinkType} {packet : Option Packet}
    (h : .interpreted d' ∈ o.trace) (hd : d' ≠ d) : ¬ Delivers o (some d) packet := by
  intro ho
  exact hd (Option.some.inj (ho.interpreted d' h))

/-- In front of another label, a listener delivers iff its search finds something. -/
theorem runCases_delivers_iff {d d' : DataLinkType} {data : Bytes} {labels : List DataLinkType}
    {p : Packet} {ps : List Packet} (clazz : PacketClass)
    (h : firstLayer R d data = some (.ok p)) (hc : Chain R p ps .null) (hd : d' ≠ d)
    (h' : (firstLayer R d' data).isSome) :
    Delivers (runCases R clazz data (d :: d' :: labels)) (some d)
        (ps.find? (fun q => q.getClass = clazz)) ↔ ∃ q ∈ ps, q.getClass = clazz := by
  cases hq : ps.find? (fun q => q.getClass = clazz) with
  | some q =>
    rw [runCases_of_found h hc hq]
    have hclass : q.getClass = clazz := by simpa using List.find?_some hq
    exact iff_of_true delivers_found ⟨q, List.mem_of_find?_eq_some hq, hclass⟩
  | none =>
    rw [runCases_of_missing h hc hq]
    have hmem : .interpreted d' ∈ (runCases R clazz data (d' :: labels)).trace :=
      interpreted_mem_runCases h' clazz
    refine iff_of_false (not_delivers_of_interpreted (List.mem_cons_of_mem _ hmem) hd) ?_
    intro hfound
    obtain ⟨q, hmem, hclass⟩ := hfound
    simpa [hclass] using List.find?_eq_none.mp hq q hmem

variable (R)

/-- A listener delivers the first packet of its class, or null, iff the switch does not run out
of the Ethernet or the RadioTap case. -/
theorem decode_delivers_iff (dataLinkType : Option DataLinkType) (clazz : PacketClass)
    (data : Bytes) (ps : List Packet) (h : Layers R dataLinkType data ps) :
    Delivers (decode R dataLinkType clazz data) dataLinkType
        (ps.find? (fun q => q.getClass = clazz)) ↔
      (∃ q ∈ ps, q.getClass = clazz) ∨
        ∃ d, dataLinkType = some d ∧ d ≠ .EN10MB ∧ d ≠ DataLinkType.IEEE802_11_RADIO := by
  cases dataLinkType with
  | none =>
    cases h
    refine iff_of_false (fun hd => ?_) (by simp)
    cases hd.result
  | some d =>
    have hdefault : ∀ ps, ps = [] → firstLayer R d data = none → casesFrom d = [] →
        Delivers (decode R (some d) clazz data) (some d)
          (ps.find? (fun q => q.getClass = clazz)) := by
      intro ps heq _ hcases
      subst heq
      rw [decode, hcases]
      exact ⟨rfl, rfl, by simp [runCases]⟩
    cases d with
    | EN10MB =>
      obtain ⟨p, hp, hc⟩ := h
      have hfirst : firstLayer R .EN10MB data = some (.ok p) := congrArg some hp
      have hiff : Delivers (decode R (some .EN10MB) clazz data) (some .EN10MB)
          (ps.find? (fun q => q.getClass = clazz)) ↔ ∃ q ∈ ps, q.getClass = clazz :=
        runCases_delivers_iff clazz hfirst hc (by decide) rfl
      simpa using hiff
    | IEEE802_11_RADIO =>
      obtain ⟨p, hp, hc⟩ := h
      have hfirst : firstLayer R DataLinkType.IEEE802_11_RADIO data = some (.ok p) :=
        congrArg some hp
      have hiff : Delivers (decode R (some DataLinkType.IEEE802_11_RADIO) clazz data)
          (some DataLinkType.IEEE802_11_RADIO) (ps.find? (fun q => q.getClass = clazz)) ↔
            ∃ q ∈ ps, q.getClass = clazz :=
        runCases_delivers_iff clazz hfirst hc (by decide) rfl
      simpa using hiff
    | LINUX_SLL =>
      obtain ⟨p, hp, hc⟩ := h
      refine iff_of_true ?_ (.inr ⟨_, rfl, by decide, by decide⟩)
      have hfirst : firstLayer R .LINUX_SLL data = some (.ok p) := congrArg some hp
      cases hq : ps.find? (fun q => q.getClass = clazz) with
      | some q =>
        rw [decode, casesFrom, runCases_of_found hfirst hc hq]
        exact delivers_found
      | none =>
        rw [decode, casesFrom, runCases_of_missing hfirst hc hq]
        exact ⟨rfl, rfl, by simp [runCases]⟩
    | _ => exact iff_of_true (hdefault ps h rfl rfl) (.inr ⟨_, rfl, by decide, by decide⟩)

/-- An Ethernet header of type IPv4 with nothing behind it. -/
def bareFrame : Bytes := List.replicate 12 0 ++ [0x08, 0x00]

theorem bareFrame_layers : ∃ e, Layers Registries.initial (some .EN10MB) bareFrame [.ethernet e] :=
  ⟨_, _, rfl, .last rfl⟩

/-- A listener for ARP sees the header tried as RadioTap and as a cooked capture. -/
theorem bareFrame_reinterpreted :
    ∃ ps, Layers Registries.initial (some .EN10MB) bareFrame ps ∧
      ¬ Delivers (decode Registries.initial (some .EN10MB) .ARP bareFrame) (some .EN10MB)
        (ps.find? (fun q => q.getClass = .ARP)) := by
  obtain ⟨e, he⟩ := bareFrame_layers
  refine ⟨_, he, fun hd => ?_⟩
  have hr : (decode Registries.initial (some .EN10MB) .ARP bareFrame).result =
      .error .bufferUnderflow := by rfl
  cases hr.symm.trans hd.result

theorem bareFrame_delivered :
    ∃ e, Delivers (decode Registries.initial (some .EN10MB) .Ethernet bareFrame) (some .EN10MB)
      (some (.ethernet e)) := by
  obtain ⟨e, he⟩ := bareFrame_layers
  exact ⟨e, (decode_delivers_iff Registries.initial (some .EN10MB) .Ethernet bareFrame _ he).mpr
    (.inl ⟨_, List.mem_singleton_self _, rfl⟩)⟩

end AbstractPacketListener

end Jxnet
