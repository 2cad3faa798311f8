import Jxnet.Packet.PacketHelper

namespace Jxnet

open Java ByteBuffer

namespace PacketHelper

open Packet

/-- The layers of one class, from the outermost inwards. -/
def ofClass (clazz : PacketClass) (layers : List Packet) : List Packet :=
  layers.filter fun p => p.getClass = clazz

section Layers

variable {clazz : PacketClass} {p : Packet}

theorem ofClass_nil : ofClass clazz [] = [] := rfl

theorem ofClass_cons_same (h : p.getClass = clazz) (ps : List Packet) :
    ofClass clazz (p :: ps) = p :: ofClass clazz ps := by
  simp [ofClass, h]

theorem ofClass_cons_other (h : p.getClass ≠ clazz) (ps : List Packet) :
    ofClass clazz (p :: ps) = ofClass clazz ps := by
  simp [ofClass, h]

/-- The map keeps the innermost layer of each class. -/
theorem get_ofList_getClass (clazz : PacketClass) (ps : List Packet) :
    (HashMap.ofList getClass ps).get clazz = (ofClass clazz ps).getLast? := by
  rw [HashMap.get_ofList, ofClass, List.getLast?_filter]

end Layers

variable {R : Registries}

/-! One pass of the search, by the class of the layer it looks at. -/

section Pass

variable {clazz : PacketClass} {p : Packet} {next : Option Packet}

/-- Where control goes after a layer that is not returned. -/
def onward (result : Option Packet) (counter : Int) :
    Option Packet → Loop.Step Search (Option Packet)
  | none => .done result
  | some q => .next ⟨q, result, counter⟩

theorem typeBody_found {number : Nat} (hn : number ≠ 0) (h : p.getClass = clazz)
    (result : Option Packet) :
    typeBody R ⟨clazz, number⟩ ⟨p, result, number⟩ = .ok (.done p) := by
  simp [typeBody, h, hn]

theorem typeBody_counted {number counter : Nat} (hn : number ≠ 0) (h : p.getClass = clazz)
    (hc : counter ≠ number) (hp : p.getPacket R = .ok next) (result : Option Packet) :
    typeBody R ⟨clazz, number⟩ ⟨p, result, counter⟩ = .ok (onward result ↑(counter + 1) next) := by
  cases next <;> simp [typeBody, onward, h, hn, hc, hp]

theorem typeBody_other (h : p.getClass ≠ clazz) (hp : p.getPacket R = .ok next)
    (number counter : Int) (result : Option Packet) :
    typeBody R ⟨clazz, number⟩ ⟨p, result, counter⟩ = .ok (onward result counter next) := by
  cases next <;> simp [typeBody, onward, h, hp]

/-- For the number 0 every layer of the class replaces the one found before. -/
theorem typeBody_last (h : p.getClass = clazz) (hp : p.getPacket R = .ok next) (counter : Int)
    (result : Option Packet) :
    typeBody R ⟨clazz, 0⟩ ⟨p, result, counter⟩ = .ok (onward (some p) counter next) := by
  cases next <;> simp [typeBody, onward, h, hp]

end Pass

/-! The whole search, along the chain. -/

/-- With `counter - 1` layers of the class behind it, the search for layer `number` takes the
one that stands `number - counter` further on. -/
theorem typeLoop_number {clazz : PacketClass} {p : Packet} {ps : List Packet} {ending : Ending}
    (hc : Chain R p ps ending) (hend : ending = .null) {number counter : Nat} (hn : number ≠ 0)
    (hle : counter ≤ number) :
    Loop.run (typeBody R ⟨clazz, number⟩) ps.length ⟨p, none, counter⟩ =
      some (.ok (ofClass clazz ps)[number - counter]?) := by
  induction hc generalizing counter with
  | @last p hp =>
    rw [List.length_singleton, Loop.run]
    by_cases h : p.getClass = clazz
    · rw [ofClass_cons_same h, ofClass_nil]
      by_cases heq : counter = number
      · subst heq
        rw [typeBody_found hn h, Nat.sub_self, List.getElem?_cons_zero]
      · obtain ⟨k, hk⟩ : ∃ k, number - counter = k + 1 := ⟨number - counter - 1, by omega⟩
        rw [typeBody_counted hn h heq hp, hk, List.getElem?_cons_succ, List.getElem?_nil]
        rfl
    · rw [ofClass_cons_other h, ofClass_nil, typeBody_other h hp, List.getElem?_nil]
      rfl
  | failed => cases hend
  | @next p q ps ending hp hc ih =>
    rw [List.length_cons, Loop.run]
    by_cases h : p.getClass = clazz
    · rw [ofClass_cons_same h]
      by_cases heq : counter = number
      · subst heq
        rw [typeBody_found hn h, Nat.sub_self, List.getElem?_cons_zero]
      · have hk : number - counter = number - (counter + 1) + 1 := by omega
        rw [typeBody_counted hn h heq hp, hk, List.getElem?_cons_succ]
        exact ih hend (by omega)
    · rw [ofClass_cons_other h, typeBody_other h hp]
      exact ih hend hle

/-- With number 0 the search returns the last layer of the class, or what it had found before. -/
theorem typeLoop_zero {clazz : PacketClass} {p : Packet} {ps : List Packet} {ending : Ending}
    (hc : Chain R p ps ending) (hend : ending = .null) (result : Option Packet) (counter : Int) :
    Loop.run (typeBody R ⟨clazz, 0⟩) ps.length ⟨p, result, counter⟩ =
      some (.ok ((ofClass clazz ps).getLast?.or result)) := by
  induction hc generalizing result with
  | @last p hp =>
    rw [List.length_singleton, Loop.run]
    by_cases h : p.getClass = clazz
    · rw [ofClass_cons_same h, typeBody_last h hp]
      rfl
    · rw [ofClass_cons_other h, typeBody_other h hp]
      rfl
  | failed => cases hend
  | @next p q ps ending hp hc ih =>
    rw [List.length_cons, Loop.run]
    by_cases h : p.getClass = clazz
    · have hlast : (ofClass clazz (p :: ps)).getLast?.or result =
          (ofClass clazz ps).getLast?.or (some p) := by
        rw [ofClass_cons_same h, List.getLast?_cons]
        cases (ofClass clazz ps).getLast? <;> rfl
      rw [hlast, typeBody_last h hp]
      exact ih hend (some p)
    · rw [ofClass_cons_other h, typeBody_other h hp]
      exact ih hend result

variable {d : DataLinkType} {bytes : Bytes} {p : Packet}

theorem parsePacketType_of_run {type : TypeAnnotation} {fuel : Nat}
    {r : Except JavaException (Option Packet)} (h : firstLayer R d bytes = some (.ok p))
    (hrun : Loop.run (typeBody R type) fuel ⟨p, none, 1⟩ = some r) :
    parsePacketType R (some d) bytes (some type) = r := by
  simp only [parsePacketType, h]
  exact Loop.run_eq_exec _ _ (typeBody_decreases R type) hrun

variable (R)

/-- A listener method's `@Type` picks the layer that the annotation names: layer `number` of the
class, counted from the outermost, or for the number 0 the innermost one, which is the one that
the map holds. -/
theorem parsePacketType_eq_layer {ps : List Packet} (h : firstLayer R d bytes = some (.ok p))
    (hc : Chain R p ps .null) (clazz : PacketClass) :
    (∀ n : Nat, 1 ≤ n → parsePacketType R (some d) bytes (some ⟨clazz, n⟩) =
      .ok (ofClass clazz ps)[n - 1]?) ∧
    parsePacketType R (some d) bytes (some ⟨clazz, 0⟩) = .ok (ofClass clazz ps).getLast? ∧
    ∃ m, parsePacket R (some d) bytes = .ok m ∧ m.get clazz = (ofClass clazz ps).getLast? := by
  refine ⟨fun n hn => ?_, ?_, ?_⟩
  · have hrun := @typeLoop_number R clazz _ _ _ hc rfl n 1 (by omega) hn
    exact parsePacketType_of_run h hrun
  · have hrun := @typeLoop_zero R clazz _ _ _ hc rfl none 1
    rw [Option.or_none] at hrun
    exact parsePacketType_of_run h hrun
  · exact ⟨_, parsePacket_of_chain R h hc, get_ofList_getClass clazz ps⟩

theorem parsePacketType_nestedFrame :
    ∃ outer inner : Routing, outer ≠ inner ∧
      parsePacketType Registries.initial (some .LINUX_SLL) nestedFrame (some ⟨.Routing, 1⟩) =
        .ok (some (.routing outer)) ∧
      parsePacketType Registries.initial (some .LINUX_SLL) nestedFrame (some ⟨.Routing, 0⟩) =
        .ok (some (.routing inner)) := by
  obtain ⟨sll, ipv4, outer, inner, hsll, hipv4, houter, hinner, hend, hne⟩ := nestedFrame_layers
  have hfirst : firstLayer Registries.initial .LINUX_SLL nestedFrame = some (.ok (.sll sll)) := by
    rw [firstLayer, hsll]
    rfl
  have hc := Chain.next hipv4 (.next houter (.next hinner (.last hend)))
  obtain ⟨hn, hlast, -⟩ := parsePacketType_eq_layer Registries.initial hfirst hc .Routing
  exact ⟨outer, inner, hne, hn 1 (by decide), hlast⟩

end PacketHelper

end Jxnet
