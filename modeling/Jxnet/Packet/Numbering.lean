import Jxnet.Packet.Capture
import Mathlib.Data.List.DropRight
import Mathlib.Data.Nat.ModEq

namespace Jxnet

open Java

namespace AbstractPacketListener

/-- The private fields that `initialize` sets: what it is called with. -/
structure Fields (τ π : Type) where
  packetNumber : JInt
  userArgument : τ
  pcap : π
  pcapPktHdr : PcapPktHdr

def initializeListener {τ π : Type} (packetNumber : JInt) (userArgument : τ) (pcap : π)
    (pktHdr : PcapPktHdr) : Fields τ π :=
  ⟨packetNumber, userArgument, pcap, pktHdr⟩

end AbstractPacketListener

namespace PacketHelper

/-- The arguments of a call `loop(pcap, count, handler, arg)` that the callback captures. -/
structure LoopCall (τ π : Type) where
  pcap : π
  arg : τ

variable {ι τ π : Type} [DecidableEq ι]

/-- The static field, and what each loop's listener has been initialized with, in order. -/
structure Numbering (ι τ π : Type) where
  packetNumber : JInt
  initialized : ι → List (AbstractPacketListener.Fields τ π)

def Numbering.initial : Numbering ι τ π := ⟨0, fun _ => []⟩

/-- What the loops do to the static field: a call of `loop`, or a callback of a running one. -/
inductive Event (ι : Type) where
  | start (loop : ι)
  | callback (loop : ι) (h : PcapPktHdr)

namespace Event

/-- A callback of any loop. -/
def isCallback : Event ι → Bool
  | start _ => false
  | callback _ _ => true

/-- A callback of this loop. -/
def isOf (loop : ι) : Event ι → Bool
  | start _ => false
  | callback loop' _ => loop' = loop

end Event

variable (call : ι → LoopCall τ π)

def step (s : Numbering ι τ π) : Event ι → Numbering ι τ π
  | .start _ => { s with packetNumber := 0 }
  | .callback loop h =>
    let packetNumber := s.packetNumber + 1
    let fields :=
      AbstractPacketListener.initializeListener packetNumber (call loop).arg (call loop).pcap h
    ⟨packetNumber, fun loop' =>
      if loop' = loop then s.initialized loop' ++ [fields] else s.initialized loop'⟩

def run (events : List (Event ι)) : Numbering ι τ π := events.foldl (step call) .initial

/-- The numbers that a loop's listener has been initialized with. -/
def numbers (events : List (Event ι)) (loop : ι) : List JInt :=
  ((run call events).initialized loop).map (·.packetNumber)

/-- 1, 2, 3 and so on. -/
def Consecutive (ns : List JInt) : Prop := ∀ i n, ns[i]? = some n → n.toInt = ((i + 1 : Nat) : Int)

/-! The events behind the last start, and those before it. -/

def sinceStart (events : List (Event ι)) : List (Event ι) := events.rtakeWhile Event.isCallback

def beforeStart (events : List (Event ι)) : List (Event ι) := events.rdropWhile Event.isCallback

/-- How many callbacks of the loop there are. -/
def own (loop : ι) (events : List (Event ι)) : Nat := events.countP (Event.isOf loop)

/-- How many callbacks of other loops there are. -/
def foreign (loop : ι) (events : List (Event ι)) : Nat :=
  events.countP fun e => e.isCallback && !e.isOf loop

/-- Since the last start of any loop the other loops have had as many callbacks as this one had
before it, and this one's callbacks can be counted. -/
def Fits (loop : ι) (events : List (Event ι)) : Prop :=
  foreign loop (sinceStart events) ≡ own loop (beforeStart events) [MOD 2 ^ 32] ∧
    own loop events + 1 < 2 ^ 31

/-- The events before each callback of the loop fit. -/
def InStep (loop : ι) (events : List (Event ι)) : Prop :=
  ∀ pre h post, events = pre ++ .callback loop h :: post → Fits loop pre

/-! The static field counts the callbacks since the last start. -/

theorem run_append_singleton (events : List (Event ι)) (e : Event ι) :
    run call (events ++ [e]) = step call (run call events) e := by
  rw [run, List.foldl_append]
  rfl

theorem run_packetNumber (events : List (Event ι)) :
    (run call events).packetNumber = BitVec.ofNat 32 (sinceStart events).length := by
  induction events using List.reverseRecOn with
  | nil => rfl
  | append_singleton events e ih =>
    rw [run_append_singleton]
    cases e with
    | start loop =>
      rw [sinceStart, List.rtakeWhile_concat_neg _ _ _ Bool.false_ne_true]
      rfl
    | callback loop h =>
      rw [sinceStart, List.rtakeWhile_concat_pos _ _ _ rfl, List.length_append,
        List.length_singleton, BitVec.ofNat_add, ← sinceStart, ← ih]
      rfl

theorem numbers_start (events : List (Event ι)) (loop loop' : ι) :
    numbers call (events ++ [.start loop']) loop = numbers call events loop := by
  rw [numbers, run_append_singleton]
  rfl

theorem numbers_callback (events : List (Event ι)) (loop loop' : ι) (h : PcapPktHdr) :
    numbers call (events ++ [.callback loop' h]) loop =
      if loop = loop' then
        numbers call events loop ++ [BitVec.ofNat 32 ((sinceStart events).length + 1)]
      else numbers call events loop := by
  rw [numbers, run_append_singleton]
  by_cases hloop : loop = loop'
  · simp only [step, if_pos hloop, List.map_append, List.map_cons, List.map_nil,
      AbstractPacketListener.initializeListener, run_packetNumber, BitVec.ofNat_add]
    rfl
  · simp only [step, if_neg hloop]
    rfl

theorem numbers_length (events : List (Event ι)) (loop : ι) :
    (numbers call events loop).length = own loop events := by
  induction events using List.reverseRecOn with
  | nil => rfl
  | append_singleton events e ih =>
    rw [own, List.countP_append, ← own]
    cases e with
    | start loop' =>
      rw [numbers_start, ih]
      rfl
    | callback loop' h =>
      rw [numbers_callback]
      by_cases hloop : loop = loop'
      · subst hloop
        simp [ih, Event.isOf]
      · simp [hloop, ih, Event.isOf, Ne.symm hloop]

/-! A callback continues the numbers of its loop if the events before it fit. -/

theorem toInt_ofNat_iff (n k : Nat) :
    (BitVec.ofNat 32 n).toInt = (k : Int) ↔ n ≡ k [MOD 2 ^ 32] ∧ k < 2 ^ 31 := by
  rw [BitVec.toInt_ofNat']
  simp only [Int.bmod, Nat.ModEq]
  omega

theorem consecutive_append_singleton (ns : List JInt) (n : JInt) :
    Consecutive (ns ++ [n]) ↔ Consecutive ns ∧ n.toInt = ((ns.length + 1 : Nat) : Int) := by
  constructor
  · intro h
    refine ⟨?_, h ns.length n List.getElem?_concat_length⟩
    intro i m hi
    have hlt : i < ns.length := (List.getElem?_eq_some_iff.mp hi).1
    exact h i m (by rw [List.getElem?_append_left hlt, hi])
  · intro hall i m hi
    obtain ⟨hns, hn⟩ := hall
    by_cases hlt : i < ns.length
    · rw [List.getElem?_append_left hlt] at hi
      exact hns i m hi
    · rw [List.getElem?_append_right (by omega)] at hi
      have hi0 : i - ns.length = 0 := by
        have hbound := (List.getElem?_eq_some_iff.mp hi).1
        simpa using hbound
      have hi' : i = ns.length := by omega
      rw [hi0] at hi
      cases hi
      rw [hi', hn]

theorem inStep_append_singleton (loop : ι) (events : List (Event ι)) (e : Event ι) :
    InStep loop (events ++ [e]) ↔
      InStep loop events ∧ ∀ h, e = .callback loop h → Fits loop events := by
  constructor
  · intro hstep
    refine ⟨?_, ?_⟩
    · intro pre h post heq
      subst heq
      exact hstep pre h (post ++ [e]) (by simp)
    · intro h heq
      subst heq
      exact hstep events h [] rfl
  · intro hall pre h post heq
    obtain ⟨hevents, he⟩ := hall
    rcases List.eq_nil_or_concat' post with rfl | ⟨post, e', rfl⟩
    · obtain ⟨rfl, hlast⟩ := List.append_inj' heq rfl
      exact he h (List.singleton_inj.mp hlast)
    · have hshift : pre ++ .callback loop h :: (post ++ [e']) =
          (pre ++ .callback loop h :: post) ++ [e'] := by simp
      rw [hshift] at heq
      exact hevents pre h post (List.append_inj' heq rfl).1

/-- Every event behind the last start is a callback, of this loop or of another one. -/
theorem sinceStart_length (loop : ι) (events : List (Event ι)) :
    (sinceStart events).length =
      own loop (sinceStart events) + foreign loop (sinceStart events) := by
  have hall : ∀ e ∈ sinceStart events, e.isCallback = true :=
    fun e he => List.mem_rtakeWhile_imp he
  generalize sinceStart events = since at hall ⊢
  induction since with
  | nil => rfl
  | cons e rest ih =>
    have hrest := ih fun e he => hall e (List.mem_cons_of_mem _ he)
    have he := hall e (List.mem_cons_self ..)
    simp only [own, foreign, List.length_cons, List.countP_cons, he, Bool.true_and] at hrest ⊢
    cases Event.isOf loop e <;> simp <;> omega

theorem own_eq (loop : ι) (events : List (Event ι)) :
    own loop events = own loop (beforeStart events) + own loop (sinceStart events) := by
  rw [own, own, own, ← List.countP_append, beforeStart, sinceStart,
    List.rdropWhile_append_rtakeWhile]

theorem fits_iff (loop : ι) (events : List (Event ι)) :
    Fits loop events ↔
      (BitVec.ofNat 32 ((sinceStart events).length + 1)).toInt =
        ((own loop events + 1 : Nat) : Int) := by
  have hsince := sinceStart_length loop events
  have hown := own_eq loop events
  rw [toInt_ofNat_iff, Fits]
  simp only [Nat.ModEq]
  omega

/-- For every order of starts and callbacks, a listener is numbered 1, 2, 3 and so on exactly if
each of its callbacks comes in step. -/
theorem consecutive_iff (events : List (Event ι)) (loop : ι) :
    Consecutive (numbers call events loop) ↔ InStep loop events := by
  induction events using List.reverseRecOn with
  | nil =>
    constructor
    · intro _ pre h post heq
      simp at heq
    · intro _ i n hi
      simp [numbers, run, Numbering.initial] at hi
  | append_singleton events e ih =>
    rw [inStep_append_singleton, ← ih]
    cases e with
    | start loop' =>
      rw [numbers_start]
      simp
    | callback loop' h =>
      rw [numbers_callback]
      by_cases hloop : loop = loop'
      · subst hloop
        rw [if_pos rfl, consecutive_append_singleton, numbers_length, ← fits_iff]
        simp
      · rw [if_neg hloop]
        simp [Ne.symm hloop]

/-- The loop on handle 1 starts between two packets of the loop on handle 0, which then numbers
both of its packets 1. -/
theorem numbering_restarts : ¬ Consecutive (numbers (fun pcap : Nat => ⟨pcap, ()⟩)
    [.start 0, .callback 0 ⟨0, 0, 0, 0⟩, .start 1, .callback 0 ⟨0, 0, 0, 0⟩] 0) := by
  intro h
  exact absurd (h 1 1 rfl) (by decide)

end PacketHelper

end Jxnet
