import Jxnet.Framework.ClassInit
import Jxnet.Packet.Registration

namespace Jxnet

open Java ClassInit

/-- `ICMPTypeAndCode` and its subclasses. -/
inductive StaticClass where
  | base
  | sub (clazz : TypeAndCodeClass)
  deriving DecidableEq, Repr

/-- The static fields: which classes have assigned their constants, what has been put into the
registry, and what `register` has been called with. -/
structure Statics where
  assigned : TypeAndCodeClass → Bool
  registry : List ICMPTypeAndCode
  registered : List ICMPTypeAndCode

namespace Statics

/-- The field that holds the constant `c` once its class has assigned it; `none` is null. -/
def constant (statics : Statics) (c : ICMPTypeAndCode) : Option ICMPTypeAndCode :=
  if statics.assigned c.clazz then some c else none

def assign (statics : Statics) (clazz : TypeAndCodeClass) : Statics :=
  { statics with assigned := fun k => k = clazz || statics.assigned k }

def put (statics : Statics) (o : ICMPTypeAndCode) : Statics :=
  { statics with registry := statics.registry ++ [o] }

/-- `ICMPTypeAndCode.register`, which reads the key of its argument. -/
def register (statics : Statics) (typeAndCode : Option ICMPTypeAndCode) : Option Statics :=
  typeAndCode.map fun o => { statics.put o with registered := statics.registered ++ [o] }

end Statics

namespace StaticClass

open TypeAndCodeClass Code

def all : List StaticClass := base :: TypeAndCodeClass.all.map sub

theorem mem_all (clazz : StaticClass) : clazz ∈ all := by
  cases clazz with
  | base => exact List.mem_cons_self ..
  | sub clazz =>
    exact List.mem_cons_of_mem _ (List.mem_map_of_mem (TypeAndCodeClass.mem_all clazz))

def parent : StaticClass → Option StaticClass
  | base => none
  | sub _ => some base

/-- `register(K.CONSTANT);` for each constant. -/
def registerAll : List ICMPTypeAndCode → Code StaticClass Statics
  | [] => done
  | c :: cs => use (sub c.clazz) (action (fun statics => statics.register (statics.constant c))
      (registerAll cs))

def clinit : StaticClass → Code StaticClass Statics
  | base => action (fun statics => some { statics with registry := [] })
      (ite (fun statics => statics.registry.length = 0) (registerAll ICMPTypeAndCode.constants)
        done)
  | sub ICMPUnknownTypeAndCode =>
    action (fun statics => some (statics.assign ICMPUnknownTypeAndCode))
      (use base (action (fun statics =>
        (statics.constant ICMPTypeAndCode.UNKNOWN).map statics.put) done))
  | sub clazz => action (fun statics => some (statics.assign clazz)) done

def classes : Classes StaticClass Statics := ⟨all, mem_all, parent, clinit⟩

end StaticClass

/-- What a program does with the classes. -/
inductive Use where
  | constant (clazz : TypeAndCodeClass)
  | register (clazz : TypeAndCodeClass) (code : JByte) (name : String)
  | registerObject (typeAndCode : ICMPTypeAndCode)
  | decode (type code : JByte)
  deriving DecidableEq, Repr

namespace Use

/-- The class that is used first. -/
def clazz : Use → StaticClass
  | constant clazz => .sub clazz
  | register clazz _ _ => .sub clazz
  | registerObject _ => .base
  | decode _ _ => .base

/-- What is done once that class is there. -/
def rest (use : Use) (s : State StaticClass Statics) : Outcome StaticClass Statics :=
  match use with
  | constant _ => (none, s)
  | register clazz code name =>
    -- the cast of the object found there comes after the put, and is no matter of initialization
    (none, { s with statics := s.statics.put (ICMPTypeAndCode.new clazz code name) })
  | registerObject typeAndCode => (none, { s with
      statics := (s.statics.register (some typeAndCode)).getD s.statics })
  | decode type code =>
    -- an unregistered pair reads `ICMPUnknownTypeAndCode.UNKNOWN`
    if s.statics.registry.any fun o => o.getKey = (type, code) then (none, s)
    else initClass StaticClass.classes (.sub .ICMPUnknownTypeAndCode) s

def exec (use : Use) (s : State StaticClass Statics) : Outcome StaticClass Statics :=
  match initClass StaticClass.classes use.clazz s with
  | (none, s) => use.rest s
  | (some e, s) => (some e, s)

/-- The uses in turn, up to the first error. -/
def run : List Use → State StaticClass Statics → Outcome StaticClass Statics
  | [], s => (none, s)
  | use :: uses, s => match use.exec s with
    | (none, s) => run uses s
    | (some e, s) => (some e, s)

end Use

def State.start : State StaticClass Statics :=
  ⟨fun _ => .uninitialized, ⟨fun _ => false, [], []⟩⟩

/-- Everything that the static block names is there and has been passed to `register`. -/
def AllRegistered (s : State StaticClass Statics) : Prop :=
  ∀ c ∈ ICMPTypeAndCode.constants, s.statics.constant c = some c ∧ c ∈ s.statics.registered

/-- What the initialization of the base class brings about. -/
structure Ready (s : State StaticClass Statics) : Prop where
  base : s.status .base = .initialized
  sub : ∀ clazz ∈ TypeAndCodeClass.all, clazz ≠ .ICMPUnknownTypeAndCode →
    s.status (.sub clazz) = .initialized
  unknown : s.status (.sub .ICMPUnknownTypeAndCode) = .uninitialized ∨
    s.status (.sub .ICMPUnknownTypeAndCode) = .initialized
  registered : AllRegistered s

instance (s : State StaticClass Statics) : Decidable (AllRegistered s) :=
  inferInstanceAs (Decidable (∀ c ∈ ICMPTypeAndCode.constants, _))

instance (s : State StaticClass Statics) : Decidable (Ready s) :=
  decidable_of_iff (s.status .base = .initialized ∧
      (∀ clazz ∈ TypeAndCodeClass.all, clazz ≠ .ICMPUnknownTypeAndCode →
        s.status (.sub clazz) = .initialized) ∧
      (s.status (.sub .ICMPUnknownTypeAndCode) = .uninitialized ∨
        s.status (.sub .ICMPUnknownTypeAndCode) = .initialized) ∧ AllRegistered s)
    ⟨fun h => ⟨h.1, h.2.1, h.2.2.1, h.2.2.2⟩,
      fun h => ⟨h.base, h.sub, h.unknown, h.registered⟩⟩

namespace Ready

variable {s : State StaticClass Statics}

/-- The fields can grow. -/
theorem of_statics (h : Ready s) {statics : Statics}
    (hassigned : statics.assigned = s.statics.assigned)
    (hregistered : ∀ c ∈ s.statics.registered, c ∈ statics.registered) :
    Ready { s with statics } := by
  refine { h with registered := fun c hc => ?_ }
  obtain ⟨hconstant, hmem⟩ := h.registered c hc
  rw [Statics.constant] at hconstant ⊢
  rw [hassigned]
  exact ⟨hconstant, hregistered c hmem⟩

/-- The unknown class is the only one that is left to initialize. -/
theorem initClass_unknown (h : Ready s)
    (hstatus : s.status (.sub .ICMPUnknownTypeAndCode) = .uninitialized) :
    initClass StaticClass.classes (.sub .ICMPUnknownTypeAndCode) s = (none,
      State.mark ⟨(s.mark (.sub .ICMPUnknownTypeAndCode) .inProgress).status,
        (s.statics.assign .ICMPUnknownTypeAndCode).put ICMPTypeAndCode.UNKNOWN⟩
        (.sub .ICMPUnknownTypeAndCode) .initialized) := by
  apply initClass_eq (n := 2)
  have hbase : (s.mark (.sub .ICMPUnknownTypeAndCode) .inProgress).status .base = .initialized := by
    rw [← h.base]
    rfl
  simp only [init, hstatus, StaticClass.classes, Classes.body, StaticClass.parent,
    StaticClass.clinit, Code.exec, hbase]
  rfl

theorem initClass (h : Ready s) (clazz : StaticClass) :
    ∃ s', ClassInit.initClass StaticClass.classes clazz s = (none, s') ∧ Ready s' := by
  cases clazz with
  | base => exact ⟨s, initClass_of_initialized h.base, h⟩
  | sub clazz =>
    by_cases hclazz : clazz = .ICMPUnknownTypeAndCode
    · subst hclazz
      rcases h.unknown with hstatus | hstatus
      · refine ⟨_, h.initClass_unknown hstatus, h.base, ?_, .inr ?_, ?_⟩
        · intro k hk hne
          rw [← h.sub k hk hne]
          simp [State.mark, hne]
        · simp [State.mark]
        · intro c hc
          obtain ⟨hconstant, hmem⟩ := h.registered c hc
          refine ⟨?_, hmem⟩
          have hassigned : s.statics.assigned c.clazz := by
            rw [Statics.constant] at hconstant
            by_contra hnot
            rw [if_neg hnot] at hconstant
            cases hconstant
          rw [Statics.constant, if_pos]
          simp only [State.mark, Statics.put, Statics.assign, hassigned, Bool.or_true]
      · exact ⟨s, initClass_of_initialized hstatus, h⟩
    · exact ⟨s, initClass_of_initialized (h.sub clazz (TypeAndCodeClass.mem_all clazz) hclazz), h⟩

theorem rest (h : Ready s) (use : Use) : ∃ s', use.rest s = (none, s') ∧ Ready s' := by
  cases use with
  | constant clazz => exact ⟨s, rfl, h⟩
  | register clazz code name => exact ⟨_, rfl, h.of_statics rfl fun c hc => hc⟩
  | registerObject o =>
    exact ⟨_, rfl, h.of_statics rfl fun c hc => List.mem_append_left _ hc⟩
  | decode type code =>
    rw [Use.rest]
    split
    · exact ⟨s, rfl, h⟩
    · exact h.initClass _

theorem run (h : Ready s) (uses : List Use) :
    ∃ s', Use.run uses s = (none, s') ∧ Ready s' := by
  induction uses generalizing s with
  | nil => exact ⟨s, rfl, h⟩
  | cons use uses ih =>
    obtain ⟨s1, hinit, h1⟩ := h.initClass use.clazz
    obtain ⟨s2, hrest, h2⟩ := h1.rest use
    obtain ⟨s3, hrun, h3⟩ := ih h2
    refine ⟨s3, ?_, h3⟩
    simp only [Use.run, Use.exec, hinit, hrest, hrun]

end Ready

/-- The base class or the unknown one first: the block of the base class initializes the others,
which find it in progress. -/
theorem ready_first (clazz : StaticClass)
    (h : clazz = .base ∨ clazz = .sub .ICMPUnknownTypeAndCode) :
    ∃ s, initClass StaticClass.classes clazz State.start = (none, s) ∧ Ready s := by
  have hall : ∀ clazz ∈ [StaticClass.base, .sub .ICMPUnknownTypeAndCode],
      (initClass StaticClass.classes clazz State.start).1 = none ∧
        Ready (initClass StaticClass.classes clazz State.start).2 := by decide +kernel
  obtain ⟨herror, hready⟩ := hall clazz (by simpa using h)
  refine ⟨_, ?_, hready⟩
  rw [← herror]

/-- A concrete class first: the block of the base class reads a constant of it that is null. -/
theorem concrete_fails (clazz : TypeAndCodeClass) (h : clazz ≠ .ICMPUnknownTypeAndCode) :
    (initClass StaticClass.classes (.sub clazz) State.start).1 = some .exceptionInInitializer := by
  have hall : ∀ clazz ∈ TypeAndCodeClass.all, clazz ≠ .ICMPUnknownTypeAndCode →
      (initClass StaticClass.classes (.sub clazz) State.start).1 =
        some .exceptionInInitializer := by decide +kernel
  exact hall clazz (TypeAndCodeClass.mem_all clazz) h

/-- Whatever a program does, initialization completes and registers every constant exactly if the
first class used is not one of the concrete ones. -/
theorem run_completes_iff (use : Use) (uses : List Use) :
    ((Use.run (use :: uses) State.start).1 = none ∧
        AllRegistered (Use.run (use :: uses) State.start).2) ↔
      (use.clazz = .base ∨ use.clazz = .sub .ICMPUnknownTypeAndCode) := by
  constructor
  · intro h
    obtain ⟨hrun, -⟩ := h
    cases hclazz : use.clazz with
    | base => exact .inl rfl
    | sub clazz =>
      by_cases hunknown : clazz = .ICMPUnknownTypeAndCode
      · exact .inr (by rw [hunknown])
      · have hfails := concrete_fails clazz hunknown
        rcases hinit : initClass StaticClass.classes (.sub clazz) State.start with ⟨_ | e, s⟩
        · rw [hinit] at hfails
          cases hfails
        · simp only [Use.run, Use.exec, hclazz, hinit] at hrun
          cases hrun
  · intro hclazz
    obtain ⟨s1, hinit, h1⟩ := ready_first use.clazz hclazz
    obtain ⟨s2, hrest, h2⟩ := h1.rest use
    obtain ⟨s3, hrun, h3⟩ := h2.run uses
    have hall : Use.run (use :: uses) State.start = (none, s3) := by
      simp only [Use.run, Use.exec, hinit, hrest, hrun]
    rw [hall]
    exact ⟨rfl, h3.registered⟩

/-- A program that builds an echo request before it decodes anything. -/
theorem echoRequest_first_fails : ¬ ((Use.run [.constant .ICMPv4EchoRequest] State.start).1 = none ∧
    AllRegistered (Use.run [.constant .ICMPv4EchoRequest] State.start).2) := by
  intro h
  obtain ⟨hrun, -⟩ := h
  revert hrun
  decide +kernel

end Jxnet
