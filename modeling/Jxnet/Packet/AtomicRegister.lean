import Jxnet.Packet.Registration

namespace Jxnet

open Java

namespace TypeAndCodeClass

/-- `K.register(code, name)` with the object `code`: a null code has no hash code, and nothing is
put. -/
def registerBoxed (clazz : TypeAndCodeClass) (registry : ICMPTypeAndCode.Registry)
    (code : Option JByte) (name : String) :
    Except JavaException (Option ICMPTypeAndCode) × ICMPTypeAndCode.Registry :=
  match code with
  | some code => clazz.register registry code name
  | none => (.error .nullPointer, registry)

/-- The call returns the previous entry and replaces it, or throws and leaves the registry. -/
def RegistersAtomically (clazz : TypeAndCodeClass) (registry : ICMPTypeAndCode.Registry)
    (code : Option JByte) (name : String) : Prop :=
  match clazz.registerBoxed registry code name with
  | (.ok previous, registry') => ∃ c, code = some c ∧ previous = registry.get (clazz.type, c) ∧
      HashMap.Replaced registry (clazz.type, c) (ICMPTypeAndCode.new clazz c name) registry'
  | (.error _, registry') => registry' = registry

/-- The code is null, or no object of another class stands under the pair. -/
def OwnEntry (clazz : TypeAndCodeClass) (registry : ICMPTypeAndCode.Registry)
    (code : Option JByte) : Prop :=
  ∀ c, code = some c → ∀ previous, registry.get (clazz.type, c) = some previous →
    previous.clazz = clazz

/-- The object of another class is lost to the exception. -/
theorem register_of_foreign {clazz : TypeAndCodeClass} {registry : ICMPTypeAndCode.Registry}
    {code : JByte} {previous : ICMPTypeAndCode}
    (hprevious : registry.get (clazz.type, code) = some previous)
    (hforeign : previous.clazz ≠ clazz) (name : String) :
    (clazz.register registry code name).1 = .error .classCast ∧
      (clazz.register registry code name).2 ≠ registry := by
  refine ⟨?_, ?_⟩
  · simp only [register, hprevious, if_neg hforeign]
  · intro heq
    have hget := congrArg (fun m => HashMap.get m (clazz.type, code)) heq
    simp only [register, HashMap.get_put_self, hprevious, Option.some.injEq] at hget
    exact hforeign (congrArg ICMPTypeAndCode.clazz hget).symm

theorem register_of_own {clazz : TypeAndCodeClass} {registry : ICMPTypeAndCode.Registry}
    {code : JByte} (hown : clazz.OwnEntry registry (some code)) (name : String) :
    clazz.register registry code name = (.ok (registry.get (clazz.type, code)),
      registry.put (clazz.type, code) (ICMPTypeAndCode.new clazz code name)) := by
  cases hprevious : registry.get (clazz.type, code) with
  | none => simp only [register, hprevious]
  | some previous =>
    have hclazz := hown code rfl previous hprevious
    simp only [register, hprevious, if_pos hclazz]

theorem registersAtomically_iff (clazz : TypeAndCodeClass) (registry : ICMPTypeAndCode.Registry)
    (code : Option JByte) (name : String) :
    clazz.RegistersAtomically registry code name ↔ clazz.OwnEntry registry code := by
  cases code with
  | none =>
    refine iff_of_true rfl ?_
    intro c hc
    cases hc
  | some code =>
    constructor
    · intro h c hc previous hprevious
      cases hc
      by_contra hforeign
      obtain ⟨hthrows, hchanged⟩ := register_of_foreign hprevious hforeign name
      have hsplit : clazz.register registry code name =
        (.error .classCast, (clazz.register registry code name).2) := Prod.ext hthrows rfl
      rw [RegistersAtomically, registerBoxed, hsplit] at h
      exact hchanged h
    · intro hown
      rw [RegistersAtomically, registerBoxed, register_of_own hown name]
      exact ⟨code, rfl, rfl, HashMap.replaced_put registry _ _⟩

end TypeAndCodeClass

/-- A call that may change the registry. -/
inductive RegistryCall where
  | register (typeAndCode : ICMPTypeAndCode)
  | unregister (typeAndCode : ICMPTypeAndCode)
  | registerClass (clazz : TypeAndCodeClass) (code : Option JByte) (name : String)
  deriving DecidableEq, Repr

namespace RegistryCall

open Transition

/-- The registry that the call leaves, also where it throws. -/
def apply (registry : ICMPTypeAndCode.Registry) : RegistryCall → ICMPTypeAndCode.Registry
  | register typeAndCode => ICMPTypeAndCode.register registry typeAndCode
  | unregister typeAndCode => ICMPTypeAndCode.unregister registry typeAndCode
  | registerClass clazz code name => (clazz.registerBoxed registry code name).2

/-- The registry after the start and then the calls. -/
def runAll (calls : List RegistryCall) : ICMPTypeAndCode.Registry :=
  run apply ICMPTypeAndCode.initial calls

theorem runAll_append (calls : List RegistryCall) (call : RegistryCall) :
    runAll (calls ++ [call]) = call.apply (runAll calls) := run_append_singleton ..

/-- The object passed on is one that a constructor of its class can make. -/
def Made : RegistryCall → Prop
  | register typeAndCode => typeAndCode.type = typeAndCode.clazz.type
  | _ => True

/-- Every entry stands under the type number of its class. -/
def TypesMatch (registry : ICMPTypeAndCode.Registry) : Prop :=
  ∀ k o, registry.get k = some o → k.1 = o.clazz.type

theorem typesMatch_initial : TypesMatch ICMPTypeAndCode.initial := by
  intro k o h
  have hget : (registryAfter []).get k = some o := h
  rw [registryAfter_eq, HashMap.get_ofList] at hget
  have hmem := List.mem_reverse.mp (List.mem_of_find?_eq_some hget)
  have hkey : o.getKey = k := by simpa using List.find?_some hget
  rw [← hkey]
  exact registered_type hmem

theorem TypesMatch.put {registry : ICMPTypeAndCode.Registry} (h : TypesMatch registry)
    {typeAndCode : ICMPTypeAndCode} (htype : typeAndCode.type = typeAndCode.clazz.type) :
    TypesMatch (ICMPTypeAndCode.register registry typeAndCode) := by
  intro k o hget
  rw [ICMPTypeAndCode.register, HashMap.get_put] at hget
  split at hget
  · next hk =>
    cases hget
    rw [hk]
    exact htype
  · exact h k o hget

theorem TypesMatch.apply {registry : ICMPTypeAndCode.Registry} (h : TypesMatch registry)
    {call : RegistryCall} (hmade : call.Made) : TypesMatch (call.apply registry) := by
  cases call with
  | register typeAndCode => exact h.put hmade
  | unregister typeAndCode =>
    intro k o hget
    have hremove : (registry.remove typeAndCode.getKey).get k = some o := hget
    rw [HashMap.get_remove] at hremove
    split at hremove
    · cases hremove
    · exact h k o hremove
  | registerClass clazz code name =>
    cases code with
    | none => exact h
    | some code =>
      have htype : (ICMPTypeAndCode.new clazz code name).type = clazz.type := rfl
      exact h.put htype

theorem typesMatch_runAll {calls : List RegistryCall} (hmade : ∀ call ∈ calls, call.Made) :
    TypesMatch (runAll calls) := by
  induction calls using List.reverseRecOn with
  | nil => exact typesMatch_initial
  | append_singleton calls call ih =>
    rw [runAll_append]
    have hbefore : TypesMatch (runAll calls) :=
      ih fun call' hmem => hmade call' (List.mem_append_left _ hmem)
    exact hbefore.apply (hmade call (by simp))

/-- Only the two classes of type 3 can meet an object of another class. -/
theorem ownEntry_runAll {calls : List RegistryCall} (hmade : ∀ call ∈ calls, call.Made)
    {clazz : TypeAndCodeClass} (htype : clazz.type ≠ 3) (code : Option JByte) :
    clazz.OwnEntry (runAll calls) code := by
  intro c hc previous hprevious
  have hmatch := typesMatch_runAll hmade _ previous hprevious
  have hunique : ∀ a ∈ TypeAndCodeClass.all, ∀ b ∈ TypeAndCodeClass.all, a.type = b.type →
      a.type ≠ 3 → b = a := by decide +kernel
  exact hunique clazz (TypeAndCodeClass.mem_all _) previous.clazz (TypeAndCodeClass.mem_all _)
    hmatch htype

/-- In every run a class registers its object atomically exactly where the entry that it replaces
is its own. -/
theorem registerClass_atomic_iff (calls : List RegistryCall) :
    (∀ before clazz code name, before ++ [.registerClass clazz code name] <+: calls →
      clazz.RegistersAtomically (runAll before) code name) ↔
    (∀ before clazz code name, before ++ [.registerClass clazz code name] <+: calls →
      clazz.OwnEntry (runAll before) code) := by
  constructor
  · intro h before clazz code name hprefix
    exact (clazz.registersAtomically_iff _ code name).mp (h before clazz code name hprefix)
  · intro h before clazz code name hprefix
    exact (clazz.registersAtomically_iff _ code name).mpr (h before clazz code name hprefix)

/-- At the start the pair (3, 0) belongs to `ICMPv6TimeExceeded`, whose entry is lost. -/
theorem destinationUnreachable_not_atomic :
    let clazz := TypeAndCodeClass.ICMPv4DestinationUnreachable
    (clazz.registerBoxed (runAll []) (some 0) "x").1 = .error .classCast ∧
    (clazz.registerBoxed (runAll []) (some 0) "x").2.get (3, 0) =
      some (ICMPTypeAndCode.new clazz 0 "x") ∧
    ¬clazz.RegistersAtomically (runAll []) (some 0) "x" := by
  intro clazz
  refine ⟨by decide, by decide, ?_⟩
  intro h
  have hown := (clazz.registersAtomically_iff (runAll []) (some 0) "x").mp h
  have hforeign := hown 0 rfl
    (ICMPTypeAndCode.new .ICMPv6TimeExceeded 0 "Hop limit exceeded in transit") (by decide)
  exact absurd hforeign (by decide)

end RegistryCall

end Jxnet
