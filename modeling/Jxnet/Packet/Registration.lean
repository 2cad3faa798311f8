import Jxnet.Framework.Transition
import Jxnet.Packet.Datagram

namespace Jxnet

open Java ByteBuffer

/-! Lookups after any registrations. -/

/-- `getInstance` gives back the values that `known` holds of, and `unknown` for the others. -/
structure LooksUp {κ α : Type} (getInstance : κ → α) (value : α → κ) (known : κ → Prop)
    (unknown : α) : Prop where
  value_iff : ∀ v, value (getInstance v) = v ↔ known v ∨ v = value unknown
  unknown : ∀ v, ¬ known v → getInstance v = unknown

theorem LooksUp.of_known {κ α : Type} {getInstance : κ → α} {value : α → κ} {known : κ → Prop}
    {unknown : α} (hknown : ∀ v, known v → value (getInstance v) = v)
    (hunknown : ∀ v, ¬ known v → getInstance v = unknown) :
    LooksUp getInstance value known unknown := by
  refine ⟨?_, hunknown⟩
  intro v
  by_cases hv : known v
  · simp [hv, hknown v hv]
  · rw [hunknown v hv]
    simp [hv, eq_comm]

/-- A map whose values stand under their own keys, with one value for all the other keys. -/
theorem LooksUp.getD {κ α : Type} [DecidableEq κ] {value : α → κ} {m : HashMap κ α}
    (h : HashMap.Keyed value m) (unknown : α) :
    LooksUp (fun v => (m.get v).getD unknown) value (fun v => m.containsKey v = true) unknown := by
  apply LooksUp.of_known
  · intro v hv
    rw [HashMap.containsKey_eq] at hv
    obtain ⟨a, ha⟩ := Option.isSome_iff_exists.mp hv
    rw [ha]
    exact h v a ha
  · intro v hv
    rw [HashMap.containsKey_eq, Bool.not_eq_true, Option.isSome_eq_false_iff,
      Option.isNone_iff_eq_none] at hv
    rw [hv]
    rfl

theorem ProtocolType.looksUp {registry : ProtocolType.Registry}
    (h : ProtocolType.Reachable registry) :
    LooksUp (ProtocolType.getInstance registry) ProtocolType.value (ProtocolType.Known registry)
      ProtocolType.UNKNOWN := by
  apply LooksUp.of_known
  · exact fun v hv => ProtocolType.getInstance_value h hv
  · intro v hv
    rw [ProtocolType.Known, not_or, HashMap.containsKey_eq] at hv
    have hlen : ¬ (promote v &&& 0xFFFF#32).toInt ≤ ProtocolType.IEEE802_3_MAX_LENGTH := by
      rw [promote_and_ffff_toInt, ProtocolType.IEEE802_3_MAX_LENGTH]
      omega
    cases hg : registry.get v with
    | some type => simp [hg] at hv
    | none =>
      rw [ProtocolType.getInstance]
      simp only [hg, if_neg hlen]

/-- A call of one of the `register` methods. -/
inductive RegisterCall where
  | protocolType (type : ProtocolType)
  | ipProtocolType (protocol : IPProtocolType)
  | arpOperationCode (operationCode : ARPOperationCode)
  | icmpTypeAndCode (typeAndCode : ICMPTypeAndCode)

namespace Registries

def register (R : Registries) : RegisterCall → Registries
  | .protocolType type =>
    { R with protocolType := ProtocolType.register R.protocolType type }
  | .ipProtocolType protocol =>
    { R with ipProtocolType := IPProtocolType.register R.ipProtocolType protocol }
  | .arpOperationCode operationCode =>
    { R with arpOperationCode := ARPOperationCode.register R.arpOperationCode operationCode }
  | .icmpTypeAndCode typeAndCode =>
    { R with icmpTypeAndCode := ICMPTypeAndCode.register R.icmpTypeAndCode typeAndCode }

/-- The states that calls of the four `register` methods can leave. -/
abbrev Reachable : Registries → Prop :=
  Transition.Reachable Registries.initial (fun _ _ => True) register

/-- Every object stands under its own number. -/
structure Keyed (R : Registries) : Prop where
  protocolType : ProtocolType.Reachable R.protocolType
  ipProtocolType : HashMap.Keyed IPProtocolType.value R.ipProtocolType
  arpOperationCode : HashMap.Keyed ARPOperationCode.value R.arpOperationCode
  icmpTypeAndCode : HashMap.Keyed ICMPTypeAndCode.getKey R.icmpTypeAndCode

theorem keyed_initial : Keyed Registries.initial :=
  ⟨.initial, HashMap.keyed_ofList _ _, HashMap.keyed_ofList _ _, HashMap.keyed_ofList _ _⟩

theorem Keyed.register {R : Registries} (h : Keyed R) (call : RegisterCall) :
    Keyed (R.register call) := by
  cases call with
  | protocolType type => exact { h with protocolType := h.protocolType.register type }
  | ipProtocolType protocol => exact { h with ipProtocolType := h.ipProtocolType.put protocol }
  | arpOperationCode code => exact { h with arpOperationCode := h.arpOperationCode.put code }
  | icmpTypeAndCode t => exact { h with icmpTypeAndCode := h.icmpTypeAndCode.put t }

theorem Reachable.keyed {R : Registries} (h : Reachable R) : Keyed R :=
  Transition.Reachable.invariant keyed_initial (fun _ call hR _ => hR.register call) h

end Registries

/-- What each lookup makes of a number. -/
structure Registries.LooksUpAll (R : Registries) : Prop where
  protocolType : LooksUp (ProtocolType.getInstance R.protocolType) ProtocolType.value
    (ProtocolType.Known R.protocolType) ProtocolType.UNKNOWN
  ipProtocolType : LooksUp (IPProtocolType.getInstance R.ipProtocolType) IPProtocolType.value
    (fun v => R.ipProtocolType.containsKey v = true) IPProtocolType.UNKNOWN
  arpOperationCode : LooksUp (ARPOperationCode.getInstance R.arpOperationCode)
    ARPOperationCode.value (fun v => R.arpOperationCode.containsKey v = true)
    ARPOperationCode.UNKNOWN
  icmpTypeAndCode : LooksUp
    (fun k => ICMPTypeAndCode.getTypeAndCode R.icmpTypeAndCode k.1 k.2) ICMPTypeAndCode.getKey
    (fun k => R.icmpTypeAndCode.containsKey k = true) ICMPTypeAndCode.UNKNOWN

/-- After any registrations a lookup carries a registered number back, and an unregistered one
only as a length of IEEE 802.3 or as the number of the unknown constant. -/
theorem looksUpAll_of_reachable {R : Registries} (h : R.Reachable) : R.LooksUpAll := by
  have hk := h.keyed
  exact ⟨ProtocolType.looksUp hk.protocolType, .getD hk.ipProtocolType _,
    .getD hk.arpOperationCode _, .getD hk.icmpTypeAndCode _⟩

/-- Two calls add entries, and the third replaces one. -/
theorem looksUpAll_registered :
    (((Registries.initial.register (.protocolType ⟨0x88cc, "LLDP", .created⟩)).register
      (.ipProtocolType ⟨89, "OSPF"⟩)).register (.arpOperationCode ⟨1, "Request"⟩)).LooksUpAll :=
  looksUpAll_of_reachable (.step (.step (.step .initial trivial) trivial) trivial)

/-- At the start numbers that no constant has come back as -1. -/
theorem unregistered_rewritten : Registries.initial.Reachable ∧
    (ProtocolType.getInstance Registries.initial.protocolType 0x88cc).value ≠ 0x88cc ∧
    (IPProtocolType.getInstance Registries.initial.ipProtocolType 89).value ≠ 89 ∧
    (ARPOperationCode.getInstance Registries.initial.arpOperationCode 3).value ≠ 3 ∧
    (ICMPTypeAndCode.getTypeAndCode Registries.initial.icmpTypeAndCode 8 1).getKey ≠ (8, 1) :=
  ⟨.initial, by decide, by decide, by decide, by decide⟩

/-- A registered number, or that of `UNKNOWN`, comes back. -/
theorem IPProtocolType.getInstance_value {R : Registries} (hR : R.Reachable) {v : JByte}
    (h : R.ipProtocolType.containsKey v = true ∨ v = IPProtocolType.UNKNOWN.value) :
    (IPProtocolType.getInstance R.ipProtocolType v).value = v := by
  have hlookup := LooksUp.getD hR.keyed.ipProtocolType IPProtocolType.UNKNOWN
  exact (hlookup.value_iff v).mpr h

/-! The registry that both ICMP versions share. -/

inductive ICMPVersion where
  | v4
  | v6
  deriving DecidableEq, Repr

namespace TypeAndCodeClass

/-- The version whose messages the class names. -/
def version : TypeAndCodeClass → Option ICMPVersion
  | ICMPv4DestinationUnreachable | ICMPv4EchoReply | ICMPv4EchoRequest | ICMPv4ParameterProblem
  | ICMPv4RedirectMessage | ICMPv4RouterAdvertisement | ICMPv4RouterSolicitation
  | ICMPv4TimeExceeded | ICMPv4Timestamp | ICMPv4TimestampReply => some .v4
  | ICMPv6DestinationUnreachable | ICMPv6EchoReply | ICMPv6EchoRequest
  | ICMPv6PacketTooBigMessage | ICMPv6ParameterProblem | ICMPv6TimeExceeded => some .v6
  | ICMPUnknownTypeAndCode => none

def all : List TypeAndCodeClass :=
  [ICMPv4DestinationUnreachable, ICMPv4EchoReply, ICMPv4EchoRequest, ICMPv4ParameterProblem,
    ICMPv4RedirectMessage, ICMPv4RouterAdvertisement, ICMPv4RouterSolicitation,
    ICMPv4TimeExceeded, ICMPv4Timestamp, ICMPv4TimestampReply, ICMPv6DestinationUnreachable,
    ICMPv6EchoReply, ICMPv6EchoRequest, ICMPv6PacketTooBigMessage, ICMPv6ParameterProblem,
    ICMPv6TimeExceeded, ICMPUnknownTypeAndCode]

theorem mem_all (clazz : TypeAndCodeClass) : clazz ∈ all := by
  cases clazz <;> decide

/-- `K.register(code, name)`: the object found there before is cast to `K` once the new one is
in. -/
def register (clazz : TypeAndCodeClass) (registry : ICMPTypeAndCode.Registry) (code : JByte)
    (name : String) :
    Except JavaException (Option ICMPTypeAndCode) × ICMPTypeAndCode.Registry :=
  let key := (clazz.type, code)
  let typeAndCode := ICMPTypeAndCode.new clazz code name
  let previous := match registry.get key with
    | some previous => if previous.clazz = clazz then .ok (some previous) else .error .classCast
    | none => .ok none
  (previous, registry.put key typeAndCode)

end TypeAndCodeClass

namespace ICMPVersion

open TypeAndCodeClass

def newInstance (version : ICMPVersion) (R : Registries) (bytes : Bytes) :
    Except JavaException ICMP :=
  match version with
  | v4 => ICMPv4.newInstance R bytes
  | v6 => ICMPv6.newInstance R bytes

/-- The class of the other version that shares a type number with one of this version. -/
def rival : ICMPVersion → TypeAndCodeClass
  | v4 => ICMPv6TimeExceeded
  | v6 => ICMPv4DestinationUnreachable

/-- One class of a version has the type number, and the only other one is the rival. -/
theorem clazz_cases (version : ICMPVersion) (a b : TypeAndCodeClass) (h : a.type = b.type)
    (ha : a.version = some version) : b.version = some version ∨ b = version.rival := by
  have hall : ∀ a ∈ all, ∀ b ∈ all, a.type = b.type → ∀ version ∈ [v4, v6],
      a.version = some version → b.version = some version ∨ b = version.rival := by decide +kernel
  have hversion : version ∈ [v4, v6] := by
    cases version <;> decide
  exact hall a (mem_all a) b (mem_all b) h version hversion ha

theorem rival_type (version : ICMPVersion) : version.rival.type = 3 := by
  cases version <;> rfl

end ICMPVersion

/-- A call `clazz.register(code, name)`. -/
structure ClassCall where
  clazz : TypeAndCodeClass
  code : JByte
  name : String

def ClassCall.object (call : ClassCall) : ICMPTypeAndCode :=
  ICMPTypeAndCode.new call.clazz call.code call.name

/-- The registry that the start and then the calls leave. -/
def registryAfter (calls : List ClassCall) : ICMPTypeAndCode.Registry :=
  calls.foldl (fun registry call => (call.clazz.register registry call.code call.name).2)
    ICMPTypeAndCode.initial

/-- The objects in the order in which they were registered. -/
def registered (calls : List ClassCall) : List ICMPTypeAndCode :=
  ICMPTypeAndCode.constants ++ calls.map ClassCall.object

theorem registryAfter_eq (calls : List ClassCall) :
    registryAfter calls = HashMap.ofList ICMPTypeAndCode.getKey (registered calls) := by
  rw [registered, HashMap.ofList, List.foldl_append, List.foldl_map]
  rfl

theorem registered_type {calls : List ClassCall} {o : ICMPTypeAndCode}
    (h : o ∈ registered calls) : o.type = o.clazz.type := by
  have hconstants : ∀ o ∈ ICMPTypeAndCode.constants, o.type = o.clazz.type := by decide
  rcases List.mem_append.mp h with h | h
  · exact hconstants o h
  · obtain ⟨call, -, rfl⟩ := List.mem_map.mp h
    rfl

/-- Decoding a message yields what was registered last under its pair. -/
theorem newInstance_typeAndCode (version : ICMPVersion) (R : Registries) (type code : JByte)
    (checksum : JShort) (payload : Bytes) :
    (version.newInstance R (type :: code :: (shortBytes checksum ++ payload))).map
        ICMP.typeAndCode =
      .ok (some (ICMPTypeAndCode.getTypeAndCode R.icmpTypeAndCode type code)) := by
  cases version with
  | v4 =>
    rw [ICMPVersion.newInstance, ICMPv4.newInstance_append]
    rfl
  | v6 =>
    rw [ICMPVersion.newInstance, ICMPv6.newInstance_eq, ICMPv4.newInstance_append]
    rfl

/-- The object of a version comes out unless its type number is 3 and the rival has registered the
pair since. -/
theorem newInstance_iff (version : ICMPVersion) (R : Registries) (calls : List ClassCall)
    (before after : List ICMPTypeAndCode) (o : ICMPTypeAndCode)
    (hcalls : registered calls = before ++ o :: after) (hversion : o.clazz.version = some version)
    (hlast : ∀ o' ∈ after, o'.getKey = o.getKey → o'.clazz.version ≠ some version)
    (checksum : JShort) (payload : Bytes) :
    (version.newInstance { R with icmpTypeAndCode := registryAfter calls }
        (o.type :: o.code :: (shortBytes checksum ++ payload))).map ICMP.typeAndCode =
        .ok (some o) ↔
      (o.type = 3 → ∀ o' ∈ after, o'.getKey = o.getKey → o'.clazz ≠ version.rival) := by
  have hfind := HashMap.get_ofList ICMPTypeAndCode.getKey (registered calls) o.getKey
  rw [← registryAfter_eq, hcalls, List.reverse_append, List.reverse_cons, List.append_assoc,
    List.find?_append] at hfind
  rw [newInstance_typeAndCode, ICMPTypeAndCode.getTypeAndCode]
  change Except.ok (some (((registryAfter calls).get o.getKey).getD _)) = _ ↔ _
  rw [hfind]
  cases hafter : after.reverse.find? fun o' => o'.getKey = o.getKey with
  | none =>
    have hno : ∀ o' ∈ after, o'.getKey ≠ o.getKey := by
      intro o' ho' hkey
      have hnone := List.find?_eq_none.mp hafter o' (List.mem_reverse.mpr ho')
      simp [hkey] at hnone
    have hself : ([o] ++ before.reverse).find? (fun o' => o'.getKey = o.getKey) = some o := by
      rw [List.singleton_append, List.find?_cons_of_pos (by simp)]
    rw [hself]
    simp only [Option.none_or, Option.getD_some, true_iff]
    exact fun _ o' ho' hkey => absurd hkey (hno o' ho')
  | some later =>
    have hmem := List.mem_reverse.mp (List.mem_of_find?_eq_some hafter)
    have hkey : later.getKey = o.getKey := by simpa using List.find?_some hafter
    have hne : later.clazz ≠ o.clazz := by
      intro hclazz
      exact hlast later hmem hkey (by rw [hclazz, hversion])
    -- of the classes with this type number the rival alone is left
    have hrival : later.clazz = version.rival := by
      have ho : o ∈ registered calls := by simp [hcalls]
      have hlater : later ∈ registered calls := by simp [hcalls, hmem]
      have htype : o.clazz.type = later.clazz.type := by
        rw [← registered_type ho, ← registered_type hlater]
        exact (congrArg Prod.fst hkey).symm
      exact (version.clazz_cases _ _ htype hversion).resolve_left (hlast later hmem hkey)
    simp only [Option.some_or, Option.getD_some]
    constructor
    · intro heq
      cases heq
      exact absurd rfl hne
    · intro h
      have htype : o.type = 3 := by
        have hlater : later ∈ registered calls := by simp [hcalls, hmem]
        rw [← version.rival_type, ← hrival, ← registered_type hlater]
        exact (congrArg Prod.fst hkey).symm
      exact absurd hrival (h htype later hmem hkey)

/-- At the start the ICMPv6 class has taken the pair (3, 0). -/
theorem destinationUnreachable_lost :
    let o := ICMPTypeAndCode.new .ICMPv4DestinationUnreachable 0 "Destination network unreachable"
    (∃ before after, registered [] = before ++ o :: after ∧
      ∀ o' ∈ after, o'.getKey = o.getKey → o'.clazz.version ≠ some .v4) ∧
    (ICMPVersion.v4.newInstance Registries.initial [3, 0, 0, 0]).map ICMP.typeAndCode ≠
      .ok (some o) := by
  intro o
  refine ⟨⟨[], ICMPTypeAndCode.constants.tail, rfl, by decide⟩, ?_⟩
  have hdecode := newInstance_typeAndCode .v4 Registries.initial 3 0 0 []
  rw [show [3, 0, 0, 0] = (3 : JByte) :: 0 :: (shortBytes 0 ++ []) from rfl, hdecode]
  decide

theorem echoReply_decoded :
    (ICMPVersion.v4.newInstance
        { Registries.initial with icmpTypeAndCode := registryAfter [] }
        (0 :: 0 :: (shortBytes 0 ++ []))).map ICMP.typeAndCode =
      .ok (some (ICMPTypeAndCode.new .ICMPv4EchoReply 0 "Echo reply (used to ping)")) :=
  (newInstance_iff .v4 Registries.initial [] (ICMPTypeAndCode.constants.take 16)
    (ICMPTypeAndCode.constants.drop 17)
    (ICMPTypeAndCode.new .ICMPv4EchoReply 0 "Echo reply (used to ping)") rfl rfl (by decide) 0
    []).mpr fun h => absurd h (by decide)

end Jxnet
