import Jxnet.Framework.Body
import Jxnet.Framework.Integers

namespace Jxnet

open Java

namespace Native

/-- The classes whose objects hold a native address. -/
inductive Kind where
  | pcap
  | pcapDumper
  | bpfProgram
  deriving DecidableEq, Repr

/-- A Java object of one of the classes. -/
structure Object (kind : Kind) where
  id : Nat
  deriving DecidableEq, Repr

structure Handle where
  kind : Kind
  id : Nat
  deriving DecidableEq, Repr

def Object.handle {kind : Kind} (o : Object kind) : Handle := ⟨kind, o.id⟩

@[simp] theorem Object.handle_kind {kind : Kind} (o : Object kind) : o.handle.kind = kind := rfl

inductive NativeException where
  | nullPointer
  | illegalArgument
  | pcapClose
  | pcapDumperClose
  | bpfProgramClose
  deriving DecidableEq, Repr

def Kind.closeException : Kind → NativeException
  | .pcap => .pcapClose
  | .pcapDumper => .pcapDumperClose
  | .bpfProgram => .bpfProgramClose

/-- The objects that exist and the `address` fields that they have. -/
structure Heap where
  count : Kind → Nat
  address : Handle → JLong

namespace Heap

def empty : Heap := ⟨fun _ => 0, fun _ => 0⟩

def Allocated (heap : Heap) (h : Handle) : Prop := h.id < heap.count h.kind

instance (heap : Heap) (h : Handle) : Decidable (heap.Allocated h) :=
  inferInstanceAs (Decidable (_ < _))

def isClosed (heap : Heap) (h : Handle) : Prop := heap.address h = 0

instance (heap : Heap) (h : Handle) : Decidable (heap.isClosed h) :=
  inferInstanceAs (Decidable (_ = _))

/-- A reference to a closed object. -/
def IsClosed (heap : Heap) {kind : Kind} (jobj : Option (Object kind)) : Prop :=
  ∃ o, jobj = some o ∧ heap.isClosed o.handle

def setAddress (heap : Heap) (h : Handle) (address : JLong) : Heap :=
  { heap with address := fun h' => if h' = h then address else heap.address h' }

/-- A new object of the class, with its address. -/
def new (heap : Heap) (kind : Kind) (address : JLong) : Heap :=
  { heap.setAddress ⟨kind, heap.count kind⟩ address with
    count := fun k => if k = kind then heap.count k + 1 else heap.count k }

variable {heap : Heap} {h h' : Handle}

theorem setAddress_isClosed_self (heap : Heap) (h : Handle) :
    (heap.setAddress h 0).isClosed h := if_pos rfl

theorem setAddress_isClosed (hc : heap.isClosed h') : (heap.setAddress h 0).isClosed h' := by
  by_cases heq : h' = h
  · rw [heq]
    exact setAddress_isClosed_self heap h
  · exact (if_neg heq).trans hc

theorem new_allocated (kind : Kind) (address : JLong) (ha : heap.Allocated h) :
    (heap.new kind address).Allocated h := by
  change h.id < (if h.kind = kind then heap.count h.kind + 1 else heap.count h.kind)
  have hlt : h.id < heap.count h.kind := ha
  split <;> omega

/-- A new object is none of those that exist. -/
theorem new_isClosed (kind : Kind) (address : JLong) (ha : heap.Allocated h)
    (hc : heap.isClosed h) : (heap.new kind address).isClosed h := by
  refine (if_neg ?_).trans hc
  intro heq
  subst heq
  exact Nat.lt_irrefl _ ha

end Heap

/-- A native pointer, with the object it was fetched from. -/
structure Pointer where
  owner : Option Handle
  address : JLong
  deriving DecidableEq, Repr

def Pointer.NULL : Pointer := ⟨none, 0⟩

/-- The functions of libpcap that the entry points call, and the allocator. -/
inductive Libpcap where
  | malloc
  | openLive
  | openOffline
  | openDead
  | create
  | loop
  | dispatch
  | dumpOpen
  | dump
  | compile
  | compileNoPcap
  | setFilter
  | sendPacket
  | next
  | nextEx
  | close
  | dumpFlush
  | dumpClose
  | dumpFTell
  | dumpFile
  | file
  | freeCode
  | dataLink
  | setDataLink
  | dataLinkValToName
  | dataLinkValToDescription
  | breakLoop
  | getErr
  | isSwapped
  | snapshot
  | majorVersion
  | minorVersion
  | setNonBlock
  | getNonBlock
  | stats
  | perror
  | setSnaplen
  | setPromisc
  | setTimeout
  | setBufferSize
  | canSetRfMon
  | setRfMon
  | setImmediateMode
  | activate
  | setDirection
  deriving DecidableEq, Repr

/-- A call of the library, with the pointers and numbers that it is given. -/
structure LibCall where
  function : Libpcap
  pointers : List Pointer
  numbers : List Int
  strings : List String
  deriving DecidableEq, Repr

/-- What an entry point returns to Java. -/
inductive Value where
  | void
  | null
  | number (n : JLong)
  | object (h : Handle)
  | reference (address : JLong)
  deriving DecidableEq, Repr

/-- A string or buffer over native memory, null over NULL. -/
def Value.ofPointer (address : JLong) : Value := if address = 0 then null else reference address

/-- The message of an exception: a text of the source, or one at an address of the library. -/
inductive Message where
  | null
  | text (s : String)
  | native (address : JLong)
  deriving DecidableEq, Repr

structure Thrown where
  exception : NativeException
  message : Message
  deriving DecidableEq, Repr

/-- What an entry point works on: the objects, the exceptions thrown so far, and the calls of
the library made so far. -/
structure World where
  heap : Heap
  thrown : List Thrown
  calls : List LibCall

abbrev Code (α : Type) := Body Value World α

def World.throw (w : World) (e : NativeException) (message : Message) : World :=
  { w with thrown := w.thrown ++ [⟨e, message⟩] }

def World.call (w : World) (call : LibCall) : World := { w with calls := w.calls ++ [call] }

def throwNew (e : NativeException) (message : Message) : Code Unit :=
  Body.update fun w => w.throw e message

/-- `if (condition) return value;`. -/
def returnIf (condition : Bool) (value : Value) : Code Unit :=
  if condition then Body.exit value else pure ()

/-- A call of the library. What it returns is not the binding's to decide. -/
def libpcap (lib : LibCall → JLong) (function : Libpcap) (pointers : List Pointer)
    (numbers : List Int) (strings : List String) : Code JLong := do
  let call : LibCall := ⟨function, pointers, numbers, strings⟩
  Body.update fun w => w.call call
  pure (lib call)

/-- A false expression throws, and its negation is what is returned. -/
def checkArgument (expression : Bool) (message : Message) : Code Bool :=
  if !expression then do
    throwNew .illegalArgument message
    pure !expression
  else pure expression

/-- `if (!CheckArgument(env, expression, message)) return value;`. -/
def guardArgument (expression : Bool) (message : Message) (value : Value) : Code Unit := do
  let r ← checkArgument expression message
  returnIf (!r) value

/-- `if (CheckNotNull(env, jobj, message) == NULL) return value;`. -/
def checkNotNull {α : Type} (jobj : Option α) (message : Message) (value : Value) : Code α :=
  match jobj with
  | some jobj => pure jobj
  | none => do
    throwNew .nullPointer message
    Body.exit value

/-- `GetPcap`, `GetPcapDumper` and `GetBpfProgram`. -/
def getPointer {kind : Kind} (jobj : Option (Object kind)) : Code Pointer :=
  match jobj with
  | none => do
    throwNew .nullPointer .null
    pure Pointer.NULL
  | some jobj => do
    let address ← Body.read fun w => w.heap.address jobj.handle
    if address = 0 then throwNew kind.closeException .null else pure ()
    pure ⟨some jobj.handle, address⟩

/-- `SetPcap`, `SetPcapDumper` and `SetBpfProgram` on a new object. -/
def newObject (kind : Kind) (address : JLong) : Code Value := do
  let id ← Body.read fun w => w.heap.count kind
  Body.update fun w => { w with heap := w.heap.new kind address }
  pure (.object ⟨kind, id⟩)

/-- `SetLongField(env, jobj, AddressFID, (jlong) 0)`. -/
def resetAddress (h : Handle) : Code Unit :=
  Body.update fun w => { w with heap := w.heap.setAddress h 0 }

section Run

variable (w : World)

@[simp] theorem throw_heap (e : NativeException) (m : Message) : (w.throw e m).heap = w.heap := rfl

@[simp] theorem throw_thrown (e : NativeException) (m : Message) :
    (w.throw e m).thrown = w.thrown ++ [⟨e, m⟩] := rfl

@[simp] theorem throw_calls (e : NativeException) (m : Message) :
    (w.throw e m).calls = w.calls := rfl

@[simp] theorem call_heap (c : LibCall) : (w.call c).heap = w.heap := rfl

@[simp] theorem call_thrown (c : LibCall) : (w.call c).thrown = w.thrown := rfl

@[simp] theorem call_calls (c : LibCall) : (w.call c).calls = w.calls ++ [c] := rfl

variable {m : Message} {value : Value}

@[simp] theorem run_pure : (pure value : Code Value).run w = (value, w) := rfl

@[simp] theorem run_throwNew (e : NativeException) (body : Unit → Code Value) :
    (throwNew e m >>= body).run w = (body ()).run (w.throw e m) := rfl

@[simp] theorem run_throwNew_map (e : NativeException) :
    ((fun _ => value) <$> throwNew e m).run w = (value, w.throw e m) := rfl

@[simp] theorem run_resetAddress_map (h : Handle) :
    ((fun _ => value) <$> resetAddress h).run w =
      (value, { w with heap := w.heap.setAddress h 0 }) := rfl

@[simp] theorem run_libpcap (lib : LibCall → JLong) (f : Libpcap) (pointers : List Pointer)
    (numbers : List Int) (strings : List String) (body : JLong → Code Value) :
    (libpcap lib f pointers numbers strings >>= body).run w =
      (body (lib ⟨f, pointers, numbers, strings⟩)).run (w.call ⟨f, pointers, numbers, strings⟩) :=
  rfl

@[simp] theorem run_libpcap_map (lib : LibCall → JLong) (f : Libpcap) (pointers : List Pointer)
    (numbers : List Int) (strings : List String) (result : JLong → Value) :
    (result <$> libpcap lib f pointers numbers strings).run w =
      (result (lib ⟨f, pointers, numbers, strings⟩), w.call ⟨f, pointers, numbers, strings⟩) := rfl

/-- The guard lets every call through. -/
@[simp] theorem run_guardArgument (expression : Bool) (body : Unit → Code Value) :
    (guardArgument expression m value >>= body).run w =
      (body ()).run (if expression then w else w.throw .illegalArgument m) := by
  cases expression <;> rfl

@[simp] theorem run_returnIf (condition : Bool) (body : Unit → Code Value) :
    (returnIf condition value >>= body).run w =
      if condition then (value, w) else (body ()).run w := by
  cases condition <;> rfl

@[simp] theorem run_newObject (kind : Kind) (address : JLong) :
    (newObject kind address).run w =
      (.object ⟨kind, w.heap.count kind⟩, { w with heap := w.heap.new kind address }) := rfl

@[simp] theorem run_checkNotNull_some {α : Type} (a : α) (body : α → Code Value) :
    (checkNotNull (some a) m value >>= body).run w = (body a).run w := rfl

@[simp] theorem run_checkNotNull_none {α : Type} (body : α → Code Value) :
    (checkNotNull none m value >>= body).run w = (value, w.throw .nullPointer m) := rfl

theorem checkNotNull_some_bind {α β : Type} (a : α) (m : Message) (value : Value)
    (k : α → Code β) : (checkNotNull (some a) m value >>= k) = k a := rfl

theorem getPointer_some {kind : Kind} (o : Object kind) :
    getPointer (some o) w = (.ok ⟨some o.handle, w.heap.address o.handle⟩,
      if w.heap.isClosed o.handle then w.throw kind.closeException .null else w) := by
  simp only [getPointer, Body.bind_apply, Body.read_apply]
  by_cases h : w.heap.address o.handle = 0
  · rw [if_pos h, if_pos (show w.heap.isClosed o.handle from h)]
    rfl
  · rw [if_neg h, if_neg (show ¬w.heap.isClosed o.handle from h)]
    rfl

@[simp] theorem run_getPointer_none {kind : Kind} (body : Pointer → Code Value) :
    (getPointer (none : Option (Object kind)) >>= body).run w =
      (body Pointer.NULL).run (w.throw .nullPointer .null) := rfl

@[simp] theorem run_getPointer_some {kind : Kind} (o : Object kind)
    (body : Pointer → Code Value) : (getPointer (some o) >>= body).run w =
      (body ⟨some o.handle, w.heap.address o.handle⟩).run
        (if w.heap.isClosed o.handle then w.throw kind.closeException .null else w) := by
  unfold Body.run
  rw [Body.bind_apply, getPointer_some]

end Run

section Keeps

open Body

theorem keeps_throwNew (e : NativeException) (m : Message) :
    Keeps World.heap (throwNew e m) := fun _ => rfl

theorem keeps_returnIf (condition : Bool) (value : Value) :
    Keeps World.heap (returnIf condition value) :=
  .ite (.exit _) (.pure _)

theorem keeps_libpcap (lib : LibCall → JLong) (f : Libpcap) (pointers : List Pointer)
    (numbers : List Int) (strings : List String) :
    Keeps World.heap (libpcap lib f pointers numbers strings) := fun _ => rfl

theorem keeps_guardArgument (expression : Bool) (m : Message) (value : Value) :
    Keeps World.heap (guardArgument expression m value) := by
  intro w
  cases expression <;> rfl

theorem keeps_checkNotNull {α : Type} (jobj : Option α) (m : Message) (value : Value) :
    Keeps World.heap (checkNotNull jobj m value) := by
  intro w
  cases jobj <;> rfl

theorem keeps_getPointer {kind : Kind} (jobj : Option (Object kind)) :
    Keeps World.heap (getPointer jobj) := by
  intro w
  cases jobj with
  | none => rfl
  | some o =>
    rw [getPointer_some]
    by_cases h : w.heap.isClosed o.handle
    · rw [if_pos h]
      rfl
    · rw [if_neg h]

end Keeps

end Native

end Jxnet
