import Jxnet.Framework.Integers

namespace Java

/-- The unchecked exceptions that array, buffer and argument checks raise. -/
inductive JavaException where
  | bufferUnderflow
  | bufferOverflow
  | negativeArraySize
  | indexOutOfBounds
  | illegalArgument
  | nullPointer
  | classCast
  deriving DecidableEq, Repr

/-! The result of a method that may raise. -/

theorem ok_of_map {α β : Type} {f : α → β} {x : Except JavaException α} {y : β}
    (h : f <$> x = .ok y) : ∃ a, x = .ok a ∧ f a = y := by
  cases x with
  | error e => cases h
  | ok a =>
    cases h
    exact ⟨a, rfl, rfl⟩

theorem exists_map_ok_iff {α β : Type} (f : α → β) (x : Except JavaException α) :
    (∃ y, f <$> x = .ok y) ↔ ∃ a, x = .ok a := by
  constructor
  · intro h
    obtain ⟨y, hy⟩ := h
    obtain ⟨a, ha, -⟩ := ok_of_map hy
    exact ⟨a, ha⟩
  · intro h
    obtain ⟨a, rfl⟩ := h
    exact ⟨f a, rfl⟩

/-- A big-endian `java.nio.ByteBuffer`, its array cut at the position and at the limit.
Every value satisfies position ≤ limit ≤ capacity. -/
structure ByteBuffer where
  before : Bytes
  rest : Bytes
  after : Bytes
  deriving DecidableEq, Repr

/-- A method body that works on one buffer. -/
abbrev Op (α : Type) := StateT ByteBuffer (Except JavaException) α

namespace ByteBuffer

def position (b : ByteBuffer) : Nat := b.before.length

def limit (b : ByteBuffer) : Nat := b.before.length + b.rest.length

def capacity (b : ByteBuffer) : Nat := b.limit + b.after.length

def array (b : ByteBuffer) : Bytes := b.before ++ b.rest ++ b.after

def remaining (b : ByteBuffer) : Nat := b.rest.length

def hasRemaining (b : ByteBuffer) : Bool := !b.rest.isEmpty

/-- A new buffer of `n` zero bytes. -/
def allocate (n : Nat) : ByteBuffer := ⟨[], List.replicate n 0, []⟩

/-- `wrap(bytes, offset, length)`: position `offset`, limit `offset + length`. -/
def wrap (bytes : Bytes) (offset length : Nat) : Except JavaException ByteBuffer :=
  if offset + length ≤ bytes.length then
    .ok ⟨bytes.take offset, (bytes.drop offset).take length, bytes.drop (offset + length)⟩
  else .error .indexOutOfBounds

def clear (b : ByteBuffer) : ByteBuffer := ⟨[], b.before ++ b.rest ++ b.after, []⟩

def flip (b : ByteBuffer) : ByteBuffer := ⟨[], b.before, b.rest ++ b.after⟩

/-- Advance the position by `n` bytes that are known to remain. -/
def skip (b : ByteBuffer) (n : Nat) : ByteBuffer :=
  ⟨b.before ++ b.rest.take n, b.rest.drop n, b.after⟩

/-! Relative reads. -/

def get : Op JByte := fun b =>
  match b.rest with
  | x :: xs => .ok (x, ⟨b.before ++ [x], xs, b.after⟩)
  | [] => .error .bufferUnderflow

def getShort : Op JShort := fun b =>
  match b.rest with
  | x :: y :: xs => .ok (shortOf x y, ⟨b.before ++ [x, y], xs, b.after⟩)
  | _ => .error .bufferUnderflow

def getInt : Op JInt := fun b =>
  match b.rest with
  | x :: y :: z :: w :: xs => .ok (intOf x y z w, ⟨b.before ++ [x, y, z, w], xs, b.after⟩)
  | _ => .error .bufferUnderflow

/-- `get(dst)` into an array of `n` bytes. -/
def getBytes (n : Nat) : Op Bytes := fun b =>
  if n ≤ b.rest.length then .ok (b.rest.take n, b.skip n) else .error .bufferUnderflow

/-- `x = new byte[n]; buffer.get(x)`, where `n` may have come out negative. -/
def getArray (n : Int) : Op Bytes := fun b =>
  if n < 0 then .error .negativeArraySize else getBytes n.toNat b

def getLimit : Op Nat := fun b => .ok (b.limit, b)

def getPosition : Op Nat := fun b => .ok (b.position, b)

/-- `x = new byte[buffer.limit() - c]; buffer.get(x)`. -/
def getUpToLimit (c : Nat) : Op Bytes := fun b => getArray ((b.limit : Int) - (c : Int)) b

/-- A call that does not touch the buffer. -/
def lift {α : Type} (r : Except JavaException α) : Op α := fun b =>
  match r with
  | .ok a => .ok (a, b)
  | .error e => .error e

/-! Writes. -/

def putBytes (xs : Bytes) : Op Unit := fun b =>
  if xs.length ≤ b.rest.length then .ok ((), ⟨b.before ++ xs, b.rest.drop xs.length, b.after⟩)
  else .error .bufferOverflow

def put (x : JByte) : Op Unit := putBytes [x]

def putShort (s : JShort) : Op Unit := putBytes (shortBytes s)

def putInt (x : JInt) : Op Unit := putBytes (intBytes x)

/-- `if (p != null) buffer.put(p)`. -/
def putOptional (p : Option Bytes) : Op Unit :=
  match p with
  | some xs => putBytes xs
  | none => pure ()

/-- `putShort(index, s)`: the position stays. -/
def putShortAt (index : Nat) (s : JShort) : Op Unit := fun b =>
  if index + 2 ≤ b.limit then
    let bytes := (b.before ++ b.rest).take index ++ shortBytes s ++
      (b.before ++ b.rest).drop (index + 2)
    .ok ((), ⟨bytes.take b.position, bytes.drop b.position, b.after⟩)
  else .error .indexOutOfBounds

def rewind : Op Unit := fun b => .ok ((), ⟨[], b.before ++ b.rest, b.after⟩)

/-- Run `m` on a wrapped array of `n` zero bytes and return its value and the array. -/
def encodeWith {α : Type} (n : Int) (m : Op α) : Except JavaException (α × Bytes) :=
  if n < 0 then .error .negativeArraySize
  else match m (allocate n.toNat) with
    | .ok (a, b) => .ok (a, b.array)
    | .error e => .error e

def encode (n : Int) (m : Op Unit) : Except JavaException Bytes := Prod.snd <$> encodeWith n m

/-- `for (i = 0; i < n; ++i) accumulation += 0xffff & buffer.getShort()`. -/
def sumShorts : Nat → JInt → Op JInt
  | 0, accumulation => pure accumulation
  | n + 1, accumulation => do
    let s ← getShort
    sumShorts n (accumulation + (0xffff#32 &&& promote s))

/-- `accumulation += (buffer.get() & 0xff) << 8` where one byte is left over. -/
def sumOddByte (length : Nat) (accumulation : JInt) : Op JInt :=
  if length % 2 > 0 then do
    let x ← get
    pure (accumulation + (promote x &&& 0xff#32) <<< 8)
  else pure accumulation

/-- Fold the carries in once and take the complement. -/
def foldChecksum (accumulation : JInt) : JShort :=
  let accumulation := (accumulation.sshiftRight 16 &&& 0xffff#32) + (accumulation &&& 0xffff#32)
  toShort (~~~accumulation &&& 0xffff#32)

/-- The value that `m` returns. -/
def eval {α : Type} (m : Op α) (b : ByteBuffer) : Except JavaException α :=
  match m b with
  | .ok (a, _) => .ok a
  | .error e => .error e

/-- Run `m` on `wrap(bytes, offset, length)`. -/
def decode {α : Type} (m : Op α) (bytes : Bytes) (offset length : Nat) : Except JavaException α :=
  match wrap bytes offset length with
  | .error e => .error e
  | .ok b => eval m b

section Run

variable {α β : Type} (b : ByteBuffer)

@[simp] theorem bind_apply (m : Op α) (f : α → Op β) :
    (m >>= f) b = match m b with
      | .ok (a, b') => f a b'
      | .error e => .error e := by
  change Except.bind (m b) (fun p => f p.1 p.2) = _
  cases m b <;> rfl

@[simp] theorem map_apply (m : Op α) (f : α → β) :
    (f <$> m) b = match m b with
      | .ok (a, b') => .ok (f a, b')
      | .error e => .error e := by
  change Except.bind (m b) (fun p => Except.ok (f p.1, p.2)) = _
  cases m b <;> rfl

@[simp] theorem pure_apply (a : α) : (pure a : Op α) b = .ok (a, b) := rfl

@[simp] theorem throw_apply (e : JavaException) : (throw e : Op α) b = .error e := rfl

@[simp] theorem get_cons (pre post xs : Bytes) (x : JByte) :
    get ⟨pre, x :: xs, post⟩ = .ok (x, ⟨pre ++ [x], xs, post⟩) := rfl

@[simp] theorem getShort_cons (pre post xs : Bytes) (x y : JByte) :
    getShort ⟨pre, x :: y :: xs, post⟩ = .ok (shortOf x y, ⟨pre ++ [x, y], xs, post⟩) := rfl

@[simp] theorem getInt_cons (pre post xs : Bytes) (x y z w : JByte) :
    getInt ⟨pre, x :: y :: z :: w :: xs, post⟩ =
      .ok (intOf x y z w, ⟨pre ++ [x, y, z, w], xs, post⟩) := rfl

@[simp] theorem getShort_append (pre post xs : Bytes) (s : JShort) :
    getShort ⟨pre, shortBytes s ++ xs, post⟩ = .ok (s, ⟨pre ++ shortBytes s, xs, post⟩) := by
  simp [shortBytes]

@[simp] theorem getInt_append (pre post xs : Bytes) (x : JInt) :
    getInt ⟨pre, intBytes x ++ xs, post⟩ = .ok (x, ⟨pre ++ intBytes x, xs, post⟩) := by
  simp [intBytes]

theorem getBytes_append (pre post xs ys : Bytes) (n : Nat) (h : xs.length = n) :
    getBytes n ⟨pre, xs ++ ys, post⟩ = .ok (xs, ⟨pre ++ xs, ys, post⟩) := by
  subst h
  simp [getBytes, skip]

@[simp] theorem getLimit_apply : getLimit b = .ok (b.limit, b) := rfl

@[simp] theorem getPosition_apply : getPosition b = .ok (b.position, b) := rfl

theorem getArray_natCast (n : Nat) : getArray (n : Int) b = getBytes n b := by
  simp [getArray]

@[simp] theorem lift_ok (a : α) : lift (.ok a) b = .ok (a, b) := rfl

@[simp] theorem lift_error (e : JavaException) : (lift (.error e) : Op α) b = .error e := rfl

theorem getUpToLimit_apply (pre hdr rest post : Bytes) (c : Nat) (h : hdr.length = c) :
    getUpToLimit c ⟨pre ++ hdr, rest, post⟩ =
      if pre = [] then .ok (rest, ⟨pre ++ (hdr ++ rest), [], post⟩)
      else .error .bufferUnderflow := by
  have hl : ((limit ⟨pre ++ hdr, rest, post⟩ : Nat) : Int) - (c : Int) =
      ((pre.length + rest.length : Nat) : Int) := by
    simp only [limit, List.length_append, h]
    omega
  rw [getUpToLimit, hl, getArray_natCast, getBytes]
  by_cases hp : pre = []
  · simp [hp, skip]
  · have hpos : 0 < pre.length := List.length_pos_iff.mpr hp
    have hlt : ¬ pre.length + rest.length ≤ rest.length := by omega
    rw [if_neg hlt, if_neg hp]

end Run

theorem wrap_eq (bytes : Bytes) (offset length : Nat) (h : offset + length ≤ bytes.length) :
    wrap bytes offset length =
      .ok ⟨bytes.take offset, (bytes.drop offset).take length, bytes.drop (offset + length)⟩ := by
  rw [wrap, if_pos h]

theorem wrap_whole (bytes : Bytes) : wrap bytes 0 bytes.length = .ok ⟨[], bytes, []⟩ := by
  simp [wrap]

@[simp] theorem eval_pure {α : Type} (a : α) (b : ByteBuffer) : eval (pure a) b = .ok a := rfl

@[simp] theorem eval_bind {α β : Type} (m : Op α) (f : α → Op β) (b : ByteBuffer) :
    eval (m >>= f) b = match m b with
      | .ok (a, b') => eval (f a) b'
      | .error e => .error e := by
  rw [eval, bind_apply]
  cases m b <;> rfl

/-- The payload read at the end of a decoder: the size `limit - c`, taken behind `c` bytes of
header, is the number of bytes that remain only when the buffer started at position 0. -/
@[simp] theorem eval_getUpToLimit {α : Type} (f : Bytes → α) (pre hdr rest post : Bytes) (c : Nat)
    (h : hdr.length = c) :
    eval (f <$> getUpToLimit c) ⟨pre ++ hdr, rest, post⟩ =
      if pre = [] then .ok (f rest) else .error .bufferUnderflow := by
  rw [eval, map_apply, getUpToLimit_apply pre hdr rest post c h]
  by_cases hp : pre = []
  · simp only [if_pos hp]
  · simp only [if_neg hp]

theorem eval_error {α : Type} {m : Op α} {b : ByteBuffer} {e : JavaException}
    (h : m b = .error e) : eval m b = .error e := by
  rw [eval, h]

theorem eval_ok {α : Type} {m : Op α} {b b' : ByteBuffer} {a : α} (h : m b = .ok (a, b')) :
    eval m b = .ok a := by
  rw [eval, h]

theorem decode_whole {α : Type} (m : Op α) (bytes : Bytes) :
    decode m bytes 0 bytes.length = eval m ⟨[], bytes, []⟩ := by
  simp only [decode, wrap_whole]

theorem decode_eq {α : Type} (m : Op α) (bytes : Bytes) (offset length : Nat)
    (h : offset + length ≤ bytes.length) :
    decode m bytes offset length =
      eval m ⟨bytes.take offset, (bytes.drop offset).take length,
        bytes.drop (offset + length)⟩ := by
  simp only [decode, wrap_eq bytes offset length h]

end ByteBuffer

end Java
