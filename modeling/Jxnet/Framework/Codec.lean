import Jxnet.Framework.ByteBuffer

namespace Java

namespace ByteBuffer

/-! Taking a byte array apart at the front. -/

theorem exists_byte {n : Nat} {bytes : Bytes} (h : n + 1 ≤ bytes.length) :
    ∃ x rest, bytes = x :: rest ∧ n ≤ rest.length := by
  cases bytes with
  | nil => simp at h
  | cons x rest => exact ⟨x, rest, rfl, by simpa using h⟩

theorem exists_short {n : Nat} {bytes : Bytes} (h : n + 2 ≤ bytes.length) :
    ∃ s rest, bytes = shortBytes s ++ rest ∧ n ≤ rest.length := by
  obtain ⟨x, bytes, rfl, h1⟩ := exists_byte h
  obtain ⟨y, rest, rfl, h2⟩ := exists_byte h1
  exact ⟨shortOf x y, rest, by simp, h2⟩

theorem exists_four {n : Nat} {bytes : Bytes} (h : n + 4 ≤ bytes.length) :
    ∃ x y z w rest, bytes = x :: y :: z :: w :: rest ∧ n ≤ rest.length := by
  obtain ⟨x, bytes, rfl, h1⟩ := exists_byte h
  obtain ⟨y, bytes, rfl, h2⟩ := exists_byte h1
  obtain ⟨z, bytes, rfl, h3⟩ := exists_byte h2
  obtain ⟨w, rest, rfl, h4⟩ := exists_byte h3
  exact ⟨x, y, z, w, rest, rfl, h4⟩

theorem exists_eight {bytes : Bytes} (h : 8 ≤ bytes.length) :
    ∃ x0 x1 x2 x3 x4 x5 x6 x7 rest,
      bytes = x0 :: x1 :: x2 :: x3 :: x4 :: x5 :: x6 :: x7 :: rest := by
  obtain ⟨x0, x1, x2, x3, back, rfl, hback⟩ := exists_four (n := 4) h
  obtain ⟨x4, x5, x6, x7, rest, rfl, -⟩ := exists_four (n := 0) (by simpa using hback)
  exact ⟨x0, x1, x2, x3, x4, x5, x6, x7, rest, rfl⟩

theorem exists_int {n : Nat} {bytes : Bytes} (h : n + 4 ≤ bytes.length) :
    ∃ x rest, bytes = intBytes x ++ rest ∧ n ≤ rest.length := by
  obtain ⟨x, y, z, w, rest, rfl, h4⟩ := exists_four h
  exact ⟨intOf x y z w, rest, by simp, h4⟩

theorem exists_chunk (k : Nat) {n : Nat} {bytes : Bytes} (h : n + k ≤ bytes.length) :
    ∃ xs rest, bytes = xs ++ rest ∧ xs.length = k ∧ n ≤ rest.length := by
  refine ⟨bytes.take k, bytes.drop k, (List.take_append_drop k bytes).symm, ?_, ?_⟩
  · rw [List.length_take]
    omega
  · rw [List.length_drop]
    omega

def byteAt (bytes : Bytes) (i : Nat) : JByte := bytes.getD i 0

def shortAt (bytes : Bytes) (i : Nat) : JShort := shortOf (byteAt bytes i) (byteAt bytes (i + 1))

theorem shortAt_append {i : Nat} (xs ys : Bytes) (s : JShort) (h : xs.length = i) :
    shortAt (xs ++ (shortBytes s ++ ys)) i = s := by
  subst h
  simp [shortAt, byteAt, shortBytes]

def intAt (bytes : Bytes) (i : Nat) : JInt :=
  intOf (byteAt bytes i) (byteAt bytes (i + 1)) (byteAt bytes (i + 2)) (byteAt bytes (i + 3))

theorem intAt_append {i : Nat} (xs ys : Bytes) (x : JInt) (h : xs.length = i) :
    intAt (xs ++ (intBytes x ++ ys)) i = x := by
  subst h
  simp [intAt, byteAt, intBytes]

/-! A read program that takes a fixed number of bytes, whatever they are. -/

/-- `m` takes exactly the next `n` bytes, and fails on underflow when fewer remain. -/
def Consumes {α : Type} (m : Op α) (n : Nat) : Prop :=
  ∀ b : ByteBuffer, (n ≤ b.rest.length → ∃ a, m b = .ok (a, b.skip n)) ∧
    (b.rest.length < n → m b = .error .bufferUnderflow)

section Consumes

variable {α β : Type}

theorem Consumes.pure (a : α) : Consumes (Pure.pure a : Op α) 0 := by
  intro b
  refine ⟨fun _ => ⟨a, by simp [skip]⟩, fun h => absurd h (Nat.not_lt_zero _)⟩

theorem Consumes.get : Consumes ByteBuffer.get 1 := by
  intro b
  obtain ⟨pre, rest, post⟩ := b
  cases rest with
  | nil => simp [ByteBuffer.get]
  | cons x xs => simp [skip]

theorem Consumes.getShort : Consumes ByteBuffer.getShort 2 := by
  intro b
  obtain ⟨pre, rest, post⟩ := b
  match rest with
  | [] => simp [ByteBuffer.getShort]
  | [_] => simp [ByteBuffer.getShort]
  | x :: y :: xs => simp [skip]

theorem Consumes.getInt : Consumes ByteBuffer.getInt 4 := by
  intro b
  obtain ⟨pre, rest, post⟩ := b
  match rest with
  | [] => simp [ByteBuffer.getInt]
  | [_] => simp [ByteBuffer.getInt]
  | [_, _] => simp [ByteBuffer.getInt]
  | [_, _, _] => simp [ByteBuffer.getInt]
  | x :: y :: z :: w :: xs => simp [skip]

theorem Consumes.getBytes (n : Nat) : Consumes (ByteBuffer.getBytes n) n := by
  intro b
  refine ⟨fun h => ⟨b.rest.take n, by rw [ByteBuffer.getBytes, if_pos h]⟩, fun h => ?_⟩
  rw [ByteBuffer.getBytes, if_neg (by omega)]

theorem skip_skip (b : ByteBuffer) (n k : Nat) : (b.skip n).skip k = b.skip (n + k) := by
  simp only [skip, List.drop_drop, List.append_assoc, ← List.take_add]

theorem Consumes.bind {m : Op α} {f : α → Op β} {n k : Nat} (hm : Consumes m n)
    (hf : ∀ a, Consumes (f a) k) : Consumes (m >>= f) (n + k) := by
  intro b
  have hlen : (b.skip n).rest.length = b.rest.length - n := by simp [skip]
  refine ⟨fun h => ?_, fun h => ?_⟩
  · obtain ⟨a, ha⟩ := (hm b).1 (by omega)
    obtain ⟨c, hc⟩ := (hf a (b.skip n)).1 (by omega)
    refine ⟨c, ?_⟩
    simp only [bind_apply, ha, hc, skip_skip]
  · by_cases hn : n ≤ b.rest.length
    · obtain ⟨a, ha⟩ := (hm b).1 hn
      rw [bind_apply, ha]
      exact (hf a (b.skip n)).2 (by omega)
    · rw [bind_apply, (hm b).2 (by omega)]

/-- `m` underflows when fewer than `n` bytes remain. -/
def Needs {α : Type} (m : Op α) (n : Nat) : Prop :=
  ∀ b : ByteBuffer, b.rest.length < n → m b = .error .bufferUnderflow

theorem Needs.zero (m : Op α) : Needs m 0 := fun _ h => absurd h (Nat.not_lt_zero _)

theorem Needs.bind {m : Op α} {f : α → Op β} {n k : Nat} (hm : Consumes m n)
    (hf : ∀ a, Needs (f a) (k - n)) : Needs (m >>= f) k := by
  intro b h
  rw [bind_apply]
  by_cases hn : n ≤ b.rest.length
  · obtain ⟨a, ha⟩ := (hm b).1 hn
    rw [ha]
    refine hf a (b.skip n) ?_
    simp only [skip, List.length_drop]
    omega
  · rw [(hm b).2 (by omega)]

theorem Needs.eval {m : Op α} {n : Nat} (hm : Needs m n) (pre bytes post : Bytes)
    (h : bytes.length < n) : ByteBuffer.eval m ⟨pre, bytes, post⟩ = .error .bufferUnderflow :=
  eval_error (hm _ h)

end Consumes

/-! A decoder whose outcome depends on the bytes up to the limit alone. -/

/-- Where the bytes lie in their array does not matter to `m`. -/
def Local {α : Type} (m : Op α) : Prop :=
  ∀ bytes : Bytes, (∃ e, ∀ pre post, m ⟨pre, bytes, post⟩ = .error e) ∨
    ∃ a rest, ∀ pre post, ∃ pre' post', m ⟨pre, bytes, post⟩ = .ok (a, ⟨pre', rest, post'⟩)

section Local

variable {α β : Type}

theorem Local.pure (a : α) : Local (Pure.pure a : Op α) :=
  fun bytes => .inr ⟨a, bytes, fun pre post => ⟨pre, post, rfl⟩⟩

theorem Local.get : Local ByteBuffer.get := by
  intro bytes
  cases bytes with
  | nil => exact .inl ⟨_, fun _ _ => rfl⟩
  | cons x xs => exact .inr ⟨x, xs, fun _ _ => ⟨_, _, rfl⟩⟩

theorem Local.getShort : Local ByteBuffer.getShort := by
  intro bytes
  match bytes with
  | [] => exact .inl ⟨_, fun _ _ => rfl⟩
  | [_] => exact .inl ⟨_, fun _ _ => rfl⟩
  | x :: y :: xs => exact .inr ⟨_, xs, fun _ _ => ⟨_, _, rfl⟩⟩

theorem Local.getInt : Local ByteBuffer.getInt := by
  intro bytes
  match bytes with
  | [] => exact .inl ⟨_, fun _ _ => rfl⟩
  | [_] => exact .inl ⟨_, fun _ _ => rfl⟩
  | [_, _] => exact .inl ⟨_, fun _ _ => rfl⟩
  | [_, _, _] => exact .inl ⟨_, fun _ _ => rfl⟩
  | x :: y :: z :: w :: xs => exact .inr ⟨_, xs, fun _ _ => ⟨_, _, rfl⟩⟩

theorem Local.getArray (n : Int) : Local (ByteBuffer.getArray n) := by
  intro bytes
  by_cases hn : n < 0
  · exact .inl ⟨_, fun pre post => by rw [ByteBuffer.getArray, if_pos hn]⟩
  · by_cases hl : n.toNat ≤ bytes.length
    · refine .inr ⟨bytes.take n.toNat, bytes.drop n.toNat, fun pre post =>
        ⟨pre ++ bytes.take n.toNat, post, ?_⟩⟩
      rw [ByteBuffer.getArray, if_neg hn, getBytes, if_pos hl]
      rfl
    · exact .inl ⟨_, fun pre post => by
        rw [ByteBuffer.getArray, if_neg hn, getBytes, if_neg hl]⟩

theorem Local.lift (r : Except JavaException α) : Local (ByteBuffer.lift r) := by
  intro bytes
  cases r with
  | ok a => exact .inr ⟨a, bytes, fun pre post => ⟨pre, post, rfl⟩⟩
  | error e => exact .inl ⟨e, fun _ _ => rfl⟩

theorem Local.bind {m : Op α} {f : α → Op β} (hm : Local m) (hf : ∀ a, Local (f a)) :
    Local (m >>= f) := by
  intro bytes
  rcases hm bytes with ⟨e, he⟩ | ⟨a, rest, ha⟩
  · exact .inl ⟨e, fun pre post => by rw [bind_apply, he]⟩
  · rcases hf a rest with ⟨e, he⟩ | ⟨c, rest', hc⟩
    · refine .inl ⟨e, fun pre post => ?_⟩
      obtain ⟨pre', post', hp⟩ := ha pre post
      rw [bind_apply, hp]
      exact he pre' post'
    · refine .inr ⟨c, rest', fun pre post => ?_⟩
      obtain ⟨pre', post', hp⟩ := ha pre post
      obtain ⟨pre'', post'', hp'⟩ := hc pre' post'
      exact ⟨pre'', post'', by rw [bind_apply, hp]; exact hp'⟩

theorem Local.eval_eq {m : Op α} (hm : Local m) (pre bytes post : Bytes) :
    eval m ⟨pre, bytes, post⟩ = eval m ⟨[], bytes, []⟩ := by
  rcases hm bytes with ⟨e, he⟩ | ⟨a, rest, ha⟩
  · rw [eval_error (he pre post), eval_error (he [] [])]
  · obtain ⟨p1, q1, h1⟩ := ha pre post
    obtain ⟨p2, q2, h2⟩ := ha [] []
    rw [eval_ok h1, eval_ok h2]

end Local

/-! A decoder that reads a header and takes what is left as its payload. -/

/-- `header bytes` is the size of the header in front of `bytes`, or the exception that reading
it raises. The payload's size comes from the limit, an absolute position: the read succeeds
only in a buffer that starts at position 0. -/
structure HeaderPayload {α : Type} (m : Op α) (payload : α → Option Bytes)
    (header : Bytes → Except JavaException Nat) : Prop where
  rejects : ∀ {bytes : Bytes} {e : JavaException}, header bytes = .error e →
    ∀ pre post, eval m ⟨pre, bytes, post⟩ = .error e
  accepts : ∀ {bytes : Bytes} {n : Nat}, header bytes = .ok n →
    n ≤ bytes.length ∧ ∃ v, payload v = some (bytes.drop n) ∧
      ∀ pre post, eval m ⟨pre, bytes, post⟩ =
        if pre = [] then .ok v else .error .bufferUnderflow

/-- A header of `n` bytes, whatever they are. -/
def fixedHeader (n : Nat) (bytes : Bytes) : Except JavaException Nat :=
  if n ≤ bytes.length then .ok n else .error .bufferUnderflow

theorem fixedHeader_ok {n k : Nat} {bytes : Bytes} (h : fixedHeader n bytes = .ok k) :
    k = n ∧ n ≤ bytes.length := by
  rw [fixedHeader] at h
  split at h
  · next hn =>
    cases h
    exact ⟨rfl, hn⟩
  · cases h

/-- Both runs return the same value, or both end in an exception. -/
def SameResult {α : Type} : Except JavaException α → Except JavaException α → Prop
  | .ok a, .ok b => a = b
  | .error _, .error _ => True
  | _, _ => False

instance {α : Type} [DecidableEq α] (r r' : Except JavaException α) :
    Decidable (SameResult r r') :=
  match r, r' with
  | .ok a, .ok b => inferInstanceAs (Decidable (a = b))
  | .error _, .error _ => inferInstanceAs (Decidable True)
  | .ok _, .error _ => inferInstanceAs (Decidable False)
  | .error _, .ok _ => inferInstanceAs (Decidable False)

/-- `r` fails exactly where `short` holds, and then by underflow. -/
def UnderflowsIff {α : Type} (r : Except JavaException α) (short : Prop) : Prop :=
  ((∃ e, r = .error e) ↔ short) ∧ ∀ e, r = .error e → e = .bufferUnderflow

theorem UnderflowsIff.congr {α : Type} {r : Except JavaException α} {p q : Prop}
    (h : UnderflowsIff r p) (hpq : p ↔ q) : UnderflowsIff r q :=
  ⟨h.1.trans hpq, h.2⟩

theorem fixedHeader_underflowsIff (n : Nat) (bytes : Bytes) :
    UnderflowsIff (fixedHeader n bytes) (¬ n ≤ bytes.length) := by
  by_cases h : n ≤ bytes.length
  · simp [UnderflowsIff, fixedHeader, h]
  · simp [UnderflowsIff, fixedHeader, h]

theorem sameResult_refl {α : Type} (r : Except JavaException α) : SameResult r r := by
  cases r with
  | ok a => rfl
  | error e => trivial

namespace HeaderPayload

variable {α : Type} {m : Op α} {payload : α → Option Bytes}
  {header : Bytes → Except JavaException Nat}

/-- Take `bytes` apart as a header and a payload, or show that it is rejected. -/
theorem of_cases
    (h : ∀ bytes, (∃ e, header bytes = .error e ∧
        ∀ pre post, eval m ⟨pre, bytes, post⟩ = .error e) ∨
      (∃ hdr rest v, bytes = hdr ++ rest ∧ header bytes = .ok hdr.length ∧
        payload v = some rest ∧ ∀ pre post, eval m ⟨pre, bytes, post⟩ =
          if pre = [] then .ok v else .error .bufferUnderflow)) :
    HeaderPayload m payload header where
  rejects := by
    intro bytes e he
    rcases h bytes with ⟨e', he', hr⟩ | ⟨hdr, rest, v, -, hn, -⟩
    · rw [he] at he'
      cases he'
      exact hr
    · rw [he] at hn
      cases hn
  accepts := by
    intro bytes k hk
    rcases h bytes with ⟨e', he', -⟩ | ⟨hdr, rest, v, hb, hn, hv, hr⟩
    · rw [hk] at he'
      cases he'
    · rw [hk] at hn
      cases hn
      exact ⟨by simp [hb], v, by simp [hb, hv], hr⟩

theorem of_fixed {n : Nat} (hn : Needs m n)
    (hm : ∀ bytes : Bytes, n ≤ bytes.length → ∃ hdr rest v, bytes = hdr ++ rest ∧
      hdr.length = n ∧ payload v = some rest ∧ ∀ pre post, eval m ⟨pre, bytes, post⟩ =
        if pre = [] then .ok v else .error .bufferUnderflow) :
    HeaderPayload m payload (fixedHeader n) := by
  refine of_cases fun bytes => ?_
  by_cases h : n ≤ bytes.length
  · obtain ⟨hdr, rest, v, hb, hl, hv, hr⟩ := hm bytes h
    exact .inr ⟨hdr, rest, v, hb, by rw [fixedHeader, if_pos h, hl], hv, hr⟩
  · exact .inl ⟨_, if_neg h, fun pre post => hn.eval pre bytes post (by omega)⟩

variable (hm : HeaderPayload m payload header)
include hm

theorem whole_error_iff (bytes : Bytes) (e : JavaException) :
    eval m ⟨[], bytes, []⟩ = .error e ↔ header bytes = .error e := by
  refine ⟨fun h => ?_, fun h => hm.rejects h [] []⟩
  cases hh : header bytes with
  | error e' =>
    rw [hm.rejects hh [] []] at h
    cases h
    rfl
  | ok n =>
    obtain ⟨-, v, -, hv⟩ := hm.accepts hh
    rw [hv [] [], if_pos rfl] at h
    cases h

/-- The payload of a decoded value is what follows the header. -/
theorem whole_ok {bytes : Bytes} {v : α} (h : eval m ⟨[], bytes, []⟩ = .ok v) :
    ∃ n, header bytes = .ok n ∧ n ≤ bytes.length ∧ payload v = some (bytes.drop n) := by
  cases hh : header bytes with
  | error e =>
    rw [hm.rejects hh [] []] at h
    cases h
  | ok n =>
    obtain ⟨hn, w, hw, hv⟩ := hm.accepts hh
    rw [hv [] [], if_pos rfl] at h
    cases h
    exact ⟨n, rfl, hn, hw⟩

/-- What a header of `n` bytes needs is those bytes. -/
theorem exists_ok_iff {bytes : Bytes} {n : Nat} (h : header bytes = fixedHeader n bytes) :
    (∃ v, eval m ⟨[], bytes, []⟩ = .ok v) ↔ n ≤ bytes.length := by
  by_cases hn : n ≤ bytes.length
  · obtain ⟨-, v, -, hv⟩ := hm.accepts (h.trans (if_pos hn))
    exact ⟨fun _ => hn, fun _ => ⟨v, by rw [hv, if_pos rfl]⟩⟩
  · rw [hm.rejects (h.trans (if_neg hn))]
    simp [hn]

theorem underflowsIff {bytes : Bytes} {short : Prop} (h : UnderflowsIff (header bytes) short) :
    UnderflowsIff (eval m ⟨[], bytes, []⟩) short := by
  simpa only [UnderflowsIff, hm.whole_error_iff] using h

/-- Decoding in place and decoding a copy differ as soon as the slice starts behind the
front of its array and holds a complete header. -/
theorem slice_iff (pre bytes post : Bytes) :
    SameResult (eval m ⟨pre, bytes, post⟩) (eval m ⟨[], bytes, []⟩) ↔
      pre = [] ∨ ∃ e, header bytes = .error e := by
  cases hh : header bytes with
  | error e =>
    rw [hm.rejects hh pre post, hm.rejects hh [] []]
    simp [SameResult]
  | ok n =>
    obtain ⟨-, v, -, hv⟩ := hm.accepts hh
    rw [hv pre post, hv [] [], if_pos rfl]
    by_cases hp : pre = []
    · simp [hp, SameResult]
    · simp [hp, SameResult]

end HeaderPayload

/-! A write program that appends fixed bytes. -/

/-- `m` writes exactly `xs` where they fit. -/
def Writes (m : Op Unit) (xs : Bytes) : Prop :=
  ∀ b : ByteBuffer, xs.length ≤ b.rest.length →
    m b = .ok ((), ⟨b.before ++ xs, b.rest.drop xs.length, b.after⟩)

section Writes

theorem Writes.pure : Writes (Pure.pure ()) [] := by
  intro b _
  simp

theorem Writes.putBytes (xs : Bytes) : Writes (ByteBuffer.putBytes xs) xs := by
  intro b h
  rw [ByteBuffer.putBytes, if_pos h]

theorem Writes.put (x : JByte) : Writes (ByteBuffer.put x) [x] := Writes.putBytes [x]

theorem Writes.putShort (s : JShort) : Writes (ByteBuffer.putShort s) (shortBytes s) :=
  Writes.putBytes _

theorem Writes.putInt (x : JInt) : Writes (ByteBuffer.putInt x) (intBytes x) :=
  Writes.putBytes _

theorem Writes.putOptional (p : Option Bytes) : Writes (ByteBuffer.putOptional p) (p.getD []) := by
  cases p with
  | none => exact Writes.pure
  | some xs => exact Writes.putBytes xs

theorem Writes.ite {c : Prop} [Decidable c] {m : Op Unit} {xs : Bytes} (hm : Writes m xs) :
    Writes (if c then m else Pure.pure ()) (if c then xs else []) := by
  by_cases hc : c
  · simpa only [if_pos hc] using hm
  · simpa only [if_neg hc] using Writes.pure

theorem Writes.bind {m : Op Unit} {f : Unit → Op Unit} {xs ys : Bytes} (hm : Writes m xs)
    (hf : Writes (f ()) ys) : Writes (m >>= f) (xs ++ ys) := by
  intro b h
  rw [List.length_append] at h
  rw [bind_apply, hm b (by omega)]
  have hys := hf ⟨b.before ++ xs, b.rest.drop xs.length, b.after⟩ (by simp; omega)
  simp only [hys, List.append_assoc, List.drop_drop, List.length_append]

/-- Encoding into an array that `xs` fills. -/
theorem Writes.encode_exact {m : Op Unit} {xs : Bytes} {n : Nat} (hm : Writes m xs)
    (h : xs.length = n) : ByteBuffer.encode (n : Int) m = .ok xs := by
  have hneg : ¬ (n : Int) < 0 := by omega
  have hb := hm (allocate n) (by simp [allocate, h])
  rw [encode, encodeWith, if_neg hneg, Int.toNat_natCast, hb]
  simp [allocate, array, h]

/-- Encoding into an array that is larger: it keeps its zeros behind `xs`. -/
theorem Writes.encode_padded {m : Op Unit} {xs : Bytes} {n : Nat} (hm : Writes m xs)
    (h : xs.length ≤ n) :
    ByteBuffer.encode (n : Int) m = .ok (xs ++ List.replicate (n - xs.length) 0) := by
  have hneg : ¬ (n : Int) < 0 := by omega
  have hb := hm (allocate n) (by simpa [allocate] using h)
  rw [encode, encodeWith, if_neg hneg, Int.toNat_natCast, hb]
  simp [allocate, array]

/-- The same for a program that returns a value at the end. -/
theorem Writes.encodeWith_exact {α : Type} {m : Op Unit} {xs : Bytes} {n : Nat} (hm : Writes m xs)
    (h : xs.length = n) (a : α) :
    ByteBuffer.encodeWith (n : Int) (m >>= fun _ => Pure.pure a) = .ok (a, xs) := by
  have hneg : ¬ (n : Int) < 0 := by omega
  have hb := hm (ByteBuffer.allocate n) (by simp [ByteBuffer.allocate, h])
  rw [encodeWith, if_neg hneg, Int.toNat_natCast, bind_apply, hb]
  simp [ByteBuffer.allocate, array, h]

/-- Encoding that goes on behind the bytes of `m`. -/
theorem Writes.allocate {m : Op Unit} {xs : Bytes} (hm : Writes m xs) (n : Nat) :
    m (ByteBuffer.allocate (xs.length + n)) = .ok ((), ⟨xs, List.replicate n 0, []⟩) := by
  rw [hm _ (by simp [ByteBuffer.allocate])]
  simp [ByteBuffer.allocate]

/-- `m` writes exactly `xs` where they fit, and overflows where they do not. -/
structure Puts (m : Op Unit) (xs : Bytes) : Prop where
  writes : Writes m xs
  overflows : ∀ b : ByteBuffer, b.rest.length < xs.length → m b = .error .bufferOverflow

theorem Puts.pure : Puts (Pure.pure ()) [] :=
  ⟨Writes.pure, fun _ h => absurd h (Nat.not_lt_zero _)⟩

theorem Puts.putBytes (xs : Bytes) : Puts (ByteBuffer.putBytes xs) xs := by
  refine ⟨Writes.putBytes xs, fun b h => ?_⟩
  have hn : ¬ xs.length ≤ b.rest.length := by omega
  rw [ByteBuffer.putBytes, if_neg hn]

theorem Puts.put (x : JByte) : Puts (ByteBuffer.put x) [x] := Puts.putBytes [x]

theorem Puts.putShort (s : JShort) : Puts (ByteBuffer.putShort s) (shortBytes s) :=
  Puts.putBytes _

theorem Puts.putOptional (p : Option Bytes) : Puts (ByteBuffer.putOptional p) (p.getD []) := by
  cases p with
  | none => exact Puts.pure
  | some xs => exact Puts.putBytes xs

theorem Puts.ite {c : Prop} [Decidable c] {m : Op Unit} {xs : Bytes} (hm : Puts m xs) :
    Puts (if c then m else Pure.pure ()) (if c then xs else []) := by
  by_cases hc : c
  · simpa only [if_pos hc] using hm
  · simpa only [if_neg hc] using Puts.pure

theorem Puts.bind {m : Op Unit} {f : Unit → Op Unit} {xs ys : Bytes} (hm : Puts m xs)
    (hf : Puts (f ()) ys) : Puts (m >>= f) (xs ++ ys) := by
  refine ⟨hm.writes.bind hf.writes, fun b h => ?_⟩
  rw [List.length_append] at h
  rw [bind_apply]
  by_cases hx : xs.length ≤ b.rest.length
  · rw [hm.writes b hx]
    apply hf.overflows
    simp only [List.length_drop]
    omega
  · rw [hm.overflows b (by omega)]

/-- A write that succeeded had the room. -/
theorem Puts.of_ok {m : Op Unit} {xs : Bytes} (hm : Puts m xs) {b b' : ByteBuffer}
    (h : m b = .ok ((), b')) :
    xs.length ≤ b.rest.length ∧ b' = ⟨b.before ++ xs, b.rest.drop xs.length, b.after⟩ := by
  by_cases hx : xs.length ≤ b.rest.length
  · rw [hm.writes b hx] at h
    cases h
    exact ⟨hx, rfl⟩
  · rw [hm.overflows b (by omega)] at h
    cases h

theorem Puts.encode_overflow {m : Op Unit} {xs : Bytes} {n : Nat} (hm : Puts m xs)
    (h : n < xs.length) : ByteBuffer.encode (n : Int) m = .error .bufferOverflow := by
  have hneg : ¬ (n : Int) < 0 := by omega
  have hb := hm.overflows (allocate n) (by simpa [allocate] using h)
  rw [encode, encodeWith, if_neg hneg, Int.toNat_natCast, hb]
  rfl

/-- Patching a word inside what is written or still free. -/
theorem putShortAt_eq (k : Nat) (s : JShort) (b : ByteBuffer) (xs old ys : Bytes)
    (hb : b.before ++ b.rest = xs ++ (old ++ ys)) (hx : xs.length = k) (ho : old.length = 2) :
    putShortAt k s b = .ok ((), ⟨(xs ++ (shortBytes s ++ ys)).take b.position,
      (xs ++ (shortBytes s ++ ys)).drop b.position, b.after⟩) := by
  have hl : k + 2 ≤ b.limit := by
    have hlen := congrArg List.length hb
    simp only [List.length_append, hx, ho] at hlen
    rw [limit]
    omega
  have hd : (xs ++ (old ++ ys)).drop (k + 2) = ys := by
    have hxo : (xs ++ old).length = k + 2 := by simp [hx, ho]
    rw [← List.append_assoc, ← hxo, List.drop_left]
  have ht : (xs ++ (old ++ ys)).take k = xs := by
    rw [← hx, List.take_left]
  simp only [putShortAt, if_pos hl, hb, ht, hd, List.append_assoc]

theorem putShortAt_append (k : Nat) (s : JShort) (xs old ys rest after : Bytes)
    (hx : xs.length = k) (ho : old.length = 2) :
    putShortAt k s ⟨xs ++ (old ++ ys), rest, after⟩ =
      .ok ((), ⟨xs ++ (shortBytes s ++ ys), rest, after⟩) := by
  have hb : xs ++ (old ++ ys) ++ rest = xs ++ (old ++ (ys ++ rest)) := by simp
  have hpos : (xs ++ (shortBytes s ++ ys)).length = position ⟨xs ++ (old ++ ys), rest, after⟩ := by
    simp [position, ho]
  have hsplit : xs ++ (shortBytes s ++ (ys ++ rest)) = xs ++ (shortBytes s ++ ys) ++ rest := by
    simp
  rw [putShortAt_eq k s ⟨xs ++ (old ++ ys), rest, after⟩ xs old (ys ++ rest) hb hx ho, hsplit,
    List.take_left' hpos, List.drop_left' hpos]

end Writes

end ByteBuffer

end Java
