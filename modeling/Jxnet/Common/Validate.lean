import Jxnet.Framework.ByteBuffer
import Mathlib.Data.List.Basic

namespace Jxnet

open Java

/-- `CheckBounds(array, offset, length)`, the same for every type of elements. -/
def Validate.checkBounds {α : Type} (array : List α) (offset length : Int) :
    Except JavaException Unit :=
  if ¬ (array.length : Int) > 0 then .error .illegalArgument
  else if ¬ length > 0 then .error .illegalArgument
  else if offset < 0 ∨ length < 0 ∨ length > array.length ∨ offset > array.length then
    .error .indexOutOfBounds
  else .ok ()

/-- The elements `array[offset .. offset + length)`. -/
def slice {α : Type} (array : List α) (offset length : Nat) : List α :=
  (array.drop offset).take length

section Slice

variable {α : Type} {array : List α} {offset length : Nat}

theorem checkBounds_ok (hlen : 0 < length) (hfit : offset + length ≤ array.length) :
    Validate.checkBounds array offset length = .ok () := by
  rw [Validate.checkBounds, if_neg (by omega), if_neg (by omega), if_neg (by omega)]

theorem slice_length (hfit : offset + length ≤ array.length) :
    (slice array offset length).length = length := by
  rw [slice, List.length_take, List.length_drop]
  omega

theorem slice_ne_nil (hlen : 0 < length) (hfit : offset + length ≤ array.length) :
    slice array offset length ≠ [] := by
  apply List.ne_nil_of_length_pos
  rw [slice_length hfit]
  exact hlen

/-- What is before the slice, the slice and what is after it. -/
theorem take_slice_drop (array : List α) (offset length : Nat) :
    array.take offset ++ (slice array offset length ++ array.drop (offset + length)) = array := by
  rw [slice, ← List.drop_drop, List.take_append_drop, List.take_append_drop]

@[simp] theorem slice_all (array : List α) : slice array 0 array.length = array := by
  rw [slice, List.drop_zero, List.take_length]

/-- A slice is one slice after another. -/
theorem slice_add (array : List α) (offset m n : Nat) :
    slice array offset (m + n) = slice array offset m ++ slice array (offset + m) n := by
  rw [slice, slice, slice, List.take_add, List.drop_drop]

/-- A loop that reads the elements by index. -/
theorem map_getD_range (array : List α) (d : α) {offset n : Nat} (h : offset + n ≤ array.length) :
    (List.range' offset n).map (fun i => array.getD i d) = slice array offset n := by
  apply List.ext_getElem
  · rw [List.length_map, List.length_range', slice_length h]
  · intro i hi hi'
    rw [List.length_map, List.length_range'] at hi
    have hlt : offset + i < array.length := by omega
    simp [slice, List.getElem_range', List.getD_eq_getElem?_getD, hlt]

theorem flatMap_slice {β : Type} (f : α → List β) (d : α) (hfit : offset + length ≤ array.length) :
    (slice array offset length).flatMap f =
      (List.range length).flatMap fun i => f (array.getD (offset + i) d) := by
  rw [← map_getD_range array d hfit, List.range'_eq_map_range, List.map_map, List.flatMap_map]
  rfl

theorem forall_mem_slice_iff {p : α → Prop} (d : α) (hfit : offset + length ≤ array.length) :
    (∀ x ∈ slice array offset length, p x) ↔ ∀ i < length, p (array.getD (offset + i) d) := by
  rw [← map_getD_range array d hfit, List.range'_eq_map_range, List.map_map, List.forall_mem_map]
  simp only [List.mem_range, Function.comp_apply]

theorem flatMap_length_eq {β : Type} {f : α → List β} {n : Nat} (hf : ∀ x, (f x).length = n)
    (l : List α) : (l.flatMap f).length = n * l.length := by
  induction l with
  | nil => rfl
  | cons x l ih =>
    rw [List.flatMap_cons, List.length_append, ih, hf, List.length_cons, Nat.mul_succ, Nat.add_comm]

/-- Pieces of the same lengths one after another are equal piece by piece. -/
theorem flatMap_eq_flatMap_iff {β : Type} {f g : α → List β} (l : List α)
    (hlen : ∀ x ∈ l, (f x).length = (g x).length) :
    l.flatMap f = l.flatMap g ↔ ∀ x ∈ l, f x = g x := by
  constructor
  · intro h
    induction l with
    | nil => simp
    | cons x l ih =>
      obtain ⟨hx, hl⟩ := List.forall_mem_cons.mp hlen
      rw [List.flatMap_cons, List.flatMap_cons] at h
      obtain ⟨hhead, htail⟩ := List.append_inj h hx
      exact List.forall_mem_cons.mpr ⟨hhead, ih hl htail⟩
  · exact List.flatMap_congr

end Slice

end Jxnet
