import Mathlib.Logic.Basic

namespace Java

/-- A `Map` seen through `get`: two maps with the same entries are equal. -/
def HashMap (κ α : Type) := κ → Option α

namespace HashMap

variable {κ α : Type} [DecidableEq κ]

def empty : HashMap κ α := fun _ => none

def get (m : HashMap κ α) (k : κ) : Option α := m k

def containsKey (m : HashMap κ α) (k : κ) : Bool := (m k).isSome

def put (m : HashMap κ α) (k : κ) (v : α) : HashMap κ α :=
  fun k' => if k' = k then some v else m k'

def remove (m : HashMap κ α) (k : κ) : HashMap κ α := fun k' => if k' = k then none else m k'

def clear (_ : HashMap κ α) : HashMap κ α := empty

/-- `putAll`: the entries of `n` win. -/
def putAll (m n : HashMap κ α) : HashMap κ α := fun k => (n k).or (m k)

omit [DecidableEq κ] in
@[ext] theorem ext (m n : HashMap κ α) (h : ∀ k, m.get k = n.get k) : m = n := funext h

omit [DecidableEq κ] in
@[simp] theorem get_empty (k : κ) : (empty : HashMap κ α).get k = none := rfl

theorem get_put (m : HashMap κ α) (k k' : κ) (v : α) :
    (m.put k v).get k' = if k' = k then some v else m.get k' := rfl

theorem get_remove (m : HashMap κ α) (k k' : κ) :
    (m.remove k).get k' = if k' = k then none else m.get k' := rfl

@[simp] theorem get_put_self (m : HashMap κ α) (k : κ) (v : α) : (m.put k v).get k = some v := by
  rw [get_put, if_pos rfl]

omit [DecidableEq κ] in
@[simp] theorem clear_eq (m : HashMap κ α) : m.clear = empty := rfl

omit [DecidableEq κ] in
theorem containsKey_eq (m : HashMap κ α) (k : κ) : m.containsKey k = (m.get k).isSome := rfl

theorem containsKey_put {m : HashMap κ α} {k' : κ} (h : m.containsKey k' = true) (k : κ) (v : α) :
    (m.put k v).containsKey k' = true := by
  rw [containsKey_eq, get_put]
  split
  · rfl
  · exact h

omit [DecidableEq κ] in
@[simp] theorem putAll_empty (m : HashMap κ α) : empty.putAll m = m := by
  funext k
  simp [putAll, empty]

/-- The map that a sequence of `put` calls leaves: the last value under each key. -/
def ofList (key : α → κ) (vs : List α) : HashMap κ α :=
  vs.foldl (fun m v => m.put (key v) v) empty

theorem get_foldl_put (key : α → κ) (vs : List α) (m : HashMap κ α) (k : κ) :
    (vs.foldl (fun m v => m.put (key v) v) m).get k =
      (vs.reverse.find? (fun v => key v = k)).or (m.get k) := by
  induction vs generalizing m with
  | nil => simp
  | cons v vs ih =>
    rw [List.foldl_cons, ih, get_put, List.reverse_cons, List.find?_append]
    by_cases h : k = key v
    · simp [h]
    · simp [h, Ne.symm h]

theorem get_ofList (key : α → κ) (vs : List α) (k : κ) :
    (ofList key vs).get k = vs.reverse.find? (fun v => key v = k) := by
  rw [ofList, get_foldl_put, get_empty, Option.or_none]

/-- Every value stands under its own key. -/
def Keyed (key : α → κ) (m : HashMap κ α) : Prop := ∀ k v, m.get k = some v → key v = k

theorem Keyed.put {key : α → κ} {m : HashMap κ α} (hm : Keyed key m) (v : α) :
    Keyed key (m.put (key v) v) := by
  intro k w h
  rw [get_put] at h
  split at h
  · next hk =>
    cases h
    exact hk.symm
  · exact hm k w h

theorem Keyed.remove {key : α → κ} {m : HashMap κ α} (hm : Keyed key m) (k : κ) :
    Keyed key (m.remove k) := by
  intro k' w h
  rw [get_remove] at h
  split at h
  · cases h
  · exact hm k' w h

theorem keyed_ofList (key : α → κ) (vs : List α) : Keyed key (ofList key vs) := by
  intro k v h
  rw [get_ofList] at h
  simpa using List.find?_some h

/-- The entry under `k` is `v` now, and every other entry is as it was. -/
structure Replaced (m : HashMap κ α) (k : κ) (v : α) (m' : HashMap κ α) : Prop where
  entry : m'.get k = some v
  others : ∀ k', k' ≠ k → m'.get k' = m.get k'

theorem replaced_put (m : HashMap κ α) (k : κ) (v : α) : Replaced m k v (m.put k v) := by
  refine ⟨get_put_self m k v, ?_⟩
  intro k' hk
  rw [get_put, if_neg hk]

end HashMap

end Java
