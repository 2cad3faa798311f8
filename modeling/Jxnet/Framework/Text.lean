import Jxnet.Framework.Integers
import Mathlib.Data.List.DropRight
import Mathlib.Data.Nat.Digits.Lemmas

namespace Text

/-! Searching and splitting texts over any alphabet. -/

variable {α : Type} [DecidableEq α]

/-- The first position where `t` stands in `s`. -/
def indexOf (s t : List α) : Option Nat :=
  (List.range (s.length + 1)).find? fun i => t.isPrefixOf (s.drop i)

/-- The last position where `t` stands in `s`. -/
def lastIndexOf (s t : List α) : Option Nat :=
  (List.range (s.length + 1)).reverse.find? fun i => t.isPrefixOf (s.drop i)

def contains (s t : List α) : Bool := (indexOf s t).isSome

def startsWith (s t : List α) : Bool := t.isPrefixOf s

def endsWith (s t : List α) : Bool := t.isSuffixOf s

/-- `split` at a separator: empty parts at the end are dropped, but a text without the separator
is returned as it is. -/
def split (sep : α) (s : List α) : List (List α) :=
  if sep ∈ s then (s.splitOn sep).rdropWhile List.isEmpty else [s]

/-- `split` with a positive limit: the last part holds the rest of the text. -/
def splitLimit (sep : α) (limit : Nat) (s : List α) : List (List α) :=
  let parts := s.splitOn sep
  if parts.length ≤ limit then parts
  else parts.take (limit - 1) ++ [[sep].intercalate (parts.drop (limit - 1))]

/-- The parts with the separator between them. -/
def join (sep : α) (parts : List (List α)) : List α := [sep].intercalate parts

omit [DecidableEq α] in
/-- Texts of parts of one width are cut in one way. -/
theorem flatMap_injective {β : Type} {f : β → List α} {k : Nat} (hk : 0 < k)
    (hlen : ∀ x, (f x).length = k) (hf : Function.Injective f) :
    Function.Injective fun xs : List β => xs.flatMap f := by
  intro xs ys h
  induction xs generalizing ys with
  | nil =>
    cases ys with
    | nil => rfl
    | cons y ys =>
      have hsize := congrArg List.length h
      simp [hlen] at hsize
      omega
  | cons x xs ih =>
    cases ys with
    | nil =>
      have hsize := congrArg List.length h
      simp [hlen] at hsize
      omega
    | cons y ys =>
      simp only [List.flatMap_cons] at h
      obtain ⟨hhead, htail⟩ := List.append_inj h (by rw [hlen, hlen])
      rw [hf hhead, ih htail]

section Search

variable {s t x y : List α}

theorem isPrefixOf_drop_iff {i : Nat} (hi : i ≤ s.length) :
    t.isPrefixOf (s.drop i) = true ↔ ∃ x y, s = x ++ (t ++ y) ∧ x.length = i := by
  rw [List.isPrefixOf_iff_prefix]
  constructor
  · intro h
    obtain ⟨y, hy⟩ := h
    refine ⟨s.take i, y, ?_, List.length_take_of_le hi⟩
    rw [hy, List.take_append_drop]
  · intro h
    obtain ⟨x, y, hs, rfl⟩ := h
    refine ⟨y, ?_⟩
    rw [hs, List.drop_left]

/-- The element found in a sorted list comes before every other one that fits. -/
theorem find_sorted {β : Type} {R : β → β → Prop} {l : List β} (hl : l.Pairwise R) {p : β → Bool}
    {a b : β} (ha : l.find? p = some a) (hb : b ∈ l) (hp : p b = true) : a = b ∨ R a b := by
  obtain ⟨-, as, bs, rfl, has⟩ := List.find?_eq_some_iff_append.mp ha
  rcases List.mem_append.mp hb with hmem | hmem
  · have hnot := has b hmem
    simp [hp] at hnot
  · rcases List.mem_cons.mp hmem with rfl | hmem
    · exact .inl rfl
    · exact .inr (List.rel_of_pairwise_cons (List.pairwise_append.mp hl).2.1 hmem)

theorem of_indexOf {i : Nat} (h : indexOf s t = some i) :
    ∃ x y, s = x ++ (t ++ y) ∧ x.length = i := by
  have hmem := List.mem_range.mp (List.mem_of_find?_eq_some h)
  have hp := List.find?_some (p := fun i => t.isPrefixOf (s.drop i)) h
  exact (isPrefixOf_drop_iff (by omega)).mp hp

theorem of_lastIndexOf {i : Nat} (h : lastIndexOf s t = some i) :
    ∃ x y, s = x ++ (t ++ y) ∧ x.length = i := by
  have hmem := List.mem_range.mp (List.mem_reverse.mp (List.mem_of_find?_eq_some h))
  have hp := List.find?_some (p := fun i => t.isPrefixOf (s.drop i)) h
  exact (isPrefixOf_drop_iff (by omega)).mp hp

/-- Every occurrence lies between the first and the last one. -/
theorem exists_indexOf (h : s = x ++ (t ++ y)) :
    ∃ i j, indexOf s t = some i ∧ lastIndexOf s t = some j ∧ i ≤ x.length ∧ x.length ≤ j := by
  have hle : x.length ≤ s.length := by
    rw [h, List.length_append]
    omega
  have hmem : x.length ∈ List.range (s.length + 1) := List.mem_range.mpr (by omega)
  have hp : t.isPrefixOf (s.drop x.length) = true :=
    (isPrefixOf_drop_iff hle).mpr ⟨x, y, h, rfl⟩
  obtain ⟨i, hi⟩ : ∃ i, indexOf s t = some i :=
    Option.isSome_iff_exists.mp (List.find?_isSome.mpr ⟨x.length, hmem, hp⟩)
  obtain ⟨j, hj⟩ : ∃ j, lastIndexOf s t = some j :=
    Option.isSome_iff_exists.mp
      (List.find?_isSome.mpr ⟨x.length, List.mem_reverse.mpr hmem, hp⟩)
  refine ⟨i, j, hi, hj, ?_, ?_⟩
  · rcases find_sorted List.pairwise_lt_range hi hmem hp with rfl | hlt
    · exact Nat.le_refl _
    · omega
  · have hsorted : (List.range (s.length + 1)).reverse.Pairwise (fun a b => b < a) :=
      List.pairwise_reverse.mpr List.pairwise_lt_range
    rcases find_sorted hsorted hj (List.mem_reverse.mpr hmem) hp with rfl | hlt
    · exact Nat.le_refl _
    · omega

theorem contains_iff : contains s t = true ↔ ∃ x y, s = x ++ (t ++ y) := by
  rw [contains]
  constructor
  · intro h
    obtain ⟨i, hi⟩ := Option.isSome_iff_exists.mp h
    obtain ⟨x, y, hs, -⟩ := of_indexOf hi
    exact ⟨x, y, hs⟩
  · intro h
    obtain ⟨x, y, hs⟩ := h
    obtain ⟨i, j, hi, -⟩ := exists_indexOf hs
    rw [hi]
    rfl

theorem contains_singleton {c : α} : contains s [c] = true ↔ c ∈ s := by
  rw [contains_iff, List.mem_iff_append]
  rfl

theorem startsWith_iff : startsWith s t = true ↔ ∃ y, s = t ++ y := by
  rw [startsWith, List.isPrefixOf_iff_prefix]
  exact ⟨fun ⟨y, hy⟩ => ⟨y, hy.symm⟩, fun ⟨y, hy⟩ => ⟨y, hy.symm⟩⟩

theorem endsWith_iff : endsWith s t = true ↔ ∃ x, s = x ++ t := by
  rw [endsWith, List.isSuffixOf_iff_suffix]
  exact ⟨fun ⟨x, hx⟩ => ⟨x, hx.symm⟩, fun ⟨x, hx⟩ => ⟨x, hx.symm⟩⟩

end Search

section Split

variable {sep : α}

omit [DecidableEq α] in
@[simp] theorem join_nil : join sep [] = [] := rfl

omit [DecidableEq α] in
@[simp] theorem join_singleton (part : List α) : join sep [part] = part :=
  List.intercalate_singleton

omit [DecidableEq α] in
theorem join_cons (part : List α) {parts : List (List α)} (h : parts ≠ []) :
    join sep (part :: parts) = part ++ sep :: join sep parts := by
  rw [join, List.intercalate_cons_of_ne_nil h, join, List.append_assoc]
  rfl

omit [DecidableEq α] in
/-- What holds of the separator and of every part holds of the whole. -/
theorem forall_mem_join {p : α → Prop} (hp : p sep) (parts : List (List α)) :
    (∀ c ∈ join sep parts, p c) ↔ ∀ part ∈ parts, ∀ c ∈ part, p c := by
  induction parts with
  | nil => simp
  | cons part parts ih =>
    by_cases hnil : parts = []
    · simp [hnil]
    · rw [join_cons part hnil]
      simp only [List.mem_append, List.mem_cons, or_imp, forall_and, forall_eq, hp, true_and, ih]

theorem not_mem_of_mem_splitOn {s part : List α} (h : part ∈ s.splitOn sep) : sep ∉ part := by
  induction s generalizing part with
  | nil =>
    rw [List.splitOn_nil, List.mem_singleton] at h
    simp [h]
  | cons c s ih =>
    rw [List.splitOn_cons_eq_if_modifyHead] at h
    split at h
    · rcases List.mem_cons.mp h with rfl | hmem
      · simp
      · exact ih hmem
    · next hc =>
      obtain ⟨first, rest, hsplit⟩ := List.exists_cons_of_ne_nil (List.splitOn_ne_nil sep s)
      rw [hsplit, List.modifyHead_cons] at h
      rcases List.mem_cons.mp h with rfl | hmem
      · have hfirst : sep ∉ first := ih (by simp [hsplit])
        intro hsep
        rcases List.mem_cons.mp hsep with rfl | hsep
        · simp at hc
        · exact hfirst hsep
      · exact ih (by simp [hsplit, hmem])

theorem splitLimit_eq {limit : Nat} {s : List α} (h : (s.splitOn sep).length ≤ limit) :
    splitLimit sep limit s = s.splitOn sep := by
  simp only [splitLimit, if_pos h]

/-- The parts between separators: none of an empty text. -/
def groups (sep : α) (s : List α) : List (List α) := if s = [] then [] else s.splitOn sep

theorem join_groups (s : List α) : join sep (groups sep s) = s := by
  by_cases h : s = []
  · simp [groups, h]
  · rw [groups, if_neg h, join, List.intercalate_splitOn]

theorem not_mem_of_mem_groups {s part : List α} (h : part ∈ groups sep s) : sep ∉ part := by
  by_cases hs : s = []
  · simp [groups, hs] at h
  · rw [groups, if_neg hs] at h
    exact not_mem_of_mem_splitOn h

omit [DecidableEq α] in
/-- A separator after each part, and a text at the end. -/
theorem flatMap_append_eq_join (parts : List (List α)) (s : List α) :
    parts.flatMap (· ++ [sep]) ++ s = join sep (parts ++ [s]) := by
  induction parts with
  | nil => rw [List.flatMap_nil, List.nil_append, List.nil_append, join_singleton]
  | cons part parts ih =>
    rw [List.cons_append, join_cons part (by simp), ← ih]
    simp

/-- The last separator, if none comes later. -/
theorem lastIndexOf_singleton (x : List α) {y : List α} (hy : sep ∉ y) :
    lastIndexOf (x ++ ([sep] ++ y)) [sep] = some x.length := by
  obtain ⟨-, j, -, hj, -, hle⟩ := exists_indexOf (s := x ++ ([sep] ++ y)) rfl
  obtain ⟨x', y', heq, rfl⟩ := of_lastIndexOf hj
  rw [hj]
  rcases List.append_eq_append_iff.mp heq with ⟨a, rfl, ha⟩ | ⟨a, rfl, ha⟩
  · cases a with
    | nil => simp
    | cons c a =>
      simp only [List.cons_append, List.nil_append, List.cons.injEq] at ha
      exact absurd (by rw [ha.2]; simp) hy
  · rw [List.length_append] at hle ⊢
    congr 1
    omega

/-- Parts that are not empty and hold no separator. -/
def Proper (sep : α) (parts : List (List α)) : Prop := ∀ part ∈ parts, part ≠ [] ∧ sep ∉ part

theorem splitOn_join {parts : List (List α)} (h : Proper sep parts) (hne : parts ≠ []) :
    (join sep parts).splitOn sep = parts :=
  List.splitOn_intercalate sep (fun part hpart => (h part hpart).2) hne

theorem join_eq_nil {parts : List (List α)} (h : Proper sep parts) :
    join sep parts = [] ↔ parts = [] := by
  constructor
  · intro hnil
    by_contra hne
    have hsplit := splitOn_join h hne
    rw [hnil, List.splitOn_nil] at hsplit
    exact (h [] (by simp [← hsplit])).1 rfl
  · intro heq
    subst heq
    rfl

/-- A separator at an end or next to another one stands by an empty part. -/
structure Tidy (sep : α) (s : List α) : Prop where
  first : ∀ y, s ≠ sep :: y
  last : ∀ x, s ≠ x ++ [sep]
  inner : ∀ x y, s ≠ x ++ sep :: sep :: y

theorem Proper.tidy {parts : List (List α)} (h : Proper sep parts) :
    Tidy sep (join sep parts) := by
  have hempty : ∀ s, (s = join sep parts) → [] ∈ s.splitOn sep → s = [] := by
    intro s heq hmem
    subst heq
    by_contra hs
    rw [splitOn_join h (mt (join_eq_nil h).mpr hs)] at hmem
    exact (h [] hmem).1 rfl
  refine ⟨?_, ?_, ?_⟩
  · intro y hy
    have hmem : [] ∈ (sep :: y).splitOn sep := by
      rw [List.splitOn_cons_eq_if_modifyHead]
      simp
    cases hempty _ hy.symm hmem
  · intro x hx
    have hmem : [] ∈ (x ++ sep :: []).splitOn sep := by
      rw [List.splitOn_append_cons_self]
      simp
    have hnil := hempty _ hx.symm hmem
    simp at hnil
  · intro x y hxy
    have hmem : [] ∈ (x ++ sep :: (sep :: y)).splitOn sep := by
      rw [List.splitOn_append_cons_self, List.splitOn_cons_eq_if_modifyHead]
      simp
    have hnil := hempty _ hxy.symm hmem
    simp at hnil

omit [DecidableEq α] in
theorem join_append {pre post : List (List α)} (hpre : pre ≠ []) (hpost : post ≠ []) :
    join sep (pre ++ post) = join sep pre ++ sep :: join sep post := by
  induction pre with
  | nil => exact absurd rfl hpre
  | cons part pre ih =>
    by_cases hnil : pre = []
    · subst hnil
      rw [List.singleton_append, join_cons part hpost, join_singleton]
    · have happ : pre ++ post ≠ [] := by simp [hnil]
      rw [List.cons_append, join_cons part happ, ih hnil, join_cons part hnil]
      simp

omit [DecidableEq α] in
/-- Empty parts at the end are separators at the end. -/
theorem join_append_nils {parts : List (List α)} (hne : parts ≠ []) (n : Nat) :
    join sep (parts ++ List.replicate n []) = join sep parts ++ List.replicate n sep := by
  induction n with
  | zero => simp
  | succ n ih =>
    have happ : parts ++ List.replicate n [] ≠ [] := by simp [hne]
    rw [List.replicate_succ', List.replicate_succ', ← List.append_assoc,
      join_append happ (by simp), ih, join_singleton, List.append_assoc]

theorem not_mem_of_mem_split {s part : List α} {parts : List (List α)} (h : split sep s = parts)
    (hsep : sep ∈ s) (hpart : part ∈ parts) : sep ∉ part := by
  rw [split, if_pos hsep] at h
  rw [← h] at hpart
  exact not_mem_of_mem_splitOn ((List.rdropWhile_prefix _ _).subset hpart)

omit [DecidableEq α] in
theorem rdropWhile_nils {parts : List (List α)} (h : Proper sep parts) (n : Nat) :
    (parts ++ List.replicate n []).rdropWhile List.isEmpty = parts := by
  induction n with
  | zero =>
    rw [List.replicate_zero, List.append_nil, List.rdropWhile_eq_self_iff]
    intro hne hlast
    exact (h _ (List.getLast_mem hne)).1 (List.isEmpty_iff.mp hlast)
  | succ n ih =>
    rw [List.replicate_succ', ← List.append_assoc, List.rdropWhile_concat_pos _ _ _ rfl, ih]

/-- `split` forgets the separators at the end. -/
theorem split_eq_iff {parts : List (List α)} (h : Proper sep parts) (htwo : 2 ≤ parts.length)
    (s : List α) :
    split sep s = parts ↔ ∃ n, s = join sep parts ++ List.replicate n sep := by
  have hne : parts ≠ [] := List.ne_nil_of_length_pos (by omega)
  constructor
  · intro hsplit
    have hmem : sep ∈ s := by
      by_contra hno
      rw [split, if_neg hno] at hsplit
      simp [← hsplit] at htwo
    rw [split, if_pos hmem] at hsplit
    have hnils : ∀ part ∈ (s.splitOn sep).rtakeWhile List.isEmpty, part = [] := by
      intro part hpart
      exact List.isEmpty_iff.mp (List.mem_rtakeWhile_imp hpart)
    refine ⟨((s.splitOn sep).rtakeWhile List.isEmpty).length, ?_⟩
    rw [← join_append_nils hne, ← hsplit, ← List.eq_replicate_of_mem hnils,
      List.rdropWhile_append_rtakeWhile, join, List.intercalate_splitOn]
  · intro hs
    obtain ⟨n, rfl⟩ := hs
    have hparts : (join sep parts ++ List.replicate n sep).splitOn sep =
        parts ++ List.replicate n [] := by
      have hall : ∀ part ∈ parts ++ List.replicate n [], sep ∉ part := by
        intro part hpart
        rcases List.mem_append.mp hpart with hmem | hmem
        · exact (h part hmem).2
        · rw [List.eq_of_mem_replicate hmem]
          exact List.not_mem_nil
      rw [← join_append_nils hne]
      exact List.splitOn_intercalate sep hall (by simp [hne])
    have hmem : sep ∈ join sep parts ++ List.replicate n sep := by
      by_contra hno
      rw [List.splitOn_eq_singleton hno] at hparts
      have hlen := congrArg List.length hparts
      simp only [List.length_append, List.length_singleton, List.length_replicate] at hlen
      omega
    rw [split, if_pos hmem, hparts, rdropWhile_nils h]

theorem Tidy.proper {s : List α} (h : Tidy sep s) : Proper sep (groups sep s) := by
  intro part hpart
  refine ⟨?_, not_mem_of_mem_groups hpart⟩
  intro heq
  subst heq
  have hs : s ≠ [] := by
    intro heq
    subst heq
    simp [groups] at hpart
  rw [groups, if_neg hs] at hpart
  obtain ⟨pre, post, hsplit⟩ := List.append_of_mem hpart
  have hjoin : s = join sep (pre ++ ([[]] ++ post)) := by
    rw [List.cons_append, List.nil_append, ← hsplit, join, List.intercalate_splitOn]
  by_cases hpre : pre = []
  · subst hpre
    by_cases hpost : post = []
    · subst hpost
      exact hs hjoin
    · rw [List.nil_append, join_append (by simp) hpost] at hjoin
      exact h.first _ hjoin
  · rw [join_append hpre (by simp)] at hjoin
    by_cases hpost : post = []
    · subst hpost
      exact h.last _ hjoin
    · rw [join_append (by simp) hpost] at hjoin
      exact h.inner _ _ hjoin

/-! Texts with one double separator. -/

omit [DecidableEq α] in
/-- Between tidy texts the double separator is the only one. -/
theorem eq_of_double {l r x y : List α} (hl : Tidy sep l) (hr : Tidy sep r)
    (h : x ++ ([sep, sep] ++ y) = l ++ ([sep, sep] ++ r)) : x = l := by
  rcases List.append_eq_append_iff.mp h with ⟨a, hla, hya⟩ | ⟨a, hxa, hra⟩
  · rcases a with _ | ⟨c, _ | ⟨d, a⟩⟩
    · simpa using hla.symm
    · simp only [List.cons_append, List.nil_append, List.cons.injEq] at hya
      obtain ⟨rfl, -⟩ := hya
      exact absurd hla (hl.last x)
    · simp only [List.cons_append, List.nil_append, List.cons.injEq] at hya
      obtain ⟨rfl, rfl, -⟩ := hya
      exact absurd hla (hl.inner x a)
  · rcases a with _ | ⟨c, _ | ⟨d, a⟩⟩
    · simpa using hxa
    · simp only [List.cons_append, List.nil_append, List.cons.injEq] at hra
      exact absurd hra.2.2 (hr.first y)
    · simp only [List.cons_append, List.nil_append, List.cons.injEq] at hra
      exact absurd hra.2.2 (hr.inner a y)

theorem indexOf_double {l r : List α} (hl : Tidy sep l) (hr : Tidy sep r) :
    indexOf (l ++ ([sep, sep] ++ r)) [sep, sep] = some l.length ∧
      lastIndexOf (l ++ ([sep, sep] ++ r)) [sep, sep] = some l.length := by
  obtain ⟨i, j, hi, hj, -⟩ := exists_indexOf (s := l ++ ([sep, sep] ++ r)) rfl
  obtain ⟨x, y, hx, rfl⟩ := of_indexOf hi
  obtain ⟨x', y', hx', rfl⟩ := of_lastIndexOf hj
  rw [hi, hj, eq_of_double hl hr hx.symm, eq_of_double hl hr hx'.symm]
  exact ⟨rfl, rfl⟩

theorem Tidy.startsWith_append {l : List α} (h : Tidy sep l) (hne : l ≠ []) (y : List α) :
    startsWith (l ++ y) [sep, sep] = false := by
  rw [Bool.eq_false_iff, Ne, startsWith_iff]
  intro h
  obtain ⟨z, hz⟩ := h
  cases l with
  | nil => exact hne rfl
  | cons c l =>
    simp only [List.cons_append, List.nil_append, List.cons.injEq] at hz
    exact h.first l (by rw [hz.1])

theorem Tidy.endsWith_append {r : List α} (h : Tidy sep r) (hne : r ≠ []) (x : List α) :
    endsWith (x ++ r) [sep, sep] = false := by
  rw [Bool.eq_false_iff, Ne, endsWith_iff]
  intro h
  obtain ⟨z, hz⟩ := h
  obtain ⟨r, c, rfl⟩ := (List.eq_nil_or_concat' r).resolve_left hne
  have hend : (x ++ r) ++ [c] = (z ++ [sep]) ++ [sep] := by simpa using hz
  have hc := List.append_inj_right' hend rfl
  exact h.last r (by rw [hc])

/-- A single separator at an end of the text is a double one. -/
structure Bordered (sep : α) (s : List α) : Prop where
  start : startsWith s [sep] = true → startsWith s [sep, sep] = true
  finish : endsWith s [sep] = true → endsWith s [sep, sep] = true

theorem tidy_of_not_contains {s : List α} (h : contains s [sep, sep] = false)
    (hb : Bordered sep s) : Tidy sep s := by
  have hno : ∀ x y, s ≠ x ++ ([sep, sep] ++ y) := by
    intro x y hs
    rw [contains_iff.mpr ⟨x, y, hs⟩] at h
    cases h
  refine ⟨?_, ?_, hno⟩
  · intro y hy
    obtain ⟨z, hz⟩ := startsWith_iff.mp (hb.start (startsWith_iff.mpr ⟨y, hy⟩))
    exact hno [] z hz
  · intro x hx
    obtain ⟨z, hz⟩ := endsWith_iff.mp (hb.finish (endsWith_iff.mpr ⟨x, hx⟩))
    exact hno z [] hz

/-- Cut a text at its only double separator. -/
theorem exists_double {s : List α} {i : Nat} (h : indexOf s [sep, sep] = some i)
    (h' : lastIndexOf s [sep, sep] = some i) (hb : Bordered sep s) :
    ∃ l r, s = l ++ ([sep, sep] ++ r) ∧ Tidy sep l ∧ Tidy sep r := by
  obtain ⟨l, r, hs, rfl⟩ := of_indexOf h
  have hunique : ∀ x y, s = x ++ ([sep, sep] ++ y) → x.length = l.length := by
    intro x y hxy
    obtain ⟨i, j, hi, hj, hle, hge⟩ := exists_indexOf hxy
    cases h.symm.trans hi
    cases h'.symm.trans hj
    omega
  refine ⟨l, r, hs, ⟨?_, ?_, ?_⟩, ⟨?_, ?_, ?_⟩⟩
  · intro y heq
    subst heq
    obtain ⟨z, hz⟩ := startsWith_iff.mp (hb.start (startsWith_iff.mpr ⟨_, hs⟩))
    have hlen := hunique [] z hz
    simp at hlen
  · intro x heq
    subst heq
    have hlen := hunique x (sep :: r) (by rw [hs]; simp)
    simp at hlen
  · intro x y heq
    subst heq
    have hlen := hunique x (y ++ ([sep, sep] ++ r)) (by rw [hs]; simp)
    simp at hlen
  · intro y heq
    subst heq
    have hlen := hunique (l ++ [sep]) y (by rw [hs]; simp)
    simp at hlen
  · intro x heq
    subst heq
    have hend : endsWith s [sep] = true := endsWith_iff.mpr ⟨l ++ ([sep, sep] ++ x), by
      rw [hs]
      simp⟩
    obtain ⟨z, hz⟩ := endsWith_iff.mp (hb.finish hend)
    have hlen := hunique z [] (by simpa using hz)
    have hsize := congrArg List.length (hs.symm.trans hz)
    simp at hsize
    omega
  · intro x y heq
    subst heq
    have hlen := hunique (l ++ ([sep, sep] ++ x)) y (by rw [hs]; simp)
    simp at hlen

/-- Both ends of a text with one double separator are bordered. -/
theorem bordered_double {l r : List α} (hl : Tidy sep l) (hr : Tidy sep r) :
    Bordered sep (l ++ ([sep, sep] ++ r)) := by
  constructor
  · intro h
    obtain ⟨y, hy⟩ := startsWith_iff.mp h
    cases l with
    | nil => exact startsWith_iff.mpr ⟨r, rfl⟩
    | cons c l =>
      simp only [List.cons_append, List.nil_append, List.cons.injEq] at hy
      exact absurd (by rw [hy.1]) (hl.first l)
  · intro h
    obtain ⟨x, hx⟩ := endsWith_iff.mp h
    rcases List.eq_nil_or_concat' r with rfl | ⟨r, c, rfl⟩
    · exact endsWith_iff.mpr ⟨l, by simp⟩
    · rw [← List.append_assoc, ← List.append_assoc] at hx
      have hc := List.append_inj_right' hx rfl
      exact absurd (by rw [hc]) (hr.last r)

end Split

end Text
