import Mathlib.Data.List.Induction
import Mathlib.Tactic.Ring

namespace Padding

/-! Values written one after another, with and without padding. -/

/-- A way to write values in at most `width` characters. Only `zero` is written in padding
characters alone. -/
structure Printer (α β : Type) where
  print : α → List β
  width : Nat
  blank : β
  zero : α
  print_ne_nil : ∀ x, print x ≠ []
  print_length_le : ∀ x, (print x).length ≤ width
  blank_iff : ∀ x, (∀ c ∈ print x, c = blank) ↔ x = zero

namespace Printer

variable {α β : Type} (P : Printer α β)

/-- The characters that `x` is short of. -/
def missing (x : α) : Nat := P.width - (P.print x).length

def blanks (n : Nat) : List β := List.replicate n P.blank

/-- `x` in `width` characters. -/
def fixed (x : α) : List β := P.blanks (P.missing x) ++ P.print x

def printAll (xs : List α) : List β := xs.flatMap P.print

def fixedAll (xs : List α) : List β := xs.flatMap P.fixed

section Words

variable {P}

@[simp] theorem blanks_length (n : Nat) : (P.blanks n).length = n := List.length_replicate

@[simp] theorem blanks_zero : P.blanks 0 = [] := rfl

theorem blanks_append (m n : Nat) : P.blanks m ++ P.blanks n = P.blanks (m + n) :=
  List.replicate_append_replicate

theorem eq_blanks {w : List β} (h : ∀ c ∈ w, c = P.blank) : w = P.blanks w.length :=
  List.eq_replicate_of_mem h

theorem mem_blanks {n : Nat} {c : β} (h : c ∈ P.blanks n) : c = P.blank :=
  List.eq_of_mem_replicate h

@[simp] theorem printAll_nil : P.printAll [] = [] := rfl

@[simp] theorem printAll_cons (x : α) (xs : List α) :
    P.printAll (x :: xs) = P.print x ++ P.printAll xs := List.flatMap_cons

@[simp] theorem printAll_append (xs ys : List α) :
    P.printAll (xs ++ ys) = P.printAll xs ++ P.printAll ys := List.flatMap_append

@[simp] theorem fixedAll_nil : P.fixedAll [] = [] := rfl

@[simp] theorem fixedAll_cons (x : α) (xs : List α) :
    P.fixedAll (x :: xs) = P.blanks (P.missing x) ++ (P.print x ++ P.fixedAll xs) := by
  rw [fixedAll, List.flatMap_cons, fixed, List.append_assoc]
  rfl

@[simp] theorem fixedAll_append (xs ys : List α) :
    P.fixedAll (xs ++ ys) = P.fixedAll xs ++ P.fixedAll ys := List.flatMap_append

theorem missing_add (x : α) : P.missing x + (P.print x).length = P.width :=
  Nat.sub_add_cancel (P.print_length_le x)

theorem fixedAll_length (xs : List α) : (P.fixedAll xs).length = P.width * xs.length := by
  induction xs with
  | nil => rfl
  | cons x xs ih =>
    have hx := P.missing_add x
    rw [fixedAll_cons, List.length_append, List.length_append, blanks_length, ih,
      List.length_cons, Nat.mul_succ]
    omega

/-- A word that starts again behind some padding is padding. -/
theorem blank_of_prefix {r x y : List β} {e : Nat} (he : 0 < e)
    (h : r ++ x = P.blanks e ++ (r ++ y)) : ∀ c ∈ r, c = P.blank := by
  induction hn : r.length using Nat.strong_induction_on generalizing r x with
  | _ n ih =>
    rcases List.append_eq_append_iff.mp h with ⟨a, ha, -⟩ | ⟨a, hr, ha⟩
    · intro c hc
      apply mem_blanks (n := e)
      rw [ha]
      exact List.mem_append_left _ hc
    · have hlen := congrArg List.length hr
      rw [List.length_append, blanks_length] at hlen
      have hshort : a ++ x = P.blanks e ++ (a ++ y) := by
        rw [← ha, hr, List.append_assoc]
      have hblank := ih a.length (by omega) hshort rfl
      intro c hc
      rw [hr] at hc
      rcases List.mem_append.mp hc with hc | hc
      · exact mem_blanks hc
      · exact hblank c hc

/-- A word that ends again before some padding is padding. -/
theorem blank_of_suffix {r x y : List β} {e : Nat} (he : 0 < e)
    (h : x ++ r = (y ++ r) ++ P.blanks e) : ∀ c ∈ r, c = P.blank := by
  have hrev := congrArg List.reverse h
  simp only [List.reverse_append, blanks, List.reverse_replicate] at hrev
  intro c hc
  exact blank_of_prefix he hrev c (List.mem_reverse.mpr hc)

end Words

section Shift

variable {P}

theorem blanks_comm (m n : Nat) : P.blanks m ++ P.blanks n = P.blanks n ++ P.blanks m := by
  rw [blanks_append, blanks_append, Nat.add_comm]

/-- A value behind its own place is zero, and what follows is behind as well. -/
theorem behind_cons {x : α} {rest ys : List β} {e : Nat} (he : 0 < e)
    (h : P.print x ++ rest = P.blanks e ++ (P.print x ++ ys)) :
    x = P.zero ∧ rest = P.blanks e ++ ys := by
  have hblank := blank_of_prefix he h
  refine ⟨(P.blank_iff x).mp hblank, ?_⟩
  rw [eq_blanks hblank, ← List.append_assoc (P.blanks e), blanks_comm, List.append_assoc] at h
  exact List.append_cancel_left h

/-- A value ahead of its own place is zero, and what precedes is ahead as well. -/
theorem ahead_concat {x : α} {pre ys : List β} {e : Nat} (he : 0 < e)
    (h : pre ++ P.print x = (ys ++ P.print x) ++ P.blanks e) :
    x = P.zero ∧ pre = ys ++ P.blanks e := by
  have hblank := blank_of_suffix he h
  refine ⟨(P.blank_iff x).mp hblank, ?_⟩
  rw [eq_blanks hblank, List.append_assoc, blanks_comm, ← List.append_assoc] at h
  exact List.append_cancel_right h

theorem zeros_of_behind {xs : List α} {post : List β} {e : Nat} (he : 0 < e)
    (h : P.printAll xs ++ post = P.blanks e ++ P.fixedAll xs) :
    (∀ x ∈ xs, x = P.zero) ∧ ∀ c ∈ post, c = P.blank := by
  induction xs generalizing e with
  | nil =>
    rw [printAll_nil, fixedAll_nil, List.nil_append, List.append_nil] at h
    refine ⟨by simp, ?_⟩
    intro c hc
    rw [h] at hc
    exact mem_blanks hc
  | cons x xs ih =>
    rw [printAll_cons, fixedAll_cons, List.append_assoc, ← List.append_assoc (P.blanks e),
      blanks_append] at h
    obtain ⟨hx, hrest⟩ := behind_cons (by omega) h
    obtain ⟨hxs, hpost⟩ := ih (by omega) hrest
    exact ⟨List.forall_mem_cons.mpr ⟨hx, hxs⟩, hpost⟩

theorem zeros_of_ahead {xs : List α} {pre : List β} {e : Nat} (he : 0 < e)
    (h : pre ++ P.printAll xs = P.fixedAll xs ++ P.blanks e) :
    (∀ x ∈ xs, x = P.zero) ∧ ∀ c ∈ pre, c = P.blank := by
  induction xs using List.reverseRecOn generalizing e with
  | nil =>
    rw [printAll_nil, fixedAll_nil, List.nil_append, List.append_nil] at h
    refine ⟨by simp, ?_⟩
    intro c hc
    rw [h] at hc
    exact mem_blanks hc
  | append_singleton xs x ih =>
    have hconcat : (pre ++ P.printAll xs) ++ P.print x =
        ((P.fixedAll xs ++ P.blanks (P.missing x)) ++ P.print x) ++ P.blanks e := by
      simpa using h
    obtain ⟨hx, hpre⟩ := ahead_concat he hconcat
    rw [List.append_assoc, blanks_append] at hpre
    obtain ⟨hxs, hblank⟩ := ih (by omega) hpre
    refine ⟨?_, hblank⟩
    intro y hy
    rcases List.mem_append.mp hy with hy | hy
    · exact hxs y hy
    · rw [List.mem_singleton.mp hy, hx]

/-- Text that is shifted along `p` goes on behind `p`. -/
theorem exists_behind {p a rest tail : List β} (h : a ++ (p ++ rest) = p ++ tail) :
    ∃ w, a ++ p = p ++ w ∧ w ++ rest = tail := by
  rw [← List.append_assoc] at h
  rcases List.append_eq_append_iff.mp h with ⟨w, hw, hrest⟩ | ⟨w, hw, hrest⟩
  · have hlen := congrArg List.length hw
    simp only [List.length_append] at hlen
    have hanil : a = [] := List.eq_nil_of_length_eq_zero (by omega)
    have hwnil : w = [] := List.eq_nil_of_length_eq_zero (by omega)
    subst hanil hwnil
    exact ⟨[], by simp, by simpa using hrest⟩
  · exact ⟨w, hw, hrest.symm⟩

/-- Somewhere the two forms are in step, or one value passes from ahead to behind. -/
def Meets (P : Printer α β) (pre post : List β) (xs : List α) : Prop :=
  (∃ s t, xs = s ++ t ∧ pre ++ P.printAll s = P.fixedAll s ∧
    P.printAll t ++ post = P.fixedAll t) ∨
  ∃ s x t d e, xs = s ++ x :: t ∧ 0 < d ∧ 0 < e ∧
    pre ++ P.printAll s = P.fixedAll s ++ P.blanks d ∧
    P.print x ++ (P.printAll t ++ post) = P.blanks e ++ (P.print x ++ P.fixedAll t)

theorem Meets.cons {x : α} {xs : List α} {pre post w : List β}
    (hw : pre ++ P.print x = P.blanks (P.missing x) ++ (P.print x ++ w))
    (h : P.Meets w post xs) : P.Meets pre post (x :: xs) := by
  have hcons : ∀ s, pre ++ P.printAll (x :: s) =
      P.blanks (P.missing x) ++ (P.print x ++ (w ++ P.printAll s)) := by
    intro s
    rw [printAll_cons, ← List.append_assoc, hw]
    simp
  rcases h with ⟨s, t, rfl, hs, ht⟩ | ⟨s, y, t, d, e, rfl, hd, he, hs, ht⟩
  · exact .inl ⟨x :: s, t, rfl, by rw [hcons, hs, fixedAll_cons], ht⟩
  · refine .inr ⟨x :: s, y, t, d, e, rfl, hd, he, ?_, ht⟩
    rw [hcons, hs, fixedAll_cons]
    simp

theorem inStep_or_crossing {xs : List α} {pre post : List β}
    (h : pre ++ (P.printAll xs ++ post) = P.fixedAll xs) : P.Meets pre post xs := by
  induction xs generalizing pre with
  | nil =>
    rw [printAll_nil, fixedAll_nil, List.nil_append, List.append_eq_nil_iff] at h
    obtain ⟨rfl, rfl⟩ := h
    exact .inl ⟨[], [], rfl, rfl, rfl⟩
  | cons x xs ih =>
    -- once `pre` reaches over the padding of `x`, what is left of it goes on behind `x`
    have hnext : ∀ a, pre = P.blanks (P.missing x) ++ a →
        a ++ (P.print x ++ (P.printAll xs ++ post)) = P.print x ++ P.fixedAll xs →
        P.Meets pre post (x :: xs) := by
      intro a hpre ha
      obtain ⟨w, hw, hrest⟩ := exists_behind ha
      exact Meets.cons (by rw [hpre, List.append_assoc, hw]) (ih hrest)
    have hx : pre ++ (P.print x ++ (P.printAll xs ++ post)) =
        P.blanks (P.missing x) ++ (P.print x ++ P.fixedAll xs) := by
      rw [printAll_cons, List.append_assoc, fixedAll_cons] at h
      exact h
    rcases List.append_eq_append_iff.mp hx with ⟨a, ha, hrest⟩ | ⟨a, ha, hrest⟩
    · by_cases hpre : pre = []
      · subst hpre
        exact .inl ⟨[], x :: xs, rfl, rfl, h⟩
      by_cases hnil : a = []
      · subst hnil
        exact hnext [] (by simpa using ha.symm) hrest
      · have hblank : ∀ c ∈ pre ++ a, c = P.blank := by
          rw [← ha]
          exact fun c hc => mem_blanks hc
        have hpre' := eq_blanks (fun c hc => hblank c (List.mem_append_left _ hc))
        have ha' := eq_blanks (fun c hc => hblank c (List.mem_append_right _ hc))
        refine .inr ⟨[], x, xs, pre.length, a.length, rfl, List.length_pos_iff.mpr hpre,
          List.length_pos_iff.mpr hnil, ?_, ?_⟩
        · simpa using hpre'
        · rw [← ha']
          exact hrest
    · exact hnext a ha hrest.symm

/-- In step at the end: after the last value that is short, all are full, and before it all are
zero. -/
theorem inStep_left {xs : List α} {pre : List β} (h : pre ++ P.printAll xs = P.fixedAll xs) :
    (pre = [] ∧ ∀ x ∈ xs, (P.print x).length = P.width) ∨
      ∃ s x m, xs = s ++ x :: m ∧ (∀ y ∈ s, y = P.zero) ∧
        (∀ y ∈ m, (P.print y).length = P.width) ∧ pre ++ P.printAll (s ++ [x]) =
          P.fixedAll (s ++ [x]) ∧ ∀ c ∈ pre, c = P.blank := by
  induction xs using List.reverseRecOn with
  | nil => exact .inl ⟨by simpa using h, by simp⟩
  | append_singleton xs x ih =>
    have hconcat : (pre ++ P.printAll xs) ++ P.print x =
        (P.fixedAll xs ++ P.blanks (P.missing x)) ++ P.print x := by
      simpa using h
    have hcut := List.append_cancel_right hconcat
    have hadd := P.missing_add x
    by_cases hfull : P.missing x = 0
    · rw [hfull, blanks_zero, List.append_nil] at hcut
      have hx : (P.print x).length = P.width := by omega
      rcases ih hcut with ⟨hpre, hxs⟩ | ⟨s, y, m, rfl, hs, hm, hstep, hpre⟩
      · refine .inl ⟨hpre, ?_⟩
        simpa [or_imp, forall_and] using ⟨hxs, hx⟩
      · refine .inr ⟨s, y, m ++ [x], by simp, hs, ?_, hstep, hpre⟩
        simpa [or_imp, forall_and] using ⟨hm, hx⟩
    · obtain ⟨hxs, hpre⟩ := zeros_of_ahead (by omega) hcut
      exact .inr ⟨xs, x, [], rfl, hxs, by simp, h, hpre⟩

/-- In step at the start: values are full up to the first that is short, and zero from there. -/
theorem inStep_right {xs : List α} {post : List β} (h : P.printAll xs ++ post = P.fixedAll xs) :
    ∃ m r, xs = m ++ r ∧ (∀ y ∈ m, (P.print y).length = P.width) ∧ (∀ y ∈ r, y = P.zero) ∧
      P.printAll r ++ post = P.fixedAll r ∧ ∀ c ∈ post, c = P.blank := by
  induction xs with
  | nil =>
    have hpost : post = [] := by simpa using h
    exact ⟨[], [], rfl, by simp, by simp, by simp [hpost], by simp [hpost]⟩
  | cons x xs ih =>
    have hcut : P.print x ++ (P.printAll xs ++ post) =
        P.blanks (P.missing x) ++ (P.print x ++ P.fixedAll xs) := by
      simpa using h
    have hadd := P.missing_add x
    by_cases hfull : P.missing x = 0
    · rw [hfull, blanks_zero, List.nil_append] at hcut
      have hx : (P.print x).length = P.width := by omega
      obtain ⟨m, r, rfl, hm, hr, hstep, hpost⟩ := ih (List.append_cancel_left hcut)
      exact ⟨x :: m, r, rfl, List.forall_mem_cons.mpr ⟨hx, hm⟩, hr, hstep, hpost⟩
    · obtain ⟨hx, hrest⟩ := behind_cons (by omega) hcut
      obtain ⟨hxs, hpost⟩ := zeros_of_behind (by omega) hrest
      exact ⟨[], x :: xs, rfl, by simp, List.forall_mem_cons.mpr ⟨hx, hxs⟩, h, hpost⟩

theorem zeros_of_blank {xs : List α} (h : ∀ c ∈ P.printAll xs, c = P.blank) :
    ∀ x ∈ xs, x = P.zero := by
  intro x hx
  apply (P.blank_iff x).mp
  intro c hc
  exact h c (List.mem_flatMap.mpr ⟨x, hx, hc⟩)

end Shift

/-- The characters of a zero without padding. -/
def zeroLength : Nat := (P.print P.zero).length

/-- The slice `s` of `a ++ (s ++ b)` is some zeros, a value, full values and zeros, and the zeros
outside make up for what the padding adds at each side. -/
structure Shifted (a s b : List α) (i : Nat) (x : α) (m : List α) (r : Nat) : Prop where
  slice : s = List.replicate i P.zero ++ x :: (m ++ List.replicate r P.zero)
  outside : ∀ y ∈ a ++ b, y = P.zero
  full : ∀ y ∈ m, (P.print y).length = P.width
  before : P.zeroLength * a.length = (P.width - P.zeroLength) * i + P.missing x
  after : P.zeroLength * b.length = (P.width - P.zeroLength) * r

section Slice

variable {P}

theorem print_zero : P.print P.zero = P.blanks P.zeroLength :=
  eq_blanks ((P.blank_iff P.zero).mpr rfl)

theorem printAll_zeros {xs : List α} (h : ∀ x ∈ xs, x = P.zero) :
    P.printAll xs = P.blanks (P.zeroLength * xs.length) := by
  induction xs with
  | nil => rfl
  | cons x xs ih =>
    obtain ⟨rfl, hxs⟩ := List.forall_mem_cons.mp h
    rw [printAll_cons, ih hxs, print_zero, blanks_append, List.length_cons, Nat.mul_succ,
      Nat.add_comm]

theorem fixedAll_zeros {xs : List α} (h : ∀ x ∈ xs, x = P.zero) :
    P.fixedAll xs = P.blanks (P.width * xs.length) := by
  induction xs with
  | nil => rfl
  | cons x xs ih =>
    obtain ⟨rfl, hxs⟩ := List.forall_mem_cons.mp h
    have hadd := P.missing_add P.zero
    rw [fixedAll_cons, ih hxs, print_zero, blanks_append, blanks_append, List.length_cons,
      Nat.mul_succ, zeroLength]
    congr 1
    omega

theorem fixedAll_full {xs : List α} (h : ∀ y ∈ xs, (P.print y).length = P.width) :
    P.fixedAll xs = P.printAll xs := by
  induction xs with
  | nil => rfl
  | cons x xs ih =>
    obtain ⟨hx, hxs⟩ := List.forall_mem_cons.mp h
    rw [fixedAll_cons, printAll_cons, ih hxs, missing, hx, Nat.sub_self, blanks_zero,
      List.nil_append]

theorem zeroLength_le : P.zeroLength ≤ P.width := P.print_length_le P.zero

/-- Zeros that print as wide as their places. -/
theorem mul_sub_of_lengths {n k : Nat} (h : P.zeroLength * n + k = P.width * n) :
    k = (P.width - P.zeroLength) * n := by
  rw [Nat.sub_mul]
  omega

theorem printAll_of_shifted {a s b : List α} {i r : Nat} {x : α} {m : List α}
    (h : P.Shifted a s b i x m r) : P.printAll (a ++ (s ++ b)) = P.fixedAll s := by
  have ha : ∀ y ∈ a, y = P.zero := fun y hy => h.outside y (List.mem_append_left _ hy)
  have hb : ∀ y ∈ b, y = P.zero := fun y hy => h.outside y (List.mem_append_right _ hy)
  have hi : ∀ y ∈ List.replicate i P.zero, y = P.zero := fun y hy => List.eq_of_mem_replicate hy
  have hr : ∀ y ∈ List.replicate r P.zero, y = P.zero := fun y hy => List.eq_of_mem_replicate hy
  have hleft : P.zeroLength * a.length + P.zeroLength * i = P.width * i + P.missing x := by
    have hle := Nat.mul_le_mul_right i (P.zeroLength_le)
    rw [h.before, Nat.sub_mul]
    omega
  have hright : P.zeroLength * r + P.zeroLength * b.length = P.width * r := by
    have hle := Nat.mul_le_mul_right r (P.zeroLength_le)
    rw [h.after, Nat.sub_mul]
    omega
  rw [h.slice]
  simp only [printAll_append, printAll_cons, fixedAll_append, fixedAll_cons, printAll_zeros ha,
    printAll_zeros hb, printAll_zeros hi, printAll_zeros hr, fixedAll_zeros hi, fixedAll_zeros hr,
    fixedAll_full h.full, List.length_replicate, List.append_assoc, blanks_append]
  rw [← List.append_assoc, blanks_append, hleft, ← List.append_assoc (P.blanks (P.width * i)),
    blanks_append, hright]

theorem eq_nil_of_printAll {a : List α} (h : P.printAll a = []) : a = [] := by
  cases a with
  | nil => rfl
  | cons y a => exact absurd (List.append_eq_nil_iff.mp h).1 (P.print_ne_nil y)

/-- The zeros behind make up for the padding of the last zeros of the slice. -/
theorem after_of_inStep {r b : List α} (hr : ∀ y ∈ r, y = P.zero) (hb : ∀ y ∈ b, y = P.zero)
    (h : P.printAll r ++ P.printAll b = P.fixedAll r) :
    P.zeroLength * b.length = (P.width - P.zeroLength) * r.length := by
  have hlen := congrArg List.length h
  rw [printAll_zeros hr, printAll_zeros hb, fixedAll_zeros hr, List.length_append,
    blanks_length, blanks_length, blanks_length] at hlen
  exact mul_sub_of_lengths hlen

/-- The zeros in front make up for the padding up to the first value that is none. -/
theorem before_of_inStep {a s : List α} {x : α} (ha : ∀ y ∈ a, y = P.zero)
    (hs : ∀ y ∈ s, y = P.zero)
    (h : P.printAll a ++ P.printAll (s ++ [x]) = P.fixedAll (s ++ [x])) :
    P.zeroLength * a.length = (P.width - P.zeroLength) * s.length + P.missing x := by
  have hlen := congrArg List.length h
  have hle := Nat.mul_le_mul_right s.length P.zeroLength_le
  have hx := P.missing_add x
  rw [printAll_zeros ha, printAll_append, printAll_zeros hs, fixedAll_length] at hlen
  simp only [List.length_append, blanks_length, printAll_cons, printAll_nil,
    List.append_nil, List.length_singleton, Nat.mul_succ] at hlen
  rw [Nat.sub_mul]
  omega

theorem zeros_or_shifted {a s b : List α} (hs : s ≠ [])
    (h : P.printAll (a ++ (s ++ b)) = P.fixedAll s) :
    (∀ x ∈ a ++ (s ++ b), x = P.zero) ∨ ∃ i x m r, P.Shifted a s b i x m r := by
  rw [printAll_append, printAll_append] at h
  rcases inStep_or_crossing h with ⟨s₁, s₂, rfl, hleft, hright⟩ |
    ⟨s₁, x, s₂, d, e, rfl, hd, he, hleft, hright⟩
  · obtain ⟨m₂, r, rfl, hm₂, hr, hstep, hb⟩ := inStep_right hright
    have hb := zeros_of_blank hb
    have hafter := after_of_inStep hr hb hstep
    have hr' := List.eq_replicate_of_mem hr
    rcases inStep_left hleft with ⟨ha, hm₁⟩ | ⟨s₀, x, m₁, rfl, hs₀, hm₁, hstep', ha⟩
    · have hanil := eq_nil_of_printAll ha
      subst hanil
      cases hm : s₁ ++ m₂ with
      | nil =>
        obtain ⟨rfl, rfl⟩ := List.append_eq_nil_iff.mp hm
        refine .inl ?_
        simp only [List.nil_append, List.mem_append, or_imp, forall_and]
        exact ⟨hr, hb⟩
      | cons x m =>
        have hfull : ∀ y ∈ x :: m, (P.print y).length = P.width := by
          intro y hy
          rw [← hm] at hy
          exact (List.mem_append.mp hy).elim (hm₁ y) (hm₂ y)
        obtain ⟨hx, hm'⟩ := List.forall_mem_cons.mp hfull
        refine .inr ⟨0, x, m, r.length, ?_, hb, hm', ?_, hafter⟩
        · rw [← List.append_assoc, hm, ← hr']
          rfl
        · simp [missing, hx]
    · have ha := zeros_of_blank ha
      have hbefore := before_of_inStep ha hs₀ hstep'
      refine .inr ⟨s₀.length, x, m₁ ++ m₂, r.length, ?_, ?_, ?_, hbefore, hafter⟩
      · rw [← List.eq_replicate_of_mem hs₀, ← hr']
        simp
      · intro y hy
        exact (List.mem_append.mp hy).elim (ha y) (hb y)
      · intro y hy
        exact (List.mem_append.mp hy).elim (hm₁ y) (hm₂ y)
  · obtain ⟨hs₁, ha⟩ := zeros_of_ahead hd hleft
    obtain ⟨hx, hrest⟩ := behind_cons he hright
    obtain ⟨hs₂, hb⟩ := zeros_of_behind he hrest
    refine .inl ?_
    simp only [List.mem_append, List.mem_cons, or_imp, forall_and, forall_eq]
    exact ⟨zeros_of_blank ha, ⟨hs₁, hx, hs₂⟩, zeros_of_blank hb⟩

/-- When the values one after another are the slice in fixed width. -/
theorem printAll_eq_fixedAll_iff {a s b : List α} (hs : s ≠ []) :
    P.printAll (a ++ (s ++ b)) = P.fixedAll s ↔
      ((∀ x ∈ a ++ (s ++ b), x = P.zero) ∧
        P.zeroLength * (a ++ (s ++ b)).length = P.width * s.length) ∨
      ∃ i x m r, P.Shifted a s b i x m r := by
  constructor
  · intro h
    rcases zeros_or_shifted hs h with hzero | hshifted
    · refine .inl ⟨hzero, ?_⟩
      have hlen := congrArg List.length h
      rwa [printAll_zeros hzero, blanks_length, fixedAll_length] at hlen
    · exact .inr hshifted
  · intro h
    rcases h with ⟨hzero, hlen⟩ | ⟨i, x, m, r, h⟩
    · have hs : ∀ x ∈ s, x = P.zero := fun x hx =>
        hzero x (List.mem_append_right _ (List.mem_append_left _ hx))
      rw [printAll_zeros hzero, fixedAll_zeros hs, hlen]
    · exact printAll_of_shifted h

end Slice

end Printer

end Padding
