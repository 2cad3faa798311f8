import Mathlib.Algebra.Ring.Nat
import Mathlib.Computability.RegularExpressions
import Mathlib.Data.List.DropRight

namespace Text

/-! Patterns, and splitting at several separators. -/

variable {α : Type}

/-- A character class. -/
def oneOf (cs : List α) : RegularExpression α := (cs.map .char).foldr (· + ·) 0

/-- One or more times. -/
def oneOrMore (P : RegularExpression α) : RegularExpression α := P * P.star

theorem mem_oneOf {cs w : List α} : w ∈ (oneOf cs).matches' ↔ ∃ c ∈ cs, w = [c] := by
  induction cs with
  | nil => simp [oneOf, RegularExpression.matches'_zero]
  | cons c cs ih =>
    change w ∈ (RegularExpression.char c + oneOf cs).matches' ↔ _
    rw [RegularExpression.matches'_add, Language.mem_add, ih, RegularExpression.matches'_char,
      List.exists_mem_cons_iff]
    rfl

/-- A class `n` times: the words of that length over it. -/
theorem mem_oneOf_pow {cs w : List α} {n : Nat} :
    w ∈ (oneOf cs ^ n).matches' ↔ w.length = n ∧ ∀ c ∈ w, c ∈ cs := by
  induction n generalizing w with
  | zero =>
    rw [RegularExpression.matches'_pow, pow_zero, Language.mem_one, List.length_eq_zero_iff]
    constructor
    · intro h
      subst h
      simp
    · intro h
      exact h.1
  | succ n ih =>
    rw [RegularExpression.matches'_pow] at ih ⊢
    rw [pow_succ', Language.mem_mul]
    constructor
    · intro h
      obtain ⟨a, ha, b, hb, rfl⟩ := h
      obtain ⟨c, hc, rfl⟩ := mem_oneOf.mp ha
      obtain ⟨hlen, hall⟩ := ih.mp hb
      refine ⟨by simp [hlen], ?_⟩
      intro d hd
      rcases List.mem_cons.mp hd with rfl | hd
      · exact hc
      · exact hall d hd
    · intro h
      obtain ⟨hlen, hall⟩ := h
      obtain ⟨c, w, rfl⟩ := List.exists_cons_of_length_eq_add_one hlen
      refine ⟨[c], mem_oneOf.mpr ⟨c, hall c (List.mem_cons_self ..), rfl⟩, w, ih.mpr ⟨?_, ?_⟩, rfl⟩
      · simpa using hlen
      · exact fun d hd => hall d (List.mem_cons_of_mem _ hd)

/-- Words of the pattern, one after another. -/
theorem mem_oneOrMore {P : RegularExpression α} {w : List α} :
    w ∈ (oneOrMore P).matches' ↔
      ∃ S : List (List α), S ≠ [] ∧ w = S.flatten ∧ ∀ y ∈ S, y ∈ P.matches' := by
  rw [oneOrMore, RegularExpression.matches'_mul, RegularExpression.matches'_star, Language.mem_mul]
  constructor
  · intro h
    obtain ⟨a, ha, b, hb, rfl⟩ := h
    obtain ⟨S, rfl, hS⟩ := Language.mem_kstar.mp hb
    exact ⟨a :: S, List.cons_ne_nil _ _, rfl, List.forall_mem_cons.mpr ⟨ha, hS⟩⟩
  · intro h
    obtain ⟨S, hne, rfl, hS⟩ := h
    obtain ⟨a, S, rfl⟩ := List.exists_cons_of_ne_nil hne
    obtain ⟨ha, hS⟩ := List.forall_mem_cons.mp hS
    exact ⟨a, ha, S.flatten, Language.mem_kstar.mpr ⟨S, rfl, hS⟩, rfl⟩

/-- Pairs over one class, one or more times. -/
theorem mem_oneOrMore_pairs {cs w : List α} :
    w ∈ (oneOrMore (oneOf cs * oneOf cs)).matches' ↔
      w ≠ [] ∧ w.length % 2 = 0 ∧ ∀ c ∈ w, c ∈ cs := by
  have hpair : (oneOf cs * oneOf cs).matches' = (oneOf cs).matches' ^ 2 := by
    rw [RegularExpression.matches'_mul, pow_two]
  have hpow : ∀ n, w ∈ ((oneOf cs).matches' ^ 2) ^ n ↔ w.length = 2 * n ∧ ∀ c ∈ w, c ∈ cs := by
    intro n
    rw [← pow_mul, ← RegularExpression.matches'_pow, mem_oneOf_pow]
  rw [mem_oneOrMore, hpair]
  constructor
  · intro h
    obtain ⟨S, hne, hw, hS⟩ := h
    obtain ⟨hlen, hall⟩ := (hpow S.length).mp (Language.mem_pow.mpr ⟨S, hw, rfl, hS⟩)
    have hpos := List.length_pos_iff.mpr hne
    exact ⟨List.ne_nil_of_length_pos (by omega), by omega, hall⟩
  · intro h
    obtain ⟨hne, heven, hall⟩ := h
    have hpos := List.length_pos_iff.mpr hne
    obtain ⟨S, hw, hlen, hS⟩ :=
      Language.mem_pow.mp ((hpow (w.length / 2)).mpr ⟨by omega, hall⟩)
    exact ⟨S, List.ne_nil_of_length_pos (by omega), hw, hS⟩

/-- `split` at any character that is a separator: empty parts at the end are dropped. -/
def splitAny (isSep : α → Bool) (s : List α) : List (List α) :=
  if s.any isSep then (s.splitOnP isSep).rdropWhile List.isEmpty else [s]

/-- Groups with the separators between them. -/
def weave : List (List α) → List α → List α
  | g :: gs, sep :: seps => g ++ sep :: weave gs seps
  | gs, _ => gs.flatten

/-- Groups of one pattern with separators of one class between them. -/
theorem mem_separated {P : RegularExpression α} {cs w : List α} {n : Nat} :
    w ∈ ((P * oneOf cs) ^ n * P).matches' ↔ ∃ gs seps, gs.length = n + 1 ∧ seps.length = n ∧
      (∀ g ∈ gs, g ∈ P.matches') ∧ (∀ c ∈ seps, c ∈ cs) ∧ w = weave gs seps := by
  have hpow : ∀ n, ((P * oneOf cs) ^ n * P).matches' =
      (P.matches' * (oneOf cs).matches') ^ n * P.matches' := by
    intro n
    rw [RegularExpression.matches'_mul, RegularExpression.matches'_pow,
      RegularExpression.matches'_mul]
  induction n generalizing w with
  | zero =>
    rw [hpow, pow_zero, one_mul]
    constructor
    · intro h
      exact ⟨[w], [], rfl, rfl, by simpa using h, by simp, by simp [weave]⟩
    · intro h
      obtain ⟨gs, seps, hgs, hseps, hP, -, rfl⟩ := h
      obtain ⟨g, rfl⟩ := List.length_eq_one_iff.mp hgs
      rw [List.length_eq_zero_iff.mp hseps]
      simpa [weave] using hP g
  | succ n ih =>
    rw [hpow, pow_succ', mul_assoc, mul_assoc, ← hpow, Language.mem_mul]
    constructor
    · intro h
      obtain ⟨g, hg, rest, hrest, rfl⟩ := h
      obtain ⟨s, hs, w, hw, rfl⟩ := Language.mem_mul.mp hrest
      obtain ⟨c, hc, rfl⟩ := mem_oneOf.mp hs
      obtain ⟨gs, seps, hgs, hseps, hP, hC, rfl⟩ := ih.mp hw
      exact ⟨g :: gs, c :: seps, by simp [hgs], by simp [hseps],
        List.forall_mem_cons.mpr ⟨hg, hP⟩, List.forall_mem_cons.mpr ⟨hc, hC⟩, rfl⟩
    · intro h
      obtain ⟨gs, seps, hgs, hseps, hP, hC, rfl⟩ := h
      obtain ⟨g, gs, rfl⟩ := List.exists_cons_of_length_eq_add_one hgs
      obtain ⟨c, seps, rfl⟩ := List.exists_cons_of_length_eq_add_one hseps
      obtain ⟨hg, hP⟩ := List.forall_mem_cons.mp hP
      obtain ⟨hc, hC⟩ := List.forall_mem_cons.mp hC
      have hw : weave gs seps ∈ ((P * oneOf cs) ^ n * P).matches' :=
        ih.mpr ⟨gs, seps, by simpa using hgs, by simpa using hseps, hP, hC, rfl⟩
      refine ⟨g, hg, [c] ++ weave gs seps, ?_, rfl⟩
      exact Language.mem_mul.mpr ⟨[c], mem_oneOf.mpr ⟨c, hc, rfl⟩, weave gs seps, hw, rfl⟩

theorem weave_replicate (g : List α) (gs : List (List α)) (sep : α) :
    weave (g :: gs) (List.replicate gs.length sep) = g ++ gs.flatMap (sep :: ·) := by
  induction gs generalizing g with
  | nil => simp [weave]
  | cons g' gs ih =>
    rw [List.length_cons, List.replicate_succ, weave, ih g']
    simp

theorem weave_length {gs : List (List α)} {seps : List α} (h : gs.length = seps.length + 1) :
    (weave gs seps).length = (gs.map List.length).sum + seps.length := by
  induction seps generalizing gs with
  | nil =>
    obtain ⟨g, rfl⟩ := List.length_eq_one_iff.mp h
    simp [weave]
  | cons sep seps ih =>
    obtain ⟨g, gs, rfl⟩ := List.exists_cons_of_length_eq_add_one h
    rw [weave, List.length_append, List.length_cons, ih (by simpa using h), List.map_cons,
      List.sum_cons, List.length_cons]
    omega

theorem splitOnP_weave {isSep : α → Bool} {gs : List (List α)} {seps : List α}
    (hlen : gs.length = seps.length + 1) (hgs : ∀ g ∈ gs, ∀ c ∈ g, isSep c = false)
    (hseps : ∀ c ∈ seps, isSep c = true) : (weave gs seps).splitOnP isSep = gs := by
  induction seps generalizing gs with
  | nil =>
    obtain ⟨g, rfl⟩ := List.length_eq_one_iff.mp hlen
    rw [weave, List.flatten_singleton]
    · exact List.splitOnP_eq_singleton (hgs g (List.mem_cons_self ..))
    · simp
  | cons sep seps ih =>
    obtain ⟨g, gs, rfl⟩ := List.exists_cons_of_length_eq_add_one hlen
    obtain ⟨hg, hgs⟩ := List.forall_mem_cons.mp hgs
    obtain ⟨hsep, hseps⟩ := List.forall_mem_cons.mp hseps
    rw [weave, List.splitOnP_append_cons_of_forall_mem hg sep hsep,
      ih (by simpa using hlen) hgs hseps]

/-- Groups that are not empty come back. -/
theorem splitAny_weave {isSep : α → Bool} {gs : List (List α)} {seps : List α}
    (hlen : gs.length = seps.length + 1) (hgs : ∀ g ∈ gs, ∀ c ∈ g, isSep c = false)
    (hne : ∀ g ∈ gs, g ≠ []) (hseps : ∀ c ∈ seps, isSep c = true) :
    splitAny isSep (weave gs seps) = gs := by
  have hsplit := splitOnP_weave hlen hgs hseps
  have hkeep : gs.rdropWhile List.isEmpty = gs := by
    rw [List.rdropWhile_eq_self_iff]
    intro hnil hlast
    exact hne _ (List.getLast_mem hnil) (List.isEmpty_iff.mp hlast)
  unfold splitAny
  split
  · rw [hsplit, hkeep]
  · next hno =>
    have hall : ∀ c ∈ weave gs seps, isSep c = false := by simpa using hno
    rw [List.splitOnP_eq_singleton hall] at hsplit
    exact hsplit

end Text
