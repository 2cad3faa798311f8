import Mathlib.Data.List.Count

namespace Java.ClassInit

/-! Class initialization in a program with one thread. -/

inductive Status where
  | uninitialized
  | inProgress
  | initialized
  | erroneous
  deriving DecidableEq, Repr

inductive InitError where
  | exceptionInInitializer
  | noClassDefFound
  deriving DecidableEq, Repr

/-- Static code over the classes `κ` and the static fields `σ`. -/
inductive Code (κ σ : Type) where
  | done
  | use (clazz : κ) (next : Code κ σ)
  | action (f : σ → Option σ) (next : Code κ σ)
  | ite (p : σ → Bool) (yes no : Code κ σ)

structure Classes (κ σ : Type) where
  all : List κ
  mem_all : ∀ k, k ∈ all
  parent : κ → Option κ
  clinit : κ → Code κ σ

structure State (κ σ : Type) where
  status : κ → Status
  statics : σ

/-- An error, if there is one, and the state left. -/
abbrev Outcome (κ σ : Type) := Option InitError × State κ σ

variable {κ σ : Type} [DecidableEq κ]

def State.mark (s : State κ σ) (clazz : κ) (status : Status) : State κ σ :=
  { s with status := fun k => if k = clazz then status else s.status k }

/-- Run code, where using a class runs `init` on it. An action without a result throws. -/
def Code.exec (init : κ → State κ σ → Option (Outcome κ σ)) :
    Code κ σ → State κ σ → Option (Outcome κ σ)
  | done, s => some (none, s)
  | use clazz next, s => match init clazz s with
    | some (none, s') => next.exec init s'
    | some (some e, s') => some (some e, s')
    | none => none
  | action f next, s => match f s.statics with
    | some statics => next.exec init { s with statics }
    | none => some (some .exceptionInInitializer, s)
  | ite p yes no, s => if p s.statics then yes.exec init s else no.exec init s

variable (P : Classes κ σ)

/-- The parent first, then the static code of the class itself. -/
def Classes.body (clazz : κ) : Code κ σ :=
  match P.parent clazz with
  | some parent => .use parent (P.clinit clazz)
  | none => P.clinit clazz

/-- The initialization procedure, nested at most `fuel` deep; `none` beyond that. A class that is
being initialized already is used as it stands. -/
def init : Nat → κ → State κ σ → Option (Outcome κ σ)
  | 0, _, _ => none
  | fuel + 1, clazz, s => match s.status clazz with
    | .initialized => some (none, s)
    | .inProgress => some (none, s)
    | .erroneous => some (some .noClassDefFound, s)
    | .uninitialized => match (P.body clazz).exec (init fuel) (s.mark clazz .inProgress) with
      | some (none, s') => some (none, s'.mark clazz .initialized)
      | some (some e, s') => some (some e, s'.mark clazz .erroneous)
      | none => none

/-- How many classes are not initialized. -/
def pending (s : State κ σ) : Nat := P.all.countP fun k => s.status k = .uninitialized

variable {P}

omit [DecidableEq κ] in
theorem exec_mono {init init' : κ → State κ σ → Option (Outcome κ σ)}
    (h : ∀ k s r, init k s = some r → init' k s = some r) (code : Code κ σ) (s : State κ σ)
    (r : Outcome κ σ) (hr : code.exec init s = some r) : code.exec init' s = some r := by
  induction code generalizing s with
  | done => exact hr
  | use clazz next ih =>
    rw [Code.exec] at hr ⊢
    rcases hinit : init clazz s with _ | ⟨_ | e, s'⟩
    · rw [hinit] at hr
      cases hr
    · rw [hinit] at hr
      rw [h _ _ _ hinit]
      exact ih _ hr
    · rw [hinit] at hr
      rw [h _ _ _ hinit]
      exact hr
  | action f next ih =>
    rw [Code.exec] at hr ⊢
    cases hf : f s.statics with
    | none =>
      rw [hf] at hr
      exact hr
    | some statics =>
      rw [hf] at hr
      exact ih _ hr
  | ite p yes no ihYes ihNo =>
    rw [Code.exec] at hr ⊢
    split at hr
    · next hp =>
      rw [if_pos hp]
      exact ihYes _ hr
    · next hp =>
      rw [if_neg hp]
      exact ihNo _ hr

/-- What becomes of a class when its code has run. -/
def finish (clazz : κ) : Outcome κ σ → Outcome κ σ
  | (none, s) => (none, s.mark clazz .initialized)
  | (some e, s) => (some e, s.mark clazz .erroneous)

theorem init_of_uninitialized {clazz : κ} {s : State κ σ}
    (h : s.status clazz = .uninitialized) (n : Nat) :
    init P (n + 1) clazz s =
      ((P.body clazz).exec (init P n) (s.mark clazz .inProgress)).map (finish clazz) := by
  rw [init, h]
  rcases (P.body clazz).exec (init P n) (s.mark clazz .inProgress) with _ | ⟨_ | e, s'⟩
  · rfl
  · rfl
  · rfl

/-- Any other class is left as it is. -/
theorem init_of_started {clazz : κ} {s : State κ σ} (h : s.status clazz ≠ .uninitialized) :
    ∃ e, ∀ n, init P (n + 1) clazz s = some (e, s) := by
  cases hstatus : s.status clazz with
  | uninitialized => exact absurd hstatus h
  | inProgress => exact ⟨none, fun n => by rw [init, hstatus]⟩
  | initialized => exact ⟨none, fun n => by rw [init, hstatus]⟩
  | erroneous => exact ⟨some .noClassDefFound, fun n => by rw [init, hstatus]⟩

/-- More fuel gives the same outcome. -/
theorem init_mono {m n : Nat} (h : m ≤ n) (clazz : κ) (s : State κ σ) (r : Outcome κ σ)
    (hr : init P m clazz s = some r) : init P n clazz s = some r := by
  induction m generalizing n clazz s r with
  | zero => cases hr
  | succ m ih =>
    obtain ⟨n, rfl⟩ : ∃ k, n = k + 1 := ⟨n - 1, by omega⟩
    by_cases hstatus : s.status clazz = .uninitialized
    · rw [init_of_uninitialized hstatus] at hr ⊢
      obtain ⟨r', hbody, rfl⟩ := Option.map_eq_some_iff.mp hr
      rw [exec_mono (fun k s r => ih (by omega) k s r) _ _ _ hbody]
      rfl
    · obtain ⟨e, he⟩ := init_of_started (P := P) hstatus
      rw [he] at hr ⊢
      exact hr

/-- No class is uninitialized again. -/
def Grows (s s' : State κ σ) : Prop :=
  ∀ k, s'.status k = .uninitialized → s.status k = .uninitialized

theorem Grows.mark {s s' : State κ σ} (h : Grows s s') (clazz : κ) {status : Status}
    (hstatus : status ≠ .uninitialized) : Grows s (s'.mark clazz status) := by
  intro k hk
  simp only [State.mark] at hk
  split at hk
  · exact absurd hk hstatus
  · exact h k hk

omit [DecidableEq κ] in
theorem exec_grows {init : κ → State κ σ → Option (Outcome κ σ)}
    (h : ∀ k s r, init k s = some r → Grows s r.2) (code : Code κ σ) (s : State κ σ)
    (r : Outcome κ σ) (hr : code.exec init s = some r) : Grows s r.2 := by
  induction code generalizing s with
  | done =>
    cases hr
    exact fun k hk => hk
  | use clazz next ih =>
    rw [Code.exec] at hr
    rcases hinit : init clazz s with _ | ⟨_ | e, s'⟩
    · rw [hinit] at hr
      cases hr
    · rw [hinit] at hr
      exact fun k hk => h _ _ _ hinit k (ih _ hr k hk)
    · rw [hinit] at hr
      cases hr
      exact h _ _ _ hinit
  | action f next ih =>
    rw [Code.exec] at hr
    cases hf : f s.statics with
    | none =>
      rw [hf] at hr
      cases hr
      exact fun k hk => hk
    | some statics =>
      rw [hf] at hr
      exact ih ⟨s.status, statics⟩ hr
  | ite p yes no ihYes ihNo =>
    rw [Code.exec] at hr
    split at hr
    · exact ihYes _ hr
    · exact ihNo _ hr

theorem Grows.finish {s : State κ σ} {r : Outcome κ σ} (h : Grows s r.2) (clazz : κ) :
    Grows s (finish clazz r).2 := by
  rcases r with ⟨_ | e, s'⟩
  · exact h.mark clazz (by decide)
  · exact h.mark clazz (by decide)

theorem init_grows (n : Nat) (clazz : κ) (s : State κ σ) (r : Outcome κ σ)
    (hr : init P n clazz s = some r) : Grows s r.2 := by
  induction n generalizing clazz s r with
  | zero => cases hr
  | succ n ih =>
    have hself : Grows s s := fun k hk => hk
    by_cases hstatus : s.status clazz = .uninitialized
    · rw [init_of_uninitialized hstatus] at hr
      obtain ⟨r', hbody, rfl⟩ := Option.map_eq_some_iff.mp hr
      have hstart : Grows s (s.mark clazz .inProgress) := hself.mark clazz (by decide)
      have hcode := exec_grows ih _ _ _ hbody
      exact Grows.finish (fun k hk => hstart k (hcode k hk)) clazz
    · obtain ⟨e, he⟩ := init_of_started (P := P) hstatus
      rw [he] at hr
      cases hr
      exact hself

omit [DecidableEq κ] in
theorem Grows.pending_le {s s' : State κ σ} (h : Grows s s') : pending P s' ≤ pending P s := by
  apply List.countP_mono_left
  intro k _ hk
  exact decide_eq_true (h k (of_decide_eq_true hk))

theorem pending_mark_lt {s : State κ σ} {clazz : κ} (h : s.status clazz = .uninitialized) :
    pending P (s.mark clazz .inProgress) < pending P s := by
  have hmark : ∀ l : List κ,
      (l.countP fun k => (s.mark clazz .inProgress).status k = .uninitialized) ≤
        l.countP fun k => s.status k = .uninitialized := by
    intro l
    apply List.countP_mono_left
    intro k _ hk
    have hgrows : Grows s (s.mark clazz .inProgress) :=
      Grows.mark (fun k hk => hk) clazz (by decide)
    exact decide_eq_true (hgrows k (of_decide_eq_true hk))
  obtain ⟨pre, post, hall⟩ := List.append_of_mem (P.mem_all clazz)
  have hpre := hmark pre
  have hpost := hmark post
  have hhere : (s.mark clazz .inProgress).status clazz ≠ .uninitialized := by
    simp [State.mark]
  rw [pending, pending, hall, List.countP_append, List.countP_append,
    List.countP_cons_of_neg (by simpa using hhere), List.countP_cons_of_pos (by simpa using h)]
  omega

omit [DecidableEq κ] in
theorem exec_isSome {n : Nat} {init : κ → State κ σ → Option (Outcome κ σ)}
    (hgrows : ∀ k s r, init k s = some r → Grows s r.2)
    (h : ∀ k s, pending P s < n → (init k s).isSome) (code : Code κ σ) (s : State κ σ)
    (hs : pending P s < n) : (code.exec init s).isSome := by
  induction code generalizing s with
  | done => rfl
  | use clazz next ih =>
    rw [Code.exec]
    obtain ⟨r, hr⟩ := Option.isSome_iff_exists.mp (h clazz s hs)
    rw [hr]
    rcases r with ⟨_ | e, s'⟩
    · exact ih _ (Nat.lt_of_le_of_lt (hgrows _ _ _ hr).pending_le hs)
    · rfl
  | action f next ih =>
    rw [Code.exec]
    cases f s.statics with
    | none => rfl
    | some statics => exact ih _ hs
  | ite p yes no ihYes ihNo =>
    rw [Code.exec]
    split
    · exact ihYes _ hs
    · exact ihNo _ hs

/-- The nesting is no deeper than the classes that are left. -/
theorem init_isSome (n : Nat) (clazz : κ) (s : State κ σ) (h : pending P s < n) :
    (init P n clazz s).isSome := by
  induction n generalizing clazz s with
  | zero => omega
  | succ n ih =>
    by_cases hstatus : s.status clazz = .uninitialized
    · have hlt := pending_mark_lt (P := P) hstatus
      rw [init_of_uninitialized hstatus, Option.isSome_map]
      exact exec_isSome (init_grows n) ih _ _ (by omega)
    · obtain ⟨e, he⟩ := init_of_started (P := P) hstatus
      rw [he]
      rfl

variable (P)

/-- What the use of a class does. -/
def initClass (clazz : κ) (s : State κ σ) : Outcome κ σ :=
  (init P (pending P s + 1) clazz s).get (init_isSome _ clazz s (Nat.lt_succ_self _))

variable {P}

theorem initClass_eq {n : Nat} {clazz : κ} {s : State κ σ} {r : Outcome κ σ}
    (h : init P n clazz s = some r) : initClass P clazz s = r := by
  have hget : init P (pending P s + 1) clazz s = some (initClass P clazz s) :=
    (Option.some_get _).symm
  have hleft := init_mono (Nat.le_max_left n (pending P s + 1)) clazz s r h
  have hright := init_mono (Nat.le_max_right n (pending P s + 1)) clazz s _ hget
  rw [hleft] at hright
  exact (Option.some.inj hright).symm

/-- An initialized class is used as it is. -/
theorem initClass_of_initialized {clazz : κ} {s : State κ σ}
    (h : s.status clazz = .initialized) : initClass P clazz s = (none, s) := by
  apply initClass_eq (n := 1)
  rw [init, h]

end Java.ClassInit
