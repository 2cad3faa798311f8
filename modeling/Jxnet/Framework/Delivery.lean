import Mathlib.Data.List.TakeWhile

namespace Delivery

/-! Handing on the items of a stream that a test accepts, until enough of them were handed on or
the receiver asks to stop. -/

variable {α σ : Type}

inductive Stop where
  | asked
  | full
  | ended
  deriving DecidableEq, Repr

/-- What a call reads, why it stops, and what it leaves. -/
structure Outcome (σ α : Type) where
  read : List α
  stop : Stop
  rest : List α
  asked : Bool
  user : σ

variable (accept : α → Bool) (receive : σ → α → σ × Bool)

/-- Hand on up to `limit` items, but at least one. -/
def deliver : Option Nat → List α → Bool → σ → Outcome σ α
  | _, items, true, user => ⟨[], .asked, items, true, user⟩
  | _, [], false, user => ⟨[], .ended, [], false, user⟩
  | limit, a :: items, false, user =>
    if accept a then
      if limit.any (· ≤ 1) then
        ⟨[a], .full, items, (receive user a).2, (receive user a).1⟩
      else
        let o := deliver (limit.map (· - 1)) items (receive user a).2 (receive user a).1
        { o with read := a :: o.read }
    else
      let o := deliver limit items false user
      { o with read := a :: o.read }

/-- The items that are handed on. -/
def Outcome.handed (accept : α → Bool) (o : Outcome σ α) : List α := o.read.filter accept

theorem deliver_asked (limit : Option Nat) (items : List α) (user : σ) :
    deliver accept receive limit items true user = ⟨[], .asked, items, true, user⟩ := by
  rw [deliver]

/-- Nothing is lost and nothing is read twice. -/
theorem deliver_read_rest (limit : Option Nat) (items : List α) (asked : Bool) (user : σ) :
    (deliver accept receive limit items asked user).read ++
      (deliver accept receive limit items asked user).rest = items := by
  induction items generalizing limit asked user with
  | nil => cases asked <;> simp [deliver]
  | cons a items ih =>
    cases asked with
    | true => rw [deliver_asked, List.nil_append]
    | false =>
      rw [deliver]
      split
      · split
        · rfl
        · exact congrArg (a :: ·) (ih _ _ _)
      · exact congrArg (a :: ·) (ih _ _ _)

/-- The receiver gets the items that are handed on, in their order, and nothing else. -/
theorem deliver_user (limit : Option Nat) (items : List α) (asked : Bool) (user : σ) :
    (deliver accept receive limit items asked user).user =
      ((deliver accept receive limit items asked user).handed accept).foldl
        (fun u a => (receive u a).1) user := by
  induction items generalizing limit asked user with
  | nil => cases asked <;> simp [deliver, Outcome.handed]
  | cons a items ih =>
    cases asked with
    | true =>
      rw [deliver_asked]
      rfl
    | false =>
      rw [deliver]
      split
      · next ha =>
        split
        · simp [Outcome.handed, ha]
        · have hcons := ih (limit.map (· - 1)) (receive user a).2 (receive user a).1
          simpa [Outcome.handed, ha] using hcons
      · next ha =>
        have hcons := ih limit false user
        simpa [Outcome.handed, ha] using hcons

variable {accept receive}

/-- A call that reads to the end was not asked to stop, and leaves nothing. -/
theorem deliver_ended {limit : Option Nat} {items : List α} {asked : Bool} {user : σ}
    (h : (deliver accept receive limit items asked user).stop = .ended) :
    (deliver accept receive limit items asked user).rest = [] ∧
      (deliver accept receive limit items asked user).asked = false := by
  induction items generalizing limit asked user with
  | nil =>
    cases asked with
    | true =>
      rw [deliver_asked] at h
      cases h
    | false => simp [deliver]
  | cons a items ih =>
    cases asked with
    | true =>
      rw [deliver_asked] at h
      cases h
    | false =>
      rw [deliver] at h ⊢
      split at h
      · next ha =>
        rw [if_pos ha]
        split at h
        · cases h
        · next hlimit =>
          rw [if_neg hlimit]
          exact ih h
      · next ha =>
        rw [if_neg ha]
        exact ih h

/-- A call that stops on request leaves the request behind. -/
theorem deliver_stop_asked {limit : Option Nat} {items : List α} {asked : Bool} {user : σ}
    (h : (deliver accept receive limit items asked user).stop = .asked) :
    (deliver accept receive limit items asked user).asked = true := by
  induction items generalizing limit asked user with
  | nil =>
    cases asked with
    | true => rw [deliver_asked]
    | false => cases h
  | cons a items ih =>
    cases asked with
    | true => rw [deliver_asked]
    | false =>
      rw [deliver] at h ⊢
      split at h
      · next ha =>
        rw [if_pos ha]
        split at h
        · cases h
        · next hlimit =>
          rw [if_neg hlimit]
          exact ih h
      · next ha =>
        rw [if_neg ha]
        exact ih h

section Asks

/-- The receiver asks to stop at the last of the items. -/
def Asks (receive : σ → α → σ × Bool) (user : σ) (items : List α) : Prop :=
  ∃ before a, items = before ++ [a] ∧
    (receive (before.foldl (fun u a => (receive u a).1) user) a).2 = true

theorem not_asks_nil (receive : σ → α → σ × Bool) (user : σ) : ¬ Asks receive user [] := by
  rintro ⟨before, a, h, -⟩
  simp at h

theorem asks_cons (user : σ) (a : α) (items : List α) :
    Asks receive user (a :: items) ↔
      items = [] ∧ (receive user a).2 = true ∨ Asks receive (receive user a).1 items := by
  constructor
  · rintro ⟨before, b, h, hasks⟩
    cases before with
    | nil =>
      obtain ⟨rfl, rfl⟩ := List.cons.inj h
      exact .inl ⟨rfl, hasks⟩
    | cons c before =>
      obtain ⟨rfl, rfl⟩ := List.cons.inj h
      exact .inr ⟨before, b, rfl, hasks⟩
  · rintro (⟨rfl, hasks⟩ | ⟨before, b, rfl, hasks⟩)
    · exact ⟨[], a, rfl, hasks⟩
    · exact ⟨a :: before, b, rfl, hasks⟩

/-- A call that nobody had asked to stop leaves a request if the last item brought one. -/
theorem deliver_asked_iff (accept : α → Bool) (receive : σ → α → σ × Bool) (limit : Option Nat)
    (items : List α) (user : σ) :
    (deliver accept receive limit items false user).asked = true ↔
      Asks receive user ((deliver accept receive limit items false user).handed accept) := by
  induction items generalizing limit user with
  | nil => simp [deliver, Outcome.handed, not_asks_nil]
  | cons a items ih =>
    rw [deliver]
    by_cases ha : accept a = true
    · rw [if_pos ha]
      split
      · simp [Outcome.handed, ha, asks_cons, not_asks_nil]
      · cases hasks : (receive user a).2 with
        | true => simp [deliver_asked, Outcome.handed, ha, asks_cons, hasks]
        | false =>
          have hrest := ih (limit.map (· - 1)) (receive user a).1
          simpa [Outcome.handed, ha, asks_cons, hasks] using hrest
    · rw [if_neg ha]
      simpa [Outcome.handed, ha] using ih limit user

/-- No item but the last one brought a request. -/
theorem deliver_quiet (limit : Option Nat) (items : List α) (asked : Bool) (user : σ)
    {front : List α}
    (hfront : front <+: (deliver accept receive limit items asked user).handed accept)
    (hne : front ≠ (deliver accept receive limit items asked user).handed accept) :
    ¬ Asks receive user front := by
  induction items generalizing limit asked user front with
  | nil => cases asked <;> simp_all [deliver, Outcome.handed]
  | cons a items ih =>
    cases asked with
    | true => simp_all [deliver_asked, Outcome.handed]
    | false =>
      rw [deliver] at hfront hne
      by_cases ha : accept a = true
      · rw [if_pos ha] at hfront hne
        cases front with
        | nil => exact not_asks_nil receive user
        | cons b front =>
          split at hfront
          · simp_all [Outcome.handed]
          · next hlimit =>
            rw [if_neg hlimit] at hne
            simp only [Outcome.handed, List.filter_cons_of_pos ha, List.cons_prefix_cons] at hfront
            obtain ⟨rfl, hfront⟩ := hfront
            simp only [Outcome.handed, List.filter_cons_of_pos ha, ne_eq, List.cons.injEq,
              true_and] at hne
            rw [asks_cons, not_or]
            refine ⟨?_, ih _ _ _ hfront hne⟩
            rintro ⟨rfl, hasks⟩
            rw [hasks, deliver_asked] at hne
            exact hne rfl
      · rw [if_neg ha] at hfront hne
        simp only [Outcome.handed, List.filter_cons_of_neg ha] at hfront hne
        exact ih _ _ _ hfront hne

end Asks

/-- Without a limit a call never stops because of it. -/
theorem deliver_unlimited (items : List α) (asked : Bool) (user : σ) :
    (deliver accept receive none items asked user).stop ≠ .full := by
  induction items generalizing asked user with
  | nil => cases asked <;> simp [deliver]
  | cons a items ih =>
    cases asked with
    | true => simp [deliver]
    | false =>
      rw [deliver]
      split
      · exact ih _ _
      · exact ih _ _

/-- A call stops because of its limit when it has handed on as many items, and never hands on
more. -/
theorem deliver_limited (accept : α → Bool) (receive : σ → α → σ × Bool) (k : Nat)
    (items : List α) (asked : Bool) (user : σ) :
    if (deliver accept receive (some (k + 1)) items asked user).stop = .full then
      ((deliver accept receive (some (k + 1)) items asked user).handed accept).length = k + 1
    else ((deliver accept receive (some (k + 1)) items asked user).handed accept).length ≤ k := by
  induction items generalizing k asked user with
  | nil => cases asked <;> simp [deliver, Outcome.handed]
  | cons a items ih =>
    cases asked with
    | true => simp [deliver, Outcome.handed]
    | false =>
      rw [deliver]
      by_cases ha : accept a = true
      · rw [if_pos ha]
        cases k with
        | zero => simp [Outcome.handed, ha]
        | succ k =>
          have hlimit : (some (k + 1 + 1)).any (fun n => decide (n ≤ 1)) = false := by simp
          rw [hlimit]
          simpa [Outcome.handed, ha] using ih k (receive user a).2 (receive user a).1
      · rw [if_neg ha]
        simpa [Outcome.handed, ha] using ih k false user

theorem filter_rejected (accept : α → Bool) (items : List α) :
    (items.takeWhile fun a => !accept a).filter accept = [] := by
  rw [List.filter_eq_nil_iff]
  intro a ha
  simpa using List.mem_takeWhile_imp ha

/-- The first item that is accepted, behind those that are not. -/
theorem filter_first {items rest : List α} {a : α}
    (h : items.dropWhile (fun a => !accept a) = a :: rest) :
    (items.takeWhile (fun a => !accept a) ++ [a]).filter accept = [a] := by
  have hne : items.dropWhile (fun a => !accept a) ≠ [] := by
    rw [h]
    exact List.cons_ne_nil _ _
  have ha : accept a = true := by
    have hhead := List.head_dropWhile_not (fun a => !accept a) hne
    simpa [h] using hhead
  rw [List.filter_append, filter_rejected, List.nil_append, List.filter_cons_of_pos ha]
  rfl

/-- A call for one item takes what is rejected in front of it, too. -/
theorem deliver_one (items : List α) (user : σ) :
    deliver accept receive (some 1) items false user =
      match items.dropWhile (fun a => !accept a) with
      | [] => ⟨items, .ended, [], false, user⟩
      | a :: rest => ⟨items.takeWhile (fun a => !accept a) ++ [a], .full, rest,
          (receive user a).2, (receive user a).1⟩ := by
  induction items with
  | nil => rfl
  | cons a items ih =>
    rw [deliver]
    cases ha : accept a with
    | true => simp [ha]
    | false =>
      simp only [Bool.false_eq_true, if_false, ih, List.dropWhile_cons, List.takeWhile_cons, ha,
        Bool.not_false, if_true]
      split <;> rfl

end Delivery
