import Jxnet.Bpf.Block
import Mathlib.Data.List.Nodup
import Mathlib.Data.List.Perm.Subperm

namespace Jxnet

open ShortCircuit

namespace Bpf

namespace Blocks

/-! What the assignments leave alone. -/

section Updates

variable (h : Blocks) (b : Nat) (e : Edge) (t : Option Nat)

@[simp] theorem next_setSucc : (h.setSucc e t).next = h.next := rfl

@[simp] theorem next_flipSense : (h.flipSense b).next = h.next := rfl

@[simp] theorem next_setHead (head : Nat) : (h.setHead b head).next = h.next := rfl

theorem block_setSucc_of_ne {i : Nat} (hi : i ≠ e.1) : (h.setSucc e t).block i = h.block i :=
  if_neg hi

theorem block_flipSense_of_ne {i : Nat} (hi : i ≠ b) : (h.flipSense b).block i = h.block i :=
  if_neg hi

theorem block_setHead_of_ne {i : Nat} (hi : i ≠ b) (head : Nat) :
    (h.setHead b head).block i = h.block i := if_neg hi

@[simp] theorem test_setSucc (i : Nat) : (h.setSucc e t).test i = h.test i := by
  obtain ⟨b, side⟩ := e
  by_cases hi : i = b
  · cases side <;> simp [test, setSucc, update, hi]
  · rw [test, test, block_setSucc_of_ne h _ t hi]

@[simp] theorem test_flipSense (i : Nat) : (h.flipSense b).test i = h.test i := by
  simp only [test, flipSense, update]
  split <;> simp_all

@[simp] theorem test_setHead (i head : Nat) : (h.setHead b head).test i = h.test i := by
  simp only [test, setHead, update]
  split <;> simp_all

@[simp] theorem sense_setSucc (i : Nat) : ((h.setSucc e t).block i).sense = (h.block i).sense := by
  obtain ⟨b, side⟩ := e
  by_cases hi : i = b
  · cases side <;> simp [setSucc, update, hi]
  · rw [block_setSucc_of_ne h _ t hi]

@[simp] theorem sense_setHead (i head : Nat) :
    ((h.setHead b head).block i).sense = (h.block i).sense := by
  simp only [setHead, update]
  split <;> simp_all

theorem sense_flipSense (i : Nat) : ((h.flipSense b).block i).sense =
    if i = b then !(h.block b).sense else (h.block i).sense := by
  simp only [flipSense, update]
  split <;> simp_all

@[simp] theorem head_setSucc (i : Nat) : ((h.setSucc e t).block i).head = (h.block i).head := by
  obtain ⟨b, side⟩ := e
  by_cases hi : i = b
  · cases side <;> simp [setSucc, update, hi]
  · rw [block_setSucc_of_ne h _ t hi]

@[simp] theorem head_flipSense (i : Nat) : ((h.flipSense b).block i).head = (h.block i).head := by
  simp only [flipSense, update]
  split <;> simp_all

theorem head_setHead (i head : Nat) : ((h.setHead b head).block i).head =
    if i = b then head else (h.block i).head := by
  simp only [setHead, update]
  split <;> simp_all

theorem succ_setSucc (e' : Edge) : (h.setSucc e t).succ e' = if e' = e then t else h.succ e' := by
  obtain ⟨i, side⟩ := e
  obtain ⟨i', side'⟩ := e'
  simp only [succ, setSucc, update, Prod.mk.injEq]
  by_cases hi : i' = i
  · subst hi
    cases side <;> cases side' <;> simp
  · simp [hi]

@[simp] theorem succ_flipSense (e' : Edge) : (h.flipSense b).succ e' = h.succ e' := by
  simp only [succ, flipSense, update]
  split <;> split <;> simp_all

@[simp] theorem succ_setHead (e' : Edge) (head : Nat) :
    (h.setHead b head).succ e' = h.succ e' := by
  simp only [succ, setHead, update]
  split <;> split <;> simp_all

end Updates

/-- The list of the unresolved jump fields that starts with a pointer. -/
def Follows (h : Blocks) : Option Nat → List Edge → Prop
  | o, [] => o = none
  | o, e :: es => ∃ c, o = some c ∧ e = h.link c ∧ h.Follows (h.succ e) es

theorem Follows.congr {h h' : Blocks} {o : Option Nat} {es : List Edge} (hf : h.Follows o es)
    (hsense : ∀ e ∈ es, (h'.block e.1).sense = (h.block e.1).sense)
    (hsucc : ∀ e ∈ es, h'.succ e = h.succ e) : h'.Follows o es := by
  induction es generalizing o with
  | nil => exact hf
  | cons e es ih =>
    obtain ⟨c, hc, he, hrest⟩ := hf
    have hsense0 := hsense e List.mem_cons_self
    refine ⟨c, hc, ?_, ?_⟩
    · rw [he] at hsense0 ⊢
      exact Prod.ext rfl (by simp only [link] at hsense0 ⊢; rw [hsense0])
    · rw [hsucc e List.mem_cons_self]
      exact ih hrest (fun e' he' => hsense e' (List.mem_cons_of_mem e he'))
        (fun e' he' => hsucc e' (List.mem_cons_of_mem e he'))

/-- Resolving the fields of a list, one after the other. -/
def resolve (h : Blocks) (es : List Edge) (target : Nat) : Blocks :=
  es.foldl (fun h e => h.setSucc e (some target)) h

theorem backpatchLoop_eq {h : Blocks} {o : Option Nat} {es : List Edge} (hf : h.Follows o es)
    (hnd : es.Nodup) {n : Nat} (hn : es.length ≤ n) (target : Nat) :
    backpatchLoop n o target h = h.resolve es target := by
  induction es generalizing n o h with
  | nil =>
    rw [show o = none from hf]
    cases n <;> rfl
  | cons e es ih =>
    obtain ⟨c, rfl, he, hrest⟩ := hf
    obtain ⟨n, rfl⟩ : ∃ m, n = m + 1 := ⟨n - 1, by rw [List.length_cons] at hn; omega⟩
    have hmem := (List.nodup_cons.mp hnd).1
    have hrest' : (h.setSucc e (some target)).Follows (h.succ e) es :=
      hrest.congr (fun e' _ => sense_setSucc h e _ e'.1)
        (fun e' he' => by
          rw [succ_setSucc, if_neg]
          rintro rfl
          exact hmem he')
    have hih := ih hrest' (List.nodup_cons.mp hnd).2 (n := n)
      (by rw [List.length_cons] at hn; omega)
    rw [resolve, List.foldl_cons]
    refine Eq.trans ?_ hih
    rw [he, link]
    rw [backpatchLoop]
    cases (h.block c).sense <;> rfl

section Resolve

variable (h : Blocks) (es : List Edge) (target : Nat)

@[simp] theorem next_resolve : (h.resolve es target).next = h.next := by
  induction es generalizing h with
  | nil => rfl
  | cons e es ih => exact ih (h.setSucc e (some target))

@[simp] theorem test_resolve (i : Nat) : (h.resolve es target).test i = h.test i := by
  induction es generalizing h with
  | nil => rfl
  | cons e es ih => exact (ih (h.setSucc e (some target))).trans (test_setSucc h e _ i)

@[simp] theorem sense_resolve (i : Nat) :
    ((h.resolve es target).block i).sense = (h.block i).sense := by
  induction es generalizing h with
  | nil => rfl
  | cons e es ih => exact (ih (h.setSucc e (some target))).trans (sense_setSucc h e _ i)

@[simp] theorem head_resolve (i : Nat) :
    ((h.resolve es target).block i).head = (h.block i).head := by
  induction es generalizing h with
  | nil => rfl
  | cons e es ih => exact (ih (h.setSucc e (some target))).trans (head_setSucc h e _ i)

theorem succ_resolve (e' : Edge) :
    (h.resolve es target).succ e' = if e' ∈ es then some target else h.succ e' := by
  induction es generalizing h with
  | nil => simp [resolve]
  | cons e es ih =>
    refine (ih (h.setSucc e (some target))).trans ?_
    rw [succ_setSucc]
    by_cases hes : e' ∈ es
    · simp [hes]
    · by_cases he : e' = e <;> simp [he, hes]

theorem block_resolve_of_notMem {i : Nat} (hi : ∀ e ∈ es, e.1 ≠ i) :
    (h.resolve es target).block i = h.block i := by
  induction es generalizing h with
  | nil => rfl
  | cons e es ih =>
    have htail := ih (h.setSucc e (some target)) fun e' he' => hi e' (List.mem_cons_of_mem e he')
    refine htail.trans ?_
    exact block_setSucc_of_ne h e _ (hi e List.mem_cons_self).symm

end Resolve

theorem lastLink_eq {h : Blocks} {c : Nat} {e : Edge} {es : List Edge}
    (hf : h.Follows (some c) (e :: es)) {n : Nat} (hn : es.length ≤ n) :
    h.lastLink n c = (e :: es).getLast (List.cons_ne_nil e es) := by
  induction es generalizing n c e with
  | nil =>
    obtain ⟨c', hc, rfl, hnone⟩ := hf
    cases hc
    cases n with
    | zero => rfl
    | succ n =>
      rw [lastLink, show h.succ (h.link c) = none from hnone]
      rfl
  | cons e' es ih =>
    obtain ⟨c', hc, rfl, c'', hc'', he', hrest⟩ := hf
    cases hc
    obtain ⟨n, rfl⟩ : ∃ m, n = m + 1 := ⟨n - 1, by rw [List.length_cons] at hn; omega⟩
    rw [lastLink, hc'', List.getLast_cons (List.cons_ne_nil e' es)]
    exact ih ⟨c'', rfl, he', hrest⟩ (by rw [List.length_cons] at hn; omega)

/-- After the last field of a list is set to the start of another, the two are one list. -/
theorem Follows.append {h : Blocks} {o : Option Nat} {b : Nat} {es es' : List Edge}
    (hf : h.Follows o es) (hne : es ≠ []) (hnd : es.Nodup) (hdisj : ∀ e ∈ es, e ∉ es')
    (hf' : h.Follows (some b) es') :
    (h.setSucc (es.getLast hne) (some b)).Follows o (es ++ es') := by
  induction es generalizing o with
  | nil => exact absurd rfl hne
  | cons e es ih =>
    obtain ⟨c, hc, he, hrest⟩ := hf
    have hlink : ∀ (e0 : Edge), (h.setSucc e0 (some b)).link c = h.link c := fun e0 =>
      Prod.ext rfl (by simp only [link, sense_setSucc])
    refine ⟨c, hc, he.trans (hlink _).symm, ?_⟩
    cases es with
    | nil =>
      rw [List.getLast_singleton, succ_setSucc, if_pos rfl]
      exact hf'.congr (fun e' _ => sense_setSucc h e _ e'.1)
        (fun e' he' => by
          rw [succ_setSucc, if_neg]
          rintro rfl
          exact hdisj e' List.mem_cons_self he')
    | cons e' es =>
      rw [List.getLast_cons (List.cons_ne_nil e' es), succ_setSucc, if_neg]
      · exact ih hrest (List.cons_ne_nil e' es) (List.nodup_cons.mp hnd).2
          (fun e0 he0 => hdisj e0 (List.mem_cons_of_mem e he0))
      · intro hee
        exact (List.nodup_cons.mp hnd).1 (hee ▸ List.getLast_mem _)

/-- The blocks `bs` decide the condition from block `i` on, but for the jump fields in `T`, by which
they leave where it holds, and those in `F`, by which they leave where it does not. -/
def Open (h : Blocks) : Condition → Nat → List Nat → List Edge → List Edge → Prop
  | .test q, i, bs, T, F => bs = [i] ∧ h.test i = q ∧ T = [(i, true)] ∧ F = [(i, false)]
  | .not e, i, bs, T, F => h.Open e i bs F T
  | .and a b, i, bs, T, F => ∃ m bsa bsb Ta Fa Fb, h.Open a i bsa Ta Fa ∧ h.Open b m bsb T Fb ∧
      (∀ e ∈ Ta, h.succ e = some m) ∧ F = Fb ++ Fa ∧ bs = bsb ++ bsa
  | .or a b, i, bs, T, F => ∃ m bsa bsb Ta Fa Tb, h.Open a i bsa Ta Fa ∧ h.Open b m bsb Tb F ∧
      (∀ e ∈ Fa, h.succ e = some m) ∧ T = Tb ++ Ta ∧ bs = bsb ++ bsa

namespace Open

variable {h h' : Blocks} {c : Condition} {i : Nat} {bs : List Nat} {T F : List Edge}

theorem or_iff {a b : Condition} :
    h.Open (.or a b) i bs T F ↔ h.Open (.and (.not a) (.not b)) i bs F T := by
  constructor
  · rintro ⟨m, bsa, bsb, Ta, Fa, Tb, hoa, hob, hm, hT, hbs⟩
    exact ⟨m, bsa, bsb, Fa, Ta, Tb, hoa, hob, hm, hT, hbs⟩
  · rintro ⟨m, bsa, bsb, Fa, Ta, Tb, hoa, hob, hm, hT, hbs⟩
    exact ⟨m, bsa, bsb, Ta, Fa, Tb, hoa, hob, hm, hT, hbs⟩

/-- The induction on the condition. `or` is what `and` is for the negations. -/
theorem dual_induct {h : Blocks}
    {motive : (c : Condition) → (i : Nat) → (bs : List Nat) → (T F : List Edge) →
      h.Open c i bs T F → Prop}
    (test : ∀ {q i} (hq : h.test i = q),
      motive (.test q) i [i] [(i, true)] [(i, false)] ⟨rfl, hq, rfl, rfl⟩)
    (not : ∀ {c i bs T F} (ho : h.Open c i bs T F), motive c i bs T F ho →
      motive (.not c) i bs F T ho)
    (and : ∀ {a b i m bsa bsb Ta Fa T Fb} (hoa : h.Open a i bsa Ta Fa) (hob : h.Open b m bsb T Fb)
      (hm : ∀ e ∈ Ta, h.succ e = some m), motive a i bsa Ta Fa hoa → motive b m bsb T Fb hob →
      motive (.and a b) i (bsb ++ bsa) T (Fb ++ Fa)
        ⟨m, bsa, bsb, Ta, Fa, Fb, hoa, hob, hm, rfl, rfl⟩)
    (or : ∀ {a b i bs T F} (ho : h.Open (.and (.not a) (.not b)) i bs F T),
      motive (.and (.not a) (.not b)) i bs F T ho → motive (.or a b) i bs T F (or_iff.mpr ho))
    {c : Condition} {i : Nat} {bs : List Nat} {T F : List Edge} (ho : h.Open c i bs T F) :
    motive c i bs T F ho := by
  induction c generalizing i bs T F with
  | test q =>
    obtain ⟨rfl, hq, rfl, rfl⟩ := ho
    exact test hq
  | not c ih => exact not (c := c) ho (ih ho)
  | and a b iha ihb =>
    obtain ⟨m, bsa, bsb, Ta, Fa, Fb, hoa, hob, hm, rfl, rfl⟩ := ho
    exact and hoa hob hm (iha hoa) (ihb hob)
  | or a b iha ihb =>
    obtain ⟨m, bsa, bsb, Ta, Fa, Tb, hoa, hob, hm, rfl, rfl⟩ := ho
    exact or _ (and (a := a.not) (b := b.not) hoa hob hm (not hoa (iha hoa)) (not hob (ihb hob)))

/-- The open fields are fields of the blocks. -/
theorem fst_mem (ho : h.Open c i bs T F) {e : Edge} (he : e ∈ T ++ F) : e.1 ∈ bs := by
  induction ho using Open.dual_induct with
  | test hq => rcases List.mem_append.mp he with he | he <;> simp_all
  | not ho ih => exact ih (List.mem_append.mpr (List.mem_append.mp he).symm)
  | @and a b i m bsa bsb Ta Fa T Fb hoa hob hm iha ihb =>
    have ha := fun he => List.mem_append_right bsb (iha he)
    have hb := fun he => List.mem_append_left bsa (ihb he)
    simp only [List.mem_append] at he ha hb ⊢
    tauto
  | or ho ih => exact ih (List.mem_append.mpr (List.mem_append.mp he).symm)

theorem length_le (ho : h.Open c i bs T F) : T.length ≤ bs.length ∧ F.length ≤ bs.length := by
  induction ho using Open.dual_induct with
  | test hq => exact ⟨Nat.le_refl 1, Nat.le_refl 1⟩
  | not ho ih => exact ih.symm
  | and hoa hob hm iha ihb =>
    simp only [List.length_append]
    omega
  | or ho ih => exact ih.symm

/-- No field is open twice. -/
theorem nodup (ho : h.Open c i bs T F) (hbs : bs.Nodup) : (T ++ F).Nodup := by
  induction ho using Open.dual_induct with
  | test hq => simp
  | not ho ih => exact (List.perm_append_comm.nodup_iff).mp (ih hbs)
  | @and a b i m bsa bsb Ta Fa T Fb hoa hob hm iha ihb =>
    obtain ⟨hnb, hna, hab⟩ := List.nodup_append.mp hbs
    have hTb := ihb hnb
    have hFa := (List.nodup_append.mp (iha hna)).2.1
    rw [← List.append_assoc]
    refine List.nodup_append.mpr ⟨hTb, hFa, fun e he e' he' hee => ?_⟩
    subst hee
    exact hab e.1 (hob.fst_mem he) e.1 (hoa.fst_mem (List.mem_append_right Ta he')) rfl
  | or ho ih => exact (List.perm_append_comm.nodup_iff).mp (ih hbs)

/-- Only the tests of the blocks and their resolved fields matter. -/
theorem congr (ho : h.Open c i bs T F) (hbs : bs.Nodup) (htest : ∀ i ∈ bs, h'.test i = h.test i)
    (hsucc : ∀ e : Edge, e.1 ∈ bs → e ∉ T → e ∉ F → h'.succ e = h.succ e) :
    h'.Open c i bs T F := by
  induction ho using Open.dual_induct with
  | @test q i hq => exact ⟨rfl, (htest i List.mem_cons_self).trans hq, rfl, rfl⟩
  | not ho ih => exact ih hbs htest fun e he hF hT => hsucc e he hT hF
  | @and a b i m bsa bsb Ta Fa T Fb hoa hob hm iha ihb =>
    obtain ⟨hnb, hna, hab⟩ := List.nodup_append.mp hbs
    have hopena := hoa.nodup hna
    have outb : ∀ e : Edge, e.1 ∈ bsa → e ∉ T ∧ e ∉ Fb := fun e he =>
      ⟨fun hT => hab e.1 (hob.fst_mem (List.mem_append_left Fb hT)) e.1 he rfl,
        fun hF => hab e.1 (hob.fst_mem (List.mem_append_right T hF)) e.1 he rfl⟩
    refine ⟨m, bsa, bsb, Ta, Fa, Fb, ?_, ?_, ?_, rfl, rfl⟩
    · refine iha hna (fun i hi => htest i (List.mem_append_right bsb hi)) fun e he hT hF => ?_
      refine hsucc e (List.mem_append_right bsb he) (outb e he).1 fun hmem => ?_
      rcases List.mem_append.mp hmem with hmem | hmem
      · exact (outb e he).2 hmem
      · exact hF hmem
    · refine ihb hnb (fun i hi => htest i (List.mem_append_left bsa hi)) fun e he hT hF => ?_
      refine hsucc e (List.mem_append_left bsa he) hT fun hmem => ?_
      rcases List.mem_append.mp hmem with hmem | hmem
      · exact hF hmem
      · exact hab e.1 he e.1 (hoa.fst_mem (List.mem_append_right Ta hmem)) rfl
    · intro e he
      have hea := hoa.fst_mem (List.mem_append_left Fa he)
      rw [hsucc e (List.mem_append_right bsb hea) (outb e hea).1, hm e he]
      intro hmem
      rcases List.mem_append.mp hmem with hmem | hmem
      · exact (outb e hea).2 hmem
      · exact (List.nodup_append.mp hopena).2.2 e he e hmem rfl
  | or ho ih => exact or_iff.mpr (ih hbs htest fun e he hF hT => hsucc e he hT hF)

/-- Once the open fields are resolved, the graph decides the condition. -/
theorem decides (ho : h.Open c i bs T F) {t f : Nat} (hT : ∀ e ∈ T, h.succ e = some t)
    (hF : ∀ e ∈ F, h.succ e = some f) : Decides h.graph c i t f := by
  induction ho using Open.dual_induct generalizing t f with
  | @test q i hq =>
    have ht : (h.block i).jt = some t := hT (i, true) List.mem_cons_self
    have hf : (h.block i).jf = some f := hF (i, false) List.mem_cons_self
    show h.graph i = some (.branch q t f)
    rw [graph, ht, hf, hq]
  | not ho ih => exact ih hF hT
  | @and a b i m bsa bsb Ta Fa T Fb hoa hob hm iha ihb =>
    exact ⟨m, iha hm fun e he => hF e (List.mem_append_right Fb he),
      ihb hT fun e he => hF e (List.mem_append_left Fa he)⟩
  | or ho ih => exact ih hF hT

end Open

/-! Blocks are equal when their blocks are, so that the assignments to `sense` may be moved past
the others. -/

theorem ext_block {h h' : Blocks} (hblock : ∀ i, h.block i = h'.block i)
    (hnext : h.next = h'.next) :
    h = h' := by
  cases h
  cases h'
  rw [mk.injEq]
  exact ⟨funext hblock, hnext⟩

theorem flipSense_flipSense (h : Blocks) (b : Nat) : (h.flipSense b).flipSense b = h := by
  refine ext_block (fun i => ?_) rfl
  simp only [flipSense, update]
  split <;> simp_all

theorem flipSense_comm (h : Blocks) (b c : Nat) :
    (h.flipSense b).flipSense c = (h.flipSense c).flipSense b := by
  refine ext_block (fun i => ?_) rfl
  simp only [flipSense, update]
  by_cases hb : i = b <;> by_cases hc : i = c <;> by_cases hbc : b = c <;> simp_all

theorem setSucc_flipSense (h : Blocks) (b : Nat) (e : Edge) (t : Option Nat) :
    (h.flipSense b).setSucc e t = (h.setSucc e t).flipSense b := by
  refine ext_block (fun i => ?_) rfl
  simp only [flipSense, setSucc, update]
  by_cases hb : i = b <;> by_cases he : i = e.1 <;> by_cases heb : e.1 = b <;>
    by_cases hside : e.2 = true <;> simp_all

theorem setHead_flipSense (h : Blocks) (b c head : Nat) :
    (h.flipSense b).setHead c head = (h.setHead c head).flipSense b := by
  refine ext_block (fun i => ?_) rfl
  simp only [flipSense, setHead, update]
  by_cases hb : i = b <;> by_cases hc : i = c <;> by_cases hbc : b = c <;> simp_all

theorem resolve_flipSense (h : Blocks) (b : Nat) (es : List Edge) (target : Nat) :
    (h.flipSense b).resolve es target = (h.resolve es target).flipSense b := by
  induction es generalizing h with
  | nil => rfl
  | cons e es ih =>
    rw [resolve, List.foldl_cons, setSucc_flipSense]
    exact ih (h.setSucc e (some target))

/-- A part of the flow graph under construction: `b` is the block that the code generator passes
around, with the list of the fields to leave by where the condition holds and, behind the other
value of its `sense`, that of the fields to leave by where it does not. -/
structure Frag (h : Blocks) (b : Nat) (c : Condition) (bs : List Nat) (T F : List Edge) : Prop where
  opened : h.Open c (h.block b).head bs T F
  nodup : bs.Nodup
  onTrue : h.Follows (some b) T
  onFalse : (h.flipSense b).Follows (some b) F
  nonempty : T ≠ [] ∧ F ≠ []
  mem : b ∈ bs
  fits : bs.length ≤ h.next

namespace Frag

variable {h h' : Blocks} {b : Nat} {c : Condition} {bs : List Nat} {T F : List Edge}

theorem disjoint (hf : h.Frag b c bs T F) {e : Edge} (hT : e ∈ T) (hF : e ∈ F) : False :=
  (List.nodup_append.mp (hf.opened.nodup hf.nodup)).2.2 e hT e hF rfl

theorem nodup_true (hf : h.Frag b c bs T F) : T.Nodup :=
  (List.nodup_append.mp (hf.opened.nodup hf.nodup)).1

theorem nodup_false (hf : h.Frag b c bs T F) : F.Nodup :=
  (List.nodup_append.mp (hf.opened.nodup hf.nodup)).2.1

theorem fst_mem_true (hf : h.Frag b c bs T F) {e : Edge} (he : e ∈ T) : e.1 ∈ bs :=
  hf.opened.fst_mem (List.mem_append_left F he)

theorem fst_mem_false (hf : h.Frag b c bs T F) {e : Edge} (he : e ∈ F) : e.1 ∈ bs :=
  hf.opened.fst_mem (List.mem_append_right T he)

theorem length_true (hf : h.Frag b c bs T F) : T.length ≤ h.next :=
  hf.opened.length_le.1.trans hf.fits

theorem length_false (hf : h.Frag b c bs T F) : F.length ≤ h.next :=
  hf.opened.length_le.2.trans hf.fits

/-- A fragment is a matter of its own blocks. -/
theorem congr (hf : h.Frag b c bs T F) (hblock : ∀ i ∈ bs, h'.block i = h.block i)
    (hnext : h.next ≤ h'.next) : h'.Frag b c bs T F := by
  have hsucc : ∀ e : Edge, e.1 ∈ bs → h'.succ e = h.succ e := fun e he => by
    rw [succ, succ, hblock e.1 he]
  refine ⟨?_, hf.nodup, ?_, ?_, hf.nonempty, hf.mem, hf.fits.trans hnext⟩
  · rw [hblock b hf.mem]
    exact hf.opened.congr hf.nodup (fun i hi => by rw [test, test, hblock i hi])
      fun e he _ _ => hsucc e he
  · exact hf.onTrue.congr (fun e he => by rw [hblock e.1 (hf.fst_mem_true he)])
      fun e he => hsucc e (hf.fst_mem_true he)
  · refine hf.onFalse.congr (fun e he => ?_) fun e he => ?_
    · rw [sense_flipSense, sense_flipSense, hblock b hf.mem, hblock e.1 (hf.fst_mem_false he)]
    · rw [succ_flipSense, succ_flipSense, hsucc e (hf.fst_mem_false he)]

/-- `gen_not`. -/
theorem flip (hf : h.Frag b c bs T F) : (h.flipSense b).Frag b (.not c) bs F T := by
  refine ⟨?_, hf.nodup, hf.onFalse, ?_, hf.nonempty.symm, hf.mem, hf.fits⟩
  · rw [head_flipSense]
    exact Open.congr (h := h) (c := .not c) hf.opened hf.nodup (fun i _ => test_flipSense h b i)
      fun e _ _ _ => succ_flipSense h b e
  · rw [flipSense_flipSense]
    exact hf.onTrue

end Frag

section Join

variable {h : Blocks} {b0 b1 : Nat} {c0 c1 : Condition} {bs0 bs1 : List Nat}
  {T0 F0 T1 F1 : List Edge}

/-- `gen_and` as assignments to the fields of the lists. -/
theorem gen_and_eq (hf0 : h.Frag b0 c0 bs0 T0 F0) (hf1 : h.Frag b1 c1 bs1 T1 F1)
    (hdisj : ∀ i ∈ bs0, i ∉ bs1) :
    h.gen_and b0 b1 = (((h.resolve T0 (h.block b1).head).setSucc (F1.getLast hf1.nonempty.2)
      (some b0)).setHead b1 (h.block b0).head).flipSense b0 := by
  have hback : h.backpatch b0 (h.block b1).head = h.resolve T0 (h.block b1).head :=
    backpatchLoop_eq hf0.onTrue hf0.nodup_true hf0.length_true _
  obtain ⟨e, es, hF1⟩ := List.exists_cons_of_ne_nil hf1.nonempty.2
  have hfollows : (((h.resolve T0 (h.block b1).head).flipSense b0).flipSense b1).Follows
      (some b1) F1 := by
    refine hf1.onFalse.congr (fun e he => ?_) fun e he => ?_
    · have hne : e.1 ≠ b0 := fun hb => hdisj b0 hf0.mem (hb ▸ hf1.fst_mem_false he)
      have hne' : b1 ≠ b0 := fun hb => hdisj b0 hf0.mem (hb ▸ hf1.mem)
      rw [sense_flipSense, sense_flipSense, sense_flipSense, sense_flipSense, if_neg hne,
        if_neg hne', sense_resolve, sense_resolve]
    · rw [succ_flipSense, succ_flipSense, succ_flipSense, succ_resolve, if_neg]
      exact fun hT => hdisj e.1 (hf0.fst_mem_true hT) (hf1.fst_mem_false he)
  have hlast : (((h.resolve T0 (h.block b1).head).flipSense b0).flipSense b1).lastLink
      h.next b1 = F1.getLast hf1.nonempty.2 := by
    subst hF1
    refine lastLink_eq hfollows ?_
    have := hf1.length_false
    rw [List.length_cons] at this
    omega
  have hmerge : (((h.resolve T0 (h.block b1).head).flipSense b0).flipSense b1).merge b1 b0 =
      ((((h.resolve T0 (h.block b1).head).setSucc (F1.getLast hf1.nonempty.2)
        (some b0)).flipSense b0).flipSense b1) := by
    rw [merge, next_flipSense, next_flipSense, next_resolve, hlast, setSucc_flipSense,
      setSucc_flipSense]
  simp only [gen_and, hback, hmerge, flipSense_flipSense, head_flipSense, head_setSucc,
    head_resolve, setHead_flipSense]

theorem gen_or_eq (hf0 : h.Frag b0 c0 bs0 T0 F0) (hf1 : h.Frag b1 c1 bs1 T1 F1)
    (hdisj : ∀ i ∈ bs0, i ∉ bs1) :
    h.gen_or b0 b1 = ((h.resolve F0 (h.block b1).head).setSucc (T1.getLast hf1.nonempty.1)
      (some b0)).setHead b1 (h.block b0).head := by
  have hback : (h.flipSense b0).backpatch b0 (h.block b1).head =
      (h.resolve F0 (h.block b1).head).flipSense b0 :=
    (backpatchLoop_eq hf0.onFalse hf0.nodup_false hf0.length_false _).trans
      (resolve_flipSense h b0 F0 _)
  obtain ⟨e, es, hT1⟩ := List.exists_cons_of_ne_nil hf1.nonempty.1
  have hfollows : (h.resolve F0 (h.block b1).head).Follows (some b1) T1 := by
    refine hf1.onTrue.congr (fun e he => sense_resolve h F0 _ e.1) fun e he => ?_
    rw [succ_resolve, if_neg]
    exact fun hF => hdisj e.1 (hf0.fst_mem_false hF) (hf1.fst_mem_true he)
  have hlast : (h.resolve F0 (h.block b1).head).lastLink h.next b1 =
      T1.getLast hf1.nonempty.1 := by
    subst hT1
    refine lastLink_eq hfollows ?_
    have := hf1.length_true
    rw [List.length_cons] at this
    omega
  have hmerge : (h.resolve F0 (h.block b1).head).merge b1 b0 =
      (h.resolve F0 (h.block b1).head).setSucc (T1.getLast hf1.nonempty.1) (some b0) := by
    rw [merge, next_resolve, hlast]
  simp only [gen_or, head_flipSense, hback, flipSense_flipSense, hmerge, head_setSucc,
    head_resolve]

theorem length_le_next_of_nodup {bs : List Nat} {n : Nat} (hnd : bs.Nodup)
    (hlt : ∀ i ∈ bs, i < n) : bs.length ≤ n := by
  have hsubset : bs ⊆ List.range n := fun i hi => List.mem_range.mpr (hlt i hi)
  have := (List.subperm_of_subset hnd hsubset).length_le
  rwa [List.length_range] at this

/-- `gen_and` joins two fragments. -/
theorem Frag.and (hf0 : h.Frag b0 c0 bs0 T0 F0) (hf1 : h.Frag b1 c1 bs1 T1 F1)
    (hdisj : ∀ i ∈ bs0, i ∉ bs1) (hfits : bs1.length + bs0.length ≤ h.next) :
    (h.gen_and b0 b1).Frag b1 (.and c0 c1) (bs1 ++ bs0) T1 (F1 ++ F0) := by
  rw [gen_and_eq hf0 hf1 hdisj]
  have hlast := List.getLast_mem hf1.nonempty.2
  have hlastid := hf1.fst_mem_false hlast
  have hne : b1 ≠ b0 := fun hb => hdisj b0 hf0.mem (hb ▸ hf1.mem)
  have hnd : (bs1 ++ bs0).Nodup := List.nodup_append.mpr
    ⟨hf1.nodup, hf0.nodup, fun i hi j hj hij => hdisj j hj (hij ▸ hi)⟩
  generalize hm : (h.block b1).head = m
  generalize hl : F1.getLast hf1.nonempty.2 = last at hlast hlastid
  have hsucc : ∀ e : Edge, (((h.resolve T0 m).setSucc last (some b0)).setHead b1
      (h.block b0).head).succ e =
        if e = last then some b0 else if e ∈ T0 then some m else h.succ e := fun e => by
    rw [succ_setHead, succ_setSucc, succ_resolve]
  have hout0 : ∀ e : Edge, e.1 ∈ bs0 → e ≠ last := fun e he hee => hdisj e.1 he (hee ▸ hlastid)
  have hnotlast : ∀ e : Edge, e ∉ F1 → e ≠ last := fun e he hee => he (hee ▸ hlast)
  have hout1 : ∀ e : Edge, e.1 ∈ bs1 → e ∉ T0 := fun e he hT => hdisj e.1 (hf0.fst_mem_true hT) he
  have htest : ∀ i, ((((h.resolve T0 m).setSucc last (some b0)).setHead b1
      (h.block b0).head).flipSense b0).test i = h.test i := fun i => by simp
  have hsense : ∀ i, i ≠ b0 → (((((h.resolve T0 m).setSucc last (some b0)).setHead b1
      (h.block b0).head).flipSense b0).block i).sense = (h.block i).sense := fun i hi => by
    rw [sense_flipSense, if_neg hi, sense_setHead, sense_setSucc, sense_resolve]
  refine ⟨?_, hnd, ?_, ?_, ⟨hf1.nonempty.1, fun hnil => hf1.nonempty.2
    (List.append_eq_nil_iff.mp hnil).1⟩, List.mem_append_left bs0 hf1.mem, by simpa using hfits⟩
  · rw [head_flipSense, head_setHead, if_pos rfl]
    refine ⟨m, bs0, bs1, T0, F0, F1, ?_, ?_, ?_, rfl, rfl⟩
    · refine hf0.opened.congr hf0.nodup (fun i _ => htest i) fun e he hT _ => ?_
      rw [succ_flipSense, hsucc, if_neg (hout0 e he), if_neg hT]
    · rw [← hm]
      refine hf1.opened.congr hf1.nodup (fun i _ => by rw [hm, htest]) fun e he _ hF => ?_
      rw [hm, succ_flipSense, hsucc, if_neg (hnotlast e hF), if_neg (hout1 e he)]
    · intro e he
      rw [succ_flipSense, hsucc, if_neg (hout0 e (hf0.fst_mem_true he)), if_pos he]
  · refine hf1.onTrue.congr (fun e he => hsense e.1 ?_) fun e he => ?_
    · exact fun hb => hdisj b0 hf0.mem (hb ▸ hf1.fst_mem_true he)
    · rw [succ_flipSense, hsucc, if_neg (hnotlast e (hf1.disjoint he)),
        if_neg (hout1 e (hf1.fst_mem_true he))]
  · -- the list behind the other value of `sense` of `b1`, continued by that of `b0`
    have hpart1 : (((h.resolve T0 m).flipSense b0).flipSense b1).Follows (some b1) F1 := by
      refine hf1.onFalse.congr (fun e he => ?_) fun e he => ?_
      · have hne' : e.1 ≠ b0 := fun hb => hdisj b0 hf0.mem (hb ▸ hf1.fst_mem_false he)
        rw [sense_flipSense, sense_flipSense, sense_flipSense, sense_flipSense, if_neg hne',
          if_neg hne, sense_resolve, sense_resolve]
      · rw [succ_flipSense, succ_flipSense, succ_flipSense, succ_resolve,
          if_neg (hout1 e (hf1.fst_mem_false he))]
    have hpart0 : (((h.resolve T0 m).flipSense b0).flipSense b1).Follows (some b0) F0 := by
      refine hf0.onFalse.congr (fun e he => ?_) fun e he => ?_
      · have hne' : e.1 ≠ b1 := fun hb => hdisj e.1 (hf0.fst_mem_false he) (hb ▸ hf1.mem)
        rw [sense_flipSense, if_neg hne', sense_flipSense, sense_flipSense, sense_resolve,
          sense_resolve]
      · rw [succ_flipSense, succ_flipSense, succ_flipSense, succ_resolve, if_neg]
        exact fun hT => hf0.disjoint hT he
    have happ := hpart1.append hf1.nonempty.2 hf1.nodup_false
      (fun e he he' => hdisj e.1 (hf0.fst_mem_false he') (hf1.fst_mem_false he)) hpart0
    rw [hl, setSucc_flipSense, setSucc_flipSense] at happ
    refine happ.congr (fun e _ => ?_) fun e _ => ?_
    · simp only [sense_flipSense, sense_setHead]
    · simp only [succ_flipSense, succ_setHead]

/-- `gen_or` joins two fragments: it does what `gen_and` does for the negations. -/
theorem Frag.or (hf0 : h.Frag b0 c0 bs0 T0 F0) (hf1 : h.Frag b1 c1 bs1 T1 F1)
    (hdisj : ∀ i ∈ bs0, i ∉ bs1) (hfits : bs1.length + bs0.length ≤ h.next) :
    (h.gen_or b0 b1).Frag b1 (.or c0 c1) (bs1 ++ bs0) (T1 ++ T0) F1 := by
  have hne : b1 ≠ b0 := fun hb => hdisj b0 hf0.mem (hb ▸ hf1.mem)
  have hflip0 : ((h.flipSense b0).flipSense b1).Frag b0 (.not c0) bs0 F0 T0 :=
    hf0.flip.congr (fun i hi => block_flipSense_of_ne _ b1 fun hb => hdisj i hi (hb ▸ hf1.mem))
      (Nat.le_refl _)
  have hflip1 : ((h.flipSense b0).flipSense b1).Frag b1 (.not c1) bs1 F1 T1 := by
    rw [flipSense_comm]
    exact hf1.flip.congr (fun i hi => block_flipSense_of_ne _ b0 fun hb => hdisj b0 hf0.mem
      (hb ▸ hi)) (Nat.le_refl _)
  have hand := (hflip0.and hflip1 hdisj hfits).flip
  have heq : h.gen_or b0 b1 = (((h.flipSense b0).flipSense b1).gen_and b0 b1).flipSense b1 := by
    rw [gen_or_eq hf0 hf1 hdisj, gen_and_eq hflip0 hflip1 hdisj]
    simp only [resolve_flipSense, setSucc_flipSense, setHead_flipSense, head_flipSense]
    rw [flipSense_comm _ b1 b0, flipSense_flipSense, flipSense_flipSense]
  rw [heq]
  obtain ⟨m, bsa, bsb, Ta, Fa, Fb, hoa, hob, hm, hT, hbs⟩ := hand.opened
  exact ⟨⟨m, bsa, bsb, Fa, Ta, Fb, hoa, hob, hm, hT, hbs⟩, hand.nodup, hand.onTrue, hand.onFalse,
    hand.nonempty, hand.mem, hand.fits⟩

end Join

end Blocks

end Bpf

end Jxnet
