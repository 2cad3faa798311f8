import Jxnet.Bpf.Computes
import Jxnet.Bpf.Term

namespace Jxnet

open Java Budget ByteBuffer JumpMachine ShortCircuit

namespace Bpf

/-! Whole expressions of the filter language: what the parser makes of them, and what they say
about a packet. -/

/-- An expression, without the terms about tags, tunnels, 802.11, ATM and the firewall, and without
names that have to be resolved. -/
inductive FilterExpr where
  | number (v : UInt) (q : Qual)
  | address (s : String) (q : Qual)
  | network (s1 : String) (s2 : Option String) (masklen : UInt) (q : Qual)
  | address6 (s1 : String) (a : Fin 4 → UInt) (masklen : UInt) (q : Qual)
  | ether (eaddr : { eaddr : Bytes // eaddr.length = 6 }) (q : Qual)
  | proto (proto : Proto)
  | relation (r : Relation)
  | broadcast (proto : Proto)
  | multicast (proto : Proto)
  | less (n : UInt)
  | greater (n : UInt)
  /-- A byte that is less than, equal to or greater than a number; behind 2^31 begin the ancillary
  data. -/
  | byte (op : Ordering) (idx : { idx : UInt // idx.toNat < 2 ^ 31 }) (val : UInt)
  | not (e : FilterExpr)
  | and (a b : FilterExpr)
  | or (a b : FilterExpr)

def byteOp : Ordering → ByteOp
  | .lt => .lt
  | .eq => .eq
  | .gt => .gt

/-- The copies of texts that the scanner makes. -/
def sdups : List String → Gen Unit
  | [] => return ()
  | s :: texts => do
    sdup s
    sdups texts

/-- What the manual and the generator see differently: the network that a number stands for, and the
checks that go with an arithmetic expression. -/
structure Interpretation where
  network : UInt → UInt × UInt
  checks : ArthExpr → List Needs

def manual : Interpretation := ⟨singleNet, ArthExpr.checks⟩

/-- The generator does not promote 0, and loses the checks of right operands. -/
def generator : Interpretation := ⟨shortNet, ArthExpr.kept⟩

namespace FilterExpr

/-- The calls of the parser for the expression, in the order of its actions. -/
def gen (netmask : UInt) : FilterExpr → Gen Nat
  | number v q => gen_ncode none v q
  | address s q => do
    sdups [s]
    gen_hid s q
  | network s1 s2 masklen q => do
    sdups (s1 :: s2.toList)
    gen_mcode s1 s2 masklen q
  | address6 s1 a masklen q => do
    sdups [s1]
    gen_mcode6 s1 a masklen q
  | ether eaddr q => gen_ecode eaddr.val q
  | proto p => gen_proto_abbrev p
  | relation r => r.gen
  | broadcast p => gen_broadcast netmask p
  | multicast p => gen_multicast p
  | less n => gen_less n
  | greater n => gen_greater n
  | byte op idx val => gen_byteop (byteOp op) idx.val val
  | not e => do
    let b ← e.gen netmask
    gen_not b
    return b
  | and a b => do
    let b0 ← a.gen netmask
    let b1 ← b.gen netmask
    gen_and b0 b1
    return b1
  | or a b => do
    let b0 ← a.gen netmask
    let b1 ← b.gen netmask
    gen_or b0 b1
    return b1

/-- What the expression says about a packet, unless it is turned down. -/
def meaningIn (i : Interpretation) (netmask : UInt) : FilterExpr → Meaning
  | number v q => numberMeaning i.network v q
  | address s q => hidMeaning s q
  | network s1 s2 masklen q => mcodeMeaning s1 s2 masklen q
  | address6 _ a masklen q => mcode6Meaning a masklen q
  | ether eaddr q => ecodeMeaning eaddr.val q
  | proto p => abbrevMeaning p
  | relation r => if r.Supported then .ok (r.meaning i.checks) else .error .message
  | broadcast p => broadcastMeaning netmask p
  | multicast p => multicastMeaning p
  | less n => .ok fun input => .ok (input.wirelen ≤ n)
  | greater n => .ok fun input => .ok (n ≤ input.wirelen)
  | byte op idx val => byteopMeaning idx.val val (byteOp op)
  | not e => do
    let v ← e.meaningIn i netmask
    return fun input => (v input).not
  | and a b => do
    let v0 ← a.meaningIn i netmask
    let v1 ← b.meaningIn i netmask
    return fun input => (v0 input).and (v1 input)
  | or a b => do
    let v0 ← a.meaningIn i netmask
    let v1 ← b.meaningIn i netmask
    return fun input => (v0 input).or (v1 input)

/-- What the expression says, as the manual sees it. -/
def meaning (netmask : UInt) (e : FilterExpr) : Meaning := e.meaningIn manual netmask

/-- The generator sees nothing in the expression differently. -/
def AsDocumented : FilterExpr → Prop
  | number v q => ¬(v = 0 ∧ q.addr = .Q_NET)
  | relation r => r.KeepsChecks
  | not e => e.AsDocumented
  | and a b | or a b => a.AsDocumented ∧ b.AsDocumented
  | _ => True

instance decidableAsDocumented : (e : FilterExpr) → Decidable e.AsDocumented
  | number v q => inferInstanceAs (Decidable ¬(v = 0 ∧ q.addr = .Q_NET))
  | relation r => inferInstanceAs (Decidable r.KeepsChecks)
  | not e => e.decidableAsDocumented
  | and a b | or a b => by
    have := a.decidableAsDocumented
    have := b.decidableAsDocumented
    exact inferInstanceAs (Decidable (_ ∧ _))
  | address _ _ | network _ _ _ _ | address6 _ _ _ _ | ether _ _ | proto _ | broadcast _
  | multicast _ | less _ | greater _ | byte _ _ _ => isTrue trivial

/-- `1 + tcp[0] = 2`. -/
example : ¬AsDocumented (.relation ⟨.JEQ, false, .arth .ADD (.num 1) (.load .Q_TCP (.num 0) 1),
    .num 2⟩) := by decide

/-- The terms of the expression; every operand and operation of an arithmetic one counts. -/
def terms : FilterExpr → Nat
  | relation r => r.terms
  | not e => e.terms
  | and a b | or a b => a.terms + b.terms
  | _ => 1

/-- The texts of the addresses. -/
def texts : FilterExpr → List String
  | address s _ => [s]
  | network s1 s2 _ _ => s1 :: s2.toList
  | address6 s1 _ _ _ => [s1]
  | not e => e.texts
  | and a b | or a b => a.texts ++ b.texts
  | _ => []

/-- The expression is not too large for the memory of the generator. -/
def Small (e : FilterExpr) : Prop := e.terms ≤ 2000 ∧ ∀ s ∈ e.texts, s.utf8ByteSize < 2048

end FilterExpr

/-! Where the generator follows the manual. -/

/-- Two meanings are turned down alike, and are the same where `p` holds. -/
inductive Agree (p : Prop) : Meaning → Meaning → Prop
  | refused (e : Refusal) : Agree p (.error e) (.error e)
  | same {v w : Input → Read Bool} (h : p → v = w) : Agree p (.ok v) (.ok w)

namespace Agree

variable {p q : Prop} {v v0 v1 w w0 w1 : Meaning}

theorem refl (v : Meaning) : Agree p v v := by
  cases v with
  | ok v => exact .same fun _ => rfl
  | error e => exact .refused e

theorem of_eq (h : v = w) : Agree p v w := h ▸ refl v

theorem of_ok {v : Input → Read Bool} (h : Agree p (.ok v) w) :
    ∃ w', w = .ok w' ∧ (p → v = w') := by
  cases h with
  | same h => exact ⟨_, rfl, h⟩

theorem of_error {e : Refusal} (h : Agree p (.error e) w) : w = .error e := by
  cases h with
  | refused => rfl

theorem map (h : Agree p v w) (f : (Input → Read Bool) → Input → Read Bool) :
    Agree p (do return f (← v)) (do return f (← w)) := by
  cases h with
  | refused e => exact .refused e
  | same h => exact .same fun hp => congrArg f (h hp)

theorem pair (h0 : Agree p v0 w0) (h1 : Agree q v1 w1)
    (f : (Input → Read Bool) → (Input → Read Bool) → Input → Read Bool) :
    Agree (p ∧ q) (do return f (← v0) (← v1)) (do return f (← w0) (← w1)) := by
  cases h0 with
  | refused e => exact .refused e
  | same h0 =>
    cases h1 with
    | refused e => exact .refused e
    | same h1 => exact .same fun h => congrArg₂ f (h0 h.1) (h1 h.2)

end Agree

theorem hostMeaning_agree {p : Prop} (hp : ¬p) (net net' : UInt × UInt) (dir : Dir)
    (proto : Proto) :
    Agree p (hostMeaning net.1 net.2 dir proto) (hostMeaning net'.1 net'.2 dir proto) := by
  cases proto with
  | Q_DEFAULT | Q_IP | Q_ARP | Q_RARP => exact .same fun h => absurd h hp
  | _ => exact .refused _

theorem numberMeaning_agree (v : UInt) (q : Qual) :
    Agree (¬(v = 0 ∧ q.addr = .Q_NET)) (numberMeaning singleNet v q)
      (numberMeaning shortNet v q) := by
  by_cases h : v = 0 ∧ q.addr = .Q_NET
  · obtain ⟨addr, proto, dir⟩ := q
    obtain ⟨rfl, rfl⟩ := h
    simp only [numberMeaning, ncodeMeaning]
    split
    · exact .refused _
    · exact hostMeaning_agree (by simp) _ _ dir proto
  · refine .of_eq ?_
    rw [numberMeaning, numberMeaning]
    by_cases hnet : q.addr = .Q_NET
    · rw [if_pos hnet, if_pos hnet, shortNet_eq fun hv => h ⟨hv, hnet⟩]
    · rw [if_neg hnet, if_neg hnet]

/-- The generator turns down what the manual does, and sees the same in an expression that has
nothing they see differently. -/
theorem FilterExpr.meaning_agree (netmask : UInt) (e : FilterExpr) :
    Agree e.AsDocumented (e.meaning netmask) (e.meaningIn generator netmask) := by
  rw [meaning]
  induction e with
  | number v q => exact numberMeaning_agree v q
  | relation r =>
    simp only [meaningIn]
    split
    · exact .same fun h => (Relation.meaning_kept h).symm
    · exact .refused _
  | not e ih => exact ih.map fun v input => (v input).not
  | and a b iha ihb => exact iha.pair ihb fun v w input => (v input).and (w input)
  | or a b iha ihb => exact iha.pair ihb fun v w input => (v input).or (w input)
  | _ => exact .refl _

/-! What generating an expression comes to. -/

/-- No scratch register is in use. -/
def AllFree (g : GenState) : Prop := ∀ n, g.regused n = false

/-- Code for the meaning, with memory for `n` blocks at most, or the end that a refusal says. -/
def Outcome (n : Nat) (g : GenState) (r : Except Complaint (Nat × GenState)) : Meaning → Prop
  | .ok v => InBlocks n g r fun b g' => Coded g g' b v
  | .error .message => ∃ message, r = .error (.error message)
  | .error .abort => r = .error .abort ∨ r = .error outOfMemory ∧ g.blocksLeft < n

theorem Outcome.le {n n' : Nat} {g : GenState} {r : Except Complaint (Nat × GenState)}
    {v : Meaning} (h : Outcome n g r v) (hn : n ≤ n') : Outcome n' g r v := by
  cases v with
  | ok v => exact Within.le h hn
  | error e =>
    cases e with
    | message => exact h
    | abort => exact h.imp_right fun h => ⟨h.1, Nat.lt_of_lt_of_le h.2 hn⟩

theorem Does.outcome {n : Nat} {m : Gen Nat} {v : Meaning} (h : Does n m v) (g : GenState) :
    Outcome n g (m g) v := by
  cases v with
  | ok v => exact h g
  | error e =>
    cases e with
    | message =>
      obtain ⟨message, hm⟩ := h
      exact ⟨message, hm g⟩
    | abort => exact .inl (h g)

/-- What comes first is never turned down. -/
theorem Outcome.bind {α : Type} {n n' : Nat} {g : GenState} {m : Gen α} {f : α → Gen Nat}
    {v : Meaning} {P : α → GenState → Prop} (hm : InBlocks n g (m g) P)
    (hcoded : ∀ a g1, P a g1 → ∀ g' b v, Coded g1 g' b v → Coded g g' b v)
    (hf : ∀ a g1, P a g1 → Outcome n' g1 (f a g1) v) : Outcome (n + n') g ((m >>= f) g) v := by
  cases v with
  | ok v =>
    exact Within.bind hm fun a g1 h1 => Within.imp (hf a g1 h1) fun b g' => hcoded a g1 h1 g' b v
  | error e =>
    cases hm with
    | @done a g1 run post spent =>
      have heq : (m >>= f) g = f a g1 := by simp only [Bind.bind, StateT.bind, run, Except.bind]
      rw [heq]
      have h1 := hf a g1 post
      cases e with
      | message => exact h1
      | abort => exact h1.imp_right fun h => ⟨h.1, by omega⟩
    | short run lack =>
      have heq : (m >>= f) g = .error outOfMemory := by
        simp only [Bind.bind, StateT.bind, run, Except.bind]
      rw [heq]
      cases e with
      | message => exact ⟨_, rfl⟩
      | abort => exact .inr ⟨rfl, Nat.lt_of_lt_of_le lack (Nat.le_add_right n n')⟩

/-- What is turned down is not gone on with. -/
theorem Outcome.error_bind {n : Nat} {g : GenState} {m : Gen Nat} {f : Nat → Gen Nat}
    {e : Refusal} (h : Outcome n g (m g) (.error e)) :
    Outcome n g ((m >>= f) g) (.error e) := by
  have heq : ∀ c, m g = .error c → (m >>= f) g = .error c := fun c hc => by
    simp only [Bind.bind, StateT.bind, hc, Except.bind]
  cases e with
  | message => exact h.imp fun message hm => heq _ hm
  | abort => exact h.imp (heq _) fun h => ⟨heq _ h.1, h.2⟩

theorem Coded.after {g g1 g' : GenState} {b b0 : Nat} {v v0 : Input → Read Bool}
    (h0 : Coded g g1 b0 v0) (h : Coded g1 g' b v) : Coded g g' b v :=
  ⟨h.regused.trans h0.regused, h.codes.prepend h0.codes.grows, h0.paid.trans h.paid⟩

/-- Two operands, the second generated in the state that the first leaves. -/
theorem outcome_pair {n0 n1 : Nat} {m0 m1 : Gen Nat} {v0 v1 : Meaning}
    (f : Blocks → Nat → Nat → Blocks) (op : Read Bool → Read Bool → Read Bool)
    (hsame : ∀ h b0 b1, Blocks.Reconnected h (f h b0 b1))
    (hf : ∀ {h h1 h2 b0 b1 w0 w1}, Codes h h1 b0 w0 → Codes h1 h2 b1 w1 →
      Codes h (f h2 b0 b1) b1 fun input => op (w0 input) (w1 input)) {g : GenState}
    (hg : AllFree g) (h0 : Outcome n0 g (m0 g) v0)
    (h1 : ∀ g, AllFree g → Outcome n1 g (m1 g) v1) :
    Outcome (n0 + n1) g ((do
      let b0 ← m0
      let b1 ← m1
      onBlocks fun h => f h b0 b1
      return b1 : Gen Nat) g) (do
      let w0 ← v0
      let w1 ← v1
      return fun input => op (w0 input) (w1 input)) := by
  cases v0 with
  | error e => exact h0.error_bind.le (Nat.le_add_right n0 n1)
  | ok w0 =>
    have hfree : ∀ b0 g1, Coded g g1 b0 w0 → AllFree g1 := fun b0 g1 hc n => hc.regused ▸ hg n
    cases v1 with
    | error e =>
      exact .bind h0 (fun b0 g1 hc0 g' b v hc => hc0.after hc) fun b0 g1 hc0 =>
        (h1 g1 (hfree b0 g1 hc0)).error_bind
    | ok w1 =>
      refine Within.bind h0 fun b0 g1 hc0 => ?_
      refine Within.bind_pure (h1 g1 (hfree b0 g1 hc0)) fun b1 g2 hc1 => ?_
      exact .done rfl ⟨hc1.regused.trans hc0.regused, hf hc0.codes hc1.codes,
        (hc0.paid.trans hc1.paid).onBlocks (hsame _ _ _)⟩ (Nat.le_refl _)

theorem outcome_not {n : Nat} {m : Gen Nat} {v : Meaning} {g : GenState}
    (h : Outcome n g (m g) v) :
    Outcome n g ((do
      let b ← m
      gen_not b
      return b : Gen Nat) g) (do
      let w ← v
      return fun input => (w input).not) := by
  cases v with
  | error e => exact h.error_bind
  | ok w =>
    refine Within.bind_pure h fun b g1 hc => ?_
    exact .done rfl ⟨hc.regused, hc.codes.not,
      hc.paid.onBlocks ((Blocks.Reconnected.refl _).flipSense b)⟩ (Nat.le_refl _)

/-! The copies of texts. -/

/-- The blocks that the memory for a text comes to, if a chunk is large enough for it. -/
def textBlocks (s : String) : Nat :=
  if s.utf8ByteSize < 2048 then 6 else 2 ^ 26 + s.utf8ByteSize

theorem sdup_inBlocks (s : String) (g : GenState) :
    InBlocks (textBlocks s) g (sdup s g) fun _ g' => ∃ n, Allocated n g g' := by
  refine .packs (k := blockRoom) (by decide)
    ((newchunk_within (n := s.utf8ByteSize + 1) rfl g _ ?_ ?_).imp ?_)
  · simp only [textBlocks, blockRoom, sizeofBlock, sizeofSlist]
    split <;> omega
  · simp only [textBlocks, blockRoom, sizeofBlock, sizeofSlist, CHUNK0SIZE]
    split <;> omega
  · rintro _ _ ⟨c, rfl, hc⟩
    exact ⟨_, rfl, rfl, hc⟩

def textsBlocks (texts : List String) : Nat := (texts.map textBlocks).sum

theorem sdups_inBlocks (texts : List String) (g : GenState) :
    InBlocks (textsBlocks texts) g (sdups texts g) fun _ g' => ∃ n, Allocated n g g' := by
  induction texts generalizing g with
  | nil => exact .pure ⟨0, rfl, rfl, Nat.le_refl _⟩
  | cons s texts ih =>
    refine (sdup_inBlocks s g).bind fun _ g1 ⟨n, h1⟩ => ?_
    exact (ih g1).imp fun _ g' ⟨n', h'⟩ => ⟨n + n', h1.trans h'⟩

/-- A term behind the copies of its texts. -/
theorem Does.outcome_sdups {n : Nat} {m : Gen Nat} {v : Meaning} (h : Does n m v)
    (texts : List String) (g : GenState) :
    Outcome (textsBlocks texts + n) g ((do sdups texts; m : Gen Nat) g) v := by
  refine .bind (sdups_inBlocks texts g) (fun _ g1 h1 g' b v hc => ?_) fun _ g1 _ => h.outcome g1
  obtain ⟨n, h1⟩ := h1
  refine ⟨hc.regused.trans h1.regused, h1.blocks ▸ hc.codes, ?_⟩
  exact ((PaidWith.refl g).took h1).trans hc.paid

theorem gen_byteop_does (op : Ordering) {idx : UInt} (hidx : idx.toNat < 2 ^ 31) (val : UInt) :
    Does 1 (gen_byteop (byteOp op) idx val) (byteopMeaning idx val (byteOp op)) := by
  have hfield : ∀ (input : Input) (p : UInt → Bool), fieldIs input .OR_LINKHDR idx.toNat .B p = do
      return p (← field input idx.toNat .B) := fun input p => by
    rw [fieldIs_eq .OR_LINKHDR rfl, Nat.zero_add]
  cases op with
  | lt => exact (gen_cmp_lt_generates .OR_LINKHDR idx hidx .B val).congr fun input => hfield input _
  | eq => exact (gen_cmp_generates .OR_LINKHDR idx hidx .B val).congr fun input => hfield input _
  | gt => exact (gen_cmp_gt_generates .OR_LINKHDR idx hidx .B val).congr fun input => hfield input _

/-! Whole expressions. -/

namespace FilterExpr

/-- The blocks that there is to be memory for. -/
def blocks : FilterExpr → Nat
  | number _ _ => 40
  | relation r => 22 * r.terms + 2
  | not e => e.blocks
  | and a b | or a b => a.blocks + b.blocks
  | e => textsBlocks e.texts + 20

theorem blocks_le {e : FilterExpr} (h : ∀ s ∈ e.texts, s.utf8ByteSize < 2048) :
    e.blocks ≤ 40 * e.terms := by
  have htext : ∀ s : String, s.utf8ByteSize < 2048 → textBlocks s = 6 := fun s hs => if_pos hs
  induction e with
  | number => exact Nat.le_refl _
  | relation r =>
    have := r.a0.terms_pos
    simp only [blocks, terms, Relation.terms]
    omega
  | not e ih => exact ih h
  | and a b iha ihb =>
    have ha := iha fun s hs => h s (List.mem_append_left _ hs)
    have hb := ihb fun s hs => h s (List.mem_append_right _ hs)
    simp only [blocks, terms]
    omega
  | or a b iha ihb =>
    have ha := iha fun s hs => h s (List.mem_append_left _ hs)
    have hb := ihb fun s hs => h s (List.mem_append_right _ hs)
    simp only [blocks, terms]
    omega
  | address s => simp [blocks, textsBlocks, texts, terms, htext s (h s (by simp [texts]))]
  | network s1 s2 =>
    have h1 := htext s1 (h s1 (by simp [texts]))
    cases s2 with
    | none => simp [blocks, textsBlocks, texts, terms, h1]
    | some s2 =>
      simp [blocks, textsBlocks, texts, terms, h1, htext s2 (h s2 (by simp [texts]))]
  | address6 s1 => simp [blocks, textsBlocks, texts, terms, htext s1 (h s1 (by simp [texts]))]
  | _ => exact (by decide : (20 : Nat) ≤ 40)

/-- Generating an expression yields code for it as the generator sees it, or turns it down. -/
theorem gen_outcome (netmask : UInt) (e : FilterExpr) (g : GenState) (hg : AllFree g) :
    Outcome e.blocks g (e.gen netmask g) (e.meaningIn generator netmask) := by
  induction e generalizing g with
  | number v q => exact (gen_ncode_does none v q).outcome g
  | address s q => exact ((gen_hid_does s q).outcome_sdups [s] g).le (by simp [blocks, texts])
  | network s1 s2 masklen q =>
    exact ((gen_mcode_does s1 s2 masklen q).outcome_sdups _ g).le (by simp [blocks, texts])
  | address6 s1 a masklen q =>
    exact ((gen_mcode6_does s1 a masklen q).outcome_sdups [s1] g).le (by simp [blocks, texts])
  | ether eaddr q => exact (gen_ecode_does eaddr.property q).outcome g
  | proto p => exact ((gen_proto_abbrev_does p).outcome g).le (show 18 ≤ 20 by decide)
  | relation r =>
    have hr := r.gen_inBlocks hg
    rw [meaningIn]
    split
    · exact hr.ends ‹_›
    · exact hr.refused ‹_›
  | broadcast p => exact (gen_broadcast_does netmask p).outcome g
  | multicast p => exact ((gen_multicast_does p).outcome g).le (show 2 ≤ 20 by decide)
  | less n =>
    have hless : Does 1 (gen_less n) (.ok _) := gen_less_generates n
    exact (hless.outcome g).le (show 1 ≤ 20 by decide)
  | greater n =>
    have hgreater : Does 1 (gen_greater n) (.ok _) := gen_greater_generates n
    exact (hgreater.outcome g).le (show 1 ≤ 20 by decide)
  | byte op idx val =>
    exact ((gen_byteop_does op idx.property val).outcome g).le
      (show 1 ≤ 20 by decide)
  | not e ih => exact outcome_not (ih g hg)
  | and a b iha ihb =>
    exact outcome_pair Blocks.gen_and Look.and .gen_and (fun h0 h1 => h0.and h1) hg (iha g hg) ihb
  | or a b iha ihb =>
    exact outcome_pair Blocks.gen_or Look.or .gen_or (fun h0 h1 => h0.or h1) hg (iha g hg) ihb

end FilterExpr

/-- What a filter returns for what an expression says. -/
def filtered (snaplen : UInt) : Read Bool → Except Fault UInt
  | .error o => o
  | .ok true => .ok snaplen
  | .ok false => .ok 0

theorem verdict_of_answers {snaplen : UInt} {v : Read Bool}
    {x : Except Fault (Answer Regs UInt)} (h : Answers v x) :
    verdict snaplen x = filtered snaplen v := by
  rcases v with (e | r) | (_ | _)
  · rw [show x = .error e from h]
    rfl
  · rw [show x = .ok (.halt r) from h]
    rfl
  · obtain ⟨s, rfl⟩ := h
    rfl
  · obtain ⟨s, rfl⟩ := h
    rfl

/-- A program that implements a condition comes to its outcome within as many instructions as it
has. -/
theorem Implements.run_eq {program : List Insn} {c : Condition} {snaplen : UInt}
    (h : Implements program c snaplen) (input : Input) (mem : Fin BPF_MEMWORDS → UInt) :
    bpf_filter_with_aux_data program.length (some program) input mem =
      some (Blocks.outcome (verdict snaplen (c.eval (BlockTest.run input) (startRegs mem)))) := by
  have hsome := h.valid.run_isSome h.forward input mem
  obtain ⟨r, hr⟩ := Option.isSome_iff_exists.mp hsome
  rw [hr]
  exact congrArg some (Loop.Ends.unique ⟨_, hr⟩ (h.yields input mem))

/-- The program is accepted, and comes to an end on every packet with what `v` says about it. -/
def Filters (snaplen : UInt) (v : Input → Read Bool) (program : List Insn) : Prop :=
  ∃ f : Program, f.bf_insns = program ∧ bpf_validate f = true ∧
    ∀ input : Input, input.Holds → ∀ mem,
      bpf_filter_with_aux_data program.length (some program) input mem =
        some (Blocks.outcome (filtered snaplen (v input)))

/-- What compiling an expression comes to that is not turned down, as the generator sees it. -/
theorem compile_meaning (netmask : UInt) {snaplen : UInt} (hsnaplen : snaplen ≠ 0)
    {e : FilterExpr} {v : Input → Read Bool} (hv : e.meaningIn generator netmask = .ok v) :
    Compiles (e.blocks + 2) snaplen (e.gen netmask) (Filters snaplen v) := by
  have hgen := e.gen_outcome netmask init_regs fun _ => rfl
  rw [hv] at hgen
  have hbuilt : InBlocks e.blocks init_regs (e.gen netmask init_regs) fun p g =>
      Paid init_regs g ∧ ∃ c, Built init_regs.blocks g.blocks p c ∧
        (∀ t ∈ c.tests, t.Plain ∧ ∀ s ∈ t.stmts, s.Accepted) ∧
        ∀ input : Input, input.Holds → Means (BlockTest.run input) c (v input) :=
    Within.imp hgen fun p g h => ⟨h.paid, h.codes⟩
  refine (pcap_compile_implements hbuilt hsnaplen).imp_left ?_
  rintro ⟨fuel, program, hcompile, c, himp, hmeans⟩
  refine ⟨fuel, program, hcompile, ⟨program, Nat.lt_trans himp.valid.short (by decide)⟩, rfl,
    (bpf_validate_iff _).mpr himp.valid, fun input hinput mem => ?_⟩
  rw [himp.run_eq, verdict_of_answers (hmeans input hinput (startRegs mem))]

/-- There is memory for a small expression. -/
theorem FilterExpr.Small.blocks_le {e : FilterExpr} (h : e.Small) :
    e.blocks + 2 ≤ init_regs.blocksLeft := by
  have hroom : init_regs.blocksLeft = 82238 := rfl
  have hblocks := e.blocks_le h.2
  have hterms := h.1
  omega

/-- `ip[0] & 0xf != 5`, which "catches all IPv4 packets with options". -/
def ipOptions : Relation :=
  ⟨.JEQ, true, .arth .AND (.load .Q_IP (.num 0) 1) (.num 0xf), .num 5⟩

/-- What stops the generator stops the compiler. -/
theorem pcap_compile_error {expr : Gen Nat} {complaint : Complaint}
    (h : expr init_regs = .error complaint) {snaplen : UInt} (hsnaplen : snaplen ≠ 0)
    (fuel : Nat) :
    pcap_compile fuel true snaplen (some expr) = some (.error complaint) := by
  have htree : parseTree snaplen (some expr) init_regs = .error complaint := by
    simp only [parseTree, bind, StateT.bind, h, Except.bind]
  rw [pcap_compile, if_neg (by decide), if_neg hsnaplen, htree]

theorem run_bits {code : Alu} (hcode : code = .OR ∨ code = .AND) (val : UInt) (input : Input)
    (r : Regs) :
    BlockTest.run input ⟨[⟨BPF_ALU ||| code.code ||| BPF_K, val⟩], ⟨JMP BPF_JEQ, 0⟩⟩ r =
      .ok (.answer ((if code = .OR then r.A ||| val else r.A &&& val) = 0)
        { r with A := if code = .OR then r.A ||| val else r.A &&& val }) := by
  have hbranch : decode (JMP BPF_JEQ) = some (.JMP .JEQ .K) := by decide
  rcases hcode with rfl | rfl
  · have hop : decode (BPF_ALU ||| Alu.OR.code ||| BPF_K) = some (.ALU .OR .K) := by decide
    have hexec : Filter.exec input (Stmt.insn ⟨BPF_ALU ||| Alu.OR.code ||| BPF_K, val⟩) r =
        .ok (.jump 0 { r with A := r.A ||| val }) := by
      rw [exec_of_decode hop]
      rfl
    rw [BlockTest.run, List.map_singleton, runLine, hexec]
    simp only [runLine, hbranch]
    rfl
  · have hop : decode (BPF_ALU ||| Alu.AND.code ||| BPF_K) = some (.ALU .AND .K) := by decide
    have hexec : Filter.exec input (Stmt.insn ⟨BPF_ALU ||| Alu.AND.code ||| BPF_K, val⟩) r =
        .ok (.jump 0 { r with A := r.A &&& val }) := by
      rw [exec_of_decode hop]
      rfl
    rw [BlockTest.run, List.map_singleton, runLine, hexec]
    simp only [runLine, hbranch]
    rfl

theorem gen_byteop_bits {op : ByteOp} (hop : op = .or ∨ op = .and) (idx val : UInt) :
    ∃ code : Alu, (op = .or ∧ code = .OR ∨ op = .and ∧ code = .AND) ∧
      gen_byteop op idx val = (do
        let b ← gen_test [⟨BPF_ALU ||| code.code ||| BPF_K, val⟩] ⟨JMP BPF_JEQ, 0⟩
        gen_not b
        return b) := by
  rcases hop with rfl | rfl
  · exact ⟨.OR, .inl ⟨rfl, rfl⟩, rfl⟩
  · exact ⟨.AND, .inr ⟨rfl, rfl⟩, rfl⟩

/-- The register is 0 at the start. -/
theorem answer_bits {op : ByteOp} {code : Alu}
    (hcode : op = .or ∧ code = .OR ∨ op = .and ∧ code = .AND) (val : UInt)
    (mem : Fin BPF_MEMWORDS → UInt) :
    (!decide ((if code = .OR then (startRegs mem).A ||| val else (startRegs mem).A &&& val) = 0)) =
      decide (op = .or ∧ val ≠ 0) := by
  have hzero : (startRegs mem).A = 0#32 := rfl
  rw [hzero]
  rcases hcode with ⟨rfl, rfl⟩ | ⟨rfl, rfl⟩
  · simp
  · simp

theorem gen_bits_built {code : Alu} (hcode : code = .OR ∨ code = .AND) (val : UInt) :
    InBlocks 1 init_regs ((do
      let b ← gen_test [⟨BPF_ALU ||| code.code ||| BPF_K, val⟩] ⟨JMP BPF_JEQ, 0⟩
      gen_not b
      return b : Gen Nat) init_regs) fun p g => Paid init_regs g ∧
        ∃ c, Built init_regs.blocks g.blocks p c ∧
          (∀ t ∈ c.tests, t.Plain ∧ ∀ s ∈ t.stmts, s.Accepted) ∧
          c = .not (.test ⟨[⟨BPF_ALU ||| code.code ||| BPF_K, val⟩], ⟨JMP BPF_JEQ, 0⟩⟩) := by
  have hstmt : decode (BPF_ALU ||| code.code ||| BPF_K) = some (.ALU code .K) := by
    rcases hcode with rfl | rfl <;> decide
  have hsafe : Stmt.Plain ⟨BPF_ALU ||| code.code ||| BPF_K, val⟩ ∧
      Stmt.Accepted ⟨BPF_ALU ||| code.code ||| BPF_K, val⟩ :=
    Stmt.plain_accepted hstmt (by rcases hcode with rfl | rfl <;> exact trivial)
  have hbranch : decode (JMP BPF_JEQ) = some (.JMP .JEQ .K) := by decide
  have htest := gen_test_within [⟨BPF_ALU ||| code.code ||| BPF_K, val⟩] ⟨JMP BPF_JEQ, 0⟩
    (show 1 ≤ 3 by decide) init_regs
  refine htest.bind_pure ?_
  rintro _ _ ⟨rfl, c, rfl, hc⟩
  refine .done rfl ⟨(Paid.withTest _ hc).onBlocks ((Blocks.Reconnected.refl _).flipSense _), _,
    (Built.test init_regs.blocks _ _).not, fun t ht => ?_, rfl⟩ (Nat.le_refl _)
  obtain rfl := List.mem_singleton.mp ht
  exact ⟨⟨fun s hs => (List.mem_singleton.mp hs).symm ▸ hsafe.1, _, _, hbranch⟩,
    fun s hs => (List.mem_singleton.mp hs).symm ▸ hsafe.2⟩

/-- `byte i & v` and `byte i | v` do not look at the packet: the first rejects all of them, the
second accepts all of them, or none when `v` is 0. -/
theorem pcap_compile_byte_bits {snaplen : UInt} (hsnaplen : snaplen ≠ 0)
    {op : ByteOp} (hop : op = .or ∨ op = .and) (idx val : UInt) :
    ∃ fuel program,
      pcap_compile fuel true snaplen (some (gen_byteop op idx val)) = some (.ok program) ∧
      ∀ input mem,
        bpf_filter_with_aux_data program.length (some program) input mem =
          some (.ok (if op = .or ∧ val ≠ 0 then snaplen else 0)) := by
  obtain ⟨code, hcode, hgen⟩ := gen_byteop_bits hop idx val
  have halu : code = .OR ∨ code = .AND := hcode.imp And.right And.right
  rw [hgen]
  obtain ⟨fuel, program, hcompile, _, himp, rfl⟩ :=
    (pcap_compile_implements (gen_bits_built halu val) hsnaplen).exists_program (by decide)
  refine ⟨fuel, program, hcompile, fun input mem => ?_⟩
  rw [himp.run_eq, ShortCircuit.Expr.eval, ShortCircuit.Expr.eval, run_bits halu val input]
  show some (Blocks.outcome (verdict snaplen (.ok (.answer (!_) _)))) = _
  rw [answer_bits hcode val mem]
  by_cases hmatch : op = .or ∧ val ≠ 0
  · rw [decide_eq_true hmatch, if_pos hmatch]
    rfl
  · rw [decide_eq_false hmatch, if_neg hmatch]
    rfl

/-- `byte 0 & 1`. -/
theorem pcap_compile_byte_and : ∃ fuel program,
    pcap_compile fuel true 96 (some (gen_byteop .and 0 1)) = some (.ok program) ∧
    ∀ input mem,
      bpf_filter_with_aux_data program.length (some program) input mem =
        some (.ok (if ByteOp.and = .or ∧ (1 : UInt) ≠ 0 then 96 else 0)) :=
  pcap_compile_byte_bits (by decide) (.inr rfl) 0 1

end Bpf

end Jxnet
