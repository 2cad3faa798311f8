import Jxnet.Framework.LoopRuns
import Mathlib.Data.List.Infix

namespace JumpMachine

/-! Machines whose programs are arrays of instructions with relative jumps. The instructions, the
data they work on and the faults they may raise are parameters. -/

variable {ι σ ρ ε : Type}

/-- What one instruction does: stop with a result, or go on, `offset` instructions past the next. -/
inductive Effect (σ ρ : Type) where
  | halt (r : ρ)
  | jump (offset : Int) (data : σ)

/-- Why a run breaks off. -/
inductive Stop (ε : Type) where
  | outside
  | fault (e : ε)
  deriving DecidableEq, Repr

structure State (σ : Type) where
  pc : Int
  data : σ

def fetch (program : List ι) (pc : Int) : Option ι := if pc < 0 then none else program[pc.toNat]?

/-- One instruction, as a pass of a loop. -/
def pass (exec : ι → σ → Except ε (Effect σ ρ)) (program : List ι) (s : State σ) :
    Except (Stop ε) (Loop.Step (State σ) ρ) :=
  match fetch program s.pc with
  | none => .error .outside
  | some i => match exec i s.data with
    | .error e => .error (.fault e)
    | .ok (.halt r) => .ok (.done r)
    | .ok (.jump offset data) => .ok (.next ⟨s.pc + 1 + offset, data⟩)

/-- The position lies in the program. -/
def Inside (program : List ι) (pc : Int) : Prop := 0 ≤ pc ∧ pc < program.length

theorem fetch_eq_some_iff {program : List ι} {pc : Int} {i : ι} :
    fetch program pc = some i ↔ 0 ≤ pc ∧ program[pc.toNat]? = some i := by
  rw [fetch]
  split <;> simp <;> omega

theorem fetch_natCast (program : List ι) (n : Nat) : fetch program (n : Int) = program[n]? := by
  rw [fetch, if_neg (by omega), Int.toNat_natCast]

theorem exists_fetch_of_inside {program : List ι} {pc : Int} (h : Inside program pc) :
    ∃ i, fetch program pc = some i ∧ i ∈ program := by
  have hlt : pc.toNat < program.length := by
    have := h.1
    have := h.2
    omega
  exact ⟨program[pc.toNat], fetch_eq_some_iff.mpr ⟨h.1, List.getElem?_eq_getElem hlt⟩,
    List.getElem_mem hlt⟩

section Pass

variable {exec : ι → σ → Except ε (Effect σ ρ)} {program : List ι}

theorem pass_of_fault {s : State σ} {i : ι} {e : ε} (hi : fetch program s.pc = some i)
    (he : exec i s.data = .error e) : pass exec program s = .error (.fault e) := by
  rw [pass, hi]
  simp only [he]

theorem pass_of_halt {s : State σ} {i : ι} {r : ρ} (hi : fetch program s.pc = some i)
    (he : exec i s.data = .ok (.halt r)) : pass exec program s = .ok (.done r) := by
  rw [pass, hi]
  simp only [he]

theorem pass_of_jump {s : State σ} {i : ι} {offset : Int} {data : σ}
    (hi : fetch program s.pc = some i) (he : exec i s.data = .ok (.jump offset data)) :
    pass exec program s = .ok (.next ⟨s.pc + 1 + offset, data⟩) := by
  rw [pass, hi]
  simp only [he]

/-- What a pass that goes on did. -/
theorem exists_jump_of_pass {s s' : State σ} (h : pass exec program s = .ok (.next s')) :
    ∃ i offset, fetch program s.pc = some i ∧ exec i s.data = .ok (.jump offset s'.data) ∧
      s'.pc = s.pc + 1 + offset := by
  unfold pass at h
  split at h
  · cases h
  · rename_i i hi
    split at h
    · cases h
    · cases h
    · rename_i offset data he
      cases h
      exact ⟨i, offset, hi, he, rfl⟩

/-- What a pass that returns did. -/
theorem exists_halt_of_pass {s : State σ} {r : ρ} (h : pass exec program s = .ok (.done r)) :
    ∃ i, fetch program s.pc = some i ∧ exec i s.data = .ok (.halt r) := by
  unfold pass at h
  split at h
  · cases h
  · rename_i i hi
    split at h
    · cases h
    · rename_i r' he
      cases h
      exact ⟨i, hi, he⟩
    · cases h

/-- What a pass that breaks off did. -/
theorem stop_of_pass {s : State σ} {e : Stop ε} (h : pass exec program s = .error e) :
    (e = .outside ∧ fetch program s.pc = none) ∨
      ∃ i f, e = .fault f ∧ fetch program s.pc = some i ∧ exec i s.data = .error f := by
  unfold pass at h
  split at h
  · rename_i hi
    cases h
    exact .inl ⟨rfl, hi⟩
  · rename_i i hi
    split at h
    · rename_i f he
      cases h
      exact .inr ⟨i, f, rfl, hi, he⟩
    · cases h
    · cases h

end Pass

section Confined

variable (exec : ι → σ → Except ε (Effect σ ρ)) (program : List ι)

/-- No instruction of the program jumps out of it, whatever the data. -/
def Confined : Prop :=
  ∀ (pc : Int) (i : ι) (data data' : σ) (offset : Int), fetch program pc = some i →
    exec i data = .ok (.jump offset data') → Inside program (pc + 1 + offset)

/-- No instruction of the program jumps back. -/
def Forward : Prop :=
  ∀ i ∈ program, ∀ (data data' : σ) (offset : Int),
    exec i data = .ok (.jump offset data') → 0 ≤ offset

variable {exec program}

theorem Confined.inside_of_pass (h : Confined exec program) {s s' : State σ}
    (hs : pass exec program s = .ok (.next s')) : Inside program s'.pc := by
  obtain ⟨i, offset, hi, he, hpc⟩ := exists_jump_of_pass hs
  rw [hpc]
  exact h s.pc i s.data s'.data offset hi he

/-- A confined program never leaves itself: what breaks its run off is a fault of an instruction
of the program. -/
theorem Confined.fault_of_ends (h : Confined exec program) {s : State σ} {e : Stop ε}
    (hs : Inside program s.pc) (he : Loop.Ends (pass exec program) s (.error e)) :
    ∃ i ∈ program, ∃ data f, e = .fault f ∧ exec i data = .error f := by
  refine Loop.Ends.of_invariant (P := fun s => Inside program s.pc)
    (Q := fun r => ∀ e, r = .error e →
      ∃ i ∈ program, ∃ data f, e = .fault f ∧ exec i data = .error f)
    (fun s s' _ hb => h.inside_of_pass hb) ?_ (fun s a _ _ e he => by cases he) hs he e rfl
  intro s e hs hb e' he'
  cases he'
  obtain ⟨j, hj, hmem⟩ := exists_fetch_of_inside hs
  rcases stop_of_pass hb with ⟨-, hnone⟩ | ⟨i, f, rfl, hi, hf⟩
  · rw [hj] at hnone
    cases hnone
  · rw [hj] at hi
    cases hi
    exact ⟨j, hmem, s.data, f, rfl, hf⟩

/-- A confined program without backward jumps ends within as many passes as it is long. -/
theorem Confined.run_isSome_of_forward (h : Confined exec program) (hf : Forward exec program)
    {s : State σ} (hs : Inside program s.pc) {n : Nat} (hn : (program.length : Int) ≤ s.pc + n) :
    (Loop.run (pass exec program) n s).isSome := by
  refine Loop.run_isSome_of_invariant (P := fun s => Inside program s.pc)
    (fun s => ((program.length : Int) - 1 - s.pc).toNat) ?_ hs (by have := hs.2; omega)
  intro s s' hs hb
  have hs' := h.inside_of_pass hb
  obtain ⟨i, offset, hi, he, hpc⟩ := exists_jump_of_pass hb
  obtain ⟨j, hj, hmem⟩ := exists_fetch_of_inside hs
  rw [hi] at hj
  cases hj
  have hoffset := hf i hmem s.data s'.data offset he
  refine ⟨hs', ?_⟩
  have h1 := hs.2
  have h2 := hs'.2
  show ((program.length : Int) - 1 - s'.pc).toNat < ((program.length : Int) - 1 - s.pc).toNat
  omega

end Confined

section Line

/-- What a straight line of instructions comes to: a result, or the data it leaves. -/
inductive Line (σ ρ : Type) where
  | halt (r : ρ)
  | data (s : σ)

/-- Straight-line code, one instruction after the other; what an instruction jumps by is not
looked at. -/
def runLine (exec : ι → σ → Except ε (Effect σ ρ)) : List ι → σ → Except ε (Line σ ρ)
  | [], s => .ok (.data s)
  | i :: code, s => match exec i s with
    | .error e => .error e
    | .ok (.halt r) => .ok (.halt r)
    | .ok (.jump _ s') => runLine exec code s'

/-- The instruction does not jump. -/
def Straight (exec : ι → σ → Except ε (Effect σ ρ)) (i : ι) : Prop :=
  ∀ data data' offset, exec i data = .ok (.jump offset data') → offset = 0

/-- `code` stands in the program from position `n` on. -/
def CodeAt (program : List ι) (n : Nat) (code : List ι) : Prop := code <+: program.drop n

theorem CodeAt.fetch_head {program : List ι} {n : Nat} {i : ι} {code : List ι}
    (h : CodeAt program n (i :: code)) : fetch program (n : Int) = some i := by
  obtain ⟨rest, hrest⟩ := h
  rw [fetch_natCast]
  have hhead : (program.drop n)[0]? = some i := by
    rw [← hrest]
    rfl
  simpa using hhead

theorem CodeAt.tail {program : List ι} {n : Nat} {i : ι} {code : List ι}
    (h : CodeAt program n (i :: code)) : CodeAt program (n + 1) code := by
  obtain ⟨rest, hrest⟩ := h
  refine ⟨rest, ?_⟩
  rw [← List.drop_drop, ← hrest]
  rfl

theorem CodeAt.append_right {program : List ι} {n : Nat} {code code' : List ι}
    (h : CodeAt program n (code ++ code')) : CodeAt program (n + code.length) code' := by
  induction code generalizing n with
  | nil => exact h
  | cons i code ih =>
    have := ih h.tail
    rwa [Nat.add_right_comm] at this

theorem CodeAt.append_left {program : List ι} {n : Nat} {code code' : List ι}
    (h : CodeAt program n (code ++ code')) : CodeAt program n code :=
  (List.prefix_append code code').trans h

variable {exec : ι → σ → Except ε (Effect σ ρ)} {program code : List ι}

theorem CodeAt.pass_head {n : Nat} {i : ι} (h : CodeAt program n (i :: code))
    (hi : Straight exec i) {s s' : σ} {offset : Int}
    (he : exec i s = .ok (.jump offset s')) :
    pass exec program ⟨n, s⟩ = .ok (.next ⟨((n + 1 : Nat) : Int), s'⟩) := by
  have hoffset := hi s s' offset he
  subst hoffset
  have hpc : ((n : Int) + 1 + 0) = ((n + 1 : Nat) : Int) := by omega
  rw [← hpc]
  exact pass_of_jump (s := ⟨n, s⟩) h.fetch_head he

/-- How the code in place ends: with what the line comes to, or past its last instruction. -/
def LineEnds (exec : ι → σ → Except ε (Effect σ ρ)) (program : List ι) (n m : Nat) (s : σ) :
    Except ε (Line σ ρ) → Prop
  | .error e => Loop.Ends (pass exec program) ⟨n, s⟩ (.error (.fault e))
  | .ok (.halt r) => Loop.Ends (pass exec program) ⟨n, s⟩ (.ok r)
  | .ok (.data s') => ∃ k, Loop.Leads (pass exec program) k ⟨n, s⟩ ⟨(m : Int), s'⟩

theorem LineEnds.of_pass {n n' m : Nat} {s s' : σ} {l : Except ε (Line σ ρ)}
    (h : pass exec program ⟨n, s⟩ = .ok (.next ⟨(n' : Int), s'⟩))
    (hl : LineEnds exec program n' m s' l) : LineEnds exec program n m s l := by
  rcases l with e | (r | d)
  · exact Loop.Ends.of_leads (.one h) hl
  · exact Loop.Ends.of_leads (.one h) hl
  · obtain ⟨k, hk⟩ := hl
    exact ⟨k + 1, .pass h hk⟩

/-- Straight-line code in place does what the line comes to. -/
theorem CodeAt.lineEnds {n : Nat} (h : CodeAt program n code)
    (hline : ∀ i ∈ code, Straight exec i) (s : σ) :
    LineEnds exec program n (n + code.length) s (runLine exec code s) := by
  induction code generalizing n s with
  | nil => exact ⟨0, .refl _⟩
  | cons i code ih =>
    rw [runLine]
    cases he : exec i s with
    | error e => exact Loop.ends_of_error (pass_of_fault (s := ⟨n, s⟩) h.fetch_head he)
    | ok effect =>
      cases effect with
      | halt r => exact Loop.ends_of_done (pass_of_halt (s := ⟨n, s⟩) h.fetch_head he)
      | jump offset s' =>
        have hrest := ih h.tail (fun j hj => hline j (List.mem_cons_of_mem i hj)) s'
        rw [Nat.add_right_comm] at hrest
        exact .of_pass (h.pass_head (hline i List.mem_cons_self) he) hrest

end Line

end JumpMachine
