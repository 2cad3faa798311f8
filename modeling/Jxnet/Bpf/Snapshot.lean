import Jxnet.Bpf.Validate

namespace Jxnet

open Java JumpMachine

namespace Bpf

/-- Two captures of one packet, the second with at least as many of its bytes. -/
structure Extends (input input' : Input) : Prop where
  wirelen : input'.wirelen = input.wirelen
  aux_data : input'.aux_data = input.aux_data
  buflen : input.buflen.toNat ≤ input'.buflen.toNat
  bytes : ∀ i < input.buflen.toNat, ByteBuffer.byteAt input'.p i = ByteBuffer.byteAt input.p i

namespace Extends

variable {input input' : Input}

theorem valueAt_eq (h : Extends input input') {k : Nat} {size : Size}
    (hk : k + size.bytes ≤ input.buflen.toNat) :
    Filter.valueAt input'.p k size = Filter.valueAt input.p k size := by
  have hbyte : ∀ i < size.bytes, ByteBuffer.byteAt input'.p (k + i) =
      ByteBuffer.byteAt input.p (k + i) := fun i hi => h.bytes (k + i) (by omega)
  cases size with
  | B =>
    have h0 := hbyte 0 (by decide)
    rw [Nat.add_zero] at h0
    rw [Filter.valueAt, Filter.valueAt, h0]
  | H =>
    have h0 := hbyte 0 (by decide)
    have h1 := hbyte 1 (by decide)
    rw [Nat.add_zero] at h0
    rw [Filter.valueAt, Filter.valueAt, ByteBuffer.shortAt, ByteBuffer.shortAt, h0, h1]
  | W =>
    have h0 := hbyte 0 (by decide)
    have h1 := hbyte 1 (by decide)
    have h2 := hbyte 2 (by decide)
    have h3 := hbyte 3 (by decide)
    rw [Nat.add_zero] at h0
    rw [Filter.valueAt, Filter.valueAt, ByteBuffer.intAt, ByteBuffer.intAt, h0, h1, h2, h3]

/-- A load either ends the run with 0 on the shorter capture or does the same on both. -/
theorem loaded_eq (h : Extends input input') (r : Regs) {k : Nat} {size : Size} :
    (if input.buflen.toNat < k + size.bytes then Filter.return_ 0
      else Filter.continue_ { r with A := Filter.valueAt input.p k size }) = Filter.return_ 0 ∨
    (if input'.buflen.toNat < k + size.bytes then Filter.return_ 0
      else Filter.continue_ { r with A := Filter.valueAt input'.p k size }) =
    (if input.buflen.toNat < k + size.bytes then Filter.return_ 0
      else Filter.continue_ { r with A := Filter.valueAt input.p k size }) := by
  by_cases hk : input.buflen.toNat < k + size.bytes
  · exact .inl (if_pos hk)
  · have hk' : ¬input'.buflen.toNat < k + size.bytes := by
      have := h.buflen
      omega
    exact .inr (by rw [if_neg hk, if_neg hk', h.valueAt_eq (by omega)])

/-- One instruction: the end of the run with 0 on the shorter capture, or the same effect. -/
theorem exec_eq (h : Extends input input') (hinput : input.Holds) (hinput' : input'.Holds)
    (pc : Insn) (r : Regs) :
    Filter.exec input pc r = Filter.return_ 0 ∨
      Filter.exec input' pc r = Filter.exec input pc r := by
  rw [Filter.exec, Filter.exec]
  cases decode pc.code with
  | none => exact .inr rfl
  | some op =>
    cases op with
    | LD_ABS size =>
      have hload : Filter.loadAbs input pc r size = Filter.return_ 0 ∨
          Filter.loadAbs input' pc r size = Filter.loadAbs input pc r size := by
        rw [Filter.loadAbs_eq hinput, Filter.loadAbs_eq hinput']
        exact h.loaded_eq r
      cases size with
      | W => exact hload
      | H => exact hload
      | B =>
        simp only [Filter.case, h.aux_data]
        cases Filter.ancillary input.aux_data r pc.k with
        | none => exact hload
        | some effect => exact .inr rfl
    | LD_IND size =>
      simp only [Filter.loadInd_eq hinput, Filter.loadInd_eq hinput']
      exact h.loaded_eq r
    | LDX_MSH =>
      simp only [Filter.loadMsh_eq hinput, Filter.loadMsh_eq hinput']
      by_cases hk : input.buflen ≤ pc.k
      · exact .inl (if_pos hk)
      · have hlt : pc.k.toNat < input.buflen.toNat := by
          rw [BitVec.le_def] at hk
          omega
        have hk' : ¬input'.buflen ≤ pc.k := by
          have := h.buflen
          rw [BitVec.le_def]
          omega
        exact .inr (by rw [if_neg hk, if_neg hk', h.bytes _ hlt])
    | LD_LEN | LDX_LEN => exact .inr (by simp only [Filter.case, h.wirelen])
    | ALU op source =>
      cases source
      · exact .inr rfl
      · exact .inr rfl
    | _ => exact .inr rfl

end Extends

/-- A packet that a filter accepts when only its first bytes were captured is accepted, with the
same value, when more of it was. -/
theorem verdict_mono (program : List Insn) (input input' : Input) (h : Extends input input')
    (hinput : input.Holds) (hinput' : input'.Holds) (mem : Fin BPF_MEMWORDS → UInt) (v : UInt)
    (hv : v ≠ 0) (hr : Yields input program mem (.ok v)) :
    Yields input' program mem (.ok v) := by
  have hsame : ∀ pc r, Filter.exec input pc r ≠ Filter.return_ 0 →
      Filter.exec input' pc r = Filter.exec input pc r :=
    fun pc r hne => (h.exec_eq hinput hinput' pc r).resolve_left hne
  refine Loop.Ends.of_simulation
    (R := fun s t => t = s) (Q := fun r => ∃ v, v ≠ 0 ∧ r = .ok v) ?_ ?_ rfl hr ⟨v, hv, rfl⟩
  · rintro s s' t rfl hpass
    obtain ⟨i, offset, hi, he, hpc⟩ := exists_jump_of_pass hpass
    refine ⟨s', ?_, rfl⟩
    have he' := hsame i t.data (by rw [he]; exact fun hc => by cases hc)
    rw [pass_of_jump hi (he'.trans he), ← hpc]
  · rintro s t r rfl hstop ⟨v, hv, rfl⟩
    rw [Loop.run] at hstop
    split at hstop
    · cases hstop
    · rename_i v' hpass
      cases hstop
      obtain ⟨i, hi, he⟩ := exists_halt_of_pass hpass
      have he' := hsame i t.data (by
        rw [he]
        intro hc
        cases hc
        exact hv rfl)
      exact Loop.ends_of_done (pass_of_halt hi (he'.trans he))
    · cases hstop

/-- The packet is accepted on its first four bytes, and so on the six that were captured. -/
theorem verdict_mono_eighth :
    Yields ⟨eighthPacket ++ [0x1c, 0x46], 80, 6, none⟩ eighthProgram.bf_insns (fun _ => 7)
      (.ok 96) :=
  verdict_mono eighthProgram.bf_insns ⟨eighthPacket, 80, 4, none⟩
    ⟨eighthPacket ++ [0x1c, 0x46], 80, 6, none⟩
    ⟨rfl, rfl, by decide, by decide⟩ (by decide) (by decide) _ 96 (by decide) ⟨8, rfl⟩

end Bpf

end Jxnet
