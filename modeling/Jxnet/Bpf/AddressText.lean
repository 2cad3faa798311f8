import Jxnet.Bpf.Expression
import Jxnet.Core.Inet4Text

namespace Jxnet

open Java ByteBuffer JumpMachine

namespace Bpf

/-! The text of an `Inet4Address` in a filter expression. -/

/-- The characters of a text, for those that take one byte in a C string. -/
def charsOf (s : JString) : List Char := s.map fun c => Char.ofNat c.toNat

/-- The number ends at the next dot. -/
theorem atoinNumber_append {s : List Char} (hs : '.' ∉ s) (n : UInt) (rest : List Char) :
    atoinNumber (s ++ '.' :: rest) n = ((atoinNumber s n).1, '.' :: rest) := by
  induction s generalizing n with
  | nil => rfl
  | cons c s ih =>
    have hc : c ≠ '.' := fun h => hs (h ▸ List.mem_cons_self)
    rw [List.cons_append, atoinNumber, if_neg hc, atoinNumber, if_neg hc]
    exact ih (fun h => hs (List.mem_cons_of_mem c h)) _

theorem atoinNumber_of_notMem {s : List Char} (hs : '.' ∉ s) (n : UInt) :
    (atoinNumber s n).2 = [] := by
  induction s generalizing n with
  | nil => rfl
  | cons c s ih =>
    have hc : c ≠ '.' := fun h => hs (h ▸ List.mem_cons_self)
    rw [atoinNumber, if_neg hc]
    exact ih (fun h => hs (List.mem_cons_of_mem c h)) _

/-- One part of an address, with others behind it. -/
theorem atoinLoop_append {s : List Char} (hs : '.' ∉ s) (rest : List Char) (addr : UInt)
    (len : Nat) :
    atoinLoop (s ++ '.' :: rest) addr len =
      atoinLoop rest ((addr <<< 8) ||| ((atoinNumber s 0).1 &&& 0xff)) (len + 8) := by
  have hnumber := atoinNumber_append hs 0 rest
  rw [atoinLoop]
  split
  · rename_i h
    rw [hnumber] at h
    cases h
  · rename_i h
    rw [hnumber] at h
    cases h
    rw [hnumber]

/-- The last part. -/
theorem atoinLoop_last {s : List Char} (hs : '.' ∉ s) (addr : UInt) (len : Nat) :
    atoinLoop s addr len = (len + 8, (addr <<< 8) ||| ((atoinNumber s 0).1 &&& 0xff)) := by
  rw [atoinLoop]
  split
  · rfl
  · rename_i h
    rw [atoinNumber_of_notMem hs] at h
    cases h

theorem dot_notMem_octetText (b : JByte) : '.' ∉ charsOf (Inet4Address.octetText b) := by
  revert b
  decide +kernel

theorem atoinNumber_octetText (b : JByte) :
    (atoinNumber (charsOf (Inet4Address.octetText b)) 0).1 = b.setWidth 32 := by
  revert b
  decide +kernel

theorem charsOf_toString (w x y z : JByte) :
    charsOf (Inet4Address.toString ⟨[w, x, y, z], rfl⟩) =
      charsOf (Inet4Address.octetText w) ++ '.' :: (charsOf (Inet4Address.octetText x) ++ '.' ::
        (charsOf (Inet4Address.octetText y) ++ '.' :: charsOf (Inet4Address.octetText z))) := by
  have hdot : Char.ofNat dot.toNat = '.' := by decide
  rw [Inet4Address.toString_eq]
  simp only [Address.toBytes, List.map_cons, List.map_nil]
  rw [Text.join_cons _ (by simp), Text.join_cons _ (by simp), Text.join_cons _ (by simp),
    Text.join_singleton]
  simp only [charsOf, List.map_append, List.map_cons, hdot]

theorem utf8ByteSize_octetText (b : JByte) :
    (String.ofList (charsOf (Inet4Address.octetText b))).utf8ByteSize ≤ 3 := by
  revert b
  decide +kernel

/-- The text of an address is small. -/
theorem utf8ByteSize_toString (a : Inet4Address) :
    (String.ofList (charsOf (Inet4Address.toString a))).utf8ByteSize ≤ 15 := by
  obtain ⟨w, x, y, z, rfl⟩ := Inet4Address.exists_bytes a
  have hdot : (String.ofList ['.']).utf8ByteSize = 1 := by decide
  have hcons : ∀ l : List Char, (String.ofList ('.' :: l)).utf8ByteSize =
      1 + (String.ofList l).utf8ByteSize := fun l => by
    rw [← List.singleton_append, String.ofList_append, String.utf8ByteSize_append, hdot]
  simp only [charsOf_toString, String.ofList_append, String.utf8ByteSize_append, hcons]
  have hw := utf8ByteSize_octetText w
  have hx := utf8ByteSize_octetText x
  have hy := utf8ByteSize_octetText y
  have hz := utf8ByteSize_octetText z
  omega

/-- The compiler reads the text of an address back as the address. -/
theorem pcap_atoin_toString (a : Inet4Address) :
    pcap_atoin (String.ofList (charsOf (Inet4Address.toString a))) = (32, a.toInt) := by
  obtain ⟨w, x, y, z, rfl⟩ := Inet4Address.exists_bytes a
  have hand : ∀ b : JByte, (b.setWidth 32 : UInt) &&& 0xff = b.setWidth 32 := by decide +kernel
  rw [pcap_atoin, String.toList_ofList, charsOf_toString, atoinLoop_append (dot_notMem_octetText w),
    atoinLoop_append (dot_notMem_octetText x), atoinLoop_append (dot_notMem_octetText y),
    atoinLoop_last (dot_notMem_octetText z)]
  simp only [atoinNumber_octetText, hand, Inet4Address.toInt_eq]
  refine Prod.ext rfl ?_
  apply BitVec.eq_of_getLsbD_eq
  intro i hi
  simp only [intOf, BitVec.getLsbD_or, BitVec.getLsbD_shiftLeft, BitVec.getLsbD_append,
    BitVec.getLsbD_setWidth]
  grind

/-- An address printed by `Inet4Address.toString` and put behind `ip host` is compiled to a filter
for just that address. -/
theorem pcap_compile_host_toString (netmask : UInt) {snaplen : UInt} (hsnaplen : snaplen ≠ 0)
    (a : Inet4Address) (dir : Dir) :
    ∃ fuel program,
      pcap_compile fuel true snaplen (some ((FilterExpr.address
        (String.ofList (charsOf (Inet4Address.toString a))) ⟨.Q_HOST, .Q_IP, dir⟩).gen netmask)) =
          some (.ok program) ∧
      ∃ f : Program, f.bf_insns = program ∧ bpf_validate f = true ∧
        ∀ input : Input, input.Holds → ∀ mem,
          bpf_filter_with_aux_data program.length (some program) input mem =
            some (Blocks.outcome (filtered snaplen
              (hasHost input a.toInt 0xffffffff dir ETHERTYPE_IP 12 16))) := by
  have hnet : ncodeNet (some (String.ofList (charsOf (Inet4Address.toString a)))) 0 .Q_HOST =
      (a.toInt, 0xffffffff) := by
    simp only [ncodeNet, pcap_atoin_toString, Nat.sub_self, BitVec.shiftLeft_zero]
  have hmeaning : (FilterExpr.address (String.ofList (charsOf (Inet4Address.toString a)))
      ⟨.Q_HOST, .Q_IP, dir⟩).meaningIn generator netmask =
        .ok fun input => hasHost input a.toInt 0xffffffff dir ETHERTYPE_IP 12 16 := by
    simp only [FilterExpr.meaningIn, hidMeaning, ncodeMeaning, hnet]
    rfl
  have hsmall : FilterExpr.Small (.address (String.ofList (charsOf (Inet4Address.toString a)))
      ⟨.Q_HOST, .Q_IP, dir⟩) := by
    refine ⟨show 1 ≤ 2000 by decide, fun s hs => ?_⟩
    rw [List.mem_singleton.mp hs]
    exact Nat.lt_of_le_of_lt (utf8ByteSize_toString a) (by decide)
  exact (compile_meaning netmask hsnaplen hmeaning).exists_program hsmall.blocks_le

/-- `127.0.0.1`. -/
theorem pcap_compile_host_localhost : ∃ fuel program,
    pcap_compile fuel true 96 (some ((FilterExpr.address
      (String.ofList (charsOf (Inet4Address.toString ⟨[127, 0, 0, 1], rfl⟩)))
      ⟨.Q_HOST, .Q_IP, .Q_DEFAULT⟩).gen 0)) = some (.ok program) ∧
    ∃ f : Program, f.bf_insns = program ∧ bpf_validate f = true ∧
      ∀ input : Input, input.Holds → ∀ mem,
        bpf_filter_with_aux_data program.length (some program) input mem =
          some (Blocks.outcome (filtered 96 (hasHost input (Inet4Address.toInt
            ⟨[127, 0, 0, 1], rfl⟩) 0xffffffff .Q_DEFAULT ETHERTYPE_IP 12 16))) :=
  pcap_compile_host_toString 0 (by decide) ⟨[127, 0, 0, 1], rfl⟩ .Q_DEFAULT

end Bpf

end Jxnet
