import Jxnet.Core.Inet6Printer
import Jxnet.Framework.Runs

namespace Jxnet

open Java ByteBuffer Text

namespace Inet6Address

/-! The form of an address that RFC 5952 fixes. -/

/-- The eight groups, from the left. -/
def groupValues (a : Inet6Address) : List JShort :=
  (List.range' 0 8).map fun i => shortAt a.address (2 * i)

/-- A group in lower-case hexadecimal without leading zeros. -/
structure CanonicalGroup (v : JShort) (g : JString) : Prop where
  digits : ∀ c ∈ g, c ∈ chars "0123456789abcdef"
  value : hexNumber g = v.toNat
  nonempty : g ≠ []
  noLeadingZero : 1 < g.length → ¬ startsWith g (chars "0") = true
  zero : v = 0 → g = chars "0"

/-- A row of zero groups. -/
abbrev ZeroGroups (groups : List JShort) : Nat → Nat → Prop :=
  Runs.RunAt (fun i => groups[i]? = some 0) groups.length

/-- The first of the longest rows of zero groups. -/
abbrev LongestZeroGroups (groups : List JShort) : Nat → Nat → Prop :=
  Runs.LeftmostLongest (fun i => groups[i]? = some 0) groups.length

/-- All the groups where no two zero groups are neighbours; else the first of the longest rows of
zero groups is left out. -/
inductive Rfc5952Text (groups : List JShort) : JString → Prop
  | full {gs : List JString} (hshort : ∀ i n, ZeroGroups groups i n → n < 2)
      (hgs : List.Forall₂ CanonicalGroup groups gs) : Rfc5952Text groups (join colon gs)
  | compressed {i n : Nat} {left right : List JString} (hrun : LongestZeroGroups groups i n)
      (htwo : 2 ≤ n) (hleft : List.Forall₂ CanonicalGroup (groups.take i) left)
      (hright : List.Forall₂ CanonicalGroup (groups.drop (i + n)) right) :
      Rfc5952Text groups (join colon left ++ ([colon, colon] ++ join colon right))

/-! The groups. -/

theorem groupText_canonical (src : Bytes) (i : Nat) :
    CanonicalGroup (shortAt src (2 * i)) (groupText src i) := by
  have hdigit : ∀ d < 16, Integer.hexChar d ∈ chars "0123456789abcdef" := by decide +kernel
  have hchar : ∀ d < 16, Integer.hexChar d = Integer.hexChar 0 → d = 0 := by decide
  have htext : groupText src i = digitsText 16 Integer.hexChar (hextetAt src i).toNat :=
    toHexString_eq_digitsText _
  refine ⟨?_, ?_, toHexString_ne_nil _, ?_, ?_⟩
  · rw [htext]
    exact digitsText_forall (by decide) hdigit
  · rw [groupText, hexNumber_toHexString, hextetAt_toNat]
  · rw [htext]
    exact digitsText_noLeadingZero (by decide) hchar
  · intro hzero
    rw [htext, hextetAt_toNat, hzero]
    rfl

theorem forall₂_canonical (src : Bytes) (is : List Nat) :
    List.Forall₂ CanonicalGroup (is.map fun i => shortAt src (2 * i)) (is.map (groupText src)) := by
  rw [List.forall₂_map_left_iff, List.forall₂_map_right_iff, List.forall₂_same]
  exact fun i _ => groupText_canonical src i

theorem groupValues_length (a : Inet6Address) : a.groupValues.length = 8 := by simp [groupValues]

theorem groupValues_getElem? (a : Inet6Address) {i : Nat} (hi : i < 8) :
    a.groupValues[i]? = some (shortAt a.address (2 * i)) := by
  simp [groupValues, hi]

/-- A row of zero groups among the bytes. -/
theorem zeroGroups_iff (a : Inet6Address) (i n : Nat) :
    ZeroGroups a.groupValues i n ↔ ZeroAt a.address i n := by
  have hlength := a.length_eq
  constructor
  · intro h
    have hle := h.le
    rw [groupValues_length] at hle
    refine ⟨by omega, ?_⟩
    intro j hj hj'
    have hzero := h.holds j hj hj'
    rw [groupValues_getElem? a (by omega)] at hzero
    exact Option.some.inj hzero
  · intro h
    have hle := h.le
    refine ⟨by rw [groupValues_length]; omega, ?_⟩
    intro j hj hj'
    rw [groupValues_getElem? a (by omega), h.zero j hj hj']

/-! The scan. -/

/-- The inner loop stops only at a group that is not zero, or at the end. -/
theorem le_zeroRun (bytes : Bytes) {n : Nat} (h : ZeroAt bytes 0 n) : n ≤ zeroRun bytes := by
  fun_induction zeroRun bytes generalizing n with
  | case1 x y rest hzero ih =>
    cases n with
    | zero => omega
    | succ n =>
      have hle := h.le
      have hrest : ZeroAt rest 0 n := by
        refine ⟨by simp only [List.length_cons] at hle; omega, ?_⟩
        intro i hi hi'
        exact h.zero (i + 1) (by omega) (by omega)
      have hn := ih hrest
      omega
  | case2 x y rest hzero =>
    cases n with
    | zero => exact Nat.le_refl 0
    | succ n =>
      have hfirst := h.zero 0 (Nat.le_refl 0) (by omega)
      exact absurd ((shortOf_eq_zero x y).mp hfirst) hzero
  | case3 bytes hshort =>
    have hle := h.le
    rcases bytes with _ | ⟨x, _ | ⟨y, rest⟩⟩
    · simpa using hle
    · simp only [List.length_singleton] at hle
      omega
    · exact absurd rfl (hshort x y rest)

theorem zeroRun_extent (a : Inet6Address) {hextet : Nat} (h : hextet ≤ 8) :
    Runs.Extent (fun i => a.groupValues[i]? = some 0) a.groupValues.length hextet
      (zeroRun (a.address.drop (2 * hextet))) := by
  have hlength := a.length_eq
  refine ⟨(zeroGroups_iff a hextet _).mpr (zeroRun_zeroAt a.address hextet (by omega)), ?_⟩
  intro n hrun
  have hzero := (zeroGroups_iff a hextet n).mp hrun
  have hle := hzero.le
  apply le_zeroRun
  refine ⟨by rw [List.length_drop]; omega, ?_⟩
  intro i hi hi'
  rw [shortAt_drop]
  exact hzero.zero (hextet + i) (by omega) (by omega)

/-- The best run that the scan has found before it comes to `hextet`. -/
abbrev Run.Best (a : Inet6Address) (run : Run) (hextet : Nat) : Prop :=
  Runs.BestBefore (fun i => a.groupValues[i]? = some 0) a.groupValues.length hextet
    run.cmprHextet run.cmprSize

theorem findRun_best (a : Inet6Address) (run : Run) (hextet : Nat) (h : run.Best a hextet) :
    ∃ stop, 7 ≤ stop ∧ (findRun a.address run hextet).Best a stop := by
  fun_induction findRun a.address run hextet with
  | case1 run hextet hlt size ih =>
    apply ih
    have hsize := zeroRun_extent a (Nat.le_of_lt (Nat.lt_succ_of_lt hlt))
    have hstep := h.step hsize
    split
    · next hgt =>
      rw [if_pos hgt, if_pos hgt] at hstep
      exact hstep
    · next hle =>
      rw [if_neg hle, if_neg hle] at hstep
      exact hstep
  | case2 run hextet hge => exact ⟨hextet, by omega, h⟩

/-! The text. -/

theorem full_rfc5952 (a : Inet6Address) (hshort : ∀ i n, ZeroGroups a.groupValues i n → n < 2) :
    Rfc5952Text a.groupValues (ipv6toStr a.address 0 8) := by
  rw [ipv6toStr_eq a.address 0 8]
  exact .full hshort (forall₂_canonical a.address _)

theorem compressed_rfc5952 (a : Inet6Address) {i n : Nat}
    (hrun : LongestZeroGroups a.groupValues i n) (htwo : 2 ≤ n) :
    Rfc5952Text a.groupValues (ipv6toStr a.address 0 i ++
      ([colon, colon] ++ ipv6toStr a.address (i + n) 8)) := by
  have hle := hrun.run.le
  rw [groupValues_length] at hle
  obtain ⟨k, hk⟩ := Nat.exists_eq_add_of_le hle
  have hleft := ipv6toStr_eq a.address 0 i
  rw [Nat.zero_add] at hleft
  have hright := ipv6toStr_eq a.address (i + n) k
  rw [← hk] at hright
  have hsplit := congrArg (List.map fun j => shortAt a.address (2 * j)) (range'_split hk)
  rw [List.map_append, List.map_append] at hsplit
  rw [hleft, hright]
  apply Rfc5952Text.compressed hrun htwo
  · rw [groupValues, hsplit, List.take_left' (by simp)]
    exact forall₂_canonical a.address _
  · rw [groupValues, hsplit, ← List.append_assoc, List.drop_left' (by simp)]
    exact forall₂_canonical a.address _

/-- The scan finds the row that the form leaves out, or that there is none. -/
theorem toString_rfc5952 (a : Inet6Address) : Rfc5952Text a.groupValues (toString a) := by
  obtain ⟨stop, hstop, hbest⟩ := findRun_best a ⟨none, 0⟩ 0 Runs.bestBefore_zero
  have hend : a.groupValues.length ≤ stop + 1 := by
    rw [groupValues_length]
    omega
  rw [toString]
  rcases hrun : findRun a.address ⟨none, 0⟩ 0 with ⟨_ | hextet, size⟩
  · rw [hrun] at hbest
    have hzero := hbest.none rfl
    exact full_rfc5952 a fun i n h => hbest.lt_two hend (by omega) h
  · rw [hrun] at hbest
    change Rfc5952Text a.groupValues (if size < 2 then _ else _)
    split
    · next hlt => exact full_rfc5952 a fun i n h => hbest.lt_two hend hlt h
    · next hge =>
      have htwo : 2 ≤ size := by omega
      exact compressed_rfc5952 a (hbest.leftmostLongest hend htwo) htwo

example : toString ⟨[0x20, 1, 0xd, 0xb8, 0, 0, 0, 0, 0, 1, 0, 0, 0, 0, 0, 1], rfl⟩ =
    chars "2001:db8::1:0:0:1" := by decide +kernel

end Inet6Address

end Jxnet
