import Jxnet.Core.Inet6Parser

namespace Jxnet

open Java ByteBuffer Text

namespace Inet6Address

/-- The `int` of one group. -/
def hextetAt (src : Bytes) (i : Nat) : JInt :=
  (promote (src.getD (2 * i) 0) <<< 8 &&& 0xff00#32) |||
    (promote (src.getD (2 * i + 1) 0) &&& 0xff#32)

def ipv6toStr (src : Bytes) (fromHextet toHextet : Nat) : JString :=
  (List.range' fromHextet (toHextet - fromHextet)).flatMap fun i =>
    Integer.toHexString (hextetAt src i) ++ if i < toHextet - 1 then [colon] else []

/-- `size` at the end of the inner loop, which starts with these bytes. -/
def zeroRun : Bytes → Nat
  | x :: y :: rest => if x = 0 ∧ y = 0 then zeroRun rest + 1 else 0
  | _ => 0

/-- The longest run of zero groups so far; `none` is -1. -/
structure Run where
  cmprHextet : Option Nat
  cmprSize : Nat
  deriving DecidableEq, Repr

def findRun (address : Bytes) (run : Run) (hextet : Nat) : Run :=
  if hextet < 7 then
    let size := zeroRun (address.drop (2 * hextet))
    findRun address (if size > run.cmprSize then ⟨some hextet, size⟩ else run) (hextet + size + 1)
  else run
termination_by 7 - hextet

def toString (a : Inet6Address) : JString :=
  match findRun a.address ⟨none, 0⟩ 0 with
  | ⟨none, _⟩ => ipv6toStr a.address 0 8
  | ⟨some cmprHextet, cmprSize⟩ =>
    if cmprSize < 2 then ipv6toStr a.address 0 8
    else ipv6toStr a.address 0 cmprHextet ++
      ([colon, colon] ++ ipv6toStr a.address (cmprHextet + cmprSize) 8)

/-! The text as groups. -/

/-- The text of one group. -/
def groupText (src : Bytes) (i : Nat) : JString := Integer.toHexString (hextetAt src i)

theorem ipv6toStr_eq (src : Bytes) (fromHextet k : Nat) :
    ipv6toStr src fromHextet (fromHextet + k) =
      join colon ((List.range' fromHextet k).map (groupText src)) := by
  have hk : fromHextet + k - fromHextet = k := by omega
  rw [ipv6toStr, hk]
  generalize hend : fromHextet + k = toHextet
  induction k generalizing fromHextet with
  | zero => rfl
  | succ k ih =>
    rw [List.range'_succ, List.flatMap_cons, ih (fromHextet + 1) (by omega) (by omega),
      List.map_cons]
    cases k with
    | zero =>
      rw [if_neg (by omega)]
      simp [groupText]
    | succ k =>
      rw [if_pos (by omega), join_cons _ (by simp)]
      simp [groupText]

theorem hextetAt_toNat (src : Bytes) (i : Nat) :
    (hextetAt src i).toNat = (shortAt src (2 * i)).toNat := by
  have hhigh : ∀ x : JByte, promote x <<< 8 &&& 0xff00#32 = x.setWidth 32 <<< 8 := by decide
  have hx := (byteAt src (2 * i)).isLt
  have hy := (byteAt src (2 * i + 1)).isLt
  change ((promote (byteAt src (2 * i)) <<< 8 &&& 0xff00#32) |||
    (promote (byteAt src (2 * i + 1)) &&& 0xff#32)).toNat =
      (byteAt src (2 * i) ++ byteAt src (2 * i + 1)).toNat
  have hx32 : (byteAt src (2 * i)).toNat % 2 ^ 32 = (byteAt src (2 * i)).toNat :=
    Nat.mod_eq_of_lt (by omega)
  have hy32 : (byteAt src (2 * i + 1)).toNat % 2 ^ 32 = (byteAt src (2 * i + 1)).toNat :=
    Nat.mod_eq_of_lt (by omega)
  have hshift : (byteAt src (2 * i)).toNat <<< 8 % 2 ^ 32 = (byteAt src (2 * i)).toNat <<< 8 := by
    rw [Nat.shiftLeft_eq]
    omega
  rw [hhigh, promote_and_ff, BitVec.toNat_or, BitVec.toNat_shiftLeft, BitVec.toNat_append,
    BitVec.toNat_setWidth, BitVec.toNat_setWidth, hx32, hy32, hshift]

theorem groupText_hex (src : Bytes) (i : Nat) : HexGroup (groupText src i) := by
  have hlt := (shortAt src (2 * i)).isLt
  refine ⟨List.length_pos_iff.mpr (toHexString_ne_nil _), ?_, toHexString_isHexDigit _⟩
  apply (toHexString_length_le_iff _ (by decide)).mpr
  rw [hextetAt_toNat]
  exact hlt

theorem groupValue_groupText (src : Bytes) (i : Nat) :
    groupValue (groupText src i) = shortAt src (2 * i) := by
  rw [groupValue, groupText, hexNumber_toHexString, hextetAt_toNat, BitVec.ofNat_toNat,
    BitVec.setWidth_eq]

theorem shortAt_flatMap (src : Bytes) (k : Nat) (h : src.length = 2 * k) :
    ((List.range' 0 k).map fun i => shortAt src (2 * i)).flatMap shortBytes = src := by
  induction k generalizing src with
  | zero =>
    rw [List.eq_nil_of_length_eq_zero h]
    rfl
  | succ k ih =>
    have hsrc : 2 * k + 2 ≤ src.length := by omega
    obtain ⟨s, rest, rfl, hrest⟩ := exists_short hsrc
    have hnext : ∀ i, shortAt (shortBytes s ++ rest) (2 * (i + 1)) = shortAt rest (2 * i) := by
      intro i
      simp [shortAt, byteAt, shortBytes, Nat.mul_add]
    have hfirst : shortAt (shortBytes s ++ rest) (2 * 0) = s := shortAt_append [] rest s rfl
    rw [List.length_append, shortBytes_length] at h
    rw [List.range'_succ, List.range'_succ_left, List.map_cons, List.map_map, List.flatMap_cons,
      hfirst]
    simp only [Function.comp_def, hnext]
    rw [ih rest (by omega)]

/-! The run of zeros. -/

/-- The run lies in the address and its groups are zero. -/
structure ZeroAt (address : Bytes) (hextet size : Nat) : Prop where
  le : 2 * (hextet + size) ≤ address.length
  zero : ∀ i, hextet ≤ i → i < hextet + size → shortAt address (2 * i) = 0

theorem zeroRun_spec (bytes : Bytes) : ZeroAt bytes 0 (zeroRun bytes) := by
  fun_induction zeroRun bytes with
  | case1 x y rest hzero ih =>
    obtain ⟨rfl, rfl⟩ := hzero
    have hle := ih.le
    refine ⟨by simp only [List.length_cons]; omega, ?_⟩
    intro i _ hi
    cases i with
    | zero => exact (shortOf_eq_zero 0 0).mpr ⟨rfl, rfl⟩
    | succ i => exact ih.zero i (Nat.zero_le _) (by omega)
  | case2 => exact ⟨Nat.zero_le _, fun i _ hi => absurd hi (by omega)⟩
  | case3 => exact ⟨Nat.zero_le _, fun i _ hi => absurd hi (by omega)⟩

theorem shortAt_drop (address : Bytes) (hextet i : Nat) :
    shortAt (address.drop (2 * hextet)) (2 * i) = shortAt address (2 * (hextet + i)) := by
  simp only [shortAt, byteAt, List.getD_eq_getElem?_getD, List.getElem?_drop, Nat.mul_add,
    Nat.add_assoc]

theorem zeroRun_zeroAt (address : Bytes) (hextet : Nat) (h : 2 * hextet ≤ address.length) :
    ZeroAt address hextet (zeroRun (address.drop (2 * hextet))) := by
  have hspec := zeroRun_spec (address.drop (2 * hextet))
  have hle := hspec.le
  rw [List.length_drop] at hle
  refine ⟨by omega, ?_⟩
  intro i hi hi'
  obtain ⟨j, rfl⟩ := Nat.exists_eq_add_of_le hi
  have hzero := hspec.zero j (Nat.zero_le _) (by omega)
  rw [← shortAt_drop, hzero]

def Run.Valid (address : Bytes) (run : Run) : Prop :=
  ∀ hextet, run.cmprHextet = some hextet → ZeroAt address hextet run.cmprSize

theorem findRun_valid {address : Bytes} (hlen : address.length = 16) (run : Run) (hextet : Nat)
    (h : run.Valid address) : (findRun address run hextet).Valid address := by
  fun_induction findRun address run hextet with
  | case1 run hextet hlt size ih =>
    apply ih
    split
    · intro k hk
      cases hk
      exact zeroRun_zeroAt address hextet (by omega)
    · exact h
  | case2 => exact h

theorem map_groupText_hex (src : Bytes) (is : List Nat) :
    ∀ g ∈ is.map (groupText src), HexGroup g := by
  intro g hg
  obtain ⟨i, -, rfl⟩ := List.mem_map.mp hg
  exact groupText_hex src i

theorem map_groupValue (src : Bytes) (is : List Nat) :
    (is.map (groupText src)).map groupValue = is.map fun i => shortAt src (2 * i) := by
  rw [List.map_map]
  exact List.map_congr_left fun i _ => groupValue_groupText src i

theorem denotes_full (a : Inet6Address) : Denotes (ipv6toStr a.address 0 8) a := by
  refine ⟨(List.range' 0 8).map (groupText a.address), 0, [], ?_, ?_⟩
  · rw [ipv6toStr_eq a.address 0 8]
    exact .full (map_groupText_hex _ _) (by simp)
  · rw [map_groupValue, List.replicate_zero, List.nil_append, List.map_nil, List.append_nil,
      shortAt_flatMap a.address 8 a.length_eq]
    rfl

/-- The groups before a run, in it and after it. -/
theorem range'_split {i n k : Nat} (hk : 8 = i + n + k) :
    List.range' 0 8 = List.range' 0 i ++ (List.range' i n ++ List.range' (i + n) k) := by
  have hinner := List.range'_append_1 (s := i) (m := n) (n := k)
  have houter := List.range'_append_1 (s := 0) (m := i) (n := n + k)
  rw [Nat.zero_add] at houter
  rw [hinner, houter, ← Nat.add_assoc, ← hk]

/-- Wherever a run of zero groups is left out, the text stands for the address. -/
theorem denotes_compressed (a : Inet6Address) {hextet size : Nat} (hpos : 1 ≤ size)
    (hzero : ZeroAt a.address hextet size) :
    Denotes (ipv6toStr a.address 0 hextet ++
      ([colon, colon] ++ ipv6toStr a.address (hextet + size) 8)) a := by
  have hle := hzero.le
  rw [a.length_eq] at hle
  obtain ⟨k, hk⟩ := Nat.exists_eq_add_of_le (show hextet + size ≤ 8 by omega)
  refine ⟨(List.range' 0 hextet).map (groupText a.address), size,
    (List.range' (hextet + size) k).map (groupText a.address), ?_, ?_⟩
  · have hleft := ipv6toStr_eq a.address 0 hextet
    rw [Nat.zero_add] at hleft
    rw [hleft, hk, ipv6toStr_eq]
    exact .compressed (map_groupText_hex _ _) (map_groupText_hex _ _) hpos (by simp; omega)
  · have hmiddle : (List.range' hextet size).map (fun i => shortAt a.address (2 * i)) =
        List.replicate size 0 := by
      rw [List.eq_replicate_iff]
      refine ⟨by simp, ?_⟩
      intro s hs
      obtain ⟨i, hi, rfl⟩ := List.mem_map.mp hs
      obtain ⟨h1, h2⟩ := List.mem_range'_1.mp hi
      exact hzero.zero i h1 h2
    have hbytes := shortAt_flatMap a.address 8 a.length_eq
    rw [range'_split hk, List.map_append, List.map_append, hmiddle] at hbytes
    rw [map_groupValue, map_groupValue, hbytes]
    rfl

theorem toString_denotes (a : Inet6Address) : Denotes (toString a) a := by
  have hvalid := findRun_valid a.length_eq ⟨none, 0⟩ 0 (by intro k hk; cases hk)
  rw [toString]
  rcases hrun : findRun a.address ⟨none, 0⟩ 0 with ⟨_ | hextet, size⟩
  · exact denotes_full a
  · rw [hrun] at hvalid
    change Denotes (if size < 2 then _ else _) a
    split
    · exact denotes_full a
    · exact denotes_compressed a (by omega) (hvalid hextet rfl)

/-- What is printed is read back. -/
theorem valueOf_toString (bytes : Bytes) (h : bytes.length = IPV6_ADDRESS_LENGTH) :
    ∃ a b, valueOf bytes = .ok a ∧ valueOfString (toString a) = .ok (some b) ∧
      b.toBytes = bytes := by
  refine ⟨⟨bytes, h⟩, ⟨bytes, h⟩, dif_pos h, ?_, rfl⟩
  exact valueOfString_of_denotes (toString_denotes ⟨bytes, h⟩)

theorem valueOf_toString_zero : ∃ a b, valueOf (List.replicate 16 0) = .ok a ∧
    valueOfString (toString a) = .ok (some b) ∧ b.toBytes = List.replicate 16 0 :=
  valueOf_toString (List.replicate 16 0) rfl

end Inet6Address

end Jxnet
