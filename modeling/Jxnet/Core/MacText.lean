import Jxnet.Core.InetText
import Jxnet.Framework.Regex

namespace Jxnet

open Java ByteBuffer Text

namespace MacAddress

def hyphen : JChar := 0x2d

/-- `^([0-9A-Fa-f]{2}[:-]){5}([0-9A-Fa-f]{2})$`. -/
def pattern : RegularExpression JChar :=
  (oneOf hexDigits ^ 2 * oneOf [colon, hyphen]) ^ 5 * oneOf hexDigits ^ 2

def isValidAddress (address : JString) : Bool := pattern.rmatch address

/-- The separators of `split(":|-")`. -/
def isSeparator (c : JChar) : Bool := c = colon ∨ c = hyphen

/-- One pass of the loop of `valueOf(String)`; a `NumberFormatException` is an
`IllegalArgumentException`. -/
def parseElement (element : JString) : Except JavaException JByte :=
  match Integer.parseInt element 16 with
  | none => .error .illegalArgument
  | some x => .ok (toByte x)

def valueOfString (address : JString) : Except JavaException MacAddress :=
  if ¬ isValidAddress address then .error .illegalArgument
  else
    let elements := splitAny isSeparator address
    if elements.length ≠ MAC_ADDRESS_LENGTH then .error .illegalArgument
    else do
      let b ← elements.mapM parseElement
      valueOf b

/-- One pass of the loop of `toString`. -/
def appendByte (sb : JString) (b : JByte) : JString :=
  let sb := if sb.length > 0 then sb ++ [colon] else sb
  let hex := Integer.toHexString (promote b)
  sb ++ padTwo hex

def toString (a : MacAddress) : JString := a.address.foldl appendByte []

/-- `valueOf(long)`. -/
def valueOfLong (address : JLong) : MacAddress :=
  ⟨[40, 32, 24, 16, 8, 0].map fun k => (address.sshiftRight k &&& 0xff#64).setWidth 8, rfl⟩

def toLong (a : MacAddress) : JLong :=
  (List.range MAC_ADDRESS_LENGTH).foldl
    (fun addr i => addr ||| ((a.address.getD i 0).signExtend 64 &&& 0xff#64) <<< ((5 - i) * 8)) 0

example : toString ⟨[0x0a, 0, 0x7f, 0, 0, 0x80], rfl⟩ = chars "0a:00:7f:00:00:ffffff80" := by
  decide +kernel

/-! The texts that are valid. -/

/-- Six groups of two hexadecimal digits with five separators between them. -/
structure MacForm (s : JString) (gs : List JString) (seps : List JChar) : Prop where
  size : gs.length = 6
  seps_size : seps.length = 5
  hex : ∀ g ∈ gs, g.length = 2 ∧ ∀ c ∈ g, IsHexDigit c
  sep : ∀ c ∈ seps, c = colon ∨ c = hyphen
  text : s = weave gs seps

theorem isValidAddress_iff {s : JString} :
    isValidAddress s = true ↔ ∃ gs seps, MacForm s gs seps := by
  have hseps : ∀ seps : List JChar,
      (∀ c ∈ seps, c ∈ [colon, hyphen]) ↔ ∀ c ∈ seps, c = colon ∨ c = hyphen := by
    simp
  rw [isValidAddress, RegularExpression.rmatch_iff_matches', pattern, mem_separated]
  simp only [mem_oneOf_pow, mem_hexDigits, hseps]
  constructor
  · intro h
    obtain ⟨gs, seps, hsize, hseps, hhex, hsep, htext⟩ := h
    exact ⟨gs, seps, hsize, hseps, hhex, hsep, htext⟩
  · intro h
    obtain ⟨gs, seps, hform⟩ := h
    exact ⟨gs, seps, hform.size, hform.seps_size, hform.hex, hform.sep, hform.text⟩

/-- The address that six groups stand for. -/
def DenotesMac (s : JString) (a : MacAddress) : Prop :=
  ∃ gs seps, MacForm s gs seps ∧ a.toBytes = gs.map fun g => BitVec.ofNat 8 (hexNumber g)

theorem parseElement_hex {g : JString} (hlen : g.length = 2) (hex : ∀ c ∈ g, IsHexDigit c) :
    parseElement g = .ok (BitVec.ofNat 8 (hexNumber g)) := by
  have hlt := hexNumber_lt g
  rw [hlen] at hlt
  have hbyte : toByte (BitVec.ofNat 32 (hexNumber g)) = BitVec.ofNat 8 (hexNumber g) := by
    apply BitVec.eq_of_toNat_eq
    simp only [toByte, BitVec.toNat_setWidth, BitVec.toNat_ofNat]
    omega
  rw [parseElement, parseInt_hex (List.ne_nil_of_length_eq_add_one hlen) hex (by omega)]
  exact congrArg Except.ok hbyte

theorem mapM_parseElement {gs : List JString}
    (h : ∀ g ∈ gs, g.length = 2 ∧ ∀ c ∈ g, IsHexDigit c) :
    gs.mapM parseElement = .ok (gs.map fun g => BitVec.ofNat 8 (hexNumber g)) := by
  induction gs with
  | nil => rfl
  | cons g gs ih =>
    obtain ⟨hg, hgs⟩ := List.forall_mem_cons.mp h
    rw [List.mapM_cons, parseElement_hex hg.1 hg.2, ih hgs]
    rfl

theorem splitAny_of_form {s : JString} {gs : List JString} {seps : List JChar}
    (h : MacForm s gs seps) : splitAny isSeparator s = gs := by
  rw [h.text]
  refine splitAny_weave (by rw [h.size, h.seps_size]) ?_ ?_ ?_
  · intro g hg c hc
    have hhex := (h.hex g hg).2 c hc
    apply decide_eq_false
    intro hsep
    rcases hsep with rfl | rfl
    · exact absurd hhex (by decide)
    · exact absurd hhex (by decide)
  · intro g hg
    exact List.ne_nil_of_length_eq_add_one (h.hex g hg).1
  · intro c hc
    exact decide_eq_true (h.sep c hc)

/-- A text of the form gives the address it stands for. -/
theorem valueOfString_of_form {s : JString} {gs : List JString} {seps : List JChar}
    (h : MacForm s gs seps) :
    ∃ a : MacAddress, a.toBytes = gs.map (fun g => BitVec.ofNat 8 (hexNumber g)) ∧
      valueOfString s = .ok a := by
  have hlen : (gs.map fun g => BitVec.ofNat 8 (hexNumber g)).length = 6 := by
    rw [List.length_map, h.size]
  have hvalid : ¬ ¬ isValidAddress s = true := not_not.mpr (isValidAddress_iff.mpr ⟨gs, seps, h⟩)
  have hsize : ¬ gs.length ≠ MAC_ADDRESS_LENGTH := not_not.mpr h.size
  refine ⟨⟨_, hlen⟩, rfl, ?_⟩
  rw [valueOfString, if_neg hvalid, splitAny_of_form h]
  simp only [if_neg hsize, mapM_parseElement h.hex]
  exact dif_pos hlen

theorem valueOfString_invalid {s : JString} (h : ¬ ∃ gs seps, MacForm s gs seps) :
    valueOfString s = .error .illegalArgument :=
  if_pos (mt isValidAddress_iff.mp h)

theorem valueOfString_ok_iff (s : JString) (a : MacAddress) :
    valueOfString s = .ok a ↔ DenotesMac s a := by
  constructor
  · intro h
    by_cases hform : ∃ gs seps, MacForm s gs seps
    · obtain ⟨gs, seps, hform⟩ := hform
      obtain ⟨b, hb, hvalue⟩ := valueOfString_of_form hform
      cases h.symm.trans hvalue
      exact ⟨gs, seps, hform, hb⟩
    · rw [valueOfString_invalid hform] at h
      cases h
  · intro h
    obtain ⟨gs, seps, hform, ha⟩ := h
    obtain ⟨b, hb, hvalue⟩ := valueOfString_of_form hform
    rw [hvalue, Address.eq_of_toBytes_eq (hb.trans ha.symm)]

/-! The form of one `long`. -/

theorem exists_bytes (a : MacAddress) : ∃ u v w x y z, a = ⟨[u, v, w, x, y, z], rfl⟩ := by
  obtain ⟨address, h⟩ := a
  match address, h with
  | [u, v, w, x, y, z], _ => exact ⟨u, v, w, x, y, z, rfl⟩

theorem toLong_eq (u v w x y z : JByte) :
    toLong ⟨[u, v, w, x, y, z], rfl⟩ = (u ++ v ++ w ++ x ++ y ++ z).setWidth 64 := by
  have hrange : List.range 6 = [0, 1, 2, 3, 4, 5] := rfl
  have hbyte : ∀ b : JByte, b.signExtend 64 &&& 0xff#64 = b.setWidth 64 := by decide
  simp only [toLong, MAC_ADDRESS_LENGTH, hrange, List.foldl_cons, List.foldl_nil,
    List.getD_cons_zero, List.getD_cons_succ, hbyte]
  apply BitVec.eq_of_getLsbD_eq
  intro i hi
  simp only [BitVec.getLsbD_or, BitVec.getLsbD_shiftLeft, BitVec.getLsbD_setWidth,
    BitVec.getLsbD_append]
  have hbyte : ∀ (b : JByte) j, 8 ≤ j → b.getLsbD j = false :=
    fun b j hj => BitVec.getLsbD_of_ge b j hj
  grind

theorem valueOfLong_eq (address : JLong) :
    valueOfLong address = ⟨[address.extractLsb' 40 8, address.extractLsb' 32 8,
      address.extractLsb' 24 8, address.extractLsb' 16 8, address.extractLsb' 8 8,
      address.extractLsb' 0 8], rfl⟩ := by
  apply Address.eq_of_toBytes_eq
  simp only [valueOfLong, Address.toBytes, List.map_cons, List.map_nil, byte_of_shift,
    Nat.reduceAdd, Nat.reduceLeDiff]

theorem valueOfLong_toLong (a : MacAddress) : valueOfLong a.toLong = a := by
  obtain ⟨u, v, w, x, y, z, rfl⟩ := exists_bytes a
  rw [valueOfLong_eq, toLong_eq]
  apply Address.eq_of_toBytes_eq
  simp only [Address.toBytes, List.cons.injEq, and_true]
  refine ⟨?_, ?_, ?_, ?_, ?_, ?_⟩ <;>
  · apply BitVec.eq_of_getLsbD_eq
    intro i hi
    simp only [BitVec.getLsbD_extractLsb', BitVec.getLsbD_setWidth, BitVec.getLsbD_append]
    grind

theorem toLong_valueOfLong (address : JLong) :
    (valueOfLong address).toLong = (address.setWidth 48).setWidth 64 := by
  rw [valueOfLong_eq, toLong_eq]
  grind

/-- `valueOf(String)` takes the valid texts and refuses every other one, and an address is its
48-bit number. -/
theorem macText_exact (s : JString) (a : MacAddress) (x : JLong) :
    (valueOfString s = .ok a ↔ DenotesMac s a) ∧
      ((∃ b, DenotesMac s b) ∨ valueOfString s = .error .illegalArgument) ∧
      (valueOfLong a.toLong).toBytes = a.toBytes ∧
      (valueOfLong x).toLong.toNat = x.toNat % 2 ^ 48 := by
  refine ⟨valueOfString_ok_iff s a, ?_, ?_, ?_⟩
  · by_cases hform : ∃ gs seps, MacForm s gs seps
    · obtain ⟨gs, seps, hform⟩ := hform
      obtain ⟨b, hb, -⟩ := valueOfString_of_form hform
      exact .inl ⟨b, gs, seps, hform, hb⟩
    · exact .inr (valueOfString_invalid hform)
  · rw [valueOfLong_toLong]
  · rw [toLong_valueOfLong, BitVec.toNat_setWidth, BitVec.toNat_setWidth]
    omega

/-! Printing. -/

/-- The text of a byte, sign and all. -/
def byteText (b : JByte) : JString := padTwo (Integer.toHexString (promote b))

theorem byteText_ne_nil (b : JByte) : byteText b ≠ [] := by
  apply List.ne_nil_of_length_pos
  rw [byteText, padTwo_length (toHexString_ne_nil _)]
  omega

theorem foldl_appendByte {sb : JString} (hsb : sb ≠ []) (bs : Bytes) :
    bs.foldl appendByte sb = sb ++ (bs.map byteText).flatMap (colon :: ·) := by
  induction bs generalizing sb with
  | nil => simp
  | cons b bs ih =>
    have hpos : sb.length > 0 := List.length_pos_iff.mpr hsb
    have hstep : appendByte sb b = sb ++ colon :: byteText b := by
      simp [appendByte, hpos, byteText]
    rw [List.foldl_cons, hstep, ih (by simp)]
    simp

theorem toString_eq (a : MacAddress) :
    toString a = weave (a.toBytes.map byteText) (List.replicate 5 colon) := by
  obtain ⟨u, v, w, x, y, z, rfl⟩ := exists_bytes a
  have hfirst : appendByte [] u = byteText u := rfl
  have hweave := weave_replicate (byteText u) ([v, w, x, y, z].map byteText) colon
  rw [toString, List.foldl_cons, hfirst, foldl_appendByte (byteText_ne_nil u)]
  exact hweave.symm

theorem promote_toNat_small (b : JByte) : (promote b).toNat < 256 ↔ b.toNat < 0x80 := by
  revert b
  decide

theorem byteText_length_le_iff (b : JByte) : (byteText b).length ≤ 2 ↔ b.toNat < 0x80 := by
  rw [byteText, padTwo_length (toHexString_ne_nil _), ← promote_toNat_small]
  have hlen := toHexString_length_le_iff (promote b) (k := 2) (by decide)
  omega

theorem two_mul_length_le_sum {gs : List JString} (h : ∀ g ∈ gs, 2 ≤ g.length) :
    2 * gs.length ≤ (gs.map List.length).sum := by
  induction gs with
  | nil => simp
  | cons g gs ih =>
    obtain ⟨hg, hgs⟩ := List.forall_mem_cons.mp h
    have hrest := ih hgs
    rw [List.map_cons, List.sum_cons, List.length_cons]
    omega

/-- Texts of at least two characters that take two each on the whole take two each. -/
theorem length_le_of_sum {gs : List JString} (h : ∀ g ∈ gs, 2 ≤ g.length)
    (hsum : (gs.map List.length).sum ≤ 2 * gs.length) : ∀ g ∈ gs, g.length ≤ 2 := by
  induction gs with
  | nil => simp
  | cons g gs ih =>
    obtain ⟨hg, hgs⟩ := List.forall_mem_cons.mp h
    have hrest := two_mul_length_le_sum hgs
    rw [List.map_cons, List.sum_cons, List.length_cons] at hsum
    exact List.forall_mem_cons.mpr ⟨by omega, ih hgs (by omega)⟩

/-- A valid text has 17 characters. -/
theorem MacForm.sum_length {s : JString} {gs : List JString} {seps : List JChar}
    (h : MacForm s gs seps) : s.length = 17 := by
  have hlen : gs.map List.length = List.replicate 6 2 := by
    rw [List.eq_replicate_iff, List.length_map, h.size]
    refine ⟨rfl, ?_⟩
    intro n hn
    obtain ⟨g, hg, rfl⟩ := List.mem_map.mp hn
    exact (h.hex g hg).1
  rw [h.text, weave_length (by rw [h.size, h.seps_size]), hlen, h.seps_size]
  rfl

theorem macForm_toString {a : MacAddress} (h : ∀ b ∈ a.toBytes, b.toNat < 0x80) :
    MacForm (toString a) (a.toBytes.map byteText) (List.replicate 5 colon) := by
  refine ⟨?_, rfl, ?_, ?_, toString_eq a⟩
  · rw [List.length_map, Address.toBytes_length]
  · intro g hg
    obtain ⟨b, hb, rfl⟩ := List.mem_map.mp hg
    have hle := (byteText_length_le_iff b).mpr (h b hb)
    have hlen := padTwo_length (toHexString_ne_nil (promote b))
    refine ⟨?_, padTwo_isHexDigit (toHexString_isHexDigit _)⟩
    rw [byteText] at hle ⊢
    omega
  · intro c hc
    exact .inl (List.eq_of_mem_replicate hc)

theorem small_of_valid {a : MacAddress} (h : isValidAddress (toString a) = true) :
    ∀ b ∈ a.toBytes, b.toNat < 0x80 := by
  obtain ⟨gs, seps, hform⟩ := isValidAddress_iff.mp h
  have hlen := hform.sum_length
  have hsize : (a.toBytes.map byteText).length = 6 := by
    rw [List.length_map, Address.toBytes_length]
  rw [toString_eq, weave_length (by rw [hsize]; rfl), List.length_replicate] at hlen
  have htwo : ∀ g ∈ a.toBytes.map byteText, 2 ≤ g.length := by
    intro g hg
    obtain ⟨b, -, rfl⟩ := List.mem_map.mp hg
    rw [byteText, padTwo_length (toHexString_ne_nil _)]
    exact Nat.le_max_left _ _
  intro b hb
  rw [← byteText_length_le_iff]
  exact length_le_of_sum htwo (by omega) _ (List.mem_map_of_mem hb)

theorem hexNumber_byteText {b : JByte} (h : b.toNat < 0x80) :
    BitVec.ofNat 8 (hexNumber (byteText b)) = b := by
  have hsmall : ∀ b : JByte, b.toNat < 0x80 → (promote b).toNat = b.toNat := by decide
  rw [byteText, hexNumber_padTwo, hexNumber_toHexString, hsmall b h, BitVec.ofNat_toNat,
    BitVec.setWidth_eq]

/-- The printed form is valid and reads back exactly if no byte is negative. -/
theorem toString_readsBack_iff (m : MacAddress) :
    (isValidAddress (toString m) = true ∧
      ∃ b, valueOfString (toString m) = .ok b ∧ b.toBytes = m.toBytes) ↔
        ∀ b ∈ m.toBytes, b.toNat < 0x80 := by
  constructor
  · intro h
    exact small_of_valid h.1
  · intro h
    have hform := macForm_toString h
    obtain ⟨b, hb, hvalue⟩ := valueOfString_of_form hform
    refine ⟨isValidAddress_iff.mpr ⟨_, _, hform⟩, b, hvalue, ?_⟩
    rw [hb, List.map_map]
    refine (List.map_congr_left ?_).trans (List.map_id _)
    intro x hx
    exact hexNumber_byteText (h x hx)

/-- `BROADCAST` prints as a text that is not valid. -/
theorem broadcast_not_valid :
    isValidAddress (toString ⟨List.replicate 6 0xff, rfl⟩) = false ∧
      valueOfString (toString ⟨List.replicate 6 0xff, rfl⟩) = .error .illegalArgument := by
  have hinvalid : isValidAddress (toString ⟨List.replicate 6 0xff, rfl⟩) = false := by
    rw [Bool.eq_false_iff]
    intro hvalid
    exact absurd (small_of_valid hvalid 0xff (by simp [Address.toBytes])) (by decide)
  refine ⟨hinvalid, ?_⟩
  rw [valueOfString, hinvalid]
  rfl

end MacAddress

end Jxnet
