import Jxnet.Common.Validate
import Jxnet.Framework.FixedHex
import Jxnet.Framework.Regex

namespace Jxnet

open Java Text

namespace HexUtils

/-- `toHexString(byte)`. -/
def toHexStringByte (value : JByte) : JString :=
  padTwo (Integer.toHexString (promote value &&& 0xff#32))

/-- `toHexString(short)`. -/
def toHexStringShort (value : JShort) : JString :=
  padTwo (Integer.toHexString (promote value &&& 0xffff#32))

/-- `toHexString(int)`. -/
def toHexStringInt (value : JInt) : JString := padTwo (Integer.toHexString value)

/-- `toHexString(byte[], int, int)`. -/
def toHexStringBytes (data : Bytes) (offset length : Int) : Except JavaException JString := do
  Validate.checkBounds data offset length
  let l := if (data.length : Int) ≠ length then data.length - length else length
  return (List.range' offset.toNat (l - offset).toNat).flatMap fun i =>
    toHexStringByte (data.getD i 0)

/-- The other overloads: the loop runs over all values. -/
def toHexStringAll {α : Type} (toHexString : α → JString) (values : List α) (offset length : Int) :
    Except JavaException JString := do
  Validate.checkBounds values offset length
  return values.flatMap toHexString

/-- `toHexString(short[], int, int)`. -/
def toHexStringShorts : List JShort → Int → Int → Except JavaException JString :=
  toHexStringAll toHexStringShort

/-- `toHexString(int[], int, int)`. -/
def toHexStringInts : List JInt → Int → Int → Except JavaException JString :=
  toHexStringAll toHexStringInt

/-- `\\A([0-9a-fA-F][0-9a-fA-F])+\\z`. -/
def NO_SEPARATOR_HEX_STRING_PATTERN : RegularExpression JChar :=
  oneOrMore (oneOf hexDigits * oneOf hexDigits)

/-- `\\s`: space, tab, newline, vertical tab, form feed and carriage return. -/
def isSpace (c : JChar) : Bool := c = 0x20 ∨ (0x09 ≤ c.toNat ∧ c.toNat ≤ 0x0d)

/-- `String.trim`. -/
def trim (s : JString) : JString :=
  (s.dropWhile fun c => decide (c.toNat ≤ 0x20)).rdropWhile fun c => decide (c.toNat ≤ 0x20)

/-- `Character.digit(c, 16)` as an `int`. -/
def digit16 (c : JChar) : JInt :=
  match Character.digit c 16 with
  | some d => BitVec.ofNat 32 d
  | none => -1

/-- The loop over the pairs of digits. -/
def parsePairs : JString → Bytes
  | c :: c' :: rest => toByte ((digit16 c <<< 4) + digit16 c') :: parsePairs rest
  | _ => []

def parseHex (hexStream : JString) : Except JavaException Bytes :=
  let hexStream := if startsWith hexStream (chars "0x") then hexStream.drop 2 else hexStream
  let hexStream := trim (hexStream.filter fun c => !isSpace c)
  if ¬ NO_SEPARATOR_HEX_STRING_PATTERN.rmatch hexStream then .error .illegalArgument
  else .ok (parsePairs hexStream)

example : toHexStringBytes [0x0a, 0xff] 0 2 = .ok (chars "0aff") := by decide +kernel

/-! What is printed reads back. -/

theorem toHexStringByte_eq (b : JByte) : toHexStringByte b = fixedHex 2 b.toNat := by
  have hx : (b.setWidth 32).toNat = b.toNat := BitVec.toNat_setWidth_of_le (by decide)
  have hlt := b.isLt
  have hlen := (toHexString_length_le_iff (b.setWidth 32) (k := 2) (by decide)).mpr (by omega)
  have hpadded := fixedHex_eq_padTwo (Nat.le_refl 2) (x := b.setWidth 32) (by omega)
  rw [hx, padTwo_length (toHexString_ne_nil _), Nat.max_eq_left hlen, Nat.sub_self,
    List.replicate_zero, List.nil_append] at hpadded
  rw [toHexStringByte, promote_and_ff, hpadded]

theorem digit16_eq {c : JChar} {d : Nat} (h : hexValue c = some d) :
    digit16 c = BitVec.ofNat 32 d := by
  rw [digit16, digit_of_hexValue h]

/-- The two digits of a byte. -/
theorem parsePairs_byte (b : JByte) (rest : JString) :
    parsePairs (toHexStringByte b ++ rest) = b :: parsePairs rest := by
  have hlt := b.isLt
  have hpair : toHexStringByte b =
      [Integer.hexChar (b.toNat / 16 % 16), Integer.hexChar (b.toNat % 16)] := toHexStringByte_eq b
  rw [hpair, List.cons_append, List.singleton_append, parsePairs,
    digit16_eq (hexValue_hexChar (Nat.mod_lt _ (by decide))),
    digit16_eq (hexValue_hexChar (Nat.mod_lt _ (by decide)))]
  congr 1
  apply BitVec.eq_of_toNat_eq
  simp only [toByte, BitVec.toNat_setWidth, BitVec.toNat_add, BitVec.toNat_shiftLeft,
    BitVec.toNat_ofNat, Nat.shiftLeft_eq]
  omega

theorem parsePairs_flatMap (d : Bytes) : parsePairs (d.flatMap toHexStringByte) = d := by
  induction d with
  | nil => rfl
  | cons b d ih => rw [List.flatMap_cons, parsePairs_byte, ih]

theorem toHexStringByte_isHexDigit (b : JByte) : ∀ c ∈ toHexStringByte b, IsHexDigit c :=
  padTwo_isHexDigit (toHexString_isHexDigit _)

theorem flatMap_isHexDigit (d : Bytes) : ∀ c ∈ d.flatMap toHexStringByte, IsHexDigit c := by
  intro c hc
  obtain ⟨b, -, hc⟩ := List.mem_flatMap.mp hc
  exact toHexStringByte_isHexDigit b c hc

theorem flatMap_length (d : Bytes) : (d.flatMap toHexStringByte).length = 2 * d.length :=
  flatMap_length_eq (fun b => by rw [toHexStringByte_eq, fixedHex_length]) d

/-- A digit is above white space and the other characters that `trim` removes. -/
theorem lt_of_isHexDigit {c : JChar} (h : IsHexDigit c) : 0x20 < c.toNat := by
  by_contra hle
  rw [IsHexDigit, hexValue, if_neg (by omega), if_neg (by omega), if_neg (by omega)] at h
  cases h

theorem not_isSpace_of_lt {c : JChar} (h : 0x20 < c.toNat) : isSpace c = false := by
  apply decide_eq_false
  intro hspace
  rcases hspace with rfl | hrange
  · exact absurd h (by decide)
  · omega

theorem trim_of_hex {s : JString} (h : ∀ c ∈ s, IsHexDigit c) : trim s = s := by
  have hlow : ∀ c ∈ s, ¬ decide (c.toNat ≤ 0x20) = true := by
    intro c hc hle
    have hlt := lt_of_isHexDigit (h c hc)
    have hle := of_decide_eq_true hle
    omega
  have hdrop : s.dropWhile (fun c => decide (c.toNat ≤ 0x20)) = s := by
    cases s with
    | nil => rfl
    | cons c s => exact List.dropWhile_cons_of_neg (hlow c (List.mem_cons_self ..))
  rw [trim, hdrop, List.rdropWhile_eq_self_iff]
  intro hne
  exact hlow _ (List.getLast_mem hne)

/-- Pairs of digits are read, with or without "0x" and with white space anywhere. -/
theorem parseHex_of_digits {t w : JString} (ht : (t.filter fun c => !isSpace c) = w)
    (hex : ∀ c ∈ w, IsHexDigit c) (hne : w ≠ []) (heven : w.length % 2 = 0) :
    parseHex t = .ok (parsePairs w) ∧ parseHex (chars "0x" ++ t) = .ok (parsePairs w) := by
  have hmatch : NO_SEPARATOR_HEX_STRING_PATTERN.rmatch w = true := by
    rw [RegularExpression.rmatch_iff_matches', NO_SEPARATOR_HEX_STRING_PATTERN,
      mem_oneOrMore_pairs]
    exact ⟨hne, heven, fun c hc => mem_hexDigits.mpr (hex c hc)⟩
  have hrun : ∀ s : JString, (if startsWith s (chars "0x") then s.drop 2 else s) = t →
      parseHex s = .ok (parsePairs w) := by
    intro s hs
    simp only [parseHex, hs, ht, trim_of_hex hex, hmatch]
    rfl
  constructor
  · apply hrun
    rw [if_neg]
    intro hstart
    obtain ⟨y, hy⟩ := startsWith_iff.mp hstart
    have hmem : (0x78 : JChar) ∈ w := by
      rw [← ht, List.mem_filter, hy]
      exact ⟨by simp [chars], by decide⟩
    exact absurd (hex _ hmem) (by decide)
  · apply hrun
    rw [if_pos (startsWith_iff.mpr ⟨t, rfl⟩)]
    rfl

/-- The text of some bytes reads back. -/
theorem parseHex_flatMap {d : Bytes} (hne : d ≠ []) :
    parseHex (d.flatMap toHexStringByte) = .ok d := by
  have hex := flatMap_isHexDigit d
  have hlen := flatMap_length d
  have hpos := List.length_pos_iff.mpr hne
  have hfilter : (d.flatMap toHexStringByte).filter (fun c => !isSpace c) =
      d.flatMap toHexStringByte := by
    rw [List.filter_eq_self]
    intro c hc
    rw [not_isSpace_of_lt (lt_of_isHexDigit (hex c hc))]
    rfl
  have hread := parseHex_of_digits hfilter hex (List.ne_nil_of_length_pos (by omega)) (by omega)
  rw [parsePairs_flatMap] at hread
  exact hread.1

/-- A hexadecimal letter in lower case. -/
def lowerHex (c : JChar) : JChar :=
  if 0x41 ≤ c.toNat ∧ c.toNat ≤ 0x46 then c + 0x20 else c

theorem hexValue_lowerHex (c : JChar) : hexValue (lowerHex c) = hexValue c := by
  unfold lowerHex
  split
  · next hrange =>
    have hall : ∀ k < 6, hexValue (BitVec.ofNat 16 (0x41 + k) + 0x20) =
        hexValue (BitVec.ofNat 16 (0x41 + k)) := by decide
    have hc : BitVec.ofNat 16 (0x41 + (c.toNat - 0x41)) = c := by
      have hsum : 0x41 + (c.toNat - 0x41) = c.toNat := by omega
      rw [hsum, BitVec.ofNat_toNat, BitVec.setWidth_eq]
    have hcase := hall (c.toNat - 0x41) (by omega)
    rwa [hc] at hcase
  · rfl

theorem isHexDigit_of_lower {s : JString} (h : ∀ c ∈ s.map lowerHex, IsHexDigit c) :
    ∀ c ∈ s, IsHexDigit c := by
  intro c hc
  have hlower := h (lowerHex c) (List.mem_map_of_mem hc)
  rwa [IsHexDigit, hexValue_lowerHex] at hlower

/-- The case of a digit does not matter. -/
theorem parsePairs_lower (s : JString) (h : ∀ c ∈ s, IsHexDigit c) :
    parsePairs (s.map lowerHex) = parsePairs s := by
  have hdigit : ∀ c, IsHexDigit c → digit16 (lowerHex c) = digit16 c := by
    intro c hc
    obtain ⟨d, hd⟩ := Option.isSome_iff_exists.mp hc
    rw [digit16_eq hd, digit16_eq ((hexValue_lowerHex c).trans hd)]
  induction s using parsePairs.induct with
  | case1 c c' rest ih =>
    have hc := hdigit c (h c (by simp))
    have hc' := hdigit c' (h c' (by simp))
    have hrest := ih fun d hd => h d (by simp [hd])
    simp only [List.map_cons, parsePairs, hc, hc', hrest]
  | case2 s hs =>
    match s, hs with
    | [], _ => rfl
    | [c], _ => rfl
    | c :: c' :: rest, hs => exact absurd rfl (hs c c' rest)

/-- The loop ends at `length`, or that far before the end. -/
theorem toHexStringBytes_eq {data : Bytes} {offset length : Nat} (hlen : 0 < length)
    (hfit : offset + length ≤ data.length) :
    toHexStringBytes data offset length = .ok ((slice data offset
      (if data.length = length then length else data.length - length - offset)).flatMap
        toHexStringByte) := by
  have hstop : ((if (data.length : Int) ≠ length then (data.length : Int) - length else length) -
      offset).toNat = if data.length = length then length else data.length - length - offset := by
    by_cases h : data.length = length
    · have hoffset : offset = 0 := by omega
      simp [h, hoffset]
    · have hne : (data.length : Int) ≠ length := by omega
      rw [if_pos hne, if_neg h]
      omega
  rw [toHexStringBytes, checkBounds_ok hlen hfit]
  change Except.ok ((List.range' offset (Int.toNat _)).flatMap _) = _
  rw [hstop, ← map_getD_range data 0 (by split <;> omega), List.flatMap_map]

theorem toHexStringBytes_all {d : Bytes} (hne : d ≠ []) :
    toHexStringBytes d 0 d.length = .ok (d.flatMap toHexStringByte) := by
  have hpos := List.length_pos_iff.mpr hne
  have hzero : 0 + d.length ≤ d.length := by omega
  have heq := toHexStringBytes_eq hpos hzero
  rwa [if_pos rfl, slice_all] at heq

/-- What is printed reads back in either case, with white space anywhere and "0x" in front. -/
theorem parseHex_toHexString (d : Bytes) (hne : d ≠ []) :
    ∃ h, toHexStringBytes d 0 d.length = .ok h ∧
      ∀ t : JString, (t.filter fun c => !isSpace c).map lowerHex = h →
        parseHex t = .ok d ∧ parseHex (chars "0x" ++ t) = .ok d := by
  refine ⟨_, toHexStringBytes_all hne, ?_⟩
  intro t ht
  have hlower : ∀ c ∈ (t.filter fun c => !isSpace c).map lowerHex, IsHexDigit c := by
    rw [ht]
    exact flatMap_isHexDigit d
  have hex := isHexDigit_of_lower hlower
  have hlen := congrArg List.length ht
  rw [List.length_map, flatMap_length] at hlen
  have hpos := List.length_pos_iff.mpr hne
  have hpairs := parsePairs_lower _ hex
  rw [ht, parsePairs_flatMap] at hpairs
  rw [hpairs]
  exact parseHex_of_digits rfl hex (List.ne_nil_of_length_pos (by omega)) (by omega)

theorem parseHex_spaced : parseHex (chars "0x" ++ chars " 0A f F") = .ok [0x0a, 0xff] := by
  obtain ⟨h, hprint, hread⟩ := parseHex_toHexString [0x0a, 0xff] (by decide)
  have htext : toHexStringBytes [0x0a, 0xff] 0 2 = .ok (chars "0aff") := by decide +kernel
  cases htext.symm.trans hprint
  exact (hread (chars " 0A f F") (by decide)).2

/-! A slice of an array, for the three types of elements. -/

inductive ElementType where
  | byte
  | short
  | int
  deriving DecidableEq, Repr

namespace ElementType

def bits : ElementType → Nat
  | byte => 8
  | short => 16
  | int => 32

def digits : ElementType → Nat
  | byte => 2
  | short => 4
  | int => 8

/-- The bytes of an element, the most significant one first. -/
def bigEndian : (t : ElementType) → BitVec t.bits → Bytes
  | byte, x => [x]
  | short, x => shortBytes x
  | int, x => intBytes x

/-- An element in all its digits. -/
def hex (t : ElementType) (x : BitVec t.bits) : JString := fixedHex t.digits x.toNat

/-- The way the elements are printed. -/
def printer (t : ElementType) : Padding.Printer (BitVec t.bits) JChar :=
  hexPrinter t.bits t.digits (by cases t <;> rfl) (by cases t <;> decide) (by cases t <;> decide)

end ElementType

/-- `toHexString(xs, offset, length)`, by the type of the array. -/
def toHexString : (t : ElementType) → List (BitVec t.bits) → Int → Int →
    Except JavaException JString
  | .byte => toHexStringBytes
  | .short => toHexStringShorts
  | .int => toHexStringInts

/-- The elements of the slice in all their digits. -/
def sliceText (t : ElementType) (xs : List (BitVec t.bits)) (offset length : Nat) : JString :=
  (slice xs offset length).flatMap t.hex

/-- What is printed is the slice, reads back as its bytes, and is not what another slice of the
length prints. -/
structure PrintsSlice (t : ElementType) (xs : List (BitVec t.bits)) (offset length : Nat) :
    Prop where
  printed : toHexString t xs offset length = .ok (sliceText t xs offset length)
  parsed : ∃ text, toHexString t xs offset length = .ok text ∧
    parseHex text = .ok ((slice xs offset length).flatMap t.bigEndian)
  distinct : ∀ (ys : List (BitVec t.bits)) (offset' : Nat), offset' + length ≤ ys.length →
    toHexString t ys offset' length = .ok (sliceText t ys offset' length) →
    toHexString t ys offset' length = toHexString t xs offset length →
    slice ys offset' length = slice xs offset length

/-- The arguments that print as they should. Bytes: the whole array, or as much after the slice as
in it. Others: only zeros, half as many or a quarter as many in the slice as in the array, or
zeros around the slice in the place of those that its elements lack. -/
def GoodSlice : (t : ElementType) → List (BitVec t.bits) → Nat → Nat → Prop
  | .byte, xs, offset, length => xs.length = length ∨ offset + 2 * length = xs.length
  | t, xs, offset, length => ((∀ x ∈ xs, x = 0#t.bits) ∧ 2 * xs.length = t.digits * length) ∨
      ∃ i x m r, t.printer.Shifted (xs.take offset) (slice xs offset length)
        (xs.drop (offset + length)) i x m r

theorem toHexStringByte_extractLsb' {w : Nat} (x : BitVec w) (j : Nat) :
    toHexStringByte (x.extractLsb' (8 * j) 8) = fixedHex 2 (x.toNat / 16 ^ (2 * j)) := by
  have hpow : 2 ^ (8 * j) = 16 ^ (2 * j) := by
    rw [Nat.pow_mul, Nat.pow_mul]
  rw [toHexStringByte_eq, BitVec.extractLsb'_toNat, Nat.shiftRight_eq_div_pow, hpow]
  exact fixedHex_mod 2 _

theorem fixedHex_short (x : JShort) :
    fixedHex 4 x.toNat = (shortBytes x).flatMap toHexStringByte := by
  have h1 := toHexStringByte_extractLsb' x 1
  have h0 := toHexStringByte_extractLsb' x 0
  rw [fixedHex_add 2 x.toNat 2, shortBytes, List.flatMap_cons, List.flatMap_cons, h1, h0]
  simp

theorem fixedHex_int (x : JInt) :
    fixedHex 8 x.toNat = (intBytes x).flatMap toHexStringByte := by
  have h3 := toHexStringByte_extractLsb' x 3
  have h2 := toHexStringByte_extractLsb' x 2
  have h1 := toHexStringByte_extractLsb' x 1
  have h0 := toHexStringByte_extractLsb' x 0
  rw [fixedHex_add 6 x.toNat 2, fixedHex_add 4 x.toNat 2, fixedHex_add 2 x.toNat 2, intBytes]
  simp only [List.flatMap_cons, List.flatMap_nil, List.append_nil]
  rw [h3, h2, h1, h0]
  simp

/-- The digits of an element are those of its bytes. -/
theorem hex_eq_flatMap (t : ElementType) (x : BitVec t.bits) :
    t.hex x = (t.bigEndian x).flatMap toHexStringByte := by
  cases t with
  | byte => exact (toHexStringByte_eq x).symm.trans (List.flatMap_singleton ..).symm
  | short => exact fixedHex_short x
  | int => exact fixedHex_int x

theorem sliceText_eq (t : ElementType) (xs : List (BitVec t.bits)) (offset length : Nat) :
    sliceText t xs offset length =
      ((slice xs offset length).flatMap t.bigEndian).flatMap toHexStringByte := by
  rw [sliceText, List.flatMap_assoc]
  exact List.flatMap_congr fun x _ => hex_eq_flatMap t x

theorem bigEndian_ne_nil (t : ElementType) (x : BitVec t.bits) : t.bigEndian x ≠ [] := by
  cases t <;> exact List.cons_ne_nil _ _

theorem hex_injective (t : ElementType) : Function.Injective t.hex := by
  apply fixedHex_injective
  cases t <;> rfl

theorem digits_pos (t : ElementType) : 0 < t.digits := by
  cases t <;> decide

/-- Slices print alike in full only if they are alike. -/
theorem sliceText_injective {t : ElementType} {xs ys : List (BitVec t.bits)}
    {offset offset' length length' : Nat}
    (h : sliceText t xs offset length = sliceText t ys offset' length') :
    slice xs offset length = slice ys offset' length' :=
  flatMap_injective (digits_pos t) (fun _ => fixedHex_length _ _) (hex_injective t) h

theorem sliceText_eq_fixedAll (t : ElementType) (xs : List (BitVec t.bits))
    (offset length : Nat) :
    sliceText t xs offset length = t.printer.fixedAll (slice xs offset length) :=
  List.flatMap_congr fun _ _ => (hexPrinter_fixed _ _ _ _).symm

/-- A slice that is printed in full reads back as its bytes. -/
theorem parseHex_sliceText {t : ElementType} {xs : List (BitVec t.bits)} {offset length : Nat}
    (hlen : 0 < length) (hfit : offset + length ≤ xs.length) :
    parseHex (sliceText t xs offset length) =
      .ok ((slice xs offset length).flatMap t.bigEndian) := by
  have hbytes : (slice xs offset length).flatMap t.bigEndian ≠ [] := by
    obtain ⟨x, rest, hslice⟩ := List.exists_cons_of_ne_nil (slice_ne_nil hlen hfit)
    rw [hslice, List.flatMap_cons]
    exact List.append_ne_nil_of_left_ne_nil (bigEndian_ne_nil t x) _
  rw [sliceText_eq, parseHex_flatMap hbytes]

/-- The byte loop prints another slice unless it stops where the slice does. -/
theorem printed_bytes_iff {xs : Bytes} {offset length : Nat} (hlen : 0 < length)
    (hfit : offset + length ≤ xs.length) :
    toHexStringBytes xs offset length = .ok (sliceText .byte xs offset length) ↔
      xs.length = length ∨ offset + 2 * length = xs.length := by
  have htext : sliceText .byte xs offset length =
      (slice xs offset length).flatMap toHexStringByte :=
    List.flatMap_congr fun x _ => (toHexStringByte_eq x).symm
  rw [toHexStringBytes_eq hlen hfit, htext, Except.ok.injEq]
  constructor
  · intro h
    have hsize := congrArg List.length h
    rw [flatMap_length, flatMap_length, slice_length hfit,
      slice_length (by split <;> omega)] at hsize
    split at hsize <;> omega
  · intro h
    have hstop : (if xs.length = length then length else xs.length - length - offset) = length := by
      split <;> omega
    rw [hstop]

/-- The other loops print the whole array. -/
theorem printed_all_iff {t : ElementType} {toHex : BitVec t.bits → JString}
    (htwo : t.printer.zeroLength = 2) (hzero : t.printer.zero = 0#t.bits)
    (hhex : ∀ x, toHex x = t.printer.print x) {xs : List (BitVec t.bits)} {offset length : Nat}
    (hlen : 0 < length) (hfit : offset + length ≤ xs.length) :
    toHexStringAll toHex xs offset length = .ok (sliceText t xs offset length) ↔
      ((∀ x ∈ xs, x = 0#t.bits) ∧ 2 * xs.length = t.digits * length) ∨
        ∃ i x m r, t.printer.Shifted (xs.take offset) (slice xs offset length)
          (xs.drop (offset + length)) i x m r := by
  have hprint : xs.flatMap toHex = t.printer.printAll xs := List.flatMap_congr fun x _ => hhex x
  have hiff := t.printer.printAll_eq_fixedAll_iff (a := xs.take offset)
    (b := xs.drop (offset + length)) (slice_ne_nil hlen hfit)
  rw [take_slice_drop, htwo, hzero, slice_length hfit] at hiff
  rw [toHexStringAll, checkBounds_ok hlen hfit, sliceText_eq_fixedAll]
  change Except.ok (xs.flatMap toHex) = _ ↔ _
  rw [hprint, Except.ok.injEq]
  exact hiff

theorem printer_zeroLength (t : ElementType) : t.printer.zeroLength = 2 :=
  hexPrinter_zeroLength _ _ _

theorem printed_iff {t : ElementType} {xs : List (BitVec t.bits)} {offset length : Nat}
    (hlen : 0 < length) (hfit : offset + length ≤ xs.length) :
    toHexString t xs offset length = .ok (sliceText t xs offset length) ↔
      GoodSlice t xs offset length := by
  cases t with
  | byte => exact printed_bytes_iff hlen hfit
  | short =>
    have hhex : ∀ x : JShort, toHexStringShort x = (ElementType.printer .short).print x :=
      fun x => congrArg (fun y => padTwo (Integer.toHexString y)) (promote_and_ffff x)
    exact printed_all_iff (t := .short) (printer_zeroLength _) rfl hhex hlen hfit
  | int =>
    have hhex : ∀ x : JInt, toHexStringInt x = (ElementType.printer .int).print x :=
      fun x => congrArg (fun y => padTwo (Integer.toHexString y)) (BitVec.setWidth_eq x).symm
    exact printed_all_iff (t := .int) (printer_zeroLength _) rfl hhex hlen hfit

/-- When a slice is printed as it should. -/
theorem printsSlice_iff (t : ElementType) (xs : List (BitVec t.bits)) (offset length : Nat)
    (hlen : 0 < length) (hfit : offset + length ≤ xs.length) :
    PrintsSlice t xs offset length ↔ GoodSlice t xs offset length := by
  constructor
  · intro h
    exact (printed_iff hlen hfit).mp h.printed
  · intro h
    have hprinted := (printed_iff hlen hfit).mpr h
    refine ⟨hprinted, ⟨_, hprinted, parseHex_sliceText hlen hfit⟩, ?_⟩
    intro ys offset' _ hys hsame
    rw [hys, hprinted, Except.ok.injEq] at hsame
    exact sliceText_injective hsame

theorem printsSlice_whole :
    PrintsSlice .byte [0x0a, 0xff] 0 2 ∧ PrintsSlice .short [0x1234, 0xabcd] 0 2 := by
  constructor
  · exact (printsSlice_iff .byte [0x0a, 0xff] 0 2 (by decide) (by decide)).mpr (.inl rfl)
  · refine (printsSlice_iff .short [0x1234, 0xabcd] 0 2 (by decide) (by decide)).mpr (.inr ?_)
    refine ⟨0, 0x1234, [0xabcd], 0, rfl, by simp, ?_, by decide +kernel, by decide +kernel⟩
    intro y hy
    rw [List.mem_singleton.mp hy]
    decide +kernel

/-- A short array loses leading zeros, and a part of a byte array ends in another place. -/
theorem slice_not_printed :
    (toHexString .short [0x0001] 0 1 = .ok (chars "01") ∧ ¬ PrintsSlice .short [0x0001] 0 1) ∧
      toHexString .byte [1, 2, 3, 4] 1 1 = .ok (chars "0203") ∧
        ¬ PrintsSlice .byte [1, 2, 3, 4] 1 1 := by
  refine ⟨⟨by decide +kernel, ?_⟩, by decide +kernel, ?_⟩
  · intro h
    exact absurd h.printed (by decide +kernel)
  · intro h
    exact absurd h.printed (by decide +kernel)

end HexUtils

end Jxnet
