import Jxnet.Framework.ByteBuffer
import Jxnet.Framework.Text

namespace Java

/-! Strings and the numbers written in them. -/

/-- A UTF-16 code unit. -/
abbrev JChar := BitVec 16

abbrev JString := List JChar

/-- A literal of characters below U+10000. -/
def chars (s : String) : JString := s.toList.map fun c => BitVec.ofNat 16 c.toNat

namespace Character

/-- The zeros of the decimal digits in the Basic Multilingual Plane. -/
def decimalZeros : List Nat :=
  [0x0030, 0x0660, 0x06f0, 0x07c0, 0x0966, 0x09e6, 0x0a66, 0x0ae6, 0x0b66, 0x0be6, 0x0c66, 0x0ce6,
    0x0d66, 0x0de6, 0x0e50, 0x0ed0, 0x0f20, 0x1040, 0x1090, 0x17e0, 0x1810, 0x1946, 0x19d0, 0x1a80,
    0x1a90, 0x1b50, 0x1bb0, 0x1c40, 0x1c50, 0xa620, 0xa8d0, 0xa900, 0xa9d0, 0xa9f0, 0xaa50, 0xabf0,
    0xff10]

/-- The first letters of the Latin alphabets, plain and full width. -/
def letterAs : List Nat := [0x41, 0x61, 0xff21, 0xff41]

def digitValue (c : JChar) : Option Nat :=
  match decimalZeros.find? (fun z => z ≤ c.toNat && c.toNat < z + 10) with
  | some z => some (c.toNat - z)
  | none => (letterAs.find? (fun a => a ≤ c.toNat && c.toNat < a + 26)).map
      (fun a => c.toNat - a + 10)

/-- `Character.digit(c, radix)`; `none` is -1. -/
def digit (c : JChar) (radix : Nat) : Option Nat := (digitValue c).filter (· < radix)

end Character

namespace Integer

/-- The digits of a magnitude up to `limit`. -/
def parseMagnitude (radix limit : Nat) (s : JString) : Option Nat :=
  if s = [] then none
  else (s.foldlM (fun n c => (Character.digit c radix).map (n * radix + ·)) 0).filter (· ≤ limit)

/-- `Integer.parseInt(s, radix)`; `none` is a `NumberFormatException`. -/
def parseInt (s : JString) (radix : Nat) : Option JInt :=
  if Text.startsWith s (chars "-") then
    (parseMagnitude radix (2 ^ 31) s.tail).map fun n => -BitVec.ofNat 32 n
  else if Text.startsWith s (chars "+") then
    (parseMagnitude radix (2 ^ 31 - 1) s.tail).map (BitVec.ofNat 32)
  else (parseMagnitude radix (2 ^ 31 - 1) s).map (BitVec.ofNat 32)

def hexChar (d : Nat) : JChar := BitVec.ofNat 16 (if d < 10 then 0x30 + d else 0x61 + (d - 10))

/-- `Integer.toHexString(x)`: the unsigned value without leading zeros. -/
def toHexString (x : JInt) : JString :=
  if x = 0 then [hexChar 0] else (Nat.digits 16 x.toNat).reverse.map hexChar

end Integer

/-! ASCII hexadecimal numbers. -/

/-- The value of an ASCII hexadecimal digit. -/
def hexValue (c : JChar) : Option Nat :=
  if 0x30 ≤ c.toNat ∧ c.toNat ≤ 0x39 then some (c.toNat - 0x30)
  else if 0x41 ≤ c.toNat ∧ c.toNat ≤ 0x46 then some (c.toNat - 0x41 + 10)
  else if 0x61 ≤ c.toNat ∧ c.toNat ≤ 0x66 then some (c.toNat - 0x61 + 10)
  else none

def IsHexDigit (c : JChar) : Prop := (hexValue c).isSome

instance (c : JChar) : Decidable (IsHexDigit c) := inferInstanceAs (Decidable (_ = true))

/-- The class `[0-9A-Fa-f]`. -/
def hexDigits : JString := chars "0123456789ABCDEFabcdef"

/-- The number a row of hexadecimal digits denotes. -/
def hexNumber (s : JString) : Nat := s.foldl (fun n c => n * 16 + (hexValue c).getD 0) 0

example : Integer.parseInt (chars "-1f") 16 = some (-31) := by decide +kernel

example : hexNumber (chars "Ff0") = 0xff0 := by decide

theorem hexValue_lt {c : JChar} {d : Nat} (h : hexValue c = some d) : d < 16 := by
  unfold hexValue at h
  split at h
  · cases h
    omega
  split at h
  · cases h
    omega
  split at h
  · cases h
    omega
  · cases h

theorem toNat_lt_of_hexValue {c : JChar} {d : Nat} (h : hexValue c = some d) : c.toNat < 0x67 := by
  by_contra hge
  rw [hexValue, if_neg (by omega), if_neg (by omega), if_neg (by omega)] at h
  cases h

/-- An ASCII digit has the same value for `Character.digit`. -/
theorem digit_of_hexValue {c : JChar} {d : Nat} (h : hexValue c = some d) :
    Character.digit c 16 = some d := by
  have hall : ∀ n < 0x67, ∀ d < 16, hexValue (BitVec.ofNat 16 n) = some d →
      Character.digit (BitVec.ofNat 16 n) 16 = some d := by decide +kernel
  have hc := hall c.toNat (toNat_lt_of_hexValue h) d (hexValue_lt h)
  rw [BitVec.ofNat_toNat, BitVec.setWidth_eq] at hc
  exact hc h

theorem mem_hexDigits {c : JChar} : c ∈ hexDigits ↔ IsHexDigit c := by
  constructor
  · have hall : hexDigits.all (fun c => decide (IsHexDigit c)) = true := by decide +kernel
    intro hc
    exact of_decide_eq_true (List.all_eq_true.mp hall c hc)
  · intro hc
    obtain ⟨d, hd⟩ := Option.isSome_iff_exists.mp hc
    have hall : ∀ n < 0x67, IsHexDigit (BitVec.ofNat 16 n) → BitVec.ofNat 16 n ∈ hexDigits := by
      decide +kernel
    have hmem := hall c.toNat (toNat_lt_of_hexValue hd)
    rw [BitVec.ofNat_toNat, BitVec.setWidth_eq] at hmem
    exact hmem hc

theorem hexValue_hexChar {d : Nat} (h : d < 16) : hexValue (Integer.hexChar d) = some d := by
  revert d
  decide

theorem hexNumber_append (s t : JString) :
    hexNumber (s ++ t) = t.foldl (fun n c => n * 16 + (hexValue c).getD 0) (hexNumber s) := by
  rw [hexNumber, hexNumber, List.foldl_append]

/-- A number of `k` digits is below 16 to the `k`. -/
theorem hexNumber_lt (s : JString) : hexNumber s < 16 ^ s.length := by
  induction s using List.reverseRecOn with
  | nil => decide
  | append_singleton s c ih =>
    have hd : (hexValue c).getD 0 < 16 := by
      cases hc : hexValue c with
      | none => decide
      | some d => exact hexValue_lt hc
    rw [hexNumber_append, List.length_append, List.length_singleton, pow_succ]
    simp only [List.foldl_cons, List.foldl_nil]
    omega

theorem startsWith_singleton {s : JString} {c : JChar} (h : Text.startsWith s [c] = true) :
    c ∈ s := by
  obtain ⟨y, rfl⟩ := Text.startsWith_iff.mp h
  exact List.mem_cons_self ..

section Radix

/-! Digits of one alphabet, whose values `Character.digit` knows. -/

variable {radix : Nat} {value : JChar → Option Nat}

theorem foldlM_digit (hvalue : ∀ c d, value c = some d → Character.digit c radix = some d)
    {s : JString} (hs : ∀ c ∈ s, (value c).isSome) (n : Nat) :
    s.foldlM (fun n c => (Character.digit c radix).map (n * radix + ·)) n =
      some (s.foldl (fun n c => n * radix + (value c).getD 0) n) := by
  induction s generalizing n with
  | nil => rfl
  | cons c s ih =>
    obtain ⟨d, hd⟩ := Option.isSome_iff_exists.mp (hs c (List.mem_cons_self ..))
    have htail := ih (fun c hc => hs c (List.mem_cons_of_mem _ hc)) (n * radix + d)
    rw [List.foldlM_cons, hvalue c d hd, List.foldl_cons, hd]
    exact htail

/-- A number without a sign is read as it is, if it is in range. -/
theorem parseInt_digits (hvalue : ∀ c d, value c = some d → Character.digit c radix = some d)
    (hminus : value 0x2d = none) (hplus : value 0x2b = none) {s : JString} (hne : s ≠ [])
    (hs : ∀ c ∈ s, (value c).isSome) :
    Integer.parseInt s radix =
      if s.foldl (fun n c => n * radix + (value c).getD 0) 0 < 2 ^ 31 then
        some (BitVec.ofNat 32 (s.foldl (fun n c => n * radix + (value c).getD 0) 0))
      else none := by
  have hsign : ∀ c, value c = none → ¬ Text.startsWith s [c] = true := by
    intro c hc hstart
    have hdigit := hs c (startsWith_singleton hstart)
    rw [hc] at hdigit
    cases hdigit
  have hnegative : ¬ Text.startsWith s (chars "-") = true := hsign 0x2d hminus
  have hpositive : ¬ Text.startsWith s (chars "+") = true := hsign 0x2b hplus
  rw [Integer.parseInt, if_neg hnegative, if_neg hpositive, Integer.parseMagnitude, if_neg hne,
    foldlM_digit hvalue hs]
  generalize s.foldl (fun n c => n * radix + (value c).getD 0) 0 = n
  have hiff : n ≤ 2 ^ 31 - 1 ↔ n < 2 ^ 31 := by omega
  by_cases hlt : n < 2 ^ 31
  · simp only [Option.filter, hiff, hlt, decide_true, if_true, Option.map_some]
  · simp only [Option.filter, hiff, hlt, decide_false, Bool.false_eq_true, if_false,
      Option.map_none]

end Radix

theorem parseInt_hex_eq {s : JString} (hne : s ≠ []) (hs : ∀ c ∈ s, IsHexDigit c) :
    Integer.parseInt s 16 =
      if hexNumber s < 2 ^ 31 then some (BitVec.ofNat 32 (hexNumber s)) else none :=
  parseInt_digits (fun _ _ => digit_of_hexValue) (by decide) (by decide) hne hs

/-- A hexadecimal number without a sign is read as it is. -/
theorem parseInt_hex {s : JString} (hne : s ≠ []) (hs : ∀ c ∈ s, IsHexDigit c)
    (hlt : hexNumber s < 2 ^ 31) :
    Integer.parseInt s 16 = some (BitVec.ofNat 32 (hexNumber s)) := by
  rw [parseInt_hex_eq hne hs, if_pos hlt]

theorem hexNumber_map_hexChar (ds : List Nat) (h : ∀ d ∈ ds, d < 16) :
    hexNumber (ds.reverse.map Integer.hexChar) = Nat.ofDigits 16 ds := by
  induction ds with
  | nil => rfl
  | cons d ds ih =>
    have hd := hexValue_hexChar (h d (List.mem_cons_self ..))
    rw [List.reverse_cons, List.map_append, hexNumber_append,
      ih fun d hd => h d (List.mem_cons_of_mem _ hd), Nat.ofDigits_cons]
    simp only [List.map_cons, List.map_nil, List.foldl_cons, List.foldl_nil, hd, Option.getD_some]
    omega

/-- A number that is read has digits only. -/
theorem digit_of_parseMagnitude {radix limit : Nat} {s : JString}
    (h : (Integer.parseMagnitude radix limit s).isSome = true) :
    ∀ c ∈ s, (Character.digit c radix).isSome = true := by
  have hfold : ∀ (s : JString) (n : Nat),
      (s.foldlM (fun n c => (Character.digit c radix).map (n * radix + ·)) n).isSome = true →
        ∀ c ∈ s, (Character.digit c radix).isSome = true := by
    intro s
    induction s with
    | nil => simp
    | cons c s ih =>
      intro n hs
      cases hc : Character.digit c radix with
      | none => simp [List.foldlM_cons, hc] at hs
      | some d =>
        rw [List.foldlM_cons, hc] at hs
        rw [List.forall_mem_cons, hc]
        exact ⟨rfl, ih _ hs⟩
  unfold Integer.parseMagnitude at h
  split at h
  · cases h
  · exact hfold s 0 (Option.isSome_of_isSome_filter _ _ h)

/-- The characters of a number that is read. -/
theorem char_of_parseInt {radix : Nat} {s : JString}
    (h : (Integer.parseInt s radix).isSome = true) :
    ∀ c ∈ s, c = 0x2d ∨ c = 0x2b ∨ (Character.digit c radix).isSome = true := by
  intro c hc
  have hsigned : ∀ sign : JChar, Text.startsWith s [sign] = true → c = sign ∨ c ∈ s.tail := by
    intro sign hsign
    obtain ⟨y, rfl⟩ := Text.startsWith_iff.mp hsign
    exact List.mem_cons.mp hc
  unfold Integer.parseInt at h
  split at h
  · next hminus =>
    rw [Option.isSome_map] at h
    rcases hsigned 0x2d hminus with rfl | htail
    · exact .inl rfl
    · exact .inr (.inr (digit_of_parseMagnitude h c htail))
  split at h
  · next hplus =>
    rw [Option.isSome_map] at h
    rcases hsigned 0x2b hplus with rfl | htail
    · exact .inr (.inl rfl)
    · exact .inr (.inr (digit_of_parseMagnitude h c htail))
  · rw [Option.isSome_map] at h
    exact .inr (.inr (digit_of_parseMagnitude h c hc))

section DigitsText

/-! Numbers in any base. -/

/-- The number in base `b`, without leading zeros. -/
def digitsText (b : Nat) (char : Nat → JChar) (n : Nat) : JString :=
  if n = 0 then [char 0] else (Nat.digits b n).reverse.map char

variable {b : Nat} {char : Nat → JChar} {n : Nat}

theorem digitsText_forall (hb : 1 < b) {P : JChar → Prop} (hP : ∀ d < b, P (char d)) :
    ∀ c ∈ digitsText b char n, P c := by
  intro c hc
  unfold digitsText at hc
  split at hc
  · rw [List.mem_singleton] at hc
    rw [hc]
    exact hP 0 (by omega)
  · obtain ⟨d, hd, rfl⟩ := List.mem_map.mp hc
    exact hP d (Nat.digits_lt_base hb (List.mem_reverse.mp hd))

theorem digitsText_ne_nil : digitsText b char n ≠ [] := by
  unfold digitsText
  split
  · exact List.cons_ne_nil _ _
  · next hn =>
    intro hnil
    rw [List.map_eq_nil_iff, List.reverse_eq_nil_iff, Nat.digits_eq_nil_iff_eq_zero] at hnil
    exact hn hnil

theorem digitsText_of_lt (h : n < b) : digitsText b char n = [char n] := by
  unfold digitsText
  split
  · next hn => rw [hn]
  · next hn =>
    rw [Nat.digits_of_lt b n hn h]
    rfl

theorem digitsText_of_ge (hb : 1 < b) (h : b ≤ n) :
    digitsText b char n = digitsText b char (n / b) ++ [char (n % b)] := by
  have hn : n ≠ 0 := by omega
  have hdiv : n / b ≠ 0 := (Nat.div_pos h (by omega)).ne'
  rw [digitsText, digitsText, if_neg hn, if_neg hdiv, Nat.digits_def' hb (by omega),
    List.reverse_cons, List.map_append, List.map_singleton]

/-- Only zero starts with a zero. -/
theorem digitsText_noLeadingZero (hb : 1 < b) (hchar : ∀ d < b, char d = char 0 → d = 0)
    (hlong : 1 < (digitsText b char n).length) :
    ¬ Text.startsWith (digitsText b char n) [char 0] = true := by
  intro hstart
  obtain ⟨y, hy⟩ := Text.startsWith_iff.mp hstart
  unfold digitsText at hlong hy
  split at hlong
  · exact absurd hlong (Nat.lt_irrefl 1)
  · next hn =>
    rw [if_neg hn] at hy
    have hne : Nat.digits b n ≠ [] := Nat.digits_ne_nil_iff_ne_zero.mpr hn
    have hlast := Nat.getLast_digit_ne_zero b hn
    obtain ⟨init, d, hdigits⟩ := (List.eq_nil_or_concat' (Nat.digits b n)).resolve_left hne
    have hd : d < b := by
      apply Nat.digits_lt_base (m := n) hb
      rw [hdigits]
      simp
    simp only [hdigits, List.getLast_append_singleton] at hlast
    rw [hdigits, List.reverse_append, List.reverse_singleton, List.singleton_append,
      List.map_cons] at hy
    exact hlast (hchar d hd (List.cons.inj hy).1)

end DigitsText

section ToHexString

variable (x : JInt)

theorem toHexString_eq_digitsText :
    Integer.toHexString x = digitsText 16 Integer.hexChar x.toNat := by
  have hzero : x = 0 ↔ x.toNat = 0 := by
    rw [← BitVec.toNat_inj]
    rfl
  rw [Integer.toHexString, digitsText]
  simp only [hzero]

theorem toHexString_isHexDigit : ∀ c ∈ Integer.toHexString x, IsHexDigit c := by
  have hchar : ∀ d < 16, IsHexDigit (Integer.hexChar d) := by
    intro d hd
    rw [IsHexDigit, hexValue_hexChar hd]
    rfl
  rw [toHexString_eq_digitsText]
  exact digitsText_forall (by decide) hchar

theorem toHexString_ne_nil : Integer.toHexString x ≠ [] := by
  rw [toHexString_eq_digitsText]
  exact digitsText_ne_nil

/-- What is written reads back. -/
theorem hexNumber_toHexString : hexNumber (Integer.toHexString x) = x.toNat := by
  unfold Integer.toHexString
  split
  · next hx =>
    rw [hx]
    decide
  · rw [hexNumber_map_hexChar _ fun d hd => Nat.digits_lt_base (by decide) hd,
      Nat.ofDigits_digits]

theorem toHexString_length_le_iff {k : Nat} (hk : 0 < k) :
    (Integer.toHexString x).length ≤ k ↔ x.toNat < 16 ^ k := by
  unfold Integer.toHexString
  split
  · next hx =>
    rw [hx]
    exact ⟨fun _ => Nat.pow_pos (by decide), fun _ => hk⟩
  · rw [List.length_map, List.length_reverse]
    exact Nat.digits_length_le_iff (by decide) x.toNat

end ToHexString

/-- `hex.length() == 1 ? "0" + hex : hex`. -/
def padTwo (hex : JString) : JString := if hex.length = 1 then chars "0" ++ hex else hex

section PadTwo

variable {hex : JString}

theorem padTwo_length (hne : hex ≠ []) : (padTwo hex).length = max 2 hex.length := by
  have hpos := List.length_pos_iff.mpr hne
  unfold padTwo
  split
  · next h =>
    rw [List.length_append, h]
    rfl
  · omega

theorem padTwo_isHexDigit (h : ∀ c ∈ hex, IsHexDigit c) : ∀ c ∈ padTwo hex, IsHexDigit c := by
  unfold padTwo
  split
  · intro c hc
    rcases List.mem_append.mp hc with hc | hc
    · rw [List.mem_singleton.mp hc]
      decide
    · exact h c hc
  · exact h

theorem hexNumber_padTwo : hexNumber (padTwo hex) = hexNumber hex := by
  unfold padTwo
  split
  · rw [hexNumber_append]
    rfl
  · rfl

end PadTwo

end Java
