import Jxnet.Framework.JString

namespace Java

/-! ASCII decimal numbers. -/

/-- The value of an ASCII decimal digit. -/
def decimalValue (c : JChar) : Option Nat :=
  if 0x30 ≤ c.toNat ∧ c.toNat ≤ 0x39 then some (c.toNat - 0x30) else none

def IsDecimalDigit (c : JChar) : Prop := (decimalValue c).isSome

instance (c : JChar) : Decidable (IsDecimalDigit c) := inferInstanceAs (Decidable (_ = true))

/-- The number a row of decimal digits denotes. -/
def decimalNumber (s : JString) : Nat := s.foldl (fun n c => n * 10 + (decimalValue c).getD 0) 0

namespace Integer

def decimalChar (d : Nat) : JChar := BitVec.ofNat 16 (0x30 + d)

/-- The digits of a magnitude, without leading zeros. -/
def decimalText (n : Nat) : JString := digitsText 10 decimalChar n

/-- `Integer.toString(x)`. -/
def toString (x : JInt) : JString :=
  if x.toInt < 0 then chars "-" ++ decimalText x.toInt.natAbs else decimalText x.toInt.natAbs

end Integer

example : Integer.toString (-20) = chars "-20" := by decide +kernel

/-- An ASCII digit has the same value for `Character.digit`. -/
theorem digit_of_decimalValue (c : JChar) (d : Nat) (h : decimalValue c = some d) :
    Character.digit c 10 = some d := by
  unfold decimalValue at h
  split at h
  · next hrange =>
    cases h
    have hall : ∀ n < 10, Character.digit (BitVec.ofNat 16 (0x30 + n)) 10 = some n := by
      decide +kernel
    have hc : BitVec.ofNat 16 (0x30 + (c.toNat - 0x30)) = c := by
      have hsum : 0x30 + (c.toNat - 0x30) = c.toNat := by omega
      rw [hsum, BitVec.ofNat_toNat, BitVec.setWidth_eq]
    have hdigit := hall (c.toNat - 0x30) (by omega)
    rwa [hc] at hdigit
  · cases h

theorem parseInt_decimal {s : JString} (hne : s ≠ []) (hs : ∀ c ∈ s, IsDecimalDigit c) :
    Integer.parseInt s 10 =
      if decimalNumber s < 2 ^ 31 then some (BitVec.ofNat 32 (decimalNumber s)) else none :=
  parseInt_digits digit_of_decimalValue (by decide) (by decide) hne hs

theorem decimalValue_decimalChar {d : Nat} (h : d < 10) :
    decimalValue (Integer.decimalChar d) = some d := by
  revert d
  decide

theorem decimalNumber_append_singleton (s : JString) (c : JChar) :
    decimalNumber (s ++ [c]) = decimalNumber s * 10 + (decimalValue c).getD 0 := by
  rw [decimalNumber, List.foldl_append]
  rfl

theorem decimalNumber_map (ds : List Nat) (h : ∀ d ∈ ds, d < 10) :
    decimalNumber (ds.reverse.map Integer.decimalChar) = Nat.ofDigits 10 ds := by
  induction ds with
  | nil => rfl
  | cons d ds ih =>
    have hd := decimalValue_decimalChar (h d (List.mem_cons_self ..))
    rw [List.reverse_cons, List.map_append, List.map_singleton, decimalNumber_append_singleton,
      ih fun d hd => h d (List.mem_cons_of_mem _ hd), hd, Nat.ofDigits_cons, Option.getD_some]
    omega

section DecimalText

variable (n : Nat)

theorem decimalText_isDecimalDigit : ∀ c ∈ Integer.decimalText n, IsDecimalDigit c := by
  have hchar : ∀ d < 10, IsDecimalDigit (Integer.decimalChar d) := by decide
  exact digitsText_forall (by decide) hchar

theorem decimalText_ne_nil : Integer.decimalText n ≠ [] := digitsText_ne_nil

/-- What is written reads back. -/
theorem decimalNumber_decimalText : decimalNumber (Integer.decimalText n) = n := by
  unfold Integer.decimalText digitsText
  split
  · next hn =>
    rw [hn]
    decide
  · rw [decimalNumber_map _ fun d hd => Nat.digits_lt_base (by decide) hd, Nat.ofDigits_digits]

theorem decimalText_noLeadingZero (hlong : 1 < (Integer.decimalText n).length) :
    ¬ Text.startsWith (Integer.decimalText n) (chars "0") = true := by
  have hchar : ∀ d < 10, Integer.decimalChar d = Integer.decimalChar 0 → d = 0 := by decide
  exact digitsText_noLeadingZero (by decide) hchar hlong

end DecimalText

/-- A number that is not negative is written without a sign. -/
theorem toString_of_nonneg {x : JInt} (h : 0 ≤ x.toInt) :
    Integer.toString x = Integer.decimalText x.toInt.toNat := by
  rw [Integer.toString, if_neg (by omega)]
  congr 1
  omega

end Java
