import Jxnet.Core.InetText
import Jxnet.Framework.Decimal

namespace Jxnet

open Java ByteBuffer Text

namespace Inet4Address

/-! The texts that `valueOf(String)` takes. -/

/-- A part that the loop takes. -/
structure LooseOctet (g : JString) : Prop where
  nonempty : g ≠ []
  noDot : dot ∉ g
  noLeadingZero : 1 < g.length → ¬ startsWith g (chars "0") = true
  number : (Integer.parseInt g 10).isSome = true

/-- The byte of a part: the number, narrowed. -/
def octetByte (g : JString) : JByte := toByte ((Integer.parseInt g 10).getD 0)

/-- Four parts and the dots that `split` drops. -/
structure LooseQuad (gs : List JString) (dots : Nat) (s : JString) : Prop where
  size : gs.length = 4
  octets : ∀ g ∈ gs, LooseOctet g
  text : s = join dot gs ++ List.replicate dots dot

/-- A decimal number up to 255 without a sign or leading zeros. -/
structure DecimalOctet (g : JString) : Prop where
  nonempty : g ≠ []
  digits : ∀ c ∈ g, IsDecimalDigit c
  noLeadingZero : 1 < g.length → ¬ startsWith g (chars "0") = true
  le : decimalNumber g ≤ 255

/-- The address that four decimal numbers with dots between them stand for. -/
def DenotesQuad (s : JString) (a : Inet4Address) : Prop :=
  ∃ gs : List JString, gs.length = 4 ∧ (∀ g ∈ gs, DecimalOctet g) ∧ s = join dot gs ∧
    a.toBytes = gs.map fun g => BitVec.ofNat 8 (decimalNumber g)

theorem LooseQuad.proper {gs : List JString} {dots : Nat} {s : JString}
    (h : LooseQuad gs dots s) : Proper dot gs :=
  fun g hg => ⟨(h.octets g hg).nonempty, (h.octets g hg).noDot⟩

/-- The range test comes after the narrowing: no byte fails it. -/
theorem range_test_passes (b : JByte) : ¬ (promote b).toInt > 0xffff := by
  revert b
  decide

theorem parseOctet_ok_iff {g : JString} (hdot : dot ∉ g) (b : JByte) :
    parseOctet g = .ok b ↔ LooseOctet g ∧ b = octetByte g := by
  unfold parseOctet
  constructor
  · intro h
    split at h
    · cases h
    split at h
    · cases h
    next hlen hzero =>
      cases hparse : Integer.parseInt g 10 with
      | none =>
        rw [hparse] at h
        cases h
      | some x =>
        simp only [hparse, if_neg (range_test_passes (toByte x)), Except.ok.injEq] at h
        refine ⟨⟨?_, hdot, fun hlong hstart => hzero ⟨hlong, hstart⟩, by rw [hparse]; rfl⟩, ?_⟩
        · exact List.ne_nil_of_length_pos (by omega)
        · rw [octetByte, hparse, ← h]
          rfl
  · intro h
    obtain ⟨hg, rfl⟩ := h
    obtain ⟨x, hx⟩ := Option.isSome_iff_exists.mp hg.number
    have hlen : ¬ g.length = 0 := mt List.length_eq_zero_iff.mp hg.nonempty
    have hzero : ¬ (g.length > 1 ∧ startsWith g (chars "0") = true) :=
      fun hboth => hg.noLeadingZero hboth.1 hboth.2
    rw [if_neg hlen, if_neg hzero, octetByte, hx]
    simp only [if_neg (range_test_passes (toByte x)), Option.getD_some]

theorem parseOctet_error {g : JString} {e : JavaException} (h : parseOctet g = .error e) :
    e = .illegalArgument := by
  unfold parseOctet at h
  split at h
  · cases h
    rfl
  split at h
  · cases h
    rfl
  split at h
  · cases h
    rfl
  · next x _ =>
    rw [if_neg (range_test_passes (toByte x))] at h
    cases h

theorem mapM_parseOctet_ok_iff {gs : List JString} (hdot : ∀ g ∈ gs, dot ∉ g) (bs : Bytes) :
    gs.mapM parseOctet = .ok bs ↔ (∀ g ∈ gs, LooseOctet g) ∧ bs = gs.map octetByte := by
  induction gs generalizing bs with
  | nil =>
    simp only [List.mapM_nil, pure, Except.pure, Except.ok.injEq, List.map_nil]
    simp [eq_comm]
  | cons g gs ih =>
    have ih := ih fun g hg => hdot g (List.mem_cons_of_mem _ hg)
    have hhead := parseOctet_ok_iff (hdot g (List.mem_cons_self ..))
    rw [List.mapM_cons]
    cases hg : parseOctet g with
    | error e =>
      have hbad : ¬ LooseOctet g := by
        intro hloose
        have hok := (hhead (octetByte g)).mpr ⟨hloose, rfl⟩
        rw [hg] at hok
        cases hok
      simp [bind, Except.bind, hbad]
    | ok b =>
      obtain ⟨hloose, rfl⟩ := (hhead b).mp hg
      cases hgs : gs.mapM parseOctet with
      | error e =>
        have hbad : ¬ ∀ g ∈ gs, LooseOctet g := by
          intro hall
          have hok := (ih _).mpr ⟨hall, rfl⟩
          rw [hgs] at hok
          cases hok
        simp [bind, Except.bind, hbad]
      | ok bs' =>
        obtain ⟨hall, rfl⟩ := (ih bs').mp hgs
        simp only [bind, Except.bind, pure, Except.pure, Except.ok.injEq, List.map_cons,
          List.forall_mem_cons]
        exact ⟨fun h => ⟨⟨hloose, hall⟩, h.symm⟩, fun h => h.2.symm⟩

theorem mapM_parseOctet_error {gs : List JString} {e : JavaException}
    (h : gs.mapM parseOctet = .error e) : e = .illegalArgument := by
  induction gs with
  | nil => cases h
  | cons g gs ih =>
    rw [List.mapM_cons] at h
    cases hg : parseOctet g with
    | error e' =>
      rw [hg] at h
      cases h
      exact parseOctet_error hg
    | ok b =>
      rw [hg] at h
      cases hgs : gs.mapM parseOctet with
      | error e' =>
        rw [hgs] at h
        cases h
        exact ih hgs
      | ok bs =>
        rw [hgs] at h
        cases h

theorem valueOfString_eq (s : JString) :
    valueOfString s = if (split dot s).length = 4 then (split dot s).mapM parseOctet >>= valueOf
      else .error .illegalArgument := by
  rw [← ite_not]
  rfl

theorem valueOfString_error {s : JString} {e : JavaException} (h : valueOfString s = .error e) :
    e = .illegalArgument := by
  rw [valueOfString_eq] at h
  split at h
  · cases hparts : (split dot s).mapM parseOctet with
    | error e' =>
      rw [hparts] at h
      cases h
      exact mapM_parseOctet_error hparts
    | ok bs =>
      rw [hparts] at h
      change Address.valueOf 4 bs = .error e at h
      unfold Address.valueOf at h
      split at h
      · cases h
      · cases h
        rfl
  · cases h
    rfl

theorem valueOfString_of_looseQuad {gs : List JString} {dots : Nat} {s : JString}
    (h : LooseQuad gs dots s) :
    ∃ a : Inet4Address, a.toBytes = gs.map octetByte ∧ valueOfString s = .ok a := by
  have hsize := h.size
  have hparts : split dot s = gs := (split_eq_iff h.proper (by omega) s).mpr ⟨dots, h.text⟩
  have hbytes := (mapM_parseOctet_ok_iff (fun g hg => (h.octets g hg).noDot) _).mpr ⟨h.octets, rfl⟩
  have hlen : (gs.map octetByte).length = 4 := by rw [List.length_map, hsize]
  refine ⟨⟨gs.map octetByte, hlen⟩, rfl, ?_⟩
  rw [valueOfString_eq, hparts, if_pos hsize, hbytes]
  exact dif_pos hlen

theorem looseQuad_of_ok {s : JString} {a : Inet4Address} (h : valueOfString s = .ok a) :
    ∃ gs dots, LooseQuad gs dots s := by
  rw [valueOfString_eq] at h
  split at h
  · next hsize =>
    cases hbytes : (split dot s).mapM parseOctet with
    | error e =>
      rw [hbytes] at h
      cases h
    | ok bs =>
      have hmem : dot ∈ s := by
        by_contra hno
        rw [split, if_neg hno] at hsize
        cases hsize
      have hdot : ∀ g ∈ split dot s, dot ∉ g := fun g hg => not_mem_of_mem_split rfl hmem hg
      obtain ⟨hloose, -⟩ := (mapM_parseOctet_ok_iff hdot bs).mp hbytes
      have hproper : Proper dot (split dot s) := fun g hg => ⟨(hloose g hg).nonempty, hdot g hg⟩
      obtain ⟨dots, htext⟩ := (split_eq_iff hproper (by omega) s).mp rfl
      exact ⟨split dot s, dots, hsize, hloose, htext⟩
  · cases h

/-- What `valueOf(String)` takes, and the address it gives. -/
theorem valueOfString_ok_iff (s : JString) (a : Inet4Address) :
    valueOfString s = .ok a ↔
      ∃ gs dots, LooseQuad gs dots s ∧ a.toBytes = gs.map octetByte := by
  constructor
  · intro h
    obtain ⟨gs, dots, hquad⟩ := looseQuad_of_ok h
    obtain ⟨b, hb, hvalue⟩ := valueOfString_of_looseQuad hquad
    cases h.symm.trans hvalue
    exact ⟨gs, dots, hquad, hb⟩
  · intro h
    obtain ⟨gs, dots, hquad, ha⟩ := h
    obtain ⟨b, hb, hvalue⟩ := valueOfString_of_looseQuad hquad
    rw [hvalue, Address.eq_of_toBytes_eq (ha.trans hb.symm)]

/-- A text has one reading. -/
theorem LooseQuad.unique {gs gs' : List JString} {dots dots' : Nat} {s : JString}
    (h : LooseQuad gs dots s) (h' : LooseQuad gs' dots' s) : gs = gs' ∧ dots = dots' := by
  have hsize := h.size
  have hsize' := h'.size
  have hsplit := (split_eq_iff h.proper (by omega) s).mpr ⟨dots, h.text⟩
  have hsplit' := (split_eq_iff h'.proper (by omega) s).mpr ⟨dots', h'.text⟩
  have hgs : gs = gs' := hsplit.symm.trans hsplit'
  subst hgs
  refine ⟨rfl, ?_⟩
  have hlen := congrArg List.length (h.text.symm.trans h'.text)
  simp only [List.length_append, List.length_replicate] at hlen
  omega

/-! Decimal octets are read as they are meant. -/

theorem DecimalOctet.loose {g : JString} (h : DecimalOctet g) :
    LooseOctet g ∧ octetByte g = BitVec.ofNat 8 (decimalNumber g) := by
  have hle := h.le
  have hparse : Integer.parseInt g 10 = some (BitVec.ofNat 32 (decimalNumber g)) := by
    rw [parseInt_decimal h.nonempty h.digits, if_pos (by omega)]
  refine ⟨⟨h.nonempty, ?_, h.noLeadingZero, by rw [hparse]; rfl⟩, ?_⟩
  · intro hdot
    exact absurd (h.digits dot hdot) (by decide)
  · rw [octetByte, hparse, Option.getD_some, toByte]
    apply BitVec.eq_of_toNat_eq
    simp only [BitVec.toNat_setWidth, BitVec.toNat_ofNat]
    omega

theorem denotesQuad_ok {s : JString} {a : Inet4Address} (h : DenotesQuad s a) :
    ∃ gs, (∀ g ∈ gs, DecimalOctet g) ∧ LooseQuad gs 0 s ∧ valueOfString s = .ok a := by
  obtain ⟨gs, hsize, hgs, hs, ha⟩ := h
  have hquad : LooseQuad gs 0 s := ⟨hsize, fun g hg => (hgs g hg).loose.1, by simp [hs]⟩
  refine ⟨gs, hgs, hquad, (valueOfString_ok_iff s a).mpr ⟨gs, 0, hquad, ?_⟩⟩
  rw [ha]
  exact List.map_congr_left fun g hg => (hgs g hg).loose.2.symm

/-- `valueOf` takes exactly the dotted quads, gives the address of each, and throws on every other
text. -/
structure ParsesQuadExactly (s : JString) : Prop where
  accepts : ∀ a, valueOfString s = .ok a ↔ DenotesQuad s a
  refuses : (¬ ∃ a, DenotesQuad s a) → valueOfString s = .error .illegalArgument
  valid : colon ∉ s → (InetAddress.isValidAddress s = true ↔ ∃ a, DenotesQuad s a)

theorem isValidAddress_iff {s : JString} (hcolon : colon ∉ s) :
    InetAddress.isValidAddress s = true ↔ ∃ a, valueOfString s = .ok a := by
  have hno : ¬ contains s [colon] = true := mt contains_singleton.mp hcolon
  rw [InetAddress.isValidAddress, InetAddress.valueOf, if_neg hno]
  cases valueOfString s <;> simp

/-- The parser is exact unless a text of four parts has dots at its end, or a part with a
character that is no ASCII digit or with a number above 255. -/
theorem parsesQuadExactly_iff (s : JString) :
    ParsesQuadExactly s ↔ ¬ ∃ gs dots, LooseQuad gs dots s ∧
      (0 < dots ∨ ∃ g ∈ gs, (∃ c ∈ g, ¬ IsDecimalDigit c) ∨ 255 < decimalNumber g) := by
  constructor
  · intro h hloose
    obtain ⟨gs, dots, hquad, hbad⟩ := hloose
    obtain ⟨a, -, hvalue⟩ := valueOfString_of_looseQuad hquad
    obtain ⟨gs', hdecimal, hquad', -⟩ := denotesQuad_ok ((h.accepts a).mp hvalue)
    obtain ⟨rfl, rfl⟩ := hquad.unique hquad'
    rcases hbad with hdots | ⟨g, hg, ⟨c, hc, hdigit⟩ | hbig⟩
    · omega
    · exact hdigit ((hdecimal g hg).digits c hc)
    · have hle := (hdecimal g hg).le
      omega
  · intro h
    have hexact : ∀ a, valueOfString s = .ok a ↔ DenotesQuad s a := by
      intro a
      constructor
      · intro hvalue
        obtain ⟨gs, dots, hquad, ha⟩ := (valueOfString_ok_iff s a).mp hvalue
        have hdots : dots = 0 := by
          by_contra hne
          exact h ⟨gs, dots, hquad, .inl (by omega)⟩
        have hdecimal : ∀ g ∈ gs, DecimalOctet g := by
          intro g hg
          have hloose := hquad.octets g hg
          refine ⟨hloose.nonempty, ?_, hloose.noLeadingZero, ?_⟩
          · intro c hc
            by_contra hdigit
            exact h ⟨gs, dots, hquad, .inr ⟨g, hg, .inl ⟨c, hc, hdigit⟩⟩⟩
          · by_contra hbig
            exact h ⟨gs, dots, hquad, .inr ⟨g, hg, .inr (by omega)⟩⟩
        refine ⟨gs, hquad.size, hdecimal, ?_, ?_⟩
        · rw [hquad.text, hdots, List.replicate_zero, List.append_nil]
        · rw [ha]
          exact List.map_congr_left fun g hg => (hdecimal g hg).loose.2
      · intro hdenotes
        obtain ⟨-, -, -, hvalue⟩ := denotesQuad_ok hdenotes
        exact hvalue
    refine ⟨hexact, ?_, ?_⟩
    · intro hno
      cases hvalue : valueOfString s with
      | error e => rw [valueOfString_error hvalue]
      | ok a => exact absurd ⟨a, (hexact a).mp hvalue⟩ hno
    · intro hcolon
      rw [isValidAddress_iff hcolon]
      exact exists_congr hexact

/-- A number above 255 is taken for another one, and dots at the end are not seen. -/
theorem narrowed_not_exact :
    (valueOfString (chars "256.1.1.1") = .ok ⟨[0, 1, 1, 1], rfl⟩ ∧
        ¬ ParsesQuadExactly (chars "256.1.1.1")) ∧
      valueOfString (chars "1.2.3.4.") = .ok ⟨[1, 2, 3, 4], rfl⟩ ∧
        ¬ ParsesQuadExactly (chars "1.2.3.4.") := by
  have hvalue : valueOfString (chars "256.1.1.1") = .ok ⟨[0, 1, 1, 1], rfl⟩ := rfl
  have hdots : valueOfString (chars "1.2.3.4.") = .ok ⟨[1, 2, 3, 4], rfl⟩ := rfl
  refine ⟨⟨hvalue, ?_⟩, hdots, ?_⟩
  · intro h
    obtain ⟨gs, hdecimal, hquad, -⟩ := denotesQuad_ok ((h.accepts _).mp hvalue)
    have hsize := hquad.size
    have hsplit := (split_eq_iff hquad.proper (by omega) _).mpr ⟨0, hquad.text⟩
    have hmem : chars "256" ∈ gs := by
      rw [← hsplit]
      decide
    exact absurd (hdecimal _ hmem).le (by decide)
  · intro h
    obtain ⟨gs, hdecimal, hquad, -⟩ := denotesQuad_ok ((h.accepts _).mp hdots)
    have hsize := hquad.size
    have hsplit := (split_eq_iff hquad.proper (by omega) _).mpr ⟨0, hquad.text⟩
    have htext := hquad.text
    rw [← hsplit] at htext
    exact absurd htext (by decide)

/-! Printing, and the form of one `int`. -/

/-- `this.address[i] & 0xff`. -/
def octetAt (a : Inet4Address) (i : Nat) : JInt := promote (a.address.getD i 0) &&& 0xff#32

def toString (a : Inet4Address) : JString :=
  Integer.toString (octetAt a 0) ++ (chars "." ++ (Integer.toString (octetAt a 1) ++ (chars "." ++
    (Integer.toString (octetAt a 2) ++ (chars "." ++ Integer.toString (octetAt a 3))))))

/-- `valueOf(int)`. -/
def valueOfInt (address : JInt) : Inet4Address :=
  ⟨[toByte (address >>> 24), toByte (address >>> 16), toByte (address >>> 8), toByte address], rfl⟩

/-- The argument of `netaddr.update` in `LookupNetworkInterface`. -/
def networkAddress (address netmask : Inet4Address) : Inet4Address :=
  valueOfInt (address.toInt &&& netmask.toInt)

example : toString ⟨[192, 168, 0, 1], rfl⟩ = chars "192.168.0.1" := by decide +kernel

/-- The text of a byte. -/
def octetText (b : JByte) : JString := Integer.decimalText b.toNat

theorem toString_eq (a : Inet4Address) : toString a = join dot (a.toBytes.map octetText) := by
  have htext : ∀ b : JByte, Integer.toString (promote b &&& 0xff#32) = octetText b := by
    intro b
    have hnat := promote_and_ff_toInt b
    rw [toString_of_nonneg (by omega), hnat, octetText, Int.toNat_natCast]
  obtain ⟨w, x, y, z, rfl⟩ := exists_bytes a
  simp only [toString, octetAt, List.getD_cons_zero, List.getD_cons_succ, htext, Address.toBytes,
    List.map_cons, List.map_nil]
  rw [join_cons _ (by simp), join_cons _ (by simp), join_cons _ (by simp), join_singleton]
  rfl

theorem octetText_decimal (b : JByte) : DecimalOctet (octetText b) := by
  have hlt := b.isLt
  refine ⟨decimalText_ne_nil _, decimalText_isDecimalDigit _, decimalText_noLeadingZero _, ?_⟩
  rw [octetText, decimalNumber_decimalText]
  omega

/-- An address is what its text stands for. -/
theorem denotesQuad_toString (a : Inet4Address) : DenotesQuad (toString a) a := by
  refine ⟨a.toBytes.map octetText, ?_, ?_, toString_eq a, ?_⟩
  · rw [List.length_map, Address.toBytes_length]
  · intro g hg
    obtain ⟨b, -, rfl⟩ := List.mem_map.mp hg
    exact octetText_decimal b
  · rw [List.map_map]
    refine (List.map_id' _).symm.trans (List.map_congr_left ?_)
    intro b _
    rw [Function.comp_apply, octetText, decimalNumber_decimalText, BitVec.ofNat_toNat,
      BitVec.setWidth_eq]

theorem valueOfString_toString (a : Inet4Address) : valueOfString (toString a) = .ok a := by
  obtain ⟨-, -, -, hvalue⟩ := denotesQuad_ok (denotesQuad_toString a)
  exact hvalue

theorem valueOfInt_toBytes (address : JInt) : (valueOfInt address).toBytes = intBytes address := by
  have hbyte : ∀ k, toByte (address >>> k) = address.extractLsb' k 8 := by
    intro k
    rw [toByte, BitVec.setWidth_ushiftRight_eq_extractLsb]
  have hlow : toByte address = address.extractLsb' 0 8 := hbyte 0
  change [toByte (address >>> 24), toByte (address >>> 16), toByte (address >>> 8),
    toByte address] =
    intBytes address
  rw [hbyte, hbyte, hbyte, hlow, intBytes]

theorem intBytes_toInt (a : Inet4Address) : intBytes a.toInt = a.toBytes := by
  obtain ⟨w, x, y, z, rfl⟩ := exists_bytes a
  rw [toInt_eq, intBytes_intOf]
  rfl

theorem valueOfInt_toInt (a : Inet4Address) : valueOfInt a.toInt = a := by
  apply Address.eq_of_toBytes_eq
  rw [valueOfInt_toBytes, intBytes_toInt]

theorem toInt_valueOfInt (address : JInt) : (valueOfInt address).toInt = address := by
  apply intBytes_injective
  rw [intBytes_toInt, valueOfInt_toBytes]

theorem intBytes_and (x y : JInt) :
    intBytes (x &&& y) = List.zipWith (· &&& ·) (intBytes x) (intBytes y) := by
  simp only [intBytes, BitVec.extractLsb'_and, List.zipWith_cons_cons, List.zipWith_nil_right]

theorem networkAddress_toBytes (address netmask : Inet4Address) :
    (networkAddress address netmask).toBytes =
      List.zipWith (· &&& ·) address.toBytes netmask.toBytes := by
  rw [networkAddress, valueOfInt_toBytes, intBytes_and, intBytes_toInt, intBytes_toInt]

/-- The text, the `int` and the bytes of an address agree. -/
theorem representations_agree (a m : Inet4Address) (i : JInt) :
    (∃ b, valueOfString (toString a) = .ok b ∧ b.toBytes = a.toBytes) ∧
      (valueOfInt a.toInt).toBytes = a.toBytes ∧ (valueOfInt i).toInt = i ∧
      ∀ k, (networkAddress a m).toBytes.getD k 0 = a.toBytes.getD k 0 &&& m.toBytes.getD k 0 := by
  refine ⟨⟨a, valueOfString_toString a, rfl⟩, ?_, toInt_valueOfInt i, ?_⟩
  · rw [valueOfInt_toInt]
  · intro k
    have hlen : a.toBytes.length = m.toBytes.length := by
      rw [Address.toBytes_length, Address.toBytes_length]
    simp only [networkAddress_toBytes, List.getD_eq_getElem?_getD, List.getElem?_zipWith]
    by_cases hk : k < a.toBytes.length
    · rw [List.getElem?_eq_getElem hk, List.getElem?_eq_getElem (hlen ▸ hk)]
      rfl
    · rw [List.getElem?_eq_none (by omega), List.getElem?_eq_none (by omega)]
      rfl

end Inet4Address

end Jxnet
