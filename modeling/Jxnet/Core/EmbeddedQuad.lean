import Jxnet.Core.Inet4Text
import Jxnet.Core.Inet6Parser

namespace Jxnet

open Java ByteBuffer Text

/-! A dotted quad at the end of an IPv6 text. -/

/-- Six groups `left`, `zeros` groups of zero and `right`, each written group with a colon after it,
where "::" stands for the zero groups if there are any. -/
inductive PrefixForm : JString → List JString → Nat → List JString → Prop
  | full {groups : List JString} (hG : ∀ g ∈ groups, HexGroup g) (hsize : groups.length = 6) :
      PrefixForm (groups.flatMap (· ++ [colon])) groups 0 []
  | compressed {left right : List JString} {zeros : Nat} (hleft : ∀ g ∈ left, HexGroup g)
      (hright : ∀ g ∈ right, HexGroup g) (hzeros : 1 ≤ zeros)
      (hsize : left.length + zeros + right.length = 6) :
      PrefixForm (join colon left ++ ([colon, colon] ++ right.flatMap (· ++ [colon]))) left zeros
        right

namespace PrefixForm

variable {p : JString} {left right : List JString} {zeros : Nat}

theorem colon_last (h : PrefixForm p left zeros right) : ∃ x, p = x ++ [colon] := by
  have hgroups : ∀ gs : List JString, gs ≠ [] →
      ∃ x, gs.flatMap (· ++ [colon]) = x ++ [colon] := by
    intro gs hne
    obtain ⟨init, g, rfl⟩ := (List.eq_nil_or_concat' gs).resolve_left hne
    exact ⟨init.flatMap (· ++ [colon]) ++ g, by simp⟩
  cases h with
  | full _ hsize => exact hgroups left (List.ne_nil_of_length_pos (by omega))
  | compressed =>
    by_cases hnil : right = []
    · subst hnil
      exact ⟨join colon left ++ [colon], by simp⟩
    · obtain ⟨x, hx⟩ := hgroups right hnil
      exact ⟨join colon left ++ ([colon, colon] ++ x), by simp [hx]⟩

theorem hexGroup (h : PrefixForm p left zeros right) : ∀ g ∈ left ++ right, HexGroup g := by
  intro g hg
  cases h with
  | full hG => exact hG g (by simpa using hg)
  | compressed hl hr => exact (List.mem_append.mp hg).elim (hl g) (hr g)

end PrefixForm

theorem HexGroup.noDot {g : JString} (h : HexGroup g) : dot ∉ g := by
  intro hdot
  exact absurd (h.hex dot hdot) (by decide)

namespace Inet4Address

/-- What a quad looks like between colons. -/
theorem quad_chars {q : JString} {a : Inet4Address} (h : valueOfString q = .ok a) :
    dot ∈ q ∧ colon ∉ q := by
  obtain ⟨gs, dots, hquad⟩ := looseQuad_of_ok h
  have hcolon : ∀ g ∈ gs, ∀ c ∈ g, c ≠ colon := by
    intro g hg c hc heq
    subst heq
    rcases char_of_parseInt (hquad.octets g hg).number _ hc with hc | hc | hc
    · exact absurd hc (by decide)
    · exact absurd hc (by decide)
    · exact absurd hc (by decide)
  constructor
  · by_contra hno
    have hsize := hquad.size
    have hsplit := (split_eq_iff hquad.proper (by omega) q).mpr ⟨dots, hquad.text⟩
    rw [split, if_neg hno] at hsplit
    rw [← hsplit] at hsize
    cases hsize
  · intro hmem
    rw [hquad.text, List.mem_append] at hmem
    rcases hmem with hmem | hmem
    · exact (forall_mem_join (by decide) gs).mpr hcolon colon hmem rfl
    · exact absurd (List.eq_of_mem_replicate hmem) (by decide)

end Inet4Address

namespace Inet6Address

/-- The two 16-bit halves of a quad. -/
def highHalf (a : Inet4Address) : JShort := shortOf (a.toBytes.getD 0 0) (a.toBytes.getD 1 0)

def lowHalf (a : Inet4Address) : JShort := shortOf (a.toBytes.getD 2 0) (a.toBytes.getD 3 0)

theorem toBytes_halves (a : Inet4Address) :
    a.toBytes = [highHalf a, lowHalf a].flatMap shortBytes := by
  obtain ⟨w, x, y, z, rfl⟩ := Inet4Address.exists_bytes a
  simp [highHalf, lowHalf, Address.toBytes]

theorem take_two_eq_zero (a : Inet4Address) : a.toBytes.take 2 = [0, 0] ↔ highHalf a = 0 := by
  obtain ⟨w, x, y, z, rfl⟩ := Inet4Address.exists_bytes a
  simp [highHalf, Address.toBytes]

/-- What stands in the place of the quad: both halves, with nothing between them. -/
def quadText (a : Inet4Address) : JString :=
  Integer.toHexString ((highHalf a).setWidth 32) ++ Integer.toHexString ((lowHalf a).setWidth 32)

theorem half_eq (x y : JByte) :
    (promote x &&& 0xff#32) <<< 8 ||| (promote y &&& 0xff#32) = (shortOf x y).setWidth 32 := by
  rw [promote_and_ff, promote_and_ff]
  unfold shortOf
  grind

theorem quadText_ne_nil (a : Inet4Address) : quadText a ≠ [] := by
  rw [quadText]
  exact List.append_ne_nil_of_left_ne_nil (toHexString_ne_nil _) _

theorem quadText_hex (a : Inet4Address) : ∀ c ∈ quadText a, IsHexDigit c := by
  intro c hc
  rcases List.mem_append.mp hc with hc | hc
  · exact toHexString_isHexDigit _ c hc
  · exact toHexString_isHexDigit _ c hc

theorem quadText_noColon (a : Inet4Address) : colon ∉ quadText a := by
  intro hmem
  exact absurd (quadText_hex a colon hmem) (by decide)

/-- The text up to the quad stays, and the quad becomes its two halves. -/
theorem rewriteQuad_eq {x q : JString} {a : Inet4Address}
    (hq : Inet4Address.valueOfString q = .ok a) :
    rewriteQuad (x ++ ([colon] ++ q)) q = .ok (x ++ [colon] ++ quadText a) := by
  have hlast := lastIndexOf_singleton x (Inet4Address.quad_chars hq).2
  have htake : (x ++ ([colon] ++ q)).take (x.length + 1) = x ++ [colon] := by
    rw [← List.append_assoc]
    exact List.take_left' (by simp)
  rw [rewriteQuad, hq, hlast]
  change Except.ok ((x ++ ([colon] ++ q)).take (x.length + 1) ++ (Integer.toHexString _ ++
    Integer.toHexString _)) = _
  rw [htake, half_eq, half_eq, quadText, highHalf, lowHalf]

/-- The octets of a prefix and a quad: the quad is rewritten and counts twice. -/
theorem countOctets_quad {x q : JString} {a : Inet4Address}
    (hq : Inet4Address.valueOfString q = .ok a) (n e : Nat) :
    countOctets ⟨x ++ ([colon] ++ q), n, e⟩ [q] = .ok ⟨x ++ [colon] ++ quadText a, n + 2, 0⟩ := by
  have hdot := (Inet4Address.quad_chars hq).1
  have hne : ¬ q.length = 0 := by
    intro hzero
    rw [List.length_eq_zero_iff.mp hzero] at hdot
    cases hdot
  rw [countOctets, if_neg hne, if_pos ⟨rfl, contains_singleton.mpr hdot⟩]
  simp only [rewriteQuad_eq hq, countOctets]

/-- Eight octets, or fewer beside a double colon, are let through. -/
theorem checkOctets_of_count {s t : JString} {parts : List JString} {n e : Nat}
    (hcolons : checkColons s = .ok ()) (hparts : octets s = parts)
    (hcount : countOctets ⟨s, 0, 0⟩ parts = .ok ⟨t, n, e⟩)
    (hn : n = 8 ∨ (n < 8 ∧ contains s [colon, colon] = true)) : checkOctets s = .ok t := by
  have hpass : ¬ (n > IPV6_MAX_HEX_GROUPS ∨
      (n < IPV6_MAX_HEX_GROUPS ∧ ¬ contains s [colon, colon] = true)) := by
    rw [IPV6_MAX_HEX_GROUPS]
    intro hrefused
    rcases hrefused with hbig | ⟨hlt, hdouble⟩
    · omega
    · exact hdouble (hn.resolve_left (by omega)).2
  rw [checkOctets_of_octets hcolons hparts, hcount]
  exact if_neg hpass

section Quad

variable {p q : JString} {left right : List JString} {zeros : Nat} {a : Inet4Address}

theorem proper_append {gs : List JString} {s : JString} (h : ∀ g ∈ gs, HexGroup g) (hs : s ≠ [])
    (hcolon : colon ∉ s) : Proper colon (gs ++ [s]) := by
  intro g hg
  rcases List.mem_append.mp hg with hg | hg
  · exact ShortGroup.proper (fun g hg => (h g hg).short) g hg
  · rw [List.mem_singleton.mp hg]
    exact ⟨hs, hcolon⟩

/-- The first pass rewrites the quad of every text that the claimed form allows. -/
theorem checkOctets_quad (hp : PrefixForm p left zeros right)
    (hq : Inet4Address.valueOfString q = .ok a) :
    checkOctets (p ++ q) = .ok (p ++ quadText a) := by
  obtain ⟨hdot, hcolon⟩ := Inet4Address.quad_chars hq
  have hne : q ≠ [] := List.ne_nil_of_mem hdot
  have hquad : ∀ n e, countOctets ⟨p ++ q, n, e⟩ [q] = .ok ⟨p ++ quadText a, n + 2, 0⟩ := by
    intro n e
    obtain ⟨x, rfl⟩ := hp.colon_last
    rw [List.append_assoc]
    exact countOctets_quad hq n e
  cases hp with
  | full hG hsize =>
    have hproper := proper_append hG hne hcolon
    have htext : left.flatMap (· ++ [colon]) ++ q = join colon (left ++ [q]) :=
      flatMap_append_eq_join left q
    have hcolons := (checkColons_ok_iff _).mpr (.inl ⟨left ++ [q], hproper, htext⟩)
    have hparts : octets (left.flatMap (· ++ [colon]) ++ q) = left ++ [q] := by
      rw [htext, octets_join hproper (by simp)]
    obtain ⟨e, -, hcount⟩ := countOctets_append (fun g hg => (hG g hg).short)
      (fun g hg => (hG g hg).noDot) ⟨left.flatMap (· ++ [colon]) ++ q, 0, 0⟩ [q]
    rw [hquad] at hcount
    exact checkOctets_of_count hcolons hparts hcount (.inl (by simp only; omega))
  | compressed hl hr hz hsize =>
    have hpl := ShortGroup.proper fun g hg => (hl g hg).short
    have hpr := proper_append hr hne hcolon
    have htext : join colon left ++ ([colon, colon] ++ right.flatMap (· ++ [colon])) ++ q =
        join colon left ++ ([colon, colon] ++ join colon (right ++ [q])) := by
      rw [← flatMap_append_eq_join, List.append_assoc, List.append_assoc]
    have hcolons := (checkColons_ok_iff _).mpr (.inr ⟨left, right ++ [q], hpl, hpr, htext⟩)
    have hparts :
        octets (join colon left ++ ([colon, colon] ++ right.flatMap (· ++ [colon])) ++ q) =
        left ++ [] :: (right ++ [q]) := by
      rw [htext, octets_double hpl hpr]
    have hdots : ∀ g ∈ left ++ right, dot ∉ g :=
      fun g hg => (List.mem_append.mp hg).elim (fun hg => (hl g hg).noDot)
        (fun hg => (hr g hg).noDot)
    obtain ⟨e, hcount⟩ := countOctets_double_append (fun g hg => (hl g hg).short)
      (fun g hg => (hr g hg).short) hdots
      (join colon left ++ ([colon, colon] ++ right.flatMap (· ++ [colon])) ++ q) [q]
    rw [hquad] at hcount
    have hdouble := contains_double (join colon left) (join colon (right ++ [q]))
    rw [← htext] at hdouble
    refine checkOctets_of_count hcolons hparts hcount ?_
    by_cases hfull : left.length + 1 + right.length + 2 = 8
    · exact .inl hfull
    · exact .inr ⟨by omega, hdouble⟩

/-- After six written groups the rewritten quad is the seventh and last. -/
theorem valueOfString_full (hp : PrefixForm p left 0 right)
    (hq : Inet4Address.valueOfString q = .ok a) : valueOfString (p ++ q) = .ok none := by
  rw [valueOfString, checkOctets_quad hp hq]
  change parseParts (p ++ quadText a) = .ok none
  cases hp with
  | full hG hsize =>
    have hproper := proper_append hG (quadText_ne_nil a) (quadText_noColon a)
    have hlen : (left ++ [quadText a]).length = 7 := by
      rw [List.length_append, hsize]
      rfl
    have hlimit := splitLimit_join hproper (by simp) (by omega)
    rw [flatMap_append_eq_join, parseParts, hlimit]
    have hrange : ¬ ((left ++ [quadText a]).length < 3 ∨
        (left ++ [quadText a]).length > 8 + 1) := by omega
    simp only [findSkipIndex_join hproper, countParts, bind, Except.bind, hlen]
    rfl
  | compressed _ _ hz => exact absurd hz (by decide)

/-- After a double colon the rewritten quad is one group, and the zero groups are one more. -/
theorem valueOfString_compressed (hp : PrefixForm p left zeros right) (hz : 1 ≤ zeros)
    (hq : Inet4Address.valueOfString q = .ok a) :
    valueOfString (p ++ q) = (readGroups left (zeros + 1) (right ++ [quadText a])).elim (.ok none)
      fun ss => some <$> ofHextets ss := by
  rw [valueOfString, checkOctets_quad hp hq]
  change parseParts (p ++ quadText a) = _
  cases hp with
  | full => exact absurd hz (by decide)
  | compressed hl hr _ hsize =>
    have hpl := ShortGroup.proper fun g hg => (hl g hg).short
    have hpr := proper_append hr (quadText_ne_nil a) (quadText_noColon a)
    rw [List.append_assoc, List.append_assoc, flatMap_append_eq_join]
    refine parseParts_double hpl hpr (by omega) ?_
    rw [List.length_append, List.length_singleton]
    omega

theorem flatMap_shortBytes_injective {ss ts : List JShort}
    (h : ss.flatMap shortBytes = ts.flatMap shortBytes) : ss = ts :=
  flatMap_injective (by decide) shortBytes_length (fun s t => (shortBytes_inj s t).mp) h

/-- A list that moves by one place under a zero holds zeros only. -/
theorem cons_zero_eq_append_iff (ss : List JShort) (s : JShort) :
    0 :: ss = ss ++ [s] ↔ (∀ x ∈ ss, x = 0) ∧ s = 0 := by
  induction ss with
  | nil =>
    constructor
    · intro h
      exact ⟨by simp, (List.cons.inj h).1.symm⟩
    · intro h
      rw [h.2]
      rfl
  | cons x ss ih =>
    rw [List.cons_append, List.cons.injEq, List.forall_mem_cons, and_assoc]
    constructor
    · intro h
      obtain ⟨rfl, h⟩ := h
      exact ⟨rfl, ih.mp h⟩
    · intro h
      obtain ⟨rfl, h⟩ := h
      exact ⟨rfl, ih.mpr h⟩

/-- The groups that are read are the ones that are meant. -/
theorem read_eq_meant_iff (zeros : Nat) (right : List JShort) (n p u : JShort) :
    List.replicate (zeros + 1) 0 ++ (right ++ [n]) = List.replicate zeros 0 ++ (right ++ [p, u]) ↔
      ((∀ x ∈ right, x = 0) ∧ p = 0) ∧ n = u := by
  have hleft : List.replicate (zeros + 1) 0 ++ (right ++ [n]) =
      List.replicate zeros 0 ++ ((0 :: right) ++ [n]) := by
    rw [List.replicate_succ']
    simp
  have hright : right ++ [p, u] = (right ++ [p]) ++ [u] := by simp
  rw [hleft, hright, List.append_cancel_left_eq, ← cons_zero_eq_append_iff]
  constructor
  · intro h
    obtain ⟨hinit, hlast⟩ := List.append_inj' h rfl
    exact ⟨hinit, (List.cons.inj hlast).1⟩
  · intro h
    rw [h.1, h.2]

theorem readGroups_quad (hp : PrefixForm p left zeros right) (s : JString) (k : Nat) :
    readGroups left k (right ++ [s]) = (parseHextet s).map fun n =>
      left.map groupValue ++ (List.replicate k 0 ++ (right.map groupValue ++ [n])) := by
  have hgroups := hp.hexGroup
  rw [readGroups, mapM_parseHextet fun g hg => hgroups g (List.mem_append_left _ hg),
    List.mapM_append, mapM_parseHextet fun g hg => hgroups g (List.mem_append_right _ hg)]
  cases hs : parseHextet s with
  | none => simp [hs]
  | some n => simp [hs]

/-- With zeros in front the two halves read as the lower one. -/
theorem parseHextet_quadText (h : highHalf a = 0) :
    parseHextet (quadText a) = some (lowHalf a) := by
  have hnumber : hexNumber (quadText a) = (lowHalf a).toNat := by
    have hzero : hexNumber (quadText a) =
        hexNumber (Integer.toHexString ((lowHalf a).setWidth 32)) := by
      rw [quadText, h]
      rfl
    rw [hzero, hexNumber_toHexString, BitVec.toNat_setWidth]
    have hlt := (lowHalf a).isLt
    omega
  have hlt := (lowHalf a).isLt
  rw [parseHextet_of_lt (quadText_ne_nil a) (quadText_hex a) (by omega), groupValue, hnumber,
    BitVec.ofNat_toNat, BitVec.setWidth_eq]

/-- The quad is read as it is meant exactly if it comes after a double colon and everything
between, its first two numbers included, is zero. -/
theorem embeddedQuad_iff (hp : PrefixForm p left zeros right)
    (hq : Inet4Address.valueOfString q = .ok a) :
    (∃ b : Inet6Address, valueOfString (p ++ q) = .ok (some b) ∧
      b.toBytes = (left.map groupValue ++ (List.replicate zeros 0 ++ right.map groupValue)).flatMap
        shortBytes ++ a.toBytes) ↔
      1 ≤ zeros ∧ (∀ g ∈ right, groupValue g = 0) ∧ a.toBytes.take 2 = [0, 0] := by
  by_cases hz : 1 ≤ zeros
  · have hmeant : (left.map groupValue ++ (List.replicate zeros 0 ++ right.map groupValue)).flatMap
        shortBytes ++ a.toBytes = (left.map groupValue ++ (List.replicate zeros 0 ++
          (right.map groupValue ++ [highHalf a, lowHalf a]))).flatMap shortBytes := by
      rw [toBytes_halves, ← List.flatMap_append]
      simp
    have hsize : left.length + zeros + right.length = 6 := by
      cases hp with
      | full => exact absurd hz (by decide)
      | compressed _ _ _ hsize => exact hsize
    have hof : ∀ n, ∃ b : Inet6Address, b.toBytes = (left.map groupValue ++
        (List.replicate (zeros + 1) 0 ++ (right.map groupValue ++ [n]))).flatMap shortBytes ∧
          ofHextets (left.map groupValue ++
            (List.replicate (zeros + 1) 0 ++ (right.map groupValue ++ [n]))) = .ok b := by
      intro n
      apply ofHextets_eq
      simp only [List.length_append, List.length_map, List.length_replicate, List.length_singleton]
      omega
    rw [valueOfString_compressed hp hz hq, readGroups_quad hp, hmeant, take_two_eq_zero]
    constructor
    · intro h
      obtain ⟨b, hb, hbytes⟩ := h
      cases hn : parseHextet (quadText a) with
      | none =>
        rw [hn] at hb
        cases hb
      | some n =>
        obtain ⟨b', hb', hread⟩ := hof n
        rw [hn, Option.map_some, Option.elim_some, hread] at hb
        cases hb
        have hgroups := flatMap_shortBytes_injective (hb'.symm.trans hbytes)
        rw [List.append_cancel_left_eq, read_eq_meant_iff] at hgroups
        obtain ⟨⟨hright, hhigh⟩, -⟩ := hgroups
        exact ⟨hz, List.forall_mem_map.mp hright, hhigh⟩
    · intro h
      obtain ⟨-, hright, hhigh⟩ := h
      obtain ⟨b, hb, hread⟩ := hof (lowHalf a)
      refine ⟨b, ?_, ?_⟩
      · rw [parseHextet_quadText hhigh, Option.map_some, Option.elim_some, hread]
        rfl
      · rw [hb, (read_eq_meant_iff _ _ _ _ _).mpr ⟨⟨List.forall_mem_map.mpr hright, hhigh⟩, rfl⟩]
  · have hzero : zeros = 0 := by omega
    subst hzero
    rw [valueOfString_full hp hq]
    constructor
    · intro h
      obtain ⟨b, hb, -⟩ := h
      cases hb
    · intro h
      exact absurd h.1 hz

end Quad

theorem prefixForm_double : PrefixForm (chars "::") [] 6 [] := by
  have hform :
      PrefixForm (join colon [] ++ ([colon, colon] ++ [].flatMap (· ++ [colon]))) [] 6 [] :=
    .compressed (by simp) (by simp) (by decide) rfl
  exact hform

/-- A quad that has something in its first two numbers gives null, and a group that is not zero
between the double colon and the quad moves. -/
theorem embeddedQuad_misread :
    (PrefixForm (chars "::") [] 6 [] ∧
      Inet4Address.valueOfString (chars "1.2.3.4") = .ok ⟨[1, 2, 3, 4], rfl⟩ ∧
      valueOfString (chars "::" ++ chars "1.2.3.4") = .ok none) ∧
    PrefixForm (chars "::1:") [] 5 [chars "1"] ∧
      Inet4Address.valueOfString (chars "0.0.0.5") = .ok ⟨[0, 0, 0, 5], rfl⟩ ∧
      valueOfString (chars "::1:" ++ chars "0.0.0.5") =
        .ok (some ⟨List.replicate 12 0 ++ [0, 1, 0, 5], rfl⟩) := by
  have hone : PrefixForm (join colon [] ++ ([colon, colon] ++
      [chars "1"].flatMap (· ++ [colon]))) [] 5 [chars "1"] := by
    refine .compressed (by simp) ?_ (by decide) rfl
    intro g hg
    rw [List.mem_singleton.mp hg]
    refine ⟨by decide, by decide, ?_⟩
    intro c hc
    have hdigit : c = 0x31 := List.mem_singleton.mp hc
    rw [hdigit]
    decide
  exact ⟨⟨prefixForm_double, rfl, rfl⟩, hone, rfl, rfl⟩

theorem small_quad_read :
    ∃ b : Inet6Address, valueOfString (chars "::" ++ chars "0.0.1.2") = .ok (some b) ∧
      b.toBytes = List.replicate 14 0 ++ [1, 2] := by
  have hq : Inet4Address.valueOfString (chars "0.0.1.2") = .ok ⟨[0, 0, 1, 2], rfl⟩ := rfl
  obtain ⟨b, hb, hbytes⟩ :=
    (embeddedQuad_iff prefixForm_double hq).mpr ⟨by decide, by simp, rfl⟩
  refine ⟨b, hb, ?_⟩
  rw [hbytes]
  decide

end Inet6Address

end Jxnet
