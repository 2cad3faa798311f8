import Jxnet.Core.Inet6Octets
import Mathlib.Data.List.GetD

namespace Jxnet

open Java ByteBuffer Text

namespace Inet6Address

/-! The second pass. -/

/-- The parts on one side of "::": one empty part where there are no groups. -/
def edge (groups : List JString) : List JString := if groups = [] then [[]] else groups

theorem splitOn_join_eq {gs : List JString} (h : Proper colon gs) :
    (join colon gs).splitOn colon = edge gs := by
  by_cases hnil : gs = []
  · subst hnil
    rfl
  · rw [splitOn_join h hnil, edge, if_neg hnil]

theorem edge_length (gs : List JString) : (edge gs).length = max 1 gs.length := by
  unfold edge
  split
  · next h => rw [h]; rfl
  · next h =>
    have hpos := List.length_pos_iff.mpr h
    omega

theorem edge_inner {gs : List JString} (h : Proper colon gs) {i : Nat} (hi : i < gs.length) :
    ((edge gs).getD i []).length ≠ 0 := by
  have hne : gs ≠ [] := List.ne_nil_of_length_pos (by omega)
  rw [edge, if_neg hne, List.getD_eq_getElem _ _ hi]
  exact fun hzero => (h _ (List.getElem_mem hi)).1 (List.length_eq_zero_iff.mp hzero)

theorem skipStep_keep {parts : List JString} {is : List Nat}
    (h : ∀ i ∈ is, (parts.getD i []).length ≠ 0) (skipIndex : Option Nat) :
    is.foldlM (skipStep parts) skipIndex = .ok skipIndex := by
  induction is with
  | nil => rfl
  | cons i is ih =>
    rw [List.foldlM_cons, skipStep, if_neg (h i (List.mem_cons_self ..))]
    exact ih fun i hi => h i (List.mem_cons_of_mem _ hi)

theorem getD_left (A B : List JString) {i : Nat} (hi : i < A.length) :
    (A ++ [] :: B).getD i [] = A.getD i [] := List.getD_append _ _ _ _ hi

theorem getD_right (A B : List JString) (j : Nat) :
    (A ++ [] :: B).getD (A.length + 1 + j) [] = B.getD j [] := by
  rw [List.getD_append_right _ _ _ _ (by omega), Nat.add_assoc, Nat.add_sub_cancel_left,
    Nat.add_comm 1 j, List.getD_cons_succ]

theorem findSkipIndex_double {left right : List JString} (hl : Proper colon left)
    (hr : Proper colon right) :
    findSkipIndex (edge left ++ [] :: edge right) = .ok (some (edge left).length) := by
  have hA := edge_length left
  have hB := edge_length right
  have hrange : List.range' 1 ((edge left ++ [] :: edge right).length - 2) =
      List.range' 1 ((edge left).length - 1) ++
        ((edge left).length :: List.range' ((edge left).length + 1) ((edge right).length - 1)) := by
    have hn : (edge left ++ [] :: edge right).length - 2 =
        (edge left).length - 1 + ((edge right).length - 1 + 1) := by
      rw [List.length_append, List.length_cons]
      omega
    have hstart : 1 + ((edge left).length - 1) = (edge left).length := by omega
    rw [hn, ← List.range'_append_1, List.range'_succ, hstart]
  have hbefore : ∀ i ∈ List.range' 1 ((edge left).length - 1),
      ((edge left ++ [] :: edge right).getD i []).length ≠ 0 := by
    intro i hi
    obtain ⟨h1, h2⟩ := List.mem_range'_1.mp hi
    rw [getD_left _ _ (by omega)]
    exact edge_inner hl (by omega)
  have hafter : ∀ i ∈ List.range' ((edge left).length + 1) ((edge right).length - 1),
      ((edge left ++ [] :: edge right).getD i []).length ≠ 0 := by
    intro i hi
    obtain ⟨h1, h2⟩ := List.mem_range'_1.mp hi
    obtain ⟨j, rfl⟩ := Nat.exists_eq_add_of_le h1
    rw [getD_right]
    exact edge_inner hr (by omega)
  have hhere : (edge left ++ [] :: edge right).getD (edge left).length [] = [] := by
    rw [List.getD_append_right _ _ _ _ (Nat.le_refl _), Nat.sub_self, List.getD_cons_zero]
  have hstep : skipStep (edge left ++ [] :: edge right) none (edge left).length =
      .ok (some (edge left).length) := by
    rw [skipStep, hhere]
    rfl
  simp only [findSkipIndex, hrange, List.foldlM_append, skipStep_keep hbefore, List.foldlM_cons,
    hstep, skipStep_keep hafter, bind, Except.bind]

theorem dropEdge_eq {gs : List JString} {g : JString}
    (hg : g.length = 0 ↔ gs = []) : dropEdge g (edge gs).length = some gs.length := by
  by_cases hnil : gs = []
  · rw [dropEdge, if_pos (hg.mpr hnil), hnil]
    rfl
  · rw [dropEdge, if_neg (mt hg.mp hnil), edge, if_neg hnil]

theorem countParts_double {left right : List JString} (hl : Proper colon left)
    (hr : Proper colon right) :
    countParts (edge left ++ [] :: edge right) (some (edge left).length) =
      some (left.length, right.length) := by
  have hA := edge_length left
  have hB := edge_length right
  have hfirst : ((edge left ++ [] :: edge right).getD 0 []).length = 0 ↔ left = [] := by
    rw [getD_left _ _ (by omega)]
    constructor
    · intro hzero
      by_contra hne
      exact edge_inner hl (List.length_pos_iff.mpr hne) hzero
    · intro heq
      subst heq
      rfl
  have hlen : (edge left ++ [] :: edge right).length - 1 =
      (edge left).length + 1 + ((edge right).length - 1) := by
    rw [List.length_append, List.length_cons]
    omega
  have hlast : ((edge left ++ [] :: edge right).getD
      ((edge left ++ [] :: edge right).length - 1) []).length = 0 ↔ right = [] := by
    rw [hlen, getD_right]
    constructor
    · intro hzero
      by_contra hne
      have hpos := List.length_pos_iff.mpr hne
      exact edge_inner hr (by omega) hzero
    · intro heq
      subst heq
      rfl
  have hrest : (edge left ++ [] :: edge right).length - (edge left).length - 1 =
      (edge right).length := by
    rw [List.length_append, List.length_cons]
    omega
  rw [countParts, dropEdge_eq hfirst, hrest, dropEdge_eq hlast]
  rfl

/-- The groups of a text form as numbers; `none` where one cannot be read. -/
def readGroups (left : List JString) (zeros : Nat) (right : List JString) :
    Option (List JShort) := do
  let hi ← left.mapM parseHextet
  let lo ← right.mapM parseHextet
  return hi ++ (List.replicate zeros 0 ++ lo)

theorem hextets_double (left right : List JString) (zeros : Nat) :
    hextets (edge left ++ [] :: edge right) left.length zeros right.length =
      readGroups left zeros right := by
  have htake : (edge left ++ [] :: edge right).take left.length = left := by
    by_cases hnil : left = []
    · rw [hnil]
      rfl
    · rw [edge, if_neg hnil, List.take_left]
  have hdrop : (edge left ++ [] :: edge right).drop
      ((edge left ++ [] :: edge right).length - right.length) = right := by
    by_cases hnil : right = []
    · rw [hnil]
      simp
    · have hlen : (edge left ++ [] :: edge right).length - right.length =
          (edge left ++ [[]]).length := by
        simp only [edge, if_neg hnil, List.length_append, List.length_cons, List.length_nil]
        omega
      have happ : edge left ++ [] :: edge right = (edge left ++ [[]]) ++ right := by
        simp [edge, hnil]
      rw [hlen, happ, List.drop_left]
  rw [hextets, htake, hdrop, readGroups]

theorem putShorts_writes (ss : List JShort) : Writes (putShorts ss) (ss.flatMap shortBytes) := by
  induction ss with
  | nil => exact Writes.pure
  | cons s ss ih => exact (Writes.putShort s).bind ih

theorem flatMap_shortBytes_length (ss : List JShort) :
    (ss.flatMap shortBytes).length = 2 * ss.length := by
  induction ss with
  | nil => rfl
  | cons s ss ih =>
    rw [List.flatMap_cons, List.length_append, ih, shortBytes_length, List.length_cons]
    omega

/-- Eight groups fill the buffer. -/
theorem ofHextets_eq {ss : List JShort} (h : ss.length = 8) :
    ∃ a : Inet6Address, a.toBytes = ss.flatMap shortBytes ∧ ofHextets ss = .ok a := by
  have hlen : (ss.flatMap shortBytes).length = 16 := by
    rw [flatMap_shortBytes_length]
    omega
  refine ⟨⟨ss.flatMap shortBytes, hlen⟩, rfl, ?_⟩
  have hraw : encode (2 * 8) (putShorts ss) = .ok (ss.flatMap shortBytes) :=
    (putShorts_writes ss).encode_exact hlen
  rw [ofHextets, hraw]
  exact dif_pos hlen

/-- The second pass once its parts are counted and add up. -/
theorem parseParts_eq {s : JString} {parts : List JString} {skipIndex : Option Nat}
    {partsHi partsLo zeros : Nat} (hparts : splitLimit colon (8 + 2) s = parts)
    (hrange : ¬ (parts.length < 3 ∨ parts.length > 8 + 1))
    (hskip : findSkipIndex parts = .ok skipIndex)
    (hcount : countParts parts skipIndex = some (partsHi, partsLo))
    (hsize : partsHi + zeros + partsLo = 8) (hzeros : skipIndex.isSome = true ↔ 1 ≤ zeros) :
    parseParts s =
      (hextets parts partsHi zeros partsLo).elim (.ok none) fun ss => some <$> ofHextets ss := by
  have hskipped : (8 : Int) - (partsHi + partsLo) = zeros := by omega
  have hcheck : if skipIndex.isSome then (zeros : Int) ≥ 1 else (zeros : Int) = 0 := by
    split
    · next hsome =>
      have hpos := hzeros.mp hsome
      omega
    · next hnone =>
      have hzero := mt hzeros.mpr hnone
      omega
  rw [parseParts, hparts, if_neg hrange, hskip]
  simp only [bind, Except.bind, hcount, hskipped, Int.toNat_natCast, if_neg (not_not.mpr hcheck)]
  cases hextets parts partsHi zeros partsLo with
  | none => rfl
  | some ss => rfl

/-- One part for each group: nothing is skipped. -/
theorem splitLimit_join {gs : List JString} (h : Proper colon gs) (hne : gs ≠ [])
    (hle : gs.length ≤ 8 + 2) : splitLimit colon (8 + 2) (join colon gs) = gs := by
  have hsplit := splitOn_join h hne
  rw [splitLimit_eq (by rw [hsplit]; exact hle), hsplit]

theorem findSkipIndex_join {gs : List JString} (h : Proper colon gs) :
    findSkipIndex gs = .ok none := by
  have hinner : ∀ i ∈ List.range' 1 (gs.length - 2), (gs.getD i []).length ≠ 0 := by
    intro i hi
    obtain ⟨h1, h2⟩ := List.mem_range'_1.mp hi
    have hi' := edge_inner h (i := i) (by omega)
    rwa [edge, if_neg (List.ne_nil_of_length_pos (by omega))] at hi'
  exact skipStep_keep hinner none

/-- The second pass over a text with a double colon. -/
theorem parseParts_double {left right : List JString} {zeros : Nat} (hl : Proper colon left)
    (hr : Proper colon right) (hz : 1 ≤ zeros) (hsize : left.length + zeros + right.length = 8) :
    parseParts (join colon left ++ ([colon, colon] ++ join colon right)) =
      (readGroups left zeros right).elim (.ok none) fun ss => some <$> ofHextets ss := by
  have hA := edge_length left
  have hB := edge_length right
  have hsplit : (join colon left ++ ([colon, colon] ++ join colon right)).splitOn colon =
      edge left ++ [] :: edge right := by
    rw [splitOn_double, splitOn_join_eq hl, splitOn_join_eq hr]
  have hlen : (edge left ++ [] :: edge right).length =
      (edge left).length + 1 + (edge right).length := by
    rw [List.length_append, List.length_cons]
    omega
  have hlimit : splitLimit colon (8 + 2)
      (join colon left ++ ([colon, colon] ++ join colon right)) =
        edge left ++ [] :: edge right := by
    rw [splitLimit_eq (by rw [hsplit]; omega), hsplit]
  rw [parseParts_eq hlimit (by omega) (findSkipIndex_double hl hr) (countParts_double hl hr)
    hsize (by simp [hz]), hextets_double]

/-- The second pass gives an address, or null where a group cannot be read. -/
theorem parseParts_of_textForm {s : JString} {left right : List JString} {zeros : Nat}
    (h : TextForm ShortGroup s left zeros right) :
    parseParts s =
      (readGroups left zeros right).elim (.ok none) fun ss => some <$> ofHextets ss := by
  cases h with
  | full hG hsize =>
    have hproper := ShortGroup.proper hG
    have hne : left ≠ [] := by
      intro heq
      subst heq
      cases hsize
    have hlimit := splitLimit_join hproper hne (by omega)
    have hzeros : (none : Option Nat).isSome = true ↔ 1 ≤ 0 := by decide
    have hread : hextets left left.length 0 0 = readGroups left 0 [] := by
      simp [hextets, readGroups]
    rw [parseParts_eq hlimit (by omega) (findSkipIndex_join hproper) rfl hsize hzeros, hread]
  | compressed hl hr hz hsize =>
    exact parseParts_double (ShortGroup.proper hl) (ShortGroup.proper hr) hz hsize

/-! Hexadecimal groups. -/

/-- A hexadecimal number of 16 bits is read, however many digits it has. -/
theorem parseHextet_of_lt {g : JString} (hne : g ≠ []) (hex : ∀ c ∈ g, IsHexDigit c)
    (hlt : hexNumber g < 65536) : parseHextet g = some (groupValue g) := by
  have hparse := parseInt_hex hne hex (by omega)
  have hsmall : ¬ (BitVec.ofNat 32 (hexNumber g)).toInt > 0xffff := by
    rw [BitVec.toInt_ofNat']
    simp only [Int.bmod]
    omega
  have hshort : toShort (BitVec.ofNat 32 (hexNumber g)) = groupValue g := by
    apply BitVec.eq_of_toNat_eq
    simp only [toShort, groupValue, BitVec.toNat_setWidth, BitVec.toNat_ofNat]
    omega
  rw [parseHextet, hparse]
  change (if (BitVec.ofNat 32 (hexNumber g)).toInt > 0xffff then none
    else some (toShort (BitVec.ofNat 32 (hexNumber g)))) = _
  rw [if_neg hsmall, hshort]

theorem parseHextet_hex {g : JString} (h : HexGroup g) : parseHextet g = some (groupValue g) := by
  have hpow : 16 ^ g.length ≤ 16 ^ 4 := Nat.pow_le_pow_right (by decide) h.le
  have hnumber := hexNumber_lt g
  exact parseHextet_of_lt (List.ne_nil_of_length_pos h.pos) h.hex (by omega)

theorem mapM_parseHextet {gs : List JString} (h : ∀ g ∈ gs, HexGroup g) :
    gs.mapM parseHextet = some (gs.map groupValue) := by
  induction gs with
  | nil => rfl
  | cons g gs ih =>
    rw [List.mapM_cons, parseHextet_hex (h g (List.mem_cons_self ..)),
      ih fun g hg => h g (List.mem_cons_of_mem _ hg)]
    rfl

/-- A text of hexadecimal groups gives the address it stands for. -/
theorem valueOfString_of_hex {s : JString} {left right : List JString} {zeros : Nat}
    (h : TextForm HexGroup s left zeros right) :
    ∃ a : Inet6Address, a.toBytes =
        (left.map groupValue ++ (List.replicate zeros 0 ++ right.map groupValue)).flatMap
          shortBytes ∧
      valueOfString s = .ok (some a) := by
  have hshort := h.mono fun g hg => hg.short
  have hdot : dot ∉ s := by
    intro hmem
    rcases h.hex_chars dot hmem with hcolon | hhex
    · exact absurd hcolon (by decide)
    · exact absurd hhex (by decide)
  have hgroups := h.groups
  have hread : readGroups left zeros right =
      some (left.map groupValue ++ (List.replicate zeros 0 ++ right.map groupValue)) := by
    rw [readGroups, mapM_parseHextet fun g hg => hgroups g (List.mem_append_left _ hg),
      mapM_parseHextet fun g hg => hgroups g (List.mem_append_right _ hg)]
    rfl
  have hsize := h.size
  have hlen : (left.map groupValue ++
      (List.replicate zeros 0 ++ right.map groupValue)).length = 8 := by
    simp only [List.length_append, List.length_map, List.length_replicate]
    omega
  obtain ⟨a, ha, hof⟩ := ofHextets_eq hlen
  refine ⟨a, ha, ?_⟩
  rw [valueOfString, checkOctets_of_textForm hshort hdot]
  change parseParts s = .ok (some a)
  rw [parseParts_of_textForm hshort, hread, Option.elim_some, hof]
  rfl

/-- `valueOf` takes exactly the texts that stand for an address, gives that address, and throws on
every other text. -/
structure ParsesExactly (s : JString) : Prop where
  accepts : ∀ a, valueOfString s = .ok (some a) ↔ Denotes s a
  refuses : (¬ ∃ a, Denotes s a) → valueOfString s = .error .illegalArgument
  notNull : valueOfString s ≠ .ok none
  valid : InetAddress.isValidAddress s = true ↔ ∃ a, Denotes s a

theorem mapM_length {α β : Type} {f : α → Option β} {xs : List α} {ys : List β}
    (h : xs.mapM f = some ys) : ys.length = xs.length := by
  induction xs generalizing ys with
  | nil =>
    cases h
    rfl
  | cons x xs ih =>
    rw [List.mapM_cons] at h
    obtain ⟨y, hy, h⟩ := Option.bind_eq_some_iff.mp h
    obtain ⟨zs, hzs, h⟩ := Option.bind_eq_some_iff.mp h
    cases h
    rw [List.length_cons, List.length_cons, ih hzs]

theorem readGroups_length {left right : List JString} {zeros : Nat} {ss : List JShort}
    (hsize : left.length + zeros + right.length = 8) (h : readGroups left zeros right = some ss) :
    ss.length = 8 := by
  obtain ⟨hi, hhi, h⟩ := Option.bind_eq_some_iff.mp h
  obtain ⟨lo, hlo, h⟩ := Option.bind_eq_some_iff.mp h
  cases h
  rw [List.length_append, List.length_append, List.length_replicate, mapM_length hhi,
    mapM_length hlo]
  omega

theorem valueOfString_of_denotes {s : JString} {a : Inet6Address} (h : Denotes s a) :
    valueOfString s = .ok (some a) := by
  obtain ⟨left, zeros, right, hform, ha⟩ := h
  obtain ⟨b, hb, hvalue⟩ := valueOfString_of_hex hform
  rw [hvalue, Address.eq_of_toBytes_eq (hb.trans ha.symm)]

theorem valueOfString_error {s : JString} (hdot : dot ∉ s)
    (hno : ¬ ∃ left zeros right, TextForm ShortGroup s left zeros right) :
    valueOfString s = .error .illegalArgument := by
  rw [valueOfString, checkOctets_error hdot hno]
  rfl

/-- With the outer form right nothing is thrown. -/
theorem valueOfString_ok {s : JString} {left right : List JString} {zeros : Nat}
    (h : TextForm ShortGroup s left zeros right) (hdot : dot ∉ s) :
    ∃ a, valueOfString s = .ok a := by
  simp only [valueOfString, checkOctets_of_textForm h hdot, bind, Except.bind,
    parseParts_of_textForm h]
  cases hread : readGroups left zeros right with
  | none => exact ⟨none, rfl⟩
  | some ss =>
    have hlen := readGroups_length h.size hread
    obtain ⟨a, -, hof⟩ := ofHextets_eq hlen
    exact ⟨some a, by simp [hof]⟩

theorem textForm_of_denotes {s : JString} {a : Inet6Address} (h : Denotes s a) :
    ∃ left zeros right, TextForm ShortGroup s left zeros right := by
  obtain ⟨left, zeros, right, hform, -⟩ := h
  exact ⟨left, zeros, right, hform.mono fun g hg => hg.short⟩

theorem isValidAddress_iff {s : JString} (hdot : dot ∉ s) :
    InetAddress.isValidAddress s = true ↔ ∃ a, valueOfString s = .ok (some a) := by
  by_cases hcolon : contains s [colon] = true
  · rw [InetAddress.isValidAddress, InetAddress.valueOf, if_pos hcolon]
    rcases valueOfString s with e | (_ | a)
    · simp
    · simp
    · simp
  · have hparts : split dot s = [s] := if_neg hdot
    have hinvalid : InetAddress.isValidAddress s = false := by
      simp [InetAddress.isValidAddress, InetAddress.valueOf, hcolon, Inet4Address.valueOfString,
        hparts, Inet4Address.IPV4_ADDRESS_LENGTH]
    have hno : ¬ ∃ left zeros right, TextForm ShortGroup s left zeros right := by
      intro hshort
      obtain ⟨left, zeros, right, hform⟩ := hshort
      exact hcolon (contains_singleton.mpr hform.colon_mem)
    simp [hinvalid, valueOfString_error hdot hno]

/-- The parser is exact unless the outer form is right and a character is not hexadecimal. -/
theorem parsesExactly_iff (s : JString) (hdot : dot ∉ s) :
    ParsesExactly s ↔ ((∃ left zeros right, TextForm ShortGroup s left zeros right) →
      ∀ c ∈ s, c = colon ∨ IsHexDigit c) := by
  constructor
  · intro h hshort
    obtain ⟨left, zeros, right, hform⟩ := hshort
    obtain ⟨a, ha⟩ := valueOfString_ok hform hdot
    have hdenotes : ∃ a, Denotes s a := by
      by_contra hno
      rw [h.refuses hno] at ha
      cases ha
    obtain ⟨b, left, zeros, right, hhex, -⟩ := hdenotes
    exact hhex.hex_chars
  · intro h
    by_cases hform : ∃ left zeros right, TextForm ShortGroup s left zeros right
    · obtain ⟨left, zeros, right, hshort⟩ := hform
      have hhex := hshort.hex_of_short (h ⟨left, zeros, right, hshort⟩)
      obtain ⟨a, ha, hvalue⟩ := valueOfString_of_hex hhex
      have hdenotes : Denotes s a := ⟨left, zeros, right, hhex, ha⟩
      refine ⟨?_, fun hno => absurd ⟨a, hdenotes⟩ hno, ?_, ?_⟩
      · intro b
        refine ⟨?_, valueOfString_of_denotes⟩
        intro hb
        cases hvalue.symm.trans hb
        exact hdenotes
      · rw [hvalue]
        intro hnull
        cases hnull
      · rw [isValidAddress_iff hdot]
        exact ⟨fun _ => ⟨a, hdenotes⟩, fun _ => ⟨a, hvalue⟩⟩
    · have herror := valueOfString_error hdot hform
      have hno : ∀ a, ¬ Denotes s a := fun a ha => hform (textForm_of_denotes ha)
      refine ⟨?_, fun _ => herror, ?_, ?_⟩
      · intro a
        simp [herror, hno a]
      · rw [herror]
        intro hnull
        cases hnull
      · rw [isValidAddress_iff hdot]
        simp [herror, hno]

/-- A letter past f in a well formed place gives null, and a sign there is taken. -/
theorem badGroup_not_exact :
    (dot ∉ chars "g::" ∧ valueOfString (chars "g::") = .ok none ∧ ¬ ParsesExactly (chars "g::")) ∧
      dot ∉ chars "-1::" ∧ ¬ ParsesExactly (chars "-1::") := by
  have hnull : valueOfString (chars "g::") = .ok none := rfl
  have hsign : valueOfString (chars "-1::") = .ok (some ⟨255 :: 255 :: List.replicate 14 0, rfl⟩) :=
    rfl
  refine ⟨⟨by decide, hnull, fun h => h.notNull hnull⟩, by decide, ?_⟩
  intro h
  obtain ⟨left, zeros, right, hform, -⟩ := (h.accepts _).mp hsign
  rcases hform.hex_chars 0x2d (List.mem_cons_self ..) with hcolon | hhex
  · exact absurd hcolon (by decide)
  · exact absurd hhex (by decide)

theorem loopback_parsesExactly : ParsesExactly (chars "::1") := by
  apply (parsesExactly_iff (chars "::1") (by decide)).mpr
  intro _ c hc
  have hchars : chars "::1" = [colon, colon, 0x31] := rfl
  rw [hchars] at hc
  simp only [List.mem_cons, List.not_mem_nil, or_false] at hc
  rcases hc with rfl | rfl | rfl <;> decide

end Inet6Address

end Jxnet
