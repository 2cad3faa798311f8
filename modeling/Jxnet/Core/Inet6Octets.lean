import Jxnet.Core.TextForm

namespace Jxnet

open Java ByteBuffer Text

namespace Inet6Address

/-! The first pass over a text. -/

theorem contains_join {gs : List JString} (h : Proper colon gs) :
    contains (join colon gs) [colon, colon] = false := by
  rw [Bool.eq_false_iff, Ne, contains_iff]
  intro hdouble
  obtain ⟨x, y, hxy⟩ := hdouble
  exact h.tidy.inner x y hxy

theorem contains_double (l r : JString) :
    contains (l ++ ([colon, colon] ++ r)) [colon, colon] = true :=
  contains_iff.mpr ⟨l, r, rfl⟩

/-- The checks let through single colons and one double colon. -/
theorem checkColons_ok_iff (s : JString) :
    checkColons s = .ok () ↔ (∃ gs, Proper colon gs ∧ s = join colon gs) ∨
      ∃ left right, Proper colon left ∧ Proper colon right ∧
        s = join colon left ++ ([colon, colon] ++ join colon right) := by
  have hok : checkColons s = .ok () ↔ (contains s [colon, colon] = true →
      indexOf s [colon, colon] = lastIndexOf s [colon, colon]) ∧ Bordered colon s := by
    unfold checkColons
    constructor
    · intro h
      split at h
      · cases h
      split at h
      · cases h
      next honce hends =>
        rw [not_or, not_and_not_right, not_and_not_right] at hends
        exact ⟨not_and_not_right.mp honce, hends.1, hends.2⟩
    · intro hchecks
      obtain ⟨honce, hstart, hfinish⟩ := hchecks
      rw [if_neg (not_and_not_right.mpr honce),
        if_neg (not_or.mpr ⟨not_and_not_right.mpr hstart, not_and_not_right.mpr hfinish⟩)]
  rw [hok]
  constructor
  · intro hchecks
    obtain ⟨honce, hb⟩ := hchecks
    cases hc : contains s [colon, colon] with
    | false => exact .inl ⟨groups colon s, (tidy_of_not_contains hc hb).proper,
        (join_groups s).symm⟩
    | true =>
      obtain ⟨x, y, hs⟩ := contains_iff.mp hc
      obtain ⟨i, j, hi, hj, -⟩ := exists_indexOf hs
      have hij : lastIndexOf s [colon, colon] = some i := (honce hc).symm.trans hi
      obtain ⟨l, r, hlr, hl, hr⟩ := exists_double hi hij hb
      refine .inr ⟨groups colon l, groups colon r, hl.proper, hr.proper, ?_⟩
      rw [join_groups, join_groups, hlr]
  · intro hcases
    rcases hcases with ⟨gs, hgs, rfl⟩ | ⟨left, right, hleft, hright, rfl⟩
    · have hno := contains_join hgs
      refine ⟨fun h => absurd h (by simp [hno]), ?_, ?_⟩
      · intro h
        obtain ⟨y, hy⟩ := startsWith_iff.mp h
        exact absurd hy (hgs.tidy.first y)
      · intro h
        obtain ⟨x, hx⟩ := endsWith_iff.mp h
        exact absurd hx (hgs.tidy.last x)
    · obtain ⟨hi, hj⟩ := indexOf_double hleft.tidy hright.tidy
      exact ⟨fun _ => hi.trans hj.symm, bordered_double hleft.tidy hright.tidy⟩

theorem checkColons_error {s : JString} {e : JavaException} (h : checkColons s = .error e) :
    e = .illegalArgument := by
  unfold checkColons at h
  split at h
  · cases h
    rfl
  split at h
  · cases h
    rfl
  · cases h

/-- A last part that is not empty keeps all the parts. -/
theorem split_of_last {s part : JString} {parts : List JString}
    (hs : s.splitOn colon = parts ++ [part]) (hpart : part ≠ []) :
    split colon s = parts ++ [part] := by
  have hkeep : (parts ++ [part]).rdropWhile List.isEmpty = parts ++ [part] := by
    apply List.rdropWhile_concat_neg
    simpa using hpart
  by_cases hmem : colon ∈ s
  · rw [split, if_pos hmem, hs, hkeep]
  · rw [split, if_neg hmem, ← hs, List.splitOn_eq_singleton hmem]

theorem exists_last {gs : List JString} (h : Proper colon gs) (hne : gs ≠ []) :
    ∃ init last, gs = init ++ [last] ∧ last ≠ [] := by
  obtain ⟨init, last, rfl⟩ := (List.eq_nil_or_concat' gs).resolve_left hne
  exact ⟨init, last, rfl, (h last (by simp)).1⟩

theorem octets_join {gs : List JString} (h : Proper colon gs) (hne : gs ≠ []) :
    octets (join colon gs) = gs := by
  obtain ⟨init, last, rfl, hlast⟩ := exists_last h hne
  have hsplit := split_of_last (splitOn_join h hne) hlast
  simp only [octets, contains_join h, hsplit, Bool.false_eq_true, if_false]

theorem splitOn_double (l r : JString) :
    (l ++ ([colon, colon] ++ r)).splitOn colon = l.splitOn colon ++ [] :: r.splitOn colon := by
  have hinner : (colon :: r).splitOn colon = [] :: r.splitOn colon := by
    rw [List.splitOn_cons_eq_if_modifyHead]
    simp
  rw [List.cons_append, List.splitOn_append_cons_self, List.singleton_append, hinner]

theorem rdropWhile_splitOn {gs : List JString} (h : Proper colon gs) :
    ((join colon gs).splitOn colon).rdropWhile List.isEmpty = gs := by
  by_cases hnil : gs = []
  · subst hnil
    rfl
  · obtain ⟨init, last, rfl, hlast⟩ := exists_last h hnil
    rw [splitOn_join h hnil]
    apply List.rdropWhile_concat_neg
    simpa using hlast

/-- The empty parts at the end are dropped. -/
theorem split_double_nil {left : List JString} (h : Proper colon left) :
    split colon (join colon left ++ ([colon, colon] ++ [])) = left := by
  have hmem : colon ∈ join colon left ++ ([colon, colon] ++ []) := by simp
  have htwo : (join colon left).splitOn colon ++ [] :: [].splitOn colon =
      (join colon left).splitOn colon ++ [[]] ++ [[]] := by simp
  rw [split, if_pos hmem, splitOn_double, htwo, List.rdropWhile_concat_pos _ _ _ rfl,
    List.rdropWhile_concat_pos _ _ _ rfl, rdropWhile_splitOn h]

theorem split_double (l : JString) {right : List JString} (h : Proper colon right)
    (hne : right ≠ []) :
    split colon (l ++ ([colon, colon] ++ join colon right)) = l.splitOn colon ++ [] :: right := by
  have hsplit := splitOn_double l (join colon right)
  rw [splitOn_join h hne] at hsplit
  obtain ⟨init, last, rfl, hlast⟩ := exists_last h hne
  have hinit : l.splitOn colon ++ [] :: (init ++ [last]) =
      (l.splitOn colon ++ [] :: init) ++ [last] := by simp
  rw [hinit] at hsplit ⊢
  exact split_of_last hsplit hlast

/-- The parts with one empty part for "::". -/
theorem octets_double {left right : List JString} (hleft : Proper colon left)
    (hright : Proper colon right) :
    octets (join colon left ++ ([colon, colon] ++ join colon right)) = left ++ [] :: right := by
  have hcontains := contains_double (join colon left) (join colon right)
  simp only [octets, hcontains, if_true]
  by_cases hr : right = []
  · -- the empty parts at the end are gone, and one is put back
    subst hr
    have hends : endsWith (join colon left ++ ([colon, colon] ++ join colon [])) [colon, colon] =
        true := endsWith_iff.mpr ⟨join colon left, by simp⟩
    rw [if_pos hends]
    exact congrArg (· ++ [[]]) (split_double_nil hleft)
  · have hends : ¬ endsWith (join colon left ++ ([colon, colon] ++ join colon right))
        [colon, colon] = true := by
      rw [← List.append_assoc, hright.tidy.endsWith_append (mt (join_eq_nil hright).mp hr)]
      exact Bool.false_ne_true
    rw [if_neg hends, split_double _ hright hr]
    by_cases hl : left = []
    · subst hl
      have hstart : startsWith (join colon [] ++ ([colon, colon] ++ join colon right))
          [colon, colon] = true := startsWith_iff.mpr ⟨join colon right, rfl⟩
      rw [if_pos ⟨hstart, by simp⟩]
      rfl
    · have hstart : ¬ startsWith (join colon left ++ ([colon, colon] ++ join colon right))
          [colon, colon] = true := by
        rw [hleft.tidy.startsWith_append (mt (join_eq_nil hleft).mp hl)]
        exact Bool.false_ne_true
      rw [if_neg fun h => hstart h.1, splitOn_join hleft hl]

theorem not_quad {octet : JString} (h : dot ∉ octet) (rest : List JString) :
    ¬ (rest = [] ∧ contains octet [dot] = true) := by
  rw [contains_singleton]
  exact fun hquad => h hquad.2

/-- One octet of one to four characters counts once. -/
theorem countOctets_short {octet : JString} (h : ShortGroup octet) (hdot : dot ∉ octet)
    (st : OctetState) (rest : List JString) :
    countOctets st (octet :: rest) =
      countOctets ⟨st.inet6Address, st.validOctets + 1, 0⟩ rest := by
  have hpos := h.pos
  have hle := h.le
  have hnotLong : ¬ octet.length > IPV6_MAX_HEX_DIGITS_PER_GROUP := by
    rw [IPV6_MAX_HEX_DIGITS_PER_GROUP]
    omega
  rw [countOctets, if_neg (by omega), if_neg (not_quad hdot rest), if_neg hnotLong]

theorem countOctets_append {gs : List JString} (h : ∀ g ∈ gs, ShortGroup g)
    (hdot : ∀ g ∈ gs, dot ∉ g) (st : OctetState) (rest : List JString) :
    ∃ e ≤ st.emptyOctets, countOctets st (gs ++ rest) =
      countOctets ⟨st.inet6Address, st.validOctets + gs.length, e⟩ rest := by
  induction gs generalizing st with
  | nil => exact ⟨st.emptyOctets, Nat.le_refl _, rfl⟩
  | cons g gs ih =>
    obtain ⟨e, he, hrest⟩ := ih (fun g hg => h g (List.mem_cons_of_mem _ hg))
      (fun g hg => hdot g (List.mem_cons_of_mem _ hg)) ⟨st.inet6Address, st.validOctets + 1, 0⟩
    refine ⟨e, Nat.le_trans he (Nat.zero_le _), ?_⟩
    rw [List.cons_append, countOctets_short (h g (List.mem_cons_self ..))
      (hdot g (List.mem_cons_self ..)), hrest, List.length_cons, Nat.add_right_comm,
      Nat.add_assoc]

/-- An octet that is too long ends the loop, if nothing before it does. -/
theorem countOctets_long {octet : JString} (hlong : 4 < octet.length) {parts : List JString}
    (hmem : octet ∈ parts) (hdot : ∀ g ∈ parts, dot ∉ g) (st : OctetState) :
    countOctets st parts = .error .illegalArgument := by
  induction parts generalizing st with
  | nil => cases hmem
  | cons g rest ih =>
    have hrest : ∀ st, g ≠ octet → countOctets st rest = .error .illegalArgument := by
      intro st hne
      exact ih ((List.mem_cons.mp hmem).resolve_left fun h => hne h.symm)
        (fun g hg => hdot g (List.mem_cons_of_mem _ hg)) st
    rw [countOctets, if_neg (not_quad (hdot g (List.mem_cons_self ..)) rest)]
    by_cases hempty : g.length = 0
    · rw [if_pos hempty]
      split
      · rfl
      · refine hrest _ ?_
        intro heq
        subst heq
        omega
    · rw [if_neg hempty]
      split
      · rfl
      · next hshort =>
        refine hrest _ ?_
        intro heq
        subst heq
        exact hshort hlong

/-- The first pass once the colons and parts are known. -/
theorem checkOctets_of_octets {s : JString} {parts : List JString}
    (hcolons : checkColons s = .ok ()) (hparts : octets s = parts) :
    checkOctets s = (do
      let st ← countOctets ⟨s, 0, 0⟩ parts
      if st.validOctets > IPV6_MAX_HEX_GROUPS ∨
          (st.validOctets < IPV6_MAX_HEX_GROUPS ∧ ¬ contains s [colon, colon]) then
        .error .illegalArgument
      else .ok st.inet6Address) := by
  have hnever : ¬ (parts.length > IPV6_MAX_HEX_GROUPS ∧ parts.length < 3) := by
    rw [IPV6_MAX_HEX_GROUPS]
    omega
  rw [checkOctets, hcolons]
  change (if (octets s).length > IPV6_MAX_HEX_GROUPS ∧ (octets s).length < 3 then _ else _) = _
  rw [hparts, if_neg hnever]

theorem checkOctets_eq {s : JString} {parts : List JString} {n e : Nat}
    (hcolons : checkColons s = .ok ()) (hparts : octets s = parts)
    (hcount : countOctets ⟨s, 0, 0⟩ parts = .ok ⟨s, n, e⟩) :
    checkOctets s = if n > 8 ∨ (n < 8 ∧ ¬ contains s [colon, colon]) then
      .error .illegalArgument else .ok s := by
  rw [checkOctets_of_octets hcolons hparts, hcount]
  rfl

theorem checkOctets_long {s octet : JString} {parts : List JString}
    (hcolons : checkColons s = .ok ()) (hparts : octets s = parts) (hdot : ∀ g ∈ parts, dot ∉ g)
    (hmem : octet ∈ parts) (hlong : 4 < octet.length) :
    checkOctets s = .error .illegalArgument := by
  rw [checkOctets_of_octets hcolons hparts, countOctets_long hlong hmem hdot]
  rfl

theorem countOctets_join {gs : List JString} (h : ∀ g ∈ gs, ShortGroup g)
    (hdot : ∀ g ∈ gs, dot ∉ g) (s : JString) :
    ∃ e, countOctets ⟨s, 0, 0⟩ gs = .ok ⟨s, gs.length, e⟩ := by
  obtain ⟨e, -, hcount⟩ := countOctets_append h hdot ⟨s, 0, 0⟩ []
  refine ⟨e, ?_⟩
  rw [List.append_nil] at hcount
  rw [hcount, Nat.zero_add]
  rfl

theorem countOctets_double_append {left right : List JString}
    (hleft : ∀ g ∈ left, ShortGroup g) (hright : ∀ g ∈ right, ShortGroup g)
    (hdot : ∀ g ∈ left ++ right, dot ∉ g) (s : JString) (rest : List JString) :
    ∃ e, countOctets ⟨s, 0, 0⟩ (left ++ [] :: (right ++ rest)) =
      countOctets ⟨s, left.length + 1 + right.length, e⟩ rest := by
  obtain ⟨e, he, hcount⟩ := countOctets_append hleft
    (fun g hg => hdot g (List.mem_append_left _ hg)) ⟨s, 0, 0⟩ ([] :: (right ++ rest))
  cases Nat.le_zero.mp he
  obtain ⟨e, -, hrest⟩ := countOctets_append hright
    (fun g hg => hdot g (List.mem_append_right _ hg)) ⟨s, left.length + 1, 1⟩ rest
  refine ⟨e, ?_⟩
  rw [hcount, Nat.zero_add, countOctets]
  exact hrest

theorem countOctets_double {left right : List JString} (hleft : ∀ g ∈ left, ShortGroup g)
    (hright : ∀ g ∈ right, ShortGroup g) (hdot : ∀ g ∈ left ++ right, dot ∉ g) (s : JString) :
    ∃ e, countOctets ⟨s, 0, 0⟩ (left ++ [] :: right) =
      .ok ⟨s, left.length + 1 + right.length, e⟩ := by
  obtain ⟨e, hcount⟩ := countOctets_double_append hleft hright hdot s []
  rw [List.append_nil] at hcount
  exact ⟨e, hcount⟩

/-- The first pass lets a text form with short groups through. -/
theorem checkOctets_of_textForm {s : JString} {left right : List JString} {zeros : Nat}
    (h : TextForm ShortGroup s left zeros right) (hdot : dot ∉ s) : checkOctets s = .ok s := by
  have hdots : ∀ g ∈ left ++ right, dot ∉ g := by
    have hs : ∀ c ∈ s, c ≠ dot := fun c hc hcd => hdot (hcd ▸ hc)
    intro g hg hmem
    exact (h.forall_mem_iff (· ≠ dot) (by decide)).mp hs g hg dot hmem rfl
  cases h with
  | full hG hsize =>
    have hproper := ShortGroup.proper hG
    have hne : left ≠ [] := by
      intro heq
      subst heq
      cases hsize
    have hcolons := (checkColons_ok_iff _).mpr (.inl ⟨left, hproper, rfl⟩)
    obtain ⟨e, hcount⟩ := countOctets_join hG (by simpa using hdots) (join colon left)
    rw [checkOctets_eq hcolons (octets_join hproper hne) hcount, if_neg (by omega)]
  | compressed hl hr hz hsize =>
    have hpl := ShortGroup.proper hl
    have hpr := ShortGroup.proper hr
    have hcolons := (checkColons_ok_iff _).mpr (.inr ⟨left, right, hpl, hpr, rfl⟩)
    obtain ⟨e, hcount⟩ := countOctets_double hl hr hdots
      (join colon left ++ ([colon, colon] ++ join colon right))
    rw [checkOctets_eq hcolons (octets_double hpl hpr) hcount, contains_double, if_neg]
    rw [not_or]
    exact ⟨by omega, fun hnot => hnot.2 rfl⟩

theorem short_of_le {gs : List JString} (h : Proper colon gs)
    (hle : ¬ ∃ g ∈ gs, 4 < g.length) : ∀ g ∈ gs, ShortGroup g := by
  intro g hg
  refine ⟨List.length_pos_iff.mpr (h g hg).1, ?_, (h g hg).2⟩
  by_contra hlong
  exact hle ⟨g, hg, by omega⟩

/-- Without a double colon there must be eight groups. -/
theorem checkOctets_join {gs : List JString} (h : Proper colon gs)
    (hcolons : checkColons (join colon gs) = .ok ()) (hdot : ∀ g ∈ gs, dot ∉ g)
    (hno : ¬ ((∀ g ∈ gs, ShortGroup g) ∧ gs.length = 8)) :
    checkOctets (join colon gs) = .error .illegalArgument := by
  by_cases hne : gs = []
  · subst hne
    rfl
  by_cases hbig : ∃ g ∈ gs, 4 < g.length
  · obtain ⟨g, hg, hlong⟩ := hbig
    exact checkOctets_long hcolons (octets_join h hne) hdot hg hlong
  have hshort := short_of_le h hbig
  have hsize : gs.length ≠ 8 := fun hsize => hno ⟨hshort, hsize⟩
  obtain ⟨e, hcount⟩ := countOctets_join hshort hdot (join colon gs)
  rw [checkOctets_eq hcolons (octets_join h hne) hcount, contains_join h, if_pos]
  by_cases h8 : gs.length > 8
  · exact .inl h8
  · exact .inr ⟨by omega, Bool.false_ne_true⟩

/-- Beside a double colon there must be fewer than eight. -/
theorem checkOctets_double {left right : List JString} (hl : Proper colon left)
    (hr : Proper colon right) (hcolons : checkColons
      (join colon left ++ ([colon, colon] ++ join colon right)) = .ok ())
    (hdot : ∀ g ∈ left ++ right, dot ∉ g)
    (hno : ¬ ((∀ g ∈ left ++ right, ShortGroup g) ∧ left.length + right.length < 8)) :
    checkOctets (join colon left ++ ([colon, colon] ++ join colon right)) =
      .error .illegalArgument := by
  have hparts : ∀ g, g ∈ left ++ [] :: right ↔ g = [] ∨ g ∈ left ++ right := by
    intro g
    simp only [List.mem_append, List.mem_cons]
    exact or_left_comm
  have hdots : ∀ g ∈ left ++ [] :: right, dot ∉ g := by
    intro g hg
    rcases (hparts g).mp hg with rfl | hg
    · exact List.not_mem_nil
    · exact hdot g hg
  have hproper : Proper colon (left ++ right) := by
    intro g hg
    exact (List.mem_append.mp hg).elim (hl g) (hr g)
  by_cases hbig : ∃ g ∈ left ++ right, 4 < g.length
  · obtain ⟨g, hg, hlong⟩ := hbig
    exact checkOctets_long hcolons (octets_double hl hr) hdots ((hparts g).mpr (.inr hg)) hlong
  have hshort := short_of_le hproper hbig
  obtain ⟨e, hcount⟩ := countOctets_double (fun g hg => hshort g (List.mem_append_left _ hg))
    (fun g hg => hshort g (List.mem_append_right _ hg)) hdot
    (join colon left ++ ([colon, colon] ++ join colon right))
  have hsize : ¬ left.length + right.length < 8 := fun hsize => hno ⟨hshort, hsize⟩
  rw [checkOctets_eq hcolons (octets_double hl hr) hcount, if_pos]
  exact .inl (by omega)

/-- Every other text without a dot is refused by it. -/
theorem checkOctets_error {s : JString} (hdot : dot ∉ s)
    (hno : ¬ ∃ left zeros right, TextForm ShortGroup s left zeros right) :
    checkOctets s = .error .illegalArgument := by
  have hs : ∀ c ∈ s, c ≠ dot := fun c hc hcd => hdot (hcd ▸ hc)
  cases hcolons : checkColons s with
  | error e =>
    cases checkColons_error hcolons
    simp only [checkOctets, hcolons, bind, Except.bind]
  | ok u =>
    rcases (checkColons_ok_iff s).mp hcolons with ⟨gs, hgs, rfl⟩ | ⟨left, right, hl, hr, rfl⟩
    · refine checkOctets_join hgs hcolons ?_ ?_
      · intro g hg hmem
        exact (forall_mem_join (by decide) gs).mp hs g hg dot hmem rfl
      · intro hform
        obtain ⟨hshort, hsize⟩ := hform
        exact hno ⟨gs, 0, [], .full hshort hsize⟩
    · refine checkOctets_double hl hr hcolons ?_ ?_
      · intro g hg hmem
        simp only [List.mem_append, or_imp, forall_and] at hs
        rcases List.mem_append.mp hg with hg | hg
        · exact (forall_mem_join (by decide) left).mp hs.1 g hg dot hmem rfl
        · exact (forall_mem_join (by decide) right).mp hs.2.2 g hg dot hmem rfl
      · intro hform
        obtain ⟨hshort, hsize⟩ := hform
        exact hno ⟨left, 8 - left.length - right.length, right,
          .compressed (fun g hg => hshort g (List.mem_append_left _ hg))
            (fun g hg => hshort g (List.mem_append_right _ hg)) (by omega) (by omega)⟩

end Inet6Address

end Jxnet
