import Jxnet.Core.InetText

namespace Jxnet

open Java ByteBuffer Text

/-- An address text of eight groups `left`, `zeros` groups of zero and `right`, where "::" stands
for the zero groups if there are any. -/
inductive TextForm (G : JString → Prop) : JString → List JString → Nat → List JString → Prop
  | full {groups : List JString} (hG : ∀ g ∈ groups, G g) (hsize : groups.length = 8) :
      TextForm G (join colon groups) groups 0 []
  | compressed {left right : List JString} {zeros : Nat} (hleft : ∀ g ∈ left, G g)
      (hright : ∀ g ∈ right, G g) (hzeros : 1 ≤ zeros)
      (hsize : left.length + zeros + right.length = 8) :
      TextForm G (join colon left ++ ([colon, colon] ++ join colon right)) left zeros right

/-- One to four hexadecimal digits. -/
structure HexGroup (g : JString) : Prop where
  pos : 1 ≤ g.length
  le : g.length ≤ 4
  hex : ∀ c ∈ g, IsHexDigit c

/-- One to four characters of any kind between the colons. -/
structure ShortGroup (g : JString) : Prop where
  pos : 1 ≤ g.length
  le : g.length ≤ 4
  noColon : colon ∉ g

def groupValue (g : JString) : JShort := BitVec.ofNat 16 (hexNumber g)

/-- The address that a text of hexadecimal groups stands for. -/
def Denotes (s : JString) (a : Inet6Address) : Prop :=
  ∃ left zeros right, TextForm HexGroup s left zeros right ∧
    a.toBytes =
      (left.map groupValue ++ (List.replicate zeros 0 ++ right.map groupValue)).flatMap shortBytes

theorem HexGroup.short {g : JString} (h : HexGroup g) : ShortGroup g := by
  refine ⟨h.pos, h.le, ?_⟩
  intro hc
  exact absurd (h.hex colon hc) (by decide)

theorem ShortGroup.proper {gs : List JString} (h : ∀ g ∈ gs, ShortGroup g) : Proper colon gs := by
  intro g hg
  refine ⟨?_, (h g hg).noColon⟩
  intro heq
  subst heq
  exact absurd (h [] hg).pos (by decide)

namespace TextForm

variable {G H : JString → Prop} {s : JString} {left right : List JString} {zeros : Nat}

theorem mono (hGH : ∀ g, G g → H g) (h : TextForm G s left zeros right) :
    TextForm H s left zeros right := by
  cases h with
  | full hG hsize => exact .full (fun g hg => hGH g (hG g hg)) hsize
  | compressed hl hr hz hsize =>
    exact .compressed (fun g hg => hGH g (hl g hg)) (fun g hg => hGH g (hr g hg)) hz hsize

theorem groups (h : TextForm G s left zeros right) : ∀ g ∈ left ++ right, G g := by
  intro g hg
  cases h with
  | full hG => exact hG g (by simpa using hg)
  | compressed hl hr =>
    rcases List.mem_append.mp hg with hg | hg
    · exact hl g hg
    · exact hr g hg

theorem size (h : TextForm G s left zeros right) : left.length + zeros + right.length = 8 := by
  cases h with
  | full _ hsize => simpa using hsize
  | compressed _ _ _ hsize => exact hsize

/-- The characters are those of the groups and colons. -/
theorem forall_mem_iff (h : TextForm G s left zeros right) (p : JChar → Prop) (hp : p colon) :
    (∀ c ∈ s, p c) ↔ ∀ g ∈ left ++ right, ∀ c ∈ g, p c := by
  cases h with
  | full => simpa using forall_mem_join hp left
  | compressed =>
    simp only [List.mem_append, List.mem_cons, List.not_mem_nil, or_false, or_imp, forall_and,
      forall_eq, hp, true_and, forall_mem_join hp]

theorem colon_mem (h : TextForm G s left zeros right) : colon ∈ s := by
  cases h with
  | full hG hsize =>
    obtain ⟨g, gs, rfl⟩ := List.exists_cons_of_length_eq_add_one hsize
    have hne : gs ≠ [] := by
      intro heq
      subst heq
      simp at hsize
    rw [join_cons g hne]
    simp
  | compressed => simp

/-- Hexadecimal groups are the short ones without other characters. -/
theorem hex_of_short (h : TextForm ShortGroup s left zeros right)
    (hs : ∀ c ∈ s, c = colon ∨ IsHexDigit c) : TextForm HexGroup s left zeros right := by
  have hall := (h.forall_mem_iff (fun c => c = colon ∨ IsHexDigit c) (.inl rfl)).mp hs
  have hgroup : ∀ g ∈ left ++ right, HexGroup g := by
    intro g hg
    have hshort := h.groups g hg
    refine ⟨hshort.pos, hshort.le, ?_⟩
    intro c hc
    rcases hall g hg c hc with rfl | hhex
    · exact absurd hc hshort.noColon
    · exact hhex
  cases h with
  | full _ hsize => exact .full (fun g hg => hgroup g (by simpa using hg)) hsize
  | compressed _ _ hz hsize =>
    exact .compressed (fun g hg => hgroup g (List.mem_append_left _ hg))
      (fun g hg => hgroup g (List.mem_append_right _ hg)) hz hsize

theorem hex_chars (h : TextForm HexGroup s left zeros right) :
    ∀ c ∈ s, c = colon ∨ IsHexDigit c := by
  refine (h.forall_mem_iff (fun c => c = colon ∨ IsHexDigit c) (.inl rfl)).mpr ?_
  intro g hg c hc
  exact .inr ((h.groups g hg).hex c hc)

end TextForm

end Jxnet
