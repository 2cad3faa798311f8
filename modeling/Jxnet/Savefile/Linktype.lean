import Jxnet.Framework.WordOrder

namespace Jxnet

open Java

namespace Savefile

/-! Link-layer types: the `DLT_` values of a Linux or Android host, and the `LINKTYPE_` values
that stand in savefiles. -/

def DLT_NULL : Int := 0
def DLT_EN10MB : Int := 1
def DLT_EN3MB : Int := 2
def DLT_AX25 : Int := 3
def DLT_PRONET : Int := 4
def DLT_CHAOS : Int := 5
def DLT_IEEE802 : Int := 6
def DLT_ARCNET : Int := 7
def DLT_SLIP : Int := 8
def DLT_PPP : Int := 9
def DLT_FDDI : Int := 10
def DLT_ATM_RFC1483 : Int := 11
def DLT_RAW : Int := 12
def DLT_SLIP_BSDOS : Int := 15
def DLT_PPP_BSDOS : Int := 16
def DLT_ATM_CLIP : Int := 19
def DLT_PPP_SERIAL : Int := 50
def DLT_PPP_ETHER : Int := 51
def DLT_SYMANTEC_FIREWALL : Int := 99
def DLT_C_HDLC : Int := 104
def DLT_USB_LINUX : Int := 189
def DLT_USB_LINUX_MMAPPED : Int := 220
def DLT_NFLOG : Int := 239
def DLT_PFSYNC : Int := 246
def DLT_PKTAP : Int := 258
def DLT_MATCHING_MIN : Int := 104
def DLT_MATCHING_MAX : Int := 263

def LINKTYPE_NULL : Int := DLT_NULL
def LINKTYPE_ETHERNET : Int := DLT_EN10MB
def LINKTYPE_EXP_ETHERNET : Int := DLT_EN3MB
def LINKTYPE_AX25 : Int := DLT_AX25
def LINKTYPE_PRONET : Int := DLT_PRONET
def LINKTYPE_CHAOS : Int := DLT_CHAOS
def LINKTYPE_IEEE802_5 : Int := DLT_IEEE802
def LINKTYPE_ARCNET_BSD : Int := DLT_ARCNET
def LINKTYPE_SLIP : Int := DLT_SLIP
def LINKTYPE_PPP : Int := DLT_PPP
def LINKTYPE_FDDI : Int := DLT_FDDI
def LINKTYPE_PPP_HDLC : Int := 50
def LINKTYPE_PPP_ETHER : Int := 51
def LINKTYPE_SYMANTEC_FIREWALL : Int := 99
def LINKTYPE_ATM_RFC1483 : Int := 100
def LINKTYPE_RAW : Int := 101
def LINKTYPE_SLIP_BSDOS : Int := 102
def LINKTYPE_PPP_BSDOS : Int := 103
def LINKTYPE_C_HDLC : Int := 104
def LINKTYPE_ATM_CLIP : Int := 106
def LINKTYPE_PFSYNC : Int := 246
def LINKTYPE_PKTAP : Int := 258
def LINKTYPE_MATCHING_MIN : Int := 104
def LINKTYPE_MATCHING_MAX : Int := 262

/-- `map`, without the entry that ends it: pairs of a `DLT_` and a `LINKTYPE_` value. `DLT_FR` is
not defined on this host. -/
def map : List (Int × Int) :=
  [(DLT_NULL, LINKTYPE_NULL), (DLT_EN10MB, LINKTYPE_ETHERNET),
   (DLT_EN3MB, LINKTYPE_EXP_ETHERNET), (DLT_AX25, LINKTYPE_AX25),
   (DLT_PRONET, LINKTYPE_PRONET), (DLT_CHAOS, LINKTYPE_CHAOS),
   (DLT_IEEE802, LINKTYPE_IEEE802_5), (DLT_ARCNET, LINKTYPE_ARCNET_BSD),
   (DLT_SLIP, LINKTYPE_SLIP), (DLT_PPP, LINKTYPE_PPP), (DLT_FDDI, LINKTYPE_FDDI),
   (DLT_SYMANTEC_FIREWALL, LINKTYPE_SYMANTEC_FIREWALL),
   (DLT_ATM_RFC1483, LINKTYPE_ATM_RFC1483), (DLT_RAW, LINKTYPE_RAW),
   (DLT_SLIP_BSDOS, LINKTYPE_SLIP_BSDOS), (DLT_PPP_BSDOS, LINKTYPE_PPP_BSDOS),
   (DLT_C_HDLC, LINKTYPE_C_HDLC), (DLT_ATM_CLIP, LINKTYPE_ATM_CLIP),
   (DLT_PPP_SERIAL, LINKTYPE_PPP_HDLC), (DLT_PPP_ETHER, LINKTYPE_PPP_ETHER)]

def dlt_to_linktype (dlt : Int) : Int :=
  if dlt = DLT_PFSYNC then LINKTYPE_PFSYNC
  else if dlt = DLT_PKTAP then LINKTYPE_PKTAP
  else if DLT_MATCHING_MIN ≤ dlt ∧ dlt ≤ DLT_MATCHING_MAX then dlt
  else match map.find? (fun e => e.1 = dlt) with
    | some e => e.2
    | none => -1

def linktype_to_dlt (linktype : Int) : Int :=
  if linktype = LINKTYPE_PFSYNC then DLT_PFSYNC
  else if linktype = LINKTYPE_PKTAP then DLT_PKTAP
  else if LINKTYPE_MATCHING_MIN ≤ linktype ∧ linktype ≤ LINKTYPE_MATCHING_MAX then linktype
  else match map.find? (fun e => e.2 = linktype) with
    | some e => e.1
    | none => linktype

theorem exists_entry {dlt : Int} {e : Int × Int} (h : map.find? (fun e => e.1 = dlt) = some e) :
    e ∈ map ∧ e.1 = dlt :=
  ⟨List.mem_of_find?_eq_some h, by simpa using List.find?_some h⟩

theorem dlt_to_linktype_cases (dlt : Int) :
    dlt_to_linktype dlt = -1 ∨ (DLT_MATCHING_MIN ≤ dlt ∧ dlt ≤ DLT_MATCHING_MAX ∧
      dlt_to_linktype dlt = dlt) ∨ (dlt, dlt_to_linktype dlt) ∈ map := by
  unfold dlt_to_linktype
  split
  · next h => exact .inr (.inl (by subst h; decide))
  · split
    · next h => exact .inr (.inl (by subst h; decide))
    · split
      · next h => exact .inr (.inl ⟨h.1, h.2, rfl⟩)
      · split
        · next e he =>
          obtain ⟨hmem, rfl⟩ := exists_entry he
          exact .inr (.inr hmem)
        · exact .inl rfl

/-- The value that stands in a file fits the 26 bits that a file has for it. -/
theorem dlt_to_linktype_range (dlt : Int) (h : dlt_to_linktype dlt ≠ -1) :
    0 ≤ dlt_to_linktype dlt ∧ dlt_to_linktype dlt ≤ 263 := by
  rcases dlt_to_linktype_cases dlt with hnone | ⟨hmin, hmax, heq⟩ | hmem
  · exact absurd hnone h
  · rw [heq]
    unfold DLT_MATCHING_MIN at hmin
    unfold DLT_MATCHING_MAX at hmax
    omega
  · exact (by decide : ∀ e ∈ map, 0 ≤ e.2 ∧ e.2 ≤ 263) _ hmem

theorem linktype_to_dlt_matching {dlt : Int} (hmin : DLT_MATCHING_MIN ≤ dlt)
    (hmax : dlt ≤ DLT_MATCHING_MAX) : linktype_to_dlt dlt = dlt := by
  unfold linktype_to_dlt
  split
  · next h => exact h.symm
  · split
    · next h => exact h.symm
    · split
      · rfl
      · -- one value is in the range of the one table and not in that of the other
        next hout =>
        have hdlt : dlt = 263 := by
          unfold DLT_MATCHING_MIN at hmin
          unfold DLT_MATCHING_MAX at hmax
          unfold LINKTYPE_MATCHING_MIN LINKTYPE_MATCHING_MAX at hout
          omega
        subst hdlt
        rfl

/-- What a link-layer type that savefiles support comes back as. -/
theorem linktype_to_dlt_of_supported {dlt : Int} (h : dlt_to_linktype dlt ≠ -1) :
    linktype_to_dlt (dlt_to_linktype dlt) =
      if dlt = DLT_ATM_CLIP then LINKTYPE_ATM_CLIP else dlt := by
  rcases dlt_to_linktype_cases dlt with hnone | ⟨hmin, hmax, heq⟩ | hmem
  · exact absurd hnone h
  · rw [heq, linktype_to_dlt_matching hmin hmax, if_neg]
    rintro rfl
    exact absurd hmin (by decide)
  · exact (by decide : ∀ e ∈ map, linktype_to_dlt e.2 =
      if e.1 = DLT_ATM_CLIP then LINKTYPE_ATM_CLIP else e.1) _ hmem

/-- A link-layer type that is written to a file comes back from it, but for `DLT_ATM_CLIP`: its
file value lies in the range in which the reading side keeps values as they are. -/
theorem linktype_round_trip (dlt : Int) (h : dlt_to_linktype dlt ≠ -1) :
    linktype_to_dlt (dlt_to_linktype dlt) = dlt ↔ dlt ≠ DLT_ATM_CLIP := by
  rw [linktype_to_dlt_of_supported h]
  split
  · next hclip =>
    subst hclip
    decide
  · next hother => exact ⟨fun _ => hother, fun _ => rfl⟩

theorem linktype_round_trip_raw : linktype_to_dlt (dlt_to_linktype DLT_RAW) = DLT_RAW ↔
    DLT_RAW ≠ DLT_ATM_CLIP :=
  linktype_round_trip DLT_RAW (by decide)

end Savefile

end Jxnet
