import Jxnet.Packet.Packet
import Jxnet.Packet.Registration

namespace Jxnet

open Java ByteBuffer

namespace UDP

section Words

variable (x0 x1 x2 x3 x4 x5 x6 x7 : JByte) (rest : Bytes)

/-- The length word is read and dropped. -/
theorem newInstance_cons :
    newInstance (x0 :: x1 :: x2 :: x3 :: x4 :: x5 :: x6 :: x7 :: rest) =
      .ok ⟨shortOf x0 x1, shortOf x2 x3, 0, shortOf x6 x7, some rest⟩ := by
  have hnew := newInstance_append (shortOf x0 x1) (shortOf x2 x3) (shortOf x4 x5) (shortOf x6 x7)
    rest
  simp only [shortBytes_shortOf, List.cons_append, List.nil_append] at hnew
  exact hnew

/-- The encoder computes the length word from the payload. -/
theorem toBytes_cons (length : JShort) :
    ∃ u, toBytes ⟨shortOf x0 x1, shortOf x2 x3, length, shortOf x6 x7, some rest⟩ =
      .ok (u, x0 :: x1 :: x2 :: x3 :: (shortBytes (BitVec.ofNat 16 (8 + rest.length)) ++
        x6 :: x7 :: rest)) := by
  rw [toBytes_eq]
  refine ⟨_, congrArg Except.ok (Prod.ext rfl ?_)⟩
  simp [bytes, getSourcePort, getDestinationPort, getLength, getChecksum]

end Words

/-- `newInstance(b).toBytes()`. -/
def reencode (b : Bytes) : Except JavaException Bytes :=
  (newInstance b).bind fun u => Prod.snd <$> u.toBytes

/-- A datagram as long as it says is written back, since the encoder computes the length that
the decoder has lost. -/
theorem reencode_of_length (b : Bytes) (h : 8 ≤ b.length)
    (hl : (shortAt b 4).toNat = b.length) : reencode b = .ok b := by
  obtain ⟨x0, x1, x2, x3, x4, x5, x6, x7, rest, rfl⟩ := exists_eight h
  obtain ⟨u, hu⟩ := toBytes_cons x0 x1 x2 x3 x6 x7 rest 0
  have hword : BitVec.ofNat 16 (8 + rest.length) = shortOf x4 x5 := by
    have hsize : 8 + rest.length = (shortOf x4 x5).toNat := by
      simp only [List.length_cons] at hl
      rw [Nat.add_comm]
      exact hl.symm
    rw [hsize, BitVec.ofNat_toNat, BitVec.setWidth_eq]
  rw [reencode, newInstance_cons, Except.bind, hu, hword, shortBytes_shortOf]
  rfl

/-- The decoded object holds all four words iff the length word is the 0 that the constructor
left. -/
theorem newInstance_words_iff (b : Bytes) (h : 8 ≤ b.length) :
    ((∃ u, newInstance b = .ok u ∧ u.getSourcePort = shortAt b 0 ∧
        u.getDestinationPort = shortAt b 2 ∧ u.getLength = shortAt b 4 ∧
        u.getChecksum = shortAt b 6 ∧ u.nextPacket = some (b.drop 8)) ∧
      ((shortAt b 4).toNat = b.length → reencode b = .ok b)) ↔ shortAt b 4 = 0 := by
  constructor
  · intro hall
    obtain ⟨⟨u, hu, -, -, hl, -⟩, -⟩ := hall
    obtain ⟨x0, x1, x2, x3, x4, x5, x6, x7, rest, rfl⟩ := exists_eight h
    rw [newInstance_cons] at hu
    cases hu
    exact hl.symm.trans (mask16_eq 0)
  · intro h0
    refine ⟨?_, reencode_of_length b h⟩
    obtain ⟨x0, x1, x2, x3, x4, x5, x6, x7, rest, rfl⟩ := exists_eight h
    exact ⟨_, newInstance_cons x0 x1 x2 x3 x4 x5 x6 x7 rest, mask16_eq _, mask16_eq _,
      (mask16_eq 0).trans h0.symm, mask16_eq _, rfl⟩

/-- A datagram of nine bytes that says so. -/
def nineBytes : Bytes := [0, 1, 0, 2, 0, 9, 0, 0, 5]

theorem length_is_lost :
    8 ≤ nineBytes.length ∧
      ∀ u, newInstance nineBytes = .ok u → u.getLength ≠ shortAt nineBytes 4 := by
  refine ⟨by decide, ?_⟩
  intro u hu
  cases hu
  decide

theorem nineBytes_words :
    ¬ ((∃ u, newInstance nineBytes = .ok u ∧ u.getSourcePort = shortAt nineBytes 0 ∧
        u.getDestinationPort = shortAt nineBytes 2 ∧ u.getLength = shortAt nineBytes 4 ∧
        u.getChecksum = shortAt nineBytes 6 ∧ u.nextPacket = some (nineBytes.drop 8)) ∧
      ((shortAt nineBytes 4).toNat = nineBytes.length → reencode nineBytes = .ok nineBytes)) :=
  fun h => absurd ((newInstance_words_iff nineBytes (by decide)).mp h) (by decide)

end UDP

namespace ICMP

variable {R : Registries}

/-- A registered pair of numbers is found under itself. -/
theorem getKey_of_registered (hR : ICMPTypeAndCode.Reachable R.icmpTypeAndCode) {type code : JByte}
    (hk : R.icmpTypeAndCode.containsKey (type, code) = true) :
    (ICMPTypeAndCode.getTypeAndCode R.icmpTypeAndCode type code).type = type ∧
      (ICMPTypeAndCode.getTypeAndCode R.icmpTypeAndCode type code).code = code := by
  have hkey := ((LooksUp.getD hR.keyed ICMPTypeAndCode.UNKNOWN).value_iff (type, code)).mpr
    (.inl hk)
  exact ⟨congrArg Prod.fst hkey, congrArg Prod.snd hkey⟩

/-- What a message is decoded to. -/
def ofBytes (R : Registries) (type code : JByte) (checksum : JShort) (rest : Bytes) : ICMP :=
  ⟨ICMPTypeAndCode.getTypeAndCode R.icmpTypeAndCode type code, checksum, some rest⟩

theorem newInstance_cons (type code : JByte) (checksum : JShort) (rest : Bytes) :
    ICMPv4.newInstance R (type :: code :: (shortBytes checksum ++ rest)) =
      .ok (ofBytes R type code checksum rest) :=
  ICMPv4.newInstance_append R type code checksum rest

theorem bytes_ofBytes (hR : ICMPTypeAndCode.Reachable R.icmpTypeAndCode) {type code : JByte}
    (hk : R.icmpTypeAndCode.containsKey (type, code) = true) (checksum : JShort) (rest : Bytes) :
    ICMPv4.bytes (ofBytes R type code checksum rest)
      (ICMPTypeAndCode.getTypeAndCode R.icmpTypeAndCode type code) =
      type :: code :: (shortBytes checksum ++ rest) := by
  obtain ⟨htype, hcode⟩ := getKey_of_registered hR hk
  rw [ICMPv4.bytes, htype, hcode]
  rfl

/-- A message with a registered type and code is written back, by `ICMPv4` with the checksum
that it computes where there was none. -/
theorem reencode_registered (hR : ICMPTypeAndCode.Reachable R.icmpTypeAndCode) (b : Bytes)
    (h : 4 ≤ b.length) (hk : R.icmpTypeAndCode.containsKey (byteAt b 0, byteAt b 1) = true) :
    (∃ p, ICMPv6.newInstance R b = .ok p ∧ ICMPv6.toBytes p = .ok b) ∧
    ∃ p p' bytes, ICMPv4.newInstance R b = .ok p ∧ ICMPv4.toBytes p = .ok (p', bytes) ∧
      (shortAt b 2 ≠ 0 → bytes = b) ∧
      (shortAt b 2 = 0 → bytes = b.take 2 ++ (shortBytes p'.getChecksum ++ b.drop 4)) ∧
      ICMPv4.newInstance R bytes = .ok p' := by
  obtain ⟨type, code, checksum, rest, rfl⟩ := exists_fields h
  have hk : R.icmpTypeAndCode.containsKey (type, code) = true := hk
  have hchecksum : shortAt (type :: code :: (shortBytes checksum ++ rest)) 2 = checksum :=
    shortAt_append [type, code] rest checksum rfl
  have hbytes := bytes_ofBytes hR hk
  refine ⟨⟨_, newInstance_cons type code checksum rest, ?_⟩, ?_⟩
  · rw [ICMPv6.toBytes_eq _ _ rfl, hbytes]
  · rw [hchecksum]
    by_cases h0 : checksum = 0
    · have hfresh := ICMPv4.toBytes_fresh (ofBytes R type code checksum rest) _ rfl h0
      have hdrop : (type :: code :: (shortBytes checksum ++ rest)).drop 4 = rest := by
        simp [shortBytes]
      change ICMPv4.toBytes _ = .ok (ofBytes R type code _ rest,
        ICMPv4.bytes (ofBytes R type code _ rest) _) at hfresh
      rw [hbytes] at hfresh
      refine ⟨_, _, _, newInstance_cons type code checksum rest, hfresh, fun hne => absurd h0 hne,
        fun _ => ?_, newInstance_cons type code _ rest⟩
      rw [hdrop]
      rfl
    · have hstored := ICMPv4.toBytes_stored (ofBytes R type code checksum rest) _ rfl h0
      rw [hbytes] at hstored
      exact ⟨_, _, _, newInstance_cons type code checksum rest, hstored, fun _ => rfl,
        fun h => absurd h h0, newInstance_cons type code checksum rest⟩

/-- An echo request with an empty checksum field. -/
def echoRequest : Bytes := [8, 0, 0, 0, 1, 2]

theorem echoRequest_comes_back :
    ∃ p p' bytes, ICMPv4.newInstance Registries.initial echoRequest = .ok p ∧
      ICMPv4.toBytes p = .ok (p', bytes) ∧
      bytes = [8, 0] ++ (shortBytes p'.getChecksum ++ [1, 2]) := by
  obtain ⟨-, p, p', bytes, hp, hp', -, h0, -⟩ := reencode_registered (R := Registries.initial)
    .initial echoRequest (by decide) (by decide)
  exact ⟨p, p', bytes, hp, hp', h0 (by decide)⟩

end ICMP

namespace Routing

variable {R : Registries}

theorem toInt_neg_iff (x : JByte) : x.toInt < 0 ↔ 128 ≤ x.toNat := by
  rw [BitVec.toInt_eq_toNat_cond]
  split <;> omega

section Parts

variable (nextHeader extensionLength routingType segmentLeft : JByte) (routingData rest : Bytes)
  (h : extensionLength.toNat < 128) (hl : routingData.length = 4 + 8 * extensionLength.toNat)
include h hl

theorem newInstance_cons :
    newInstance R (nextHeader :: extensionLength :: routingType :: segmentLeft ::
      (routingData ++ rest)) = .ok ⟨IPProtocolType.getInstance R.ipProtocolType nextHeader,
        extensionLength, routingType, segmentLeft, some routingData, some rest⟩ := by
  have hpos : ¬ extensionLength.toInt < 0 := by
    rw [toInt_neg_iff]
    omega
  have hread := read_append R nextHeader extensionLength routingType segmentLeft [] routingData
    rest [] hpos hl
  rw [if_pos rfl] at hread
  exact (decode_whole _ _).trans hread

theorem toBytes_eq (protocol : IPProtocolType) :
    toBytes ⟨protocol, extensionLength, routingType, segmentLeft, some routingData, some rest⟩ =
      .ok (protocol.value :: extensionLength :: routingType :: segmentLeft ::
        (routingData ++ rest)) := by
  have hw : Writes (do
      put protocol.value
      put extensionLength
      put routingType
      put segmentLeft
      putBytes routingData
      putBytes rest) (protocol.value :: extensionLength :: routingType :: segmentLeft ::
        (routingData ++ rest)) :=
    .bind (.put _) <| .bind (.put _) <| .bind (.put _) <| .bind (.put _) <|
      .bind (.putBytes _) (.putBytes _)
  have hsize : ((FIXED_ROUTING_HEADER_LENGTH : Nat) : Int) + (FIXED_ROUTING_DATA_LENGTH : Nat) +
      8 * extensionLength.toInt + ((some rest).getD []).length =
        ((8 + 8 * extensionLength.toNat + rest.length : Nat) : Int) := by
    rw [BitVec.toInt_eq_toNat_of_lt (by omega), FIXED_ROUTING_HEADER_LENGTH,
      FIXED_ROUTING_DATA_LENGTH, Option.getD_some]
    omega
  simp only [toBytes, hsize]
  refine hw.encode_exact ?_
  simp [hl]
  omega

end Parts

/-- A header is decoded and written back iff its length byte is not negative as a `byte`. -/
theorem reencode_routing_iff (hR : R.Reachable) (b : Bytes)
    (hl : 8 + 8 * (byteAt b 1).toNat ≤ b.length)
    (hk : R.ipProtocolType.containsKey (byteAt b 0) = true) :
    (∃ r, newInstance R b = .ok r ∧
        r.routingData = some ((b.drop 4).take (4 + 8 * (byteAt b 1).toNat)) ∧
        r.payload = some (b.drop (8 + 8 * (byteAt b 1).toNat)) ∧ r.toBytes = .ok b) ↔
      (byteAt b 1).toNat < 128 := by
  have h4 : 0 + 4 ≤ b.length := by omega
  obtain ⟨nextHeader, extensionLength, routingType, segmentLeft, tail, rfl, -⟩ := exists_four h4
  have hlength : byteAt (nextHeader :: extensionLength :: routingType :: segmentLeft :: tail) 1 =
    extensionLength := rfl
  have hnext : byteAt (nextHeader :: extensionLength :: routingType :: segmentLeft :: tail) 0 =
    nextHeader := rfl
  rw [hlength] at hl ⊢
  rw [hnext] at hk
  by_cases h : extensionLength.toNat < 128
  · have htail : 0 + (4 + 8 * extensionLength.toNat) ≤ tail.length := by
      simp only [List.length_cons] at hl
      omega
    obtain ⟨routingData, rest, rfl, hd, -⟩ := exists_chunk _ htail
    have hvalue := ((LooksUp.getD hR.keyed.ipProtocolType IPProtocolType.UNKNOWN).value_iff
      nextHeader).mpr (.inl hk)
    have hbytes := toBytes_eq extensionLength routingType segmentLeft routingData rest h hd
      (IPProtocolType.getInstance R.ipProtocolType nextHeader)
    rw [IPProtocolType.getInstance, hvalue] at hbytes
    refine ⟨fun _ => h, fun _ => ⟨_, newInstance_cons nextHeader extensionLength routingType
      segmentLeft routingData rest h hd, ?_, ?_, hbytes⟩⟩
    · exact congrArg some (List.take_left' hd).symm
    · have hhead : (nextHeader :: extensionLength :: routingType :: segmentLeft ::
          routingData).length = 8 + 8 * extensionLength.toNat := by
        simp only [List.length_cons, hd]
        omega
      exact congrArg some (@List.drop_left' _ _ rest _ hhead).symm
  · have hneg := (toInt_neg_iff extensionLength).mpr (by omega)
    rw [newInstance_negative R nextHeader extensionLength routingType segmentLeft tail hneg]
    simp [h]

/-- A header whose length byte is 128, with the 1032 bytes that it counts. -/
def longHeader : Bytes := [6, 0x80] ++ List.replicate 1030 0

theorem longHeader_is_refused :
    8 + 8 * (byteAt longHeader 1).toNat ≤ longHeader.length ∧
      Registries.initial.ipProtocolType.containsKey (byteAt longHeader 0) = true ∧
      newInstance Registries.initial longHeader = .error .negativeArraySize := by
  refine ⟨?_, by decide, ?_⟩
  · have hbyte : byteAt longHeader 1 = 0x80 := rfl
    rw [hbyte, longHeader, List.length_append, List.length_replicate]
    decide
  · exact newInstance_negative _ 6 0x80 0 0 _ (by decide)

/-- A header whose length byte is 1, and a payload of two bytes. -/
def shortHeader : Bytes := [6, 1] ++ List.replicate 14 0 ++ [3, 4]

theorem shortHeader_comes_back :
    ∃ r, newInstance Registries.initial shortHeader = .ok r ∧ r.payload = some [3, 4] ∧
      r.toBytes = .ok shortHeader := by
  obtain ⟨r, hr, -, hpayload, hbytes⟩ := (reencode_routing_iff (R := Registries.initial) .initial
    shortHeader (by decide) (by decide)).mpr (by decide)
  exact ⟨r, hr, hpayload, hbytes⟩

end Routing

namespace Fragment

variable {R : Registries}

section Words

variable (x0 x1 x2 x3 x4 x5 x6 : JByte) (rest : Bytes)

/-- What seven bytes decode to: the word of offset and flag is taken one byte too early, and
nothing is taken for the payload. -/
def ofBytes (R : Registries) : Fragment :=
  ⟨some (IPProtocolType.getInstance R.ipProtocolType x0),
    toShort ((promote (shortOf x1 x2)).sshiftRight 3 &&& 0x1fff#32),
    toByte (promote (shortOf x1 x2) &&& 0x1#32), intOf x3 x4 x5 x6, none⟩

theorem newInstance_cons : newInstance R (x0 :: x1 :: x2 :: x3 :: x4 :: x5 :: x6 :: rest) =
    .ok (ofBytes x0 x1 x2 x3 x4 x5 x6 R) := by
  refine (decode_whole _ _).trans ?_
  simp only [read, new, ofBytes, eval_bind, get_cons, getShort_cons, getInt_cons, eval_pure]

/-- The word that is written is the one that was read, the two reserved bits excepted. -/
theorem word_eq (s : JShort) :
    toShort ((promote (toShort ((promote s).sshiftRight 3 &&& 0x1fff#32)) &&& 0x1fff#32) <<< 3 |||
      (promote (toByte (promote s &&& 0x1#32)) &&& 0x1#32)) = s &&& 0xfff9#16 := by
  apply BitVec.eq_of_getLsbD_eq
  intro i hi
  rw [getLsbD_toShort _ i hi]
  interval_cases i <;> simp [promote, toShort, toByte, BitVec.getElem_signExtend,
    BitVec.getElem_sshiftRight]

theorem shortOf_zero_and (x : JByte) : shortOf 0 x &&& 0xfff9#16 = shortOf 0 (x &&& 0xf9#8) := by
  revert x
  decide

theorem toBytes_ofBytes (hR : R.Reachable) (hk : R.ipProtocolType.containsKey x0 = true) :
    (ofBytes x0 x1 x2 x3 x4 x5 x6 R).toBytes =
      .ok (x0 :: 0 :: (shortBytes (shortOf x1 x2 &&& 0xfff9#16) ++ [x3, x4, x5, x6])) := by
  have hvalue := ((LooksUp.getD hR.keyed.ipProtocolType IPProtocolType.UNKNOWN).value_iff
    x0).mpr (.inl hk)
  have hw : Writes (do
      put x0
      put 0
      putShort (shortOf x1 x2 &&& 0xfff9#16)
      putInt (intOf x3 x4 x5 x6)
      putOptional none) _ :=
    .bind (.put _) <| .bind (.put _) <| .bind (.putShort _) <| .bind (.putInt _) (.putOptional _)
  have hencode := hw.encode_exact (n := 8) (by simp)
  simp only [toBytes, ofBytes, word_eq, IPProtocolType.getInstance, hvalue]
  rw [intBytes_intOf] at hencode
  exact hencode

end Words

/-- The header is written back iff all its bytes behind the next header are 0 and nothing
follows it: the reserved byte is not skipped, so every later byte moves. -/
theorem reencode_fragment_iff (hR : R.Reachable) (b : Bytes) (h : 8 ≤ b.length)
    (h1 : byteAt b 1 = 0) (h3 : byteAt b 3 &&& 6#8 = 0)
    (hk : R.ipProtocolType.containsKey (byteAt b 0) = true) :
    (∃ f, newInstance R b = .ok f ∧ f.toBytes = .ok b ∧
      (b.drop 8 ≠ [] → (Packet.fragment f).getPacket R =
        (IPProtocolType.getInstance R.ipProtocolType (byteAt b 0)).decode R (some (b.drop 8)))) ↔
      b.drop 1 = List.replicate 7 0 := by
  obtain ⟨x0, x1, x2, x3, x4, x5, x6, x7, rest, rfl⟩ := exists_eight h
  have hnew := newInstance_cons (R := R) x0 x1 x2 x3 x4 x5 x6 (x7 :: rest)
  have hbytes := toBytes_ofBytes x0 x1 x2 x3 x4 x5 x6 hR hk
  have hx1 : x1 = 0 := h1
  subst hx1
  have hword := shortOf_zero_and x2
  rw [hword, shortBytes_shortOf] at hbytes
  constructor
  · intro hall
    obtain ⟨f, hf, hback, -⟩ := hall
    rw [hnew] at hf
    cases hf
    rw [hbytes] at hback
    have hlist := Except.ok.inj hback
    simp only [List.cons_append, List.nil_append, List.cons.injEq] at hlist
    -- every byte has to equal the one in front of it
    obtain ⟨-, -, hx2, hx3, hx4, hx5, hx6, hx7, hrest⟩ := hlist
    have hmask : (0 : JByte) &&& 249#8 = 0 := by decide
    rw [← hx2, hmask] at hx3
    rw [← hrest, ← hx7, ← hx6, ← hx5, ← hx4, ← hx3, ← hx2]
    rfl
  · intro hzero
    have hlist : 0 :: x2 :: x3 :: x4 :: x5 :: x6 :: x7 :: rest = List.replicate 7 0 := hzero
    simp only [List.replicate_succ, List.replicate_zero, List.cons.injEq] at hlist
    obtain ⟨-, rfl, rfl, rfl, rfl, rfl, rfl, rfl⟩ := hlist
    exact ⟨_, hnew, hbytes, fun hne => absurd rfl hne⟩

/-- A fragment of a UDP datagram at offset 1, with one byte of it. -/
def fragmentHeader : Bytes := [17, 0, 0, 8, 0, 0, 0, 1, 5]

theorem fragmentHeader_is_shifted :
    8 ≤ fragmentHeader.length ∧ byteAt fragmentHeader 1 = 0 ∧
      byteAt fragmentHeader 3 &&& 6#8 = 0 ∧
      Registries.initial.ipProtocolType.containsKey (byteAt fragmentHeader 0) = true ∧
      ∀ f, newInstance Registries.initial fragmentHeader = .ok f →
        f.toBytes = .ok [17, 0, 0, 0, 8, 0, 0, 0] ∧
          (Packet.fragment f).getPacket Registries.initial = .ok none := by
  refine ⟨by decide, by decide, by decide, by decide, ?_⟩
  intro f hf
  cases hf
  exact ⟨by decide, rfl⟩

theorem fragmentHeader_reencode :
    ¬ ∃ f, newInstance Registries.initial fragmentHeader = .ok f ∧
      f.toBytes = .ok fragmentHeader ∧
      (fragmentHeader.drop 8 ≠ [] → (Packet.fragment f).getPacket Registries.initial =
        (IPProtocolType.getInstance Registries.initial.ipProtocolType
          (byteAt fragmentHeader 0)).decode Registries.initial (some (fragmentHeader.drop 8))) :=
  fun h => absurd ((reencode_fragment_iff (R := Registries.initial) .initial fragmentHeader
    (by decide) (by decide) (by decide) (by decide)).mp h) (by decide)

end Fragment

end Jxnet
