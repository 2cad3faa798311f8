import Jxnet.Core.Address
import Jxnet.Framework.JString

namespace Jxnet

open Java ByteBuffer Text

def colon : JChar := 0x3a

def dot : JChar := 0x2e

namespace Inet4Address

/-- One pass of the loop of `valueOf(String)`: `result[i]`. -/
def parseOctet (part : JString) : Except JavaException JByte :=
  if part.length = 0 then .error .illegalArgument
  else if part.length > 1 ∧ startsWith part (chars "0") then .error .illegalArgument
  else match Integer.parseInt part 10 with
    | none => .error .illegalArgument
    | some x =>
      if (promote (toByte x)).toInt > 0xffff then .error .illegalArgument else .ok (toByte x)

def valueOfString (inet4Address : JString) : Except JavaException Inet4Address :=
  let parts := split dot inet4Address
  if parts.length ≠ IPV4_ADDRESS_LENGTH then .error .illegalArgument
  else do
    let result ← parts.mapM parseOctet
    valueOf result

end Inet4Address

namespace Inet6Address

def IPV6_MAX_HEX_GROUPS : Nat := 8

def IPV6_MAX_HEX_DIGITS_PER_GROUP : Nat := 4

/-- The checks made on the whole string. -/
def checkColons (inet6Address : JString) : Except JavaException Unit :=
  if contains inet6Address [colon, colon] ∧
      indexOf inet6Address [colon, colon] ≠ lastIndexOf inet6Address [colon, colon] then
    .error .illegalArgument
  else if (startsWith inet6Address [colon] ∧ ¬ startsWith inet6Address [colon, colon]) ∨
      (endsWith inet6Address [colon] ∧ ¬ endsWith inet6Address [colon, colon]) then
    .error .illegalArgument
  else .ok ()

/-- `split(":")`, with the empty part that stands for "::" put back or left alone. -/
def octets (inet6Address : JString) : List JString :=
  let parts := split colon inet6Address
  if contains inet6Address [colon, colon] then
    if endsWith inet6Address [colon, colon] then parts ++ [[]]
    else if startsWith inet6Address [colon, colon] ∧ parts ≠ [] then parts.tail
    else parts
  else parts

/-- The text with a dotted quad at its end rewritten as two groups. -/
def rewriteQuad (inet6Address octet : JString) : Except JavaException JString := do
  let quad ← Inet4Address.valueOfString octet
  let byte i := promote (quad.toBytes.getD i 0) &&& 0xff#32
  let initialPart := inet6Address.take ((lastIndexOf inet6Address [colon]).elim 0 (· + 1))
  let penultimate := Integer.toHexString (byte 0 <<< 8 ||| byte 1)
  let ultimate := Integer.toHexString (byte 2 <<< 8 ||| byte 3)
  return initialPart ++ (penultimate ++ ultimate)

/-- The locals of the loop over the octets. -/
structure OctetState where
  inet6Address : JString
  validOctets : Nat
  emptyOctets : Nat
  deriving DecidableEq, Repr

def countOctets (st : OctetState) : List JString → Except JavaException OctetState
  | [] => .ok st
  | octet :: rest =>
    if octet.length = 0 then
      if st.emptyOctets + 1 > 1 then .error .illegalArgument
      else countOctets ⟨st.inet6Address, st.validOctets + 1, st.emptyOctets + 1⟩ rest
    else if rest = [] ∧ contains octet [dot] then
      match rewriteQuad st.inet6Address octet with
      | .ok inet6Address => countOctets ⟨inet6Address, st.validOctets + 2, 0⟩ rest
      | .error _ => .error .illegalArgument
    else if octet.length > IPV6_MAX_HEX_DIGITS_PER_GROUP then .error .illegalArgument
    else countOctets ⟨st.inet6Address, st.validOctets + 1, 0⟩ rest

/-- The first pass: the text that the second pass reads. -/
def checkOctets (inet6Address : JString) : Except JavaException JString := do
  checkColons inet6Address
  let parts := octets inet6Address
  -- no length is above 8 and below 3
  if parts.length > IPV6_MAX_HEX_GROUPS ∧ parts.length < 3 then .error .illegalArgument
  else
    let st ← countOctets ⟨inet6Address, 0, 0⟩ parts
    if st.validOctets > IPV6_MAX_HEX_GROUPS ∨
        (st.validOctets < IPV6_MAX_HEX_GROUPS ∧ ¬ contains inet6Address [colon, colon]) then
      .error .illegalArgument
    else .ok st.inet6Address

/-- One pass of the loop over the inner parts. -/
def skipStep (parts : List JString) (skipIndex : Option Nat) (i : Nat) :
    Except JavaException (Option Nat) :=
  if (parts.getD i []).length = 0 then
    if skipIndex.isSome then .error .illegalArgument else .ok (some i)
  else .ok skipIndex

/-- The index of the only empty part between the first and the last one; `none` is -1. -/
def findSkipIndex (parts : List JString) : Except JavaException (Option Nat) :=
  (List.range' 1 (parts.length - 2)).foldlM (skipStep parts) none

/-- `if (edge.length() == 0 && --count != 0) return null`. -/
def dropEdge (edge : JString) (count : Nat) : Option Nat :=
  if edge.length = 0 then if count - 1 ≠ 0 then none else some (count - 1) else some count

/-- `partsHi` and `partsLo`. -/
def countParts (parts : List JString) : Option Nat → Option (Nat × Nat)
  | some skipIndex => do
    let partsHi ← dropEdge (parts.getD 0 []) skipIndex
    let partsLo ← dropEdge (parts.getD (parts.length - 1) []) (parts.length - skipIndex - 1)
    return (partsHi, partsLo)
  | none => some (parts.length, 0)

/-- `none` is a `NumberFormatException`. -/
def parseHextet (ipPart : JString) : Option JShort := do
  let hextet ← Integer.parseInt ipPart 16
  if hextet.toInt > 0xffff then none else some (toShort hextet)

/-- What the three loops put into `rawBytes`. -/
def hextets (parts : List JString) (partsHi partsSkipped partsLo : Nat) :
    Option (List JShort) := do
  let hi ← (parts.take partsHi).mapM parseHextet
  let lo ← (parts.drop (parts.length - partsLo)).mapM parseHextet
  return hi ++ (List.replicate partsSkipped 0 ++ lo)

def putShorts : List JShort → Op Unit
  | [] => pure ()
  | s :: ss => do
    putShort s
    putShorts ss

/-- The array of `ByteBuffer.allocate(2 * 8)`, as an address. -/
def ofHextets (ss : List JShort) : Except JavaException Inet6Address := do
  let rawBytes ← encode (2 * 8) (putShorts ss)
  valueOf rawBytes

/-- The second pass; `none` is null. -/
def parseParts (inet6Address : JString) : Except JavaException (Option Inet6Address) :=
  let parts := splitLimit colon (8 + 2) inet6Address
  if parts.length < 3 ∨ parts.length > 8 + 1 then .error .illegalArgument
  else do
    let skipIndex ← findSkipIndex parts
    match countParts parts skipIndex with
    | none => .ok none
    | some (partsHi, partsLo) =>
      let partsSkipped : Int := 8 - (partsHi + partsLo)
      if ¬ (if skipIndex.isSome then partsSkipped ≥ 1 else partsSkipped = 0) then .ok none
      else match hextets parts partsHi partsSkipped.toNat partsLo with
        | none => .ok none
        | some ss => some <$> ofHextets ss

def valueOfString (inet6Address : JString) : Except JavaException (Option Inet6Address) := do
  let inet6Address ← checkOctets inet6Address
  parseParts inet6Address

end Inet6Address

inductive InetAddress where
  | inet4 (a : Inet4Address)
  | inet6 (a : Inet6Address)
  deriving DecidableEq, Repr

namespace InetAddress

/-- `none` is null. -/
def valueOf (ipString : JString) : Except JavaException (Option InetAddress) :=
  if contains ipString [colon] then
    match Inet6Address.valueOfString ipString with
    | .ok a => .ok (a.map inet6)
    | .error _ => .error .illegalArgument
  else
    match Inet4Address.valueOfString ipString with
    | .ok a => .ok (some (inet4 a))
    | .error _ => .error .illegalArgument

def isValidAddress (ipString : JString) : Bool :=
  match valueOf ipString with
  | .ok a => a.isSome
  | .error _ => false

end InetAddress

end Jxnet
