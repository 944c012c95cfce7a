import PyMesh.Library.Tlv
import PyMesh.Ipaddress.Parse

/-! `STUNClient._parse_stun_response`: which datagrams set the public endpoint of a node. -/
namespace PyMesh

open Bytes

namespace STUNClient

def magicCookie : Nat := 0x2112A442

/-- `socket.inet_ntoa` of the four bytes of a number. -/
def inetNtoa (ipInt : Nat) : String := IPv4Address.str (Address.ofNat ipInt)

/-- The address in an attribute, if it is one that the loop returns. -/
def addressOf (attrType : Nat) (attrData : List UInt8) : Option (String × Nat) :=
  if attrType = 0x0020 ∧ 8 ≤ attrData.length then
    let family := ofBigEndian (slice attrData 1 2)
    if family = 0x01 then
      let xorPort := ofBigEndian (slice attrData 2 4)
      let port := xorPort ^^^ (magicCookie >>> 16)
      let xorIp := ofBigEndian (slice attrData 4 8)
      let ipInt := xorIp ^^^ magicCookie
      some (inetNtoa ipInt, port)
    else none
  else if attrType = 0x0001 ∧ 8 ≤ attrData.length then
    let family := ofBigEndian (slice attrData 1 2)
    if family = 0x01 then
      let port := ofBigEndian (slice attrData 2 4)
      some (inetNtoa (ofBigEndian (slice attrData 4 8)), port)
    else none
  else none

/-- The loop over the attributes. -/
def parseAttributes (data : List UInt8) (offset : Nat) : Option (String × Nat) :=
  if offset < data.length then
    if data.length < offset + 4 then none
    else
      let attrType := ofBigEndian (slice data offset (offset + 2))
      let attrLen := ofBigEndian (slice data (offset + 2) (offset + 4))
      if data.length < offset + 4 + attrLen then none
      else
        let attrData := slice data (offset + 4) (offset + 4 + attrLen)
        match addressOf attrType attrData with
        | some address => some address
        | none => parseAttributes data (offset + 4 + (attrLen + 3) / 4 * 4)
  else none
termination_by data.length - offset

/-- The message type, the length and the cookie are read too, and nothing is done with them, nor
with the transaction id. -/
def parseStunResponse (data : List UInt8) (_transId : List UInt8) : Option (String × Nat) :=
  if data.length < 20 then none else parseAttributes data 20

def msgType (data : List UInt8) : Nat := ofBigEndian (slice data 0 2)

def msgLen (data : List UInt8) : Nat := ofBigEndian (slice data 2 4)

/-- The header of a Binding Success response to the request `transId`. -/
structure BindingSuccess (data transId : List UInt8) : Prop where
  type : msgType data = 0x0101
  cookie : ofBigEndian (slice data 4 8) = magicCookie
  transaction : slice data 8 20 = transId

/-- The first attribute that holds an address, wherever the header says the message ends. -/
def usedAttribute (data : List UInt8) : Option Tlv.Item :=
  if data.length < 20 then none
  else (Tlv.items data 20).find? fun i => (addressOf i.type i.value).isSome

/-- The attribute at an offset is complete and holds an IPv4 address: it is a MAPPED-ADDRESS or an
XOR-MAPPED-ADDRESS of eight bytes at least with the family 1. -/
structure HoldsAddress (data : List UInt8) (k : Nat) : Prop where
  type : slice data k (k + 2) = [0x00, 0x01] ∨ slice data k (k + 2) = [0x00, 0x20]
  length : 8 ≤ Tlv.declared data k
  family : slice data (k + 5) (k + 6) = [0x01]
  complete : Tlv.Complete data k

variable {data transId : List UInt8} {offset k : Nat} {address : String × Nat}

/-- One turn of the loop, when the attribute is complete. -/
theorem parseAttributes_item {i : Tlv.Item} (hi : Tlv.itemAt data offset = some i) :
    parseAttributes data offset = (addressOf i.type i.value).or
      (parseAttributes data (offset + 4 + Tlv.padded i.value.length)) := by
  have hlen := Tlv.length_value hi
  obtain ⟨hle, rfl⟩ := Tlv.itemAt_eq_some_iff.mp hi
  simp only at hlen ⊢
  rw [parseAttributes, if_pos (by omega), if_neg (by omega), if_neg (by omega), hlen, Tlv.padded]
  dsimp only
  split
  · rename_i h
    rw [h, Option.some_or]
  · rename_i h
    rw [h, Option.none_or]

/-- The loop ends at an attribute that is not complete. -/
theorem parseAttributes_none (hi : Tlv.itemAt data offset = none) :
    parseAttributes data offset = none := by
  have hle : data.length < offset + 4 + ofBigEndian (slice data (offset + 2) (offset + 4)) := by
    simpa [Tlv.itemAt] using hi
  rw [parseAttributes]
  split
  · split
    · rfl
    · exact if_pos hle
  · rfl

theorem parseAttributes_eq (data : List UInt8) (offset : Nat) : parseAttributes data offset =
    (Tlv.items data offset).findSome? fun i => addressOf i.type i.value := by
  fun_induction Tlv.items data offset with
  | case1 offset hlt hnone => exact parseAttributes_none hnone
  | case2 offset hlt i hi ih =>
    rw [parseAttributes_item hi, ih, List.findSome?_cons]
    cases addressOf i.type i.value <;> rfl
  | case3 offset hge => rw [parseAttributes, if_neg hge, List.findSome?_nil]

/-- The parser answers with the address of the first attribute that holds one. -/
theorem parseStunResponse_eq : parseStunResponse data transId =
    (usedAttribute data).bind fun i => addressOf i.type i.value := by
  unfold parseStunResponse usedAttribute
  split
  · rfl
  · rw [parseAttributes_eq, Tlv.findSome?_eq_bind_find?]

theorem isSome_addressOf_iff {attrType : Nat} {attrData : List UInt8} :
    (addressOf attrType attrData).isSome ↔ (attrType = 0x0001 ∨ attrType = 0x0020) ∧
      8 ≤ attrData.length ∧ ofBigEndian (slice attrData 1 2) = 0x01 := by
  unfold addressOf
  by_cases hlen : 8 ≤ attrData.length
  · by_cases hfamily : ofBigEndian (slice attrData 1 2) = 0x01
    · by_cases hx : attrType = 0x0020
      · simp [hx, hlen, hfamily]
      · by_cases hm : attrType = 0x0001
        · simp [hm, hlen, hfamily]
        · simp [hx, hm]
    · simp [hfamily]
  · simp [hlen]

/-- Which attribute the loop takes, on its bytes. -/
theorem holdsAddress_iff : HoldsAddress data k ↔
    ∃ i, Tlv.itemAt data k = some i ∧ (addressOf i.type i.value).isSome = true := by
  by_cases hc : Tlv.Complete data k
  · have hdeclared : k + 4 + Tlv.declared data k ≤ data.length := hc
    have hitem := Tlv.itemAt_of_complete hc
    have hlen := Tlv.length_value hitem
    have hplain : ofBigEndian (slice data k (k + 2)) = 0x0001 ↔
        slice data k (k + 2) = [0x00, 0x01] := ofBigEndian_slice_eq_iff [0x00, 0x01] (by omega) rfl
    have hxor : ofBigEndian (slice data k (k + 2)) = 0x0020 ↔
        slice data k (k + 2) = [0x00, 0x20] := ofBigEndian_slice_eq_iff [0x00, 0x20] (by omega) rfl
    rw [hitem]
    simp only [Option.some_inj, exists_eq_left', isSome_addressOf_iff] at hlen ⊢
    rw [hlen]
    have hfamily (h : 8 ≤ Tlv.declared data k) : ofBigEndian (slice (slice data (k + 4)
        (k + 4 + Tlv.declared data k)) 1 2) = 0x01 ↔ slice data (k + 5) (k + 6) = [0x01] := by
      rw [slice_slice (by omega)]
      exact ofBigEndian_slice_eq_iff [0x01] (by omega) rfl
    constructor
    · rintro ⟨htype, hlength, hone, -⟩
      exact ⟨htype.imp hplain.mpr hxor.mpr, hlength, (hfamily hlength).mpr hone⟩
    · rintro ⟨htype, hlength, hone⟩
      exact ⟨htype.imp hplain.mp hxor.mp, hlength, (hfamily hlength).mp hone, hc⟩
  · constructor
    · exact fun h => (hc h.complete).elim
    · rintro ⟨i, hi, -⟩
      exact (hc (Tlv.complete_of_itemAt hi)).elim

/-- The attribute that the parser takes is the first on its way that holds an address. -/
theorem usedAttribute_eq_some_iff {used : Tlv.Item} : usedAttribute data = some used ↔
    ∃ k, Tlv.Visits (HoldsAddress data) data 20 k ∧ HoldsAddress data k ∧
      Tlv.itemAt data k = some used := by
  unfold usedAttribute
  split
  · refine iff_of_false (by simp) ?_
    rintro ⟨k, hk, hholds, -⟩
    have hle := Tlv.le_of_visits hk
    have hcomplete : k + 4 + Tlv.declared data k ≤ data.length := hholds.complete
    omega
  · exact Tlv.find?_items_eq_some_iff fun k => holdsAddress_iff

/-- The header of a response on its bytes. -/
theorem bindingSuccess_iff (h : 20 ≤ data.length) : BindingSuccess data transId ↔
    slice data 0 2 = [0x01, 0x01] ∧ slice data 4 8 = [0x21, 0x12, 0xA4, 0x42] ∧
      slice data 8 20 = transId := by
  have htype : ofBigEndian (slice data 0 2) = 0x0101 ↔ slice data 0 2 = [0x01, 0x01] :=
    ofBigEndian_slice_eq_iff [0x01, 0x01] (by omega) rfl
  have hcookie : ofBigEndian (slice data 4 8) = magicCookie ↔
      slice data 4 8 = [0x21, 0x12, 0xA4, 0x42] :=
    ofBigEndian_slice_eq_iff [0x21, 0x12, 0xA4, 0x42] (by omega) rfl
  constructor
  · rintro ⟨ht, hc, htrans⟩
    exact ⟨htype.mp ht, hcookie.mp hc, htrans⟩
  · rintro ⟨ht, hc, htrans⟩
    exact ⟨htype.mpr ht, hcookie.mpr hc, htrans⟩

/-- Every address that the parser returns is authentic, if and only if the first attribute on its
way that holds an address, if there is one, comes in a datagram that starts like the response to
the request and declares the attribute as part of itself. -/
theorem authentic_iff (data transId : List UInt8) :
    (∀ address, parseStunResponse data transId = some address → BindingSuccess data transId ∧
      ∃ used, usedAttribute data = some used ∧ addressOf used.type used.value = some address ∧
        used.stop ≤ 20 + msgLen data) ↔
      ∀ k, Tlv.Visits (HoldsAddress data) data 20 k → HoldsAddress data k →
        slice data 0 2 = [0x01, 0x01] ∧ slice data 4 8 = [0x21, 0x12, 0xA4, 0x42] ∧
          slice data 8 20 = transId ∧ k + 4 + Tlv.declared data k ≤ 20 + msgLen data := by
  have hstop : ∀ {k used}, Tlv.itemAt data k = some used →
      used.stop = k + 4 + Tlv.declared data k := by
    intro k used hk
    rw [Tlv.Item.stop, Tlv.length_value hk, (Tlv.itemAt_eq_some_iff.mp hk).2]
    rfl
  have hlong : ∀ {k}, Tlv.Visits (HoldsAddress data) data 20 k → HoldsAddress data k →
      20 ≤ data.length := by
    intro k hk hholds
    have hle := Tlv.le_of_visits hk
    have hcomplete : k + 4 + Tlv.declared data k ≤ data.length := hholds.complete
    omega
  rw [parseStunResponse_eq]
  constructor
  · intro h k hk hholds
    obtain ⟨used, hitem, hsome⟩ := holdsAddress_iff.mp hholds
    have hused := usedAttribute_eq_some_iff.mpr ⟨k, hk, hholds, hitem⟩
    obtain ⟨address, haddress⟩ := Option.isSome_iff_exists.mp hsome
    obtain ⟨hheader, used', hused', -, hle⟩ := h address (by rw [hused]; exact haddress)
    obtain rfl : used = used' := Option.some.inj (hused.symm.trans hused')
    obtain ⟨htype, hcookie, htrans⟩ := (bindingSuccess_iff (hlong hk hholds)).mp hheader
    rw [hstop hitem] at hle
    exact ⟨htype, hcookie, htrans, hle⟩
  · intro h address haddress
    obtain ⟨used, hused, hof⟩ := Option.bind_eq_some_iff.mp haddress
    obtain ⟨k, hk, hholds, hitem⟩ := usedAttribute_eq_some_iff.mp hused
    obtain ⟨htype, hcookie, htrans, hle⟩ := h k hk hholds
    have hheader := (bindingSuccess_iff (hlong hk hholds)).mpr ⟨htype, hcookie, htrans⟩
    refine ⟨hheader, used, hused, hof, ?_⟩
    rw [hstop hitem]
    exact hle

/-- A datagram of zeros but for a MAPPED-ADDRESS is taken for the answer to any request. -/
theorem authentic_fails :
    let data := List.replicate 20 0 ++ [0, 1, 0, 8, 0, 1, 0x1f, 0x90, 6, 6, 6, 6]
    let transId := [1, 2, 3, 4, 5, 6, 7, 8, 9, 10, 11, 12]
    parseStunResponse data transId = some ("6.6.6.6", 8080) ∧ msgType data ≠ 0x0101 ∧
      slice data 8 20 ≠ transId ∧ msgLen data = 0 := by
  decide +kernel

end STUNClient

end PyMesh
