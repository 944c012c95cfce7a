import PyMesh.Discovery.Stun

/-! `STUNClient._parse_stun_response` with all that could raise in it, and what it makes of a
response that carries a list of attributes. -/
namespace PyMesh

open Bytes

namespace STUNClient

/-- What `struct`, an index and `inet_ntoa` raise. -/
inductive ParseError
  | structError
  | indexError
  | osError
deriving DecidableEq

/-- `struct.unpack` of one number of `n` bytes. -/
def unpack (n : Nat) (bs : List UInt8) : Except ParseError Nat :=
  if bs.length = n then .ok (ofBigEndian bs) else .error .structError

/-- `struct.unpack(">HH", bs)` -/
def unpackPair (bs : List UInt8) : Except ParseError (Nat × Nat) :=
  if bs.length = 4 then .ok (ofBigEndian (slice bs 0 2), ofBigEndian (slice bs 2 4))
  else .error .structError

/-- `struct.pack(">I", n)` -/
def packInt (n : Nat) : Except ParseError (List UInt8) :=
  if n < 2 ^ 32 then .ok (pack32 n) else .error .structError

/-- `bs[i]` -/
def index (bs : List UInt8) (i : Nat) : Except ParseError Nat :=
  if h : i < bs.length then .ok bs[i].toNat else .error .indexError

/-- `socket.inet_ntoa(packed)` -/
def tryInetNtoa (packed : List UInt8) : Except ParseError String :=
  if packed.length = 4 then .ok (inetNtoa (ofBigEndian packed)) else .error .osError

/-- `addressOf`, with what can raise while the attribute is read. -/
def tryAddressOf (attrType : Nat) (attrData : List UInt8) :
    Except ParseError (Option (String × Nat)) := do
  if attrType = 0x0020 ∧ 8 ≤ attrData.length then
    let family ← index attrData 1
    if family = 0x01 then
      let xorPort ← unpack 2 (slice attrData 2 4)
      let port := xorPort ^^^ (magicCookie >>> 16)
      let xorIp ← unpack 4 (slice attrData 4 8)
      let ipInt := xorIp ^^^ magicCookie
      let ip ← tryInetNtoa (← packInt ipInt)
      return some (ip, port)
    else return none
  else if attrType = 0x0001 ∧ 8 ≤ attrData.length then
    let family ← index attrData 1
    if family = 0x01 then
      let port ← unpack 2 (slice attrData 2 4)
      let ip ← tryInetNtoa (slice attrData 4 8)
      return some (ip, port)
    else return none
  else return none

/-- `parseAttributes`, with what can raise in the loop. -/
def tryParseAttributes (data : List UInt8) (offset : Nat) :
    Except ParseError (Option (String × Nat)) := do
  if offset < data.length then
    if data.length < offset + 4 then return none
    else
      let (attrType, attrLen) ← unpackPair (slice data offset (offset + 4))
      if data.length < offset + 4 + attrLen then return none
      else
        let attrData := slice data (offset + 4) (offset + 4 + attrLen)
        match ← tryAddressOf attrType attrData with
        | some address => return some address
        | none => tryParseAttributes data (offset + 4 + (attrLen + 3) / 4 * 4)
  else return none
termination_by data.length - offset

def tryParseStunResponse (data _transId : List UInt8) :
    Except ParseError (Option (String × Nat)) := do
  if data.length < 20 then return none
  else
    let (_msgType, _msgLen) ← unpackPair (slice data 0 4)
    let _magic ← unpack 4 (slice data 4 8)
    tryParseAttributes data 20

variable {data bs : List UInt8} {n i j : Nat}

theorem unpack_slice (h : j ≤ data.length) (hn : i + n = j) :
    unpack n (slice data i j) = .ok (ofBigEndian (slice data i j)) := by
  refine if_pos ?_
  rw [length_slice]
  omega

theorem unpackPair_slice (h : i + 4 ≤ data.length) : unpackPair (slice data i (i + 4)) =
    .ok (ofBigEndian (slice data i (i + 2)), ofBigEndian (slice data (i + 2) (i + 4))) := by
  unfold unpackPair
  rw [if_pos, slice_slice (by omega), slice_slice (by omega)]
  · rfl
  · rw [length_slice]
    omega

theorem index_slice (h : i < bs.length) : index bs i = .ok (ofBigEndian (slice bs i (i + 1))) := by
  have hslice : slice bs i (i + 1) = [bs[i]] := by
    rw [slice, List.drop_eq_getElem_cons h, Nat.add_sub_cancel_left]
    rfl
  rw [index, dif_pos h, hslice]
  simp [ofBigEndian]

theorem tryInetNtoa_pack32 (h : n < 2 ^ 32) : tryInetNtoa (pack32 n) = .ok (inetNtoa n) := by
  rw [tryInetNtoa, if_pos (length_pack32 n), ofBigEndian_pack32 h]

theorem magicCookie_lt : magicCookie < 2 ^ 32 := by decide

theorem ofBigEndian_slice_lt (bs : List UInt8) (i : Nat) :
    ofBigEndian (slice bs i (i + 4)) < 2 ^ 32 := by
  refine Nat.lt_of_lt_of_le (ofBigEndian_lt _) ?_
  have hlen : (slice bs i (i + 4)).length ≤ 4 := by
    rw [length_slice]
    omega
  exact Nat.pow_le_pow_right (by decide : 0 < 256) hlen

/-- Nothing raises while an attribute is read. -/
theorem tryAddressOf_eq (attrType : Nat) (attrData : List UInt8) :
    tryAddressOf attrType attrData = .ok (addressOf attrType attrData) := by
  by_cases hlen : 8 ≤ attrData.length
  · have hfamily : index attrData 1 = .ok (ofBigEndian (slice attrData 1 2)) :=
      index_slice (by omega)
    have hport : unpack 2 (slice attrData 2 4) = .ok (ofBigEndian (slice attrData 2 4)) :=
      unpack_slice (by omega) rfl
    have hip : unpack 4 (slice attrData 4 8) = .ok (ofBigEndian (slice attrData 4 8)) :=
      unpack_slice hlen rfl
    have hlt : ofBigEndian (slice attrData 4 8) ^^^ magicCookie < 2 ^ 32 :=
      Nat.xor_lt_two_pow (ofBigEndian_slice_lt attrData 4) magicCookie_lt
    have hpack : packInt (ofBigEndian (slice attrData 4 8) ^^^ magicCookie) =
        .ok (pack32 (ofBigEndian (slice attrData 4 8) ^^^ magicCookie)) := if_pos hlt
    have hxor := tryInetNtoa_pack32 hlt
    have hplain : tryInetNtoa (slice attrData 4 8) =
        .ok (inetNtoa (ofBigEndian (slice attrData 4 8))) := if_pos (by
      rw [length_slice]
      omega)
    by_cases hf : ofBigEndian (slice attrData 1 2) = 0x01
    · by_cases hx : attrType = 0x0020
      · simp [tryAddressOf, addressOf, hlen, hfamily, hf, hx, hport, hip, hpack, hxor, bind,
          Except.bind, pure, Except.pure]
      · by_cases hm : attrType = 0x0001
        · simp [tryAddressOf, addressOf, hlen, hfamily, hf, hm, hport, hplain, bind,
            Except.bind, pure, Except.pure]
        · simp [tryAddressOf, addressOf, hx, hm, pure, Except.pure]
    · simp only [tryAddressOf, addressOf, hfamily, bind, Except.bind, if_neg hf, pure,
        Except.pure]
      split
      · rfl
      · split <;> rfl
  · simp [tryAddressOf, addressOf, hlen, pure, Except.pure]

/-- Nothing raises in the loop. -/
theorem tryParseAttributes_eq (data : List UInt8) (offset : Nat) :
    tryParseAttributes data offset = .ok (parseAttributes data offset) := by
  fun_induction parseAttributes data offset with
  | case1 offset hlt hshort => rw [tryParseAttributes, if_pos hlt, if_pos hshort]; rfl
  | case2 offset hlt hshort attrLen hcut =>
    rw [tryParseAttributes, if_pos hlt, if_neg hshort, unpackPair_slice (by omega)]
    exact if_pos hcut
  | case3 offset hlt hshort attrType attrLen hcut attrData address haddress =>
    rw [tryParseAttributes, if_pos hlt, if_neg hshort, unpackPair_slice (by omega)]
    refine (if_neg hcut).trans ?_
    rw [tryAddressOf_eq, haddress]
    rfl
  | case4 offset hlt hshort attrType attrLen hcut attrData haddress ih =>
    rw [tryParseAttributes, if_pos hlt, if_neg hshort, unpackPair_slice (by omega)]
    refine (if_neg hcut).trans ?_
    rw [tryAddressOf_eq, haddress]
    exact ih
  | case5 offset hge => rw [tryParseAttributes, if_neg hge]; rfl

theorem tryParseStunResponse_eq (data transId : List UInt8) :
    tryParseStunResponse data transId = .ok (parseStunResponse data transId) := by
  unfold tryParseStunResponse parseStunResponse
  split
  · rfl
  · rw [unpackPair_slice (i := 0) (by omega), unpack_slice (i := 4) (by omega) rfl]
    exact tryParseAttributes_eq data 20

/-- An attribute that gives the address: of either type, with the family IPv4. -/
def Usable (a : Tlv.Attribute) : Prop :=
  (a.type = 0x0020 ∨ a.type = 0x0001) ∧ 8 ≤ a.value.length ∧ a.value[1]? = some 0x01

instance (a : Tlv.Attribute) : Decidable (Usable a) := inferInstanceAs (Decidable (_ ∧ _ ∧ _))

/-- The address in a usable attribute, with the cookie taken off where it was put on. -/
def mappedAddress (a : Tlv.Attribute) : String × Nat :=
  let port := ofBigEndian (slice a.value 2 4)
  let ip := ofBigEndian (slice a.value 4 8)
  if a.type = 0x0020 then (inetNtoa (ip ^^^ magicCookie), port ^^^ (magicCookie >>> 16))
  else (inetNtoa ip, port)

/-- An address and a port as a server sends them in XOR-MAPPED-ADDRESS. -/
def xorMappedAddress (ip : IPv4Address) (port : Nat) : Tlv.Attribute where
  type := 0x0020
  value := 0x00 :: 0x01 :: (pack16 (port ^^^ (magicCookie >>> 16)) ++
    pack32 (ip.toNat ^^^ magicCookie))
  padding := []
  type_lt := by decide
  length_lt := by simp
  length_padding := by simp [Tlv.padded]

variable {a : Tlv.Attribute} {as before after : List Tlv.Attribute} {header transId : List UInt8}
  {ip : IPv4Address} {port : Nat}

/-- The family is the second byte of the value. -/
theorem family_iff (h : 8 ≤ bs.length) :
    ofBigEndian (slice bs 1 2) = 0x01 ↔ bs[1]? = some 0x01 := by
  have hslice : slice bs 1 2 = [bs[1]] := by
    rw [slice, List.drop_eq_getElem_cons (by omega)]
    rfl
  rw [hslice, List.getElem?_eq_getElem (by omega), Option.some.injEq, ← UInt8.toNat_inj]
  simp [ofBigEndian]

theorem addressOf_eq (a : Tlv.Attribute) :
    addressOf a.type a.value = if Usable a then some (mappedAddress a) else none := by
  unfold addressOf Usable mappedAddress
  by_cases hlen : 8 ≤ a.value.length
  · by_cases hfamily : a.value[1]? = some 0x01
    · have hf := (family_iff hlen).mpr hfamily
      by_cases hx : a.type = 0x0020
      · simp [hx, hlen, hfamily, hf]
      · by_cases hm : a.type = 0x0001
        · simp [hm, hlen, hfamily, hf]
        · simp [hx, hm]
    · have hf := (family_iff hlen).not.mpr hfamily
      simp [hfamily, hf]
  · simp [hlen]

/-- The parser on a list of attributes behind any header, and before any bytes in which it finds
no more than `others`. -/
theorem parseAttributes_encode {header tail : List UInt8} (as others : List Tlv.Attribute)
    (htail : (Tlv.items (header ++ Tlv.encode as ++ tail)
      (header.length + (Tlv.encode as).length)).map Tlv.Item.content =
        others.map Tlv.Attribute.content) :
    parseAttributes (header ++ Tlv.encode as ++ tail) header.length =
      ((as ++ others).find? (Usable ·)).map mappedAddress := by
  have hcontent : (Tlv.items (header ++ Tlv.encode as ++ tail) header.length).map
      Tlv.Item.content = (as ++ others).map Tlv.Attribute.content := by
    rw [Tlv.items_encode, htail, List.map_append]
  have hmap : ∀ l : List Tlv.Item, (l.findSome? fun i => addressOf i.type i.value) =
      (l.map Tlv.Item.content).findSome? fun c => addressOf c.1 c.2 := by
    intro l
    rw [List.findSome?_map]
    rfl
  rw [parseAttributes_eq, hmap, hcontent, List.findSome?_map, List.find?_eq_findSome?_guard,
    List.map_findSome?]
  congr 1
  funext a
  change addressOf a.type a.value = (Option.guard (Usable ·) a).map mappedAddress
  rw [addressOf_eq]
  by_cases h : Usable a <;> simp [h, Option.guard]

theorem usable_xorMappedAddress (ip : IPv4Address) (port : Nat) :
    Usable (xorMappedAddress ip port) := ⟨Or.inl rfl, Nat.le_refl 8, rfl⟩

theorem mappedAddress_xorMappedAddress (ip : IPv4Address) (h : port < 65536) :
    mappedAddress (xorMappedAddress ip port) = (ip.str, port) := by
  have hport : port ^^^ (magicCookie >>> 16) < 2 ^ 16 := Nat.xor_lt_two_pow h (by decide)
  have hip : ip.toNat ^^^ magicCookie < 2 ^ 32 := Nat.xor_lt_two_pow ip.lt magicCookie_lt
  have hslicePort : slice (xorMappedAddress ip port).value 2 4 =
      pack16 (port ^^^ (magicCookie >>> 16)) := rfl
  have hsliceIp : slice (xorMappedAddress ip port).value 4 8 =
      pack32 (ip.toNat ^^^ magicCookie) := rfl
  have hback : (ip.toNat ^^^ magicCookie) ^^^ magicCookie = ip.toNat := by
    rw [Nat.xor_assoc, Nat.xor_self, Nat.xor_zero]
  have hbackPort : port ^^^ (magicCookie >>> 16) ^^^ (magicCookie >>> 16) = port := by
    rw [Nat.xor_assoc, Nat.xor_self, Nat.xor_zero]
  have hsame : (Address.ofNat ip.toNat : IPv4Address) = ip :=
    Address.ext (Address.toNat_ofNat ip.lt)
  have htype : (xorMappedAddress ip port).type = 0x0020 := rfl
  rw [mappedAddress, if_pos htype, hslicePort, hsliceIp, ofBigEndian_pack16 hport,
    ofBigEndian_pack32 hip, hback, hbackPort, inetNtoa, hsame]

/-- The parser on a list of attributes behind any header. -/
theorem parseStunResponse_encode (h : header.length = 20) (as : List Tlv.Attribute) :
    parseStunResponse (header ++ Tlv.encode as) transId =
      (as.find? (Usable ·)).map mappedAddress := by
  have hend : Tlv.items (header ++ Tlv.encode as ++ []) (header.length + (Tlv.encode as).length) =
      [] := Tlv.items_end (by simp)
  have hparse := parseAttributes_encode as [] (congrArg (List.map Tlv.Item.content) hend)
  rw [List.append_nil, List.append_nil, h] at hparse
  rw [parseStunResponse, if_neg, hparse]
  rw [List.length_append, h]
  omega

/-- An address and a port come back from behind attributes without an address. -/
theorem parseStunResponse_xorMapped (h : header.length = 20) (hb : ∀ a ∈ before, ¬ Usable a)
    (hp : port < 65536) : parseStunResponse
      (header ++ Tlv.encode (before ++ xorMappedAddress ip port :: after)) transId =
        some (ip.str, port) := by
  have hfind : before.find? (Usable ·) = none := by
    simpa using hb
  rw [parseStunResponse_encode h, List.find?_append, hfind, Option.none_or,
    List.find?_cons_of_pos (by simpa using usable_xorMappedAddress ip port), Option.map_some,
    mappedAddress_xorMappedAddress ip hp]

/-- The same when the last attribute comes without its padding. -/
theorem parseStunResponse_unpadded (h : header.length = 20) (as : List Tlv.Attribute)
    (last : Tlv.Attribute) :
    parseStunResponse (header ++ Tlv.encode as ++ last.unpadded) transId =
      ((as ++ [last]).find? (Usable ·)).map mappedAddress := by
  have hend : (Tlv.items (header ++ Tlv.encode as ++ last.unpadded)
      (header.length + (Tlv.encode as).length)).map Tlv.Item.content =
        [last].map Tlv.Attribute.content := by
    rw [← List.length_append, Tlv.items_unpadded]
    rfl
  have hparse := parseAttributes_encode as [last] hend
  rw [h] at hparse
  rw [parseStunResponse, if_neg, hparse]
  rw [List.length_append, List.length_append, h]
  omega

/-- The header of a response to `transId` with `length` bytes of attributes. -/
def successHeader (transId : List UInt8) (length : Nat) : List UInt8 :=
  pack16 0x0101 ++ pack16 length ++ pack32 magicCookie ++ transId

/-- Attributes that fit the length field make a response with that header. -/
theorem bindingSuccess_encode (ht : transId.length = 12) (hl : (Tlv.encode as).length < 65536) :
    BindingSuccess (successHeader transId (Tlv.encode as).length ++ Tlv.encode as) transId ∧
      msgLen (successHeader transId (Tlv.encode as).length ++ Tlv.encode as) =
        (Tlv.encode as).length := by
  refine ⟨⟨rfl, rfl, ?_⟩, ?_⟩
  · have hstart : (pack16 0x0101 ++ pack16 (Tlv.encode as).length ++ pack32 magicCookie).length =
        8 := rfl
    exact slice_append hstart (by rw [ht])
  · have hslice : slice (successHeader transId (Tlv.encode as).length ++ Tlv.encode as) 2 4 =
        pack16 (Tlv.encode as).length := rfl
    rw [msgLen, hslice, ofBigEndian_pack16 hl]

/-- No datagram makes the parser raise. Of a list of attributes behind a header (of which it reads
nothing) it returns the first address, and so it gives back any address and port that come as
XOR-MAPPED-ADDRESS behind attributes without one. -/
theorem parses_attributes (transId : List UInt8) :
    (∀ data, ∃ answer, tryParseStunResponse data transId = .ok answer) ∧
      ∀ header : List UInt8, header.length = 20 →
        (∀ as, tryParseStunResponse (header ++ Tlv.encode as) transId =
          .ok ((as.find? (Usable ·)).map mappedAddress)) ∧
        ∀ before ip port after, (∀ a ∈ before, ¬ Usable a) → port < 65536 →
          tryParseStunResponse
            (header ++ Tlv.encode (before ++ xorMappedAddress ip port :: after)) transId =
              .ok (some (ip.str, port)) := by
  refine ⟨fun data => ⟨_, tryParseStunResponse_eq data transId⟩, ?_⟩
  intro header hheader
  refine ⟨fun as => ?_, ?_⟩
  · rw [tryParseStunResponse_eq, parseStunResponse_encode hheader]
  · intro before ip port after hbefore hport
    rw [tryParseStunResponse_eq, parseStunResponse_xorMapped hheader hbefore hport]

/-- An unknown attribute of five bytes and an IPv6 address before the address. -/
theorem parses_attributes_third : tryParseStunResponse (successHeader (List.replicate 12 7) 48 ++
    Tlv.encode [⟨0x8022, [97, 98, 99, 100, 101], [0, 0, 0], by decide, by decide, by decide⟩,
      ⟨0x0020, 0 :: 2 :: List.replicate 18 9, [], by decide, by decide, by decide⟩,
      xorMappedAddress ⟨3405803783, by decide⟩ 51820]) (List.replicate 12 7) =
        .ok (some (IPv4Address.str ⟨3405803783, by decide⟩, 51820)) :=
  ((parses_attributes (List.replicate 12 7)).2 (successHeader (List.replicate 12 7) 48)
    (by decide)).2 [⟨0x8022, [97, 98, 99, 100, 101], [0, 0, 0], by decide, by decide, by decide⟩,
      ⟨0x0020, 0 :: 2 :: List.replicate 18 9, [], by decide, by decide, by decide⟩]
        ⟨3405803783, by decide⟩ 51820 [] (by decide) (by decide)

end STUNClient

end PyMesh
