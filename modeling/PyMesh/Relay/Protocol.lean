import PyMesh.Library.Bytes
import PyMesh.Library.Text
import PyMesh.Identity.Keys

/-! The relay frames: which texts come back from a frame, and which byte strings are frames. -/
namespace PyMesh

open Bytes Text

/-- What `encode_frame` raises. -/
inductive FrameError where
  | unicodeEncodeError
  | structError
deriving DecidableEq

namespace RelayProtocol

/-- `b"PYRELAY"` -/
def relayMagic : List UInt8 := [80, 89, 82, 69, 76, 65, 89]

def headerLen : Nat := 73

/-- `node_id[:32].ljust(32, "\x00").encode("ascii")` -/
def idBytes (nodeId : String) : Except FrameError (List UInt8) :=
  match encodeAscii (ljust (truncate nodeId 32) 32 '\x00') with
  | some bytes => .ok bytes
  | none => .error .unicodeEncodeError

/-- `struct.pack(">H", n)` -/
def packLen (n : Nat) : Except FrameError (List UInt8) :=
  if n < 65536 then .ok (pack16 n) else .error .structError

def encodeFrame (srcNodeId dstNodeId : String) (payload : List UInt8) :
    Except FrameError (List UInt8) := do
  let srcBytes ← idBytes srcNodeId
  let dstBytes ← idBytes dstNodeId
  let len ← packLen payload.length
  let header := relayMagic ++ srcBytes ++ dstBytes ++ len
  return header ++ payload

/-- `field.decode("ascii", errors="ignore").rstrip("\x00")` -/
def nodeIdOf (field : List UInt8) : String := rstrip (· = '\x00') (decodeAscii field)

def decodeFrame (data : List UInt8) : Option (String × String × List UInt8) :=
  if data.length < headerLen then none
  else
    let magic := slice data 0 7
    if magic ≠ relayMagic then none
    else
      let srcNodeId := nodeIdOf (slice data 7 39)
      let dstNodeId := nodeIdOf (slice data 39 71)
      let payloadLen := ofBigEndian (slice data 71 73)
      let payload := slice data headerLen (headerLen + payloadLen)
      some (srcNodeId, dstNodeId, payload)

variable {src dst nodeId s d : String} {payload p data field bytes frame : List UInt8}

theorem idBytes_ok_iff : idBytes nodeId = .ok bytes ↔
    encodeAscii (ljust (truncate nodeId 32) 32 '\x00') = some bytes := by
  unfold idBytes
  cases encodeAscii (ljust (truncate nodeId 32) 32 '\x00') <;> simp

theorem length_idBytes (h : idBytes nodeId = .ok bytes) : bytes.length = 32 := by
  obtain ⟨-, rfl⟩ := encodeAscii_eq_some_iff.mp (idBytes_ok_iff.mp h)
  rw [List.length_map, toList_ljust, toList_truncate, List.length_append, List.length_replicate,
    List.length_take]
  omega

/-- A field gives back the first 32 characters of its id, less the NULs at their end. -/
theorem nodeIdOf_idBytes (h : idBytes nodeId = .ok bytes) :
    nodeIdOf bytes = rstrip (· = '\x00') (truncate nodeId 32) := by
  rw [nodeIdOf, decodeAscii_encodeAscii (idBytes_ok_iff.mp h), rstrip_ljust]

/-- A field of ASCII codes is the one its id is encoded to. -/
theorem idBytes_nodeIdOf (hl : field.length = 32) (ha : ∀ b ∈ field, b < 128) :
    idBytes (nodeIdOf field) = .ok field := by
  have hlen : (decodeAscii field).toList.length = 32 := by
    rw [toList_decodeAscii ha, List.length_map, hl]
  have hshort : (nodeIdOf field).toList.length ≤ 32 := by
    rw [nodeIdOf, toList_rstrip, ← hlen]
    exact (List.rdropWhile_prefix _ _).length_le
  rw [idBytes_ok_iff, truncate_of_length_le hshort, nodeIdOf, ljust_rstrip hlen]
  exact encodeAscii_decodeAscii ha

theorem encodeFrame_ok_iff : encodeFrame src dst payload = .ok frame ↔
    ∃ srcBytes dstBytes, idBytes src = .ok srcBytes ∧ idBytes dst = .ok dstBytes ∧
      payload.length < 65536 ∧
      relayMagic ++ srcBytes ++ dstBytes ++ pack16 payload.length ++ payload = frame := by
  unfold encodeFrame packLen
  cases idBytes src with
  | error e => simp [bind, Except.bind]
  | ok srcBytes =>
    cases idBytes dst with
    | error e => simp [bind, Except.bind]
    | ok dstBytes => split <;> simp_all [bind, Except.bind, pure, Except.pure]

/-- The fields of a byte string of the length of a header that starts with the magic. -/
theorem exists_fields (hl : headerLen ≤ data.length) (hm : slice data 0 7 = relayMagic) :
    ∃ srcField dstField a b rest, srcField.length = 32 ∧ dstField.length = 32 ∧
      data = relayMagic ++ srcField ++ dstField ++ [a, b] ++ rest := by
  unfold headerLen at hl
  have hlen : (slice data 71 73).length = 2 := by
    rw [length_slice]
    omega
  obtain ⟨a, b, hab⟩ := List.length_eq_two.mp hlen
  refine ⟨slice data 7 39, slice data 39 71, a, b, data.drop 73, ?_, ?_, ?_⟩
  · rw [length_slice]
    omega
  · rw [length_slice]
    omega
  · rw [← hab, ← hm, slice_append_slice (by decide) (by decide),
      slice_append_slice (by decide) (by decide), slice_append_slice (by decide) (by decide),
      slice_zero, List.take_append_drop]

section Layout

variable {srcField dstField rest : List UInt8} {a b : UInt8}

theorem length_layout (hs : srcField.length = 32) (hd : dstField.length = 32) :
    (relayMagic ++ srcField ++ dstField ++ [a, b] ++ rest).length = headerLen + rest.length := by
  have h0 : relayMagic.length = 7 := rfl
  simp only [List.length_append, List.length_cons, List.length_nil, h0, hs, hd, headerLen]

theorem slice_ids (hs : srcField.length = 32) (hd : dstField.length = 32) :
    slice (relayMagic ++ srcField ++ dstField ++ [a, b] ++ rest) 7 71 = srcField ++ dstField := by
  have h : slice (relayMagic ++ (srcField ++ dstField) ++ ([a, b] ++ rest)) 7 71 =
      srcField ++ dstField := slice_append rfl (by simp [hs, hd])
  simpa using h

theorem slice_len (hs : srcField.length = 32) (hd : dstField.length = 32) :
    slice (relayMagic ++ srcField ++ dstField ++ [a, b] ++ rest) 71 73 = [a, b] :=
  slice_append (by simp [relayMagic, hs, hd]) rfl

theorem decodeFrame_layout (hs : srcField.length = 32) (hd : dstField.length = 32) :
    decodeFrame (relayMagic ++ srcField ++ dstField ++ [a, b] ++ rest) =
      some (nodeIdOf srcField, nodeIdOf dstField, rest.take (ofBigEndian [a, b])) := by
  have hlong : ¬ (relayMagic ++ srcField ++ dstField ++ [a, b] ++ rest).length < headerLen := by
    rw [length_layout hs hd]
    omega
  have hmagic : slice (relayMagic ++ srcField ++ dstField ++ [a, b] ++ rest) 0 7 = relayMagic := by
    have h : slice ([] ++ relayMagic ++ (srcField ++ dstField ++ [a, b] ++ rest)) 0 7 =
        relayMagic := slice_append rfl rfl
    simpa using h
  have hsrc : slice (relayMagic ++ srcField ++ dstField ++ [a, b] ++ rest) 7 39 = srcField := by
    rw [List.append_assoc, List.append_assoc]
    exact slice_append rfl (by omega)
  have hdst : slice (relayMagic ++ srcField ++ dstField ++ [a, b] ++ rest) 39 71 = dstField := by
    rw [List.append_assoc]
    exact slice_append (by simp [relayMagic, hs]) (by omega)
  have hrest : ∀ n, slice (relayMagic ++ srcField ++ dstField ++ [a, b] ++ rest) headerLen
      (headerLen + n) = rest.take n := by
    intro n
    rw [slice, List.drop_left' (by simp [relayMagic, headerLen, hs, hd]), Nat.add_sub_cancel_left]
  rw [decodeFrame, if_neg hlong, hmagic, hsrc, hdst, slice_len hs hd]
  simp only [ne_eq, not_true_eq_false, if_false, hrest]

/-- Fields of ASCII codes and the declared payload are what their decoding is encoded to. -/
theorem encodeFrame_layout (hs : srcField.length = 32) (hd : dstField.length = 32)
    (ha : ∀ b ∈ srcField ++ dstField, b < 128) (hrest : rest.length = ofBigEndian [a, b]) :
    encodeFrame (nodeIdOf srcField) (nodeIdOf dstField) rest =
      .ok (relayMagic ++ srcField ++ dstField ++ [a, b] ++ rest) := by
  refine encodeFrame_ok_iff.mpr ⟨srcField, dstField, idBytes_nodeIdOf hs ?_,
    idBytes_nodeIdOf hd ?_, ?_, ?_⟩
  · intro c hc
    exact ha c (List.mem_append_left _ hc)
  · intro c hc
    exact ha c (List.mem_append_right _ hc)
  · rw [hrest]
    exact ofBigEndian_pair_lt a b
  · rw [hrest, pack16_ofBigEndian]

end Layout

/-- What is decoded is as long as a header and starts with the magic. -/
theorem header_of_decodeFrame (h : decodeFrame data = some (s, d, p)) :
    headerLen ≤ data.length ∧ slice data 0 7 = relayMagic := by
  unfold decodeFrame at h
  split at h
  next => cases h
  next hl =>
    dsimp only at h
    split at h
    next => cases h
    next hm => exact ⟨not_lt.mp hl, not_not.mp hm⟩

theorem decodeFrame_encodeFrame (h : encodeFrame src dst payload = .ok frame) :
    decodeFrame frame = some (rstrip (· = '\x00') (truncate src 32),
      rstrip (· = '\x00') (truncate dst 32), payload) := by
  obtain ⟨srcBytes, dstBytes, hs, hd, hp, rfl⟩ := encodeFrame_ok_iff.mp h
  have hl := ofBigEndian_pack16 hp
  rw [pack16] at hl ⊢
  rw [decodeFrame_layout (length_idBytes hs) (length_idBytes hd), nodeIdOf_idBytes hs,
    nodeIdOf_idBytes hd, hl, List.take_length]

section Derived

variable {k₁ k₂ : String}

theorem digitChar_range : ∀ d < 16, d.digitChar.toNat < 128 ∧ d.digitChar ≠ '\x00' := by decide

/-- The first half of a derived id fills its field. -/
theorem idBytes_derived (h : deriveNodeId k₁ = .ok nodeId) :
    (∃ bytes, idBytes nodeId = .ok bytes) ∧
      rstrip (· = '\x00') (truncate nodeId 32) = truncate nodeId 32 ∧
      (truncate nodeId 32).toList.length = 32 := by
  obtain ⟨pubBytes, rfl⟩ := eq_hexdigest h
  have hlen : (truncate (Sha256.hexdigest pubBytes) 32).toList.length = 32 := by
    rw [toList_truncate, List.length_take, Sha256.length_hexdigest]
    rfl
  have hchar : ∀ c ∈ (truncate (Sha256.hexdigest pubBytes) 32).toList,
      c.toNat < 128 ∧ c ≠ '\x00' := by
    intro c hc
    rw [toList_truncate] at hc
    obtain ⟨d, hd, rfl⟩ := Sha256.mem_hexdigest (List.mem_of_mem_take hc)
    exact digitChar_range d hd
  refine ⟨⟨_, idBytes_ok_iff.mpr (encodeAscii_eq_some_iff.mpr ⟨?_, rfl⟩)⟩, ?_, hlen⟩
  · intro c hc
    rw [toList_ljust, hlen, Nat.sub_self, List.replicate_zero, List.append_nil] at hc
    exact (hchar c hc).1
  · rw [← String.toList_inj, toList_rstrip, List.rdropWhile_eq_self_iff]
    intro hne
    simpa using (hchar _ (List.getLast_mem hne)).2

/-- An id that the system derives has 64 characters, of which a frame carries 32. -/
theorem derived_ids_cut (hs : deriveNodeId k₁ = .ok src) (hd : deriveNodeId k₂ = .ok dst)
    (hp : payload.length ≤ 65535) :
    ∃ frame, encodeFrame src dst payload = .ok frame ∧
      decodeFrame frame = some (truncate src 32, truncate dst 32, payload) ∧
      decodeFrame frame ≠ some (src, dst, payload) := by
  obtain ⟨⟨srcBytes, hsb⟩, hss, hsl⟩ := idBytes_derived hs
  obtain ⟨⟨dstBytes, hdb⟩, hds, -⟩ := idBytes_derived hd
  have henc : encodeFrame src dst payload = .ok _ :=
    encodeFrame_ok_iff.mpr ⟨srcBytes, dstBytes, hsb, hdb, by omega, rfl⟩
  have hdec := decodeFrame_encodeFrame henc
  rw [hss, hds] at hdec
  refine ⟨_, henc, hdec, ?_⟩
  intro h
  obtain ⟨pubBytes, rfl⟩ := eq_hexdigest hs
  have heq : truncate (Sha256.hexdigest pubBytes) 32 = Sha256.hexdigest pubBytes := by
    rw [hdec] at h
    simpa using congrArg (Option.map Prod.fst) h
  rw [heq, Sha256.length_hexdigest] at hsl
  cases hsl

/-- An id of the system and the frame from it to itself. -/
theorem derived_ids_cut_self : ∃ src frame, deriveNodeId "YQ==" = .ok src ∧
    encodeFrame src src [4, 0, 0, 0] = .ok frame ∧
    decodeFrame frame = some (truncate src 32, truncate src 32, [4, 0, 0, 0]) ∧
    decodeFrame frame ≠ some (src, src, [4, 0, 0, 0]) := by
  have hs : (deriveNodeId "YQ==").isOk = true := by decide +kernel
  obtain ⟨src, hs⟩ : ∃ src, deriveNodeId "YQ==" = .ok src := by
    cases h : deriveNodeId "YQ==" with
    | ok src => exact ⟨src, rfl⟩
    | error e => rw [h] at hs; cases hs
  have hp : ([4, 0, 0, 0] : List UInt8).length ≤ 65535 := by decide
  obtain ⟨frame, hframe⟩ := derived_ids_cut hs hs hp
  exact ⟨src, frame, hs, hframe⟩

/-- A frame between two registered nodes and the ids that are read from it. -/
theorem derived_ids_lost :
    let src := "ca978112ca1bbdcafac231b39a23dc4da786eff8147c4e72b9807785afee48bb"
    let dst := "3e23e8160039594a33894f6564e1b1348bbd7a0088d42c4acb73eeaed59c009d"
    deriveNodeId "YQ==" = .ok src ∧ deriveNodeId "Yg==" = .ok dst ∧
      ∃ frame, encodeFrame src dst [] = .ok frame ∧
        decodeFrame frame = some
          ("ca978112ca1bbdcafac231b39a23dc4d", "3e23e8160039594a33894f6564e1b134", []) ∧
        decodeFrame frame ≠ some (src, dst, []) := by
  refine ⟨by decide +kernel, by decide +kernel, _, rfl, ?_⟩
  decide +kernel

end Derived

/-- Every byte string that the decoder takes is what the encoder makes of its parts, if and only
if the ids are written in ASCII codes and the declared payload is all that follows. -/
theorem accepted_iff (data : List UInt8) :
    (∀ s d p, decodeFrame data = some (s, d, p) → encodeFrame s d p = .ok data) ↔
      (headerLen ≤ data.length → slice data 0 7 = relayMagic →
        (∀ b ∈ slice data 7 71, b < 128) ∧
          data.length = headerLen + ofBigEndian (slice data 71 73)) := by
  constructor
  · intro h hl hm
    obtain ⟨srcField, dstField, a, b, rest, hs, hd, rfl⟩ := exists_fields hl hm
    obtain ⟨srcBytes, dstBytes, hsb, hdb, hp, hframe⟩ :=
      encodeFrame_ok_iff.mp (h _ _ _ (decodeFrame_layout hs hd))
    have hls := length_idBytes hsb
    have hld := length_idBytes hdb
    have hdeclared := ofBigEndian_pack16 hp
    rw [pack16] at hframe hdeclared
    rw [← hframe, slice_ids hls hld, slice_len hls hld, length_layout hls hld, hdeclared]
    refine ⟨?_, rfl⟩
    intro c hc
    rcases List.mem_append.mp hc with hc | hc
    · exact encodeAscii_lt (idBytes_ok_iff.mp hsb) c hc
    · exact encodeAscii_lt (idBytes_ok_iff.mp hdb) c hc
  · intro h s d p hdec
    obtain ⟨hl, hm⟩ := header_of_decodeFrame hdec
    obtain ⟨hascii, hlen⟩ := h hl hm
    obtain ⟨srcField, dstField, a, b, rest, hs, hd, rfl⟩ := exists_fields hl hm
    rw [slice_ids hs hd] at hascii
    rw [slice_len hs hd, length_layout hs hd] at hlen
    obtain hrest : rest.length = ofBigEndian [a, b] := by omega
    rw [decodeFrame_layout hs hd, ← hrest, List.take_length] at hdec
    obtain ⟨rfl, rfl, rfl⟩ : nodeIdOf srcField = s ∧ nodeIdOf dstField = d ∧ rest = p := by
      simpa using hdec
    exact encodeFrame_layout hs hd hascii hrest

/-- A frame that has lost its payload and one with another source field decode to the parts of a
third, which is the only one that the encoder produces. -/
theorem accepted_fails :
    let truncated := relayMagic ++ [65] ++ List.replicate 63 0 ++ [0, 5]
    let other := relayMagic ++ [65, 200] ++ List.replicate 62 0 ++ [0, 0]
    let frame := relayMagic ++ [65] ++ List.replicate 63 0 ++ [0, 0]
    encodeFrame "A" "" [] = .ok frame ∧
      decodeFrame truncated = some ("A", "", []) ∧ truncated ≠ frame ∧
      decodeFrame other = some ("A", "", []) ∧ other ≠ frame ∧ slice other 7 71 ≠ slice frame 7 71 := by
  decide +kernel

end RelayProtocol

end PyMesh
