import PyMesh.Dns.Parser
import PyMesh.Library.Rfc1035Messages

/-! `DNSQueryParser.parse_domain_name` on names that are written label by label. -/
namespace PyMesh.DNSQueryParser

open Bytes Rfc1035 Text

/-- The loop of `parse_domain_name`, given up when its condition has been checked so many times
and it has not come to an end. -/
def turns : Nat → List UInt8 → Nat → List String → Option (List String × Nat)
  | 0, _, _, _ => none
  | n + 1, data, curr, labels =>
    if h : curr < data.length then
      let length := data[curr].toNat
      if length = 0 then some (labels, curr + 1)
      else if length &&& 0xC0 = 0xC0 then some (labels, curr + 2)
      else
        let label := decodeAscii (slice data (curr + 1) (curr + 1 + length))
        turns n data (curr + 1 + length) (labels ++ [label])
    else some (labels, curr)

variable {data bs pre rest : List UInt8} {curr n : Nat} {acc : List String} {l : UInt8}
  {labels : List Label}

/-- Every turn but the last moves the offset on. -/
theorem turns_eq_walk (data : List UInt8) (curr : Nat) (acc : List String) :
    ∀ n, data.length - curr < n → turns n data curr acc = some (walk data curr acc) := by
  fun_induction walk data curr acc with
  | case1 curr acc hlt length h0 =>
    intro n hn
    obtain ⟨n, rfl⟩ := Nat.exists_eq_succ_of_ne_zero (by omega : n ≠ 0)
    rw [turns, dif_pos hlt, if_pos h0]
  | case2 curr acc hlt length h0 hp =>
    intro n hn
    obtain ⟨n, rfl⟩ := Nat.exists_eq_succ_of_ne_zero (by omega : n ≠ 0)
    rw [turns, dif_pos hlt, if_neg h0, if_pos hp]
  | case3 curr acc hlt length h0 hp label ih =>
    intro n hn
    obtain ⟨n, rfl⟩ := Nat.exists_eq_succ_of_ne_zero (by omega : n ≠ 0)
    rw [turns, dif_pos hlt, if_neg h0, if_neg hp]
    exact ih n (by omega)
  | case4 curr acc hge =>
    intro n hn
    obtain ⟨n, rfl⟩ := Nat.exists_eq_succ_of_ne_zero (by omega : n ≠ 0)
    rw [turns, dif_neg hge]

/-- One turn, by what is left of the data. -/
theorem walk_of_drop (h : data.drop curr = l :: bs) (acc : List String) : walk data curr acc =
    if l.toNat = 0 then (acc, curr + 1)
    else if 192 ≤ l.toNat then (acc, curr + 2)
    else walk data (curr + 1 + l.toNat) (acc ++ [decodeAscii (bs.take l.toNat)]) := by
  obtain ⟨hlt, rfl, rfl⟩ := drop_eq_cons_iff.mp h
  have hslice : slice data (curr + 1) (curr + 1 + data[curr].toNat) =
      (data.drop (curr + 1)).take data[curr].toNat := by
    rw [slice, Nat.add_sub_cancel_left]
  rw [walk, dif_pos hlt]
  simp only [and_c0 _ (UInt8.toNat_lt data[curr]), hslice]

/-- The walk over a name that is written in the middle of the data. -/
theorem walk_encodeName (pre rest : List UInt8) (labels : List Label) (acc : List String) :
    walk (pre ++ encodeName labels ++ rest) pre.length acc =
      (acc ++ labels.map fun l => decodeAscii l.text, pre.length + (encodeName labels).length) := by
  induction labels generalizing pre acc with
  | nil =>
    have hdrop : (pre ++ encodeName [] ++ rest).drop pre.length = 0 :: rest := by
      rw [List.append_assoc, List.drop_left]
      rfl
    rw [walk_of_drop hdrop, if_pos UInt8.toNat_zero, List.map_nil, List.append_nil]
    rfl
  | cons l labels ih =>
    have hpos := l.pos
    have hle := l.le
    have hlen := l.toNat_length
    have hdrop : (pre ++ encodeName (l :: labels) ++ rest).drop pre.length =
        UInt8.ofNat l.text.length :: (l.text ++ (encodeName labels ++ rest)) := by
      rw [List.append_assoc, List.drop_left, encodeName, List.cons_append, List.append_assoc]
    have hdata : pre ++ encodeName (l :: labels) ++ rest =
        (pre ++ UInt8.ofNat l.text.length :: l.text) ++ encodeName labels ++ rest := by
      simp [encodeName]
    have hnext : pre.length + 1 + l.text.length =
        (pre ++ UInt8.ofNat l.text.length :: l.text).length := by
      rw [List.length_append, List.length_cons]
      omega
    have hend : (encodeName (l :: labels)).length =
        1 + l.text.length + (encodeName labels).length := by
      rw [encodeName, List.length_cons, List.length_append]
      omega
    rw [walk_of_drop hdrop, if_neg (by omega), if_neg (by omega), hlen, List.take_left, hdata,
      hnext, ih, hend, ← hnext, List.map_cons, List.append_assoc]
    congr 1
    omega

theorem parseDomainName_encodeName (pre rest : List UInt8) (labels : List Label) :
    parseDomainName (pre ++ encodeName labels ++ rest) pre.length =
      (asciiLower (join '.' (labels.map fun l => decodeAscii l.text)),
        pre.length + (encodeName labels).length) := by
  rw [parseDomainName, walk_encodeName, List.nil_append]

/-- The walk ends on all data and from every offset. A name of ASCII labels without dots is read
back, in lower case, up to the byte after it, and its labels can be told from it. -/
theorem parse_inverts_encode :
    (∀ data offset, ∃ n, turns n data offset [] = some (walk data offset [])) ∧
      ∀ (pre : List UInt8) (labels : List Label) (rest : List UInt8), labels ≠ [] →
        (∀ l ∈ labels, ∀ b ∈ l.text, b < 128 ∧ b ≠ 0x2e) →
        parseDomainName (pre ++ encodeName labels ++ rest) pre.length =
            (asciiLower (join '.' (labels.map Label.ascii)),
              pre.length + (encodeName labels).length) ∧
          split (asciiLower (join '.' (labels.map Label.ascii))) '.' =
            labels.map fun l => asciiLower l.ascii := by
  refine ⟨fun data offset => ⟨_, turns_eq_walk data offset [] _ (Nat.lt_succ_self _)⟩, ?_⟩
  intro pre labels rest hne hl
  constructor
  · have htext : (labels.map fun l => decodeAscii l.text) = labels.map Label.ascii :=
      List.map_congr_left fun l hm => Label.decodeAscii_text fun b hb => (hl l hm b hb).1
    rw [parseDomainName_encodeName, htext]
  · rw [asciiLower_join rfl, List.map_map]
    refine split_join ?_ (by simpa using hne)
    intro w hw
    obtain ⟨l, hm, rfl⟩ := List.mem_map.mp hw
    intro hdot
    rw [Function.comp_apply, dot_mem_asciiLower, Label.ascii, String.toList_ofList] at hdot
    obtain ⟨b, hb, hchar⟩ := List.mem_map.mp hdot
    obtain ⟨hlt, hne⟩ := hl l hm b hb
    have hbyte := byte_char hlt
    rw [hchar] at hbyte
    exact hne hbyte.symm

/-- A name with upper-case letters, behind twelve bytes and before a type and a class. -/
theorem parse_inverts_encode_registry :
    parseDomainName (List.replicate 12 0 ++
      encodeName [⟨[82, 101, 71], by decide, by decide⟩, ⟨[99, 114], by decide, by decide⟩] ++
        [0, 1, 0, 1]) 12 = ("reg.cr", 20) :=
  (((parse_inverts_encode).2 (List.replicate 12 0)
    [⟨[82, 101, 71], by decide, by decide⟩, ⟨[99, 114], by decide, by decide⟩] [0, 1, 0, 1]
    (by simp) (by simp)).1).trans (by decide)

end PyMesh.DNSQueryParser
