import Mathlib.Data.List.DropRight
import Mathlib.Data.Nat.Digits.Defs

/-! Byte strings: slices, big-endian numbers, and ASCII texts. -/
namespace Bytes

/-- `data[i:j]`, which ends where `data` ends. -/
def slice (data : List UInt8) (i j : Nat) : List UInt8 := (data.drop i).take (j - i)

/-- The number that the bytes write in base 256, most significant first. -/
def ofBigEndian (bs : List UInt8) : Nat := bs.foldl (fun acc b => acc * 256 + b.toNat) 0

/-- Two bytes, most significant first. -/
def pack16 (n : Nat) : List UInt8 := [UInt8.ofNat (n / 256), UInt8.ofNat n]

/-- Four bytes, most significant first. -/
def pack32 (n : Nat) : List UInt8 := pack16 (n / 65536) ++ pack16 n

/-- The character with the code of a byte. -/
def char (b : UInt8) : Char := Char.ofNat b.toNat

/-- The byte with the code of a character below 256. -/
def byte (c : Char) : UInt8 := UInt8.ofNat c.toNat

/-- The byte of a letter `A` to `Z` in lower case, any other byte as it is. -/
def lowerByte (b : UInt8) : UInt8 := if 65 ≤ b.toNat ∧ b.toNat ≤ 90 then b + 32 else b

/-- `s.encode("ascii")`; `none` when a character has no code below 128. -/
def encodeAscii (s : String) : Option (List UInt8) :=
  if s.toList.all fun c => c.toNat < 128 then some (s.toList.map byte) else none

/-- `data.decode("ascii", errors="ignore")`. -/
def decodeAscii (data : List UInt8) : String :=
  String.ofList ((data.filter (· < 128)).map char)

variable {data pre mid post : List UInt8} {s : String} {i j n : Nat}

theorem slice_zero : slice data 0 j = data.take j := rfl

theorem length_slice : (slice data i j).length = min (j - i) (data.length - i) := by
  simp [slice]

/-- The part between two others, when the bounds are its own. -/
theorem slice_append (hi : pre.length = i) (hj : i + mid.length = j) :
    slice (pre ++ mid ++ post) i j = mid := by
  rw [slice, List.append_assoc, ← hi, List.drop_left, List.take_left' (by omega)]

theorem slice_append_slice (h : i ≤ j) (hn : j ≤ n) :
    slice data i j ++ slice data j n = slice data i n := by
  have hd : data.drop j = (data.drop i).drop (j - i) := by
    rw [List.drop_drop]
    congr 1
    omega
  rw [slice, slice, slice, hd, ← List.take_add]
  congr 1
  omega

/-- A slice of a slice, when it ends inside it. -/
theorem slice_slice {k l : Nat} (h : i + l ≤ j) :
    slice (slice data i j) k l = slice data (i + k) (i + l) := by
  rw [slice, slice, List.drop_take, List.take_take, List.drop_drop, slice]
  congr 1
  omega

@[simp] theorem length_pack16 (n : Nat) : (pack16 n).length = 2 := rfl

theorem ofBigEndian_pair (a b : UInt8) : ofBigEndian [a, b] = a.toNat * 256 + b.toNat := by
  simp [ofBigEndian]

theorem ofBigEndian_pack16 (h : n < 65536) : ofBigEndian (pack16 n) = n := by
  rw [pack16, ofBigEndian_pair, UInt8.toNat_ofNat', UInt8.toNat_ofNat']
  omega

theorem pack16_ofBigEndian (a b : UInt8) : pack16 (ofBigEndian [a, b]) = [a, b] := by
  have ha := a.toNat_lt
  have hb := b.toNat_lt
  rw [ofBigEndian_pair, pack16]
  congr 1
  · rw [← UInt8.toNat_inj, UInt8.toNat_ofNat']
    omega
  · congr 1
    rw [← UInt8.toNat_inj, UInt8.toNat_ofNat']
    omega

theorem ofBigEndian_pair_lt (a b : UInt8) : ofBigEndian [a, b] < 65536 := by
  have ha := a.toNat_lt
  have hb := b.toNat_lt
  rw [ofBigEndian_pair]
  omega

@[simp] theorem length_pack32 (n : Nat) : (pack32 n).length = 4 := rfl

theorem ofBigEndian_pack32 (h : n < 4294967296) : ofBigEndian (pack32 n) = n := by
  simp only [pack32, pack16, ofBigEndian, List.cons_append, List.nil_append, List.foldl_cons,
    List.foldl_nil, UInt8.toNat_ofNat']
  omega

theorem ofBigEndian_concat (bs : List UInt8) (b : UInt8) :
    ofBigEndian (bs ++ [b]) = ofBigEndian bs * 256 + b.toNat := by
  simp [ofBigEndian]

/-- A big-endian number has no more digits than bytes. -/
theorem ofBigEndian_lt (bs : List UInt8) : ofBigEndian bs < 256 ^ bs.length := by
  induction bs using List.reverseRecOn with
  | nil => simp [ofBigEndian]
  | append_singleton bs b ih =>
    have hb := b.toNat_lt
    rw [ofBigEndian_concat, List.length_append, List.length_singleton, Nat.pow_succ]
    omega

/-- A big-endian number determines its bytes, if it is known how many they are. -/
theorem ofBigEndian_inj {as bs : List UInt8} (hlen : as.length = bs.length) :
    ofBigEndian as = ofBigEndian bs ↔ as = bs := by
  refine ⟨fun h => ?_, fun h => by rw [h]⟩
  induction as using List.reverseRecOn generalizing bs with
  | nil => exact (List.length_eq_zero_iff.mp hlen.symm).symm
  | append_singleton as a ih =>
    rcases List.eq_nil_or_concat bs with rfl | ⟨bs, b, rfl⟩
    · simp at hlen
    · rw [List.concat_eq_append, ofBigEndian_concat, ofBigEndian_concat] at h
      have ha := a.toNat_lt
      have hb := b.toNat_lt
      have hlen' : as.length = bs.length := by simpa using hlen
      have hinit := ih hlen' (by omega)
      have hlast : a = b := UInt8.toNat_inj.mp (by omega)
      rw [hinit, hlast, List.concat_eq_append]

theorem ofBigEndian_slice_eq_iff (bs : List UInt8) (hj : j ≤ data.length)
    (hlen : i + bs.length = j) :
    ofBigEndian (slice data i j) = ofBigEndian bs ↔ slice data i j = bs := by
  apply ofBigEndian_inj
  rw [length_slice]
  omega

/-- The byte at an offset is the head of what is left from there on. -/
theorem drop_eq_cons_iff {b : UInt8} {bs : List UInt8} : data.drop i = b :: bs ↔
    ∃ h : i < data.length, data[i] = b ∧ data.drop (i + 1) = bs := by
  constructor
  · intro hd
    have hlt : i < data.length := by
      by_contra hge
      rw [List.drop_of_length_le (by omega)] at hd
      cases hd
    rw [List.drop_eq_getElem_cons hlt, List.cons.injEq] at hd
    exact ⟨hlt, hd⟩
  · rintro ⟨h, rfl, rfl⟩
    exact List.drop_eq_getElem_cons h

theorem toNat_charOfNat : ∀ n < 128, (Char.ofNat n).toNat = n := by decide

theorem toNat_char {b : UInt8} (h : b < 128) : (char b).toNat = b.toNat :=
  toNat_charOfNat b.toNat h

theorem byte_char {b : UInt8} (h : b < 128) : byte (char b) = b := by
  rw [byte, toNat_char h, UInt8.ofNat_toNat]

theorem toNat_byte {c : Char} (h : c.toNat < 128) : (byte c).toNat = c.toNat := by
  rw [byte, UInt8.toNat_ofNat', Nat.mod_eq_of_lt (by omega)]

theorem char_byte {c : Char} (h : c.toNat < 128) : char (byte c) = c := by
  rw [char, toNat_byte h, Char.ofNat_toNat]

theorem encodeAscii_eq_some_iff : encodeAscii s = some data ↔
    (∀ c ∈ s.toList, c.toNat < 128) ∧ s.toList.map byte = data := by
  simp [encodeAscii]

theorem encodeAscii_lt (h : encodeAscii s = some data) : ∀ b ∈ data, b < 128 := by
  obtain ⟨hlt, rfl⟩ := encodeAscii_eq_some_iff.mp h
  intro b hb
  obtain ⟨c, hc, rfl⟩ := List.mem_map.mp hb
  have hn := hlt c hc
  rw [← toNat_byte hn] at hn
  exact hn

theorem toList_decodeAscii (h : ∀ b ∈ data, b < 128) :
    (decodeAscii data).toList = data.map char := by
  rw [decodeAscii, String.toList_ofList, List.filter_eq_self.mpr (by simpa using h)]

theorem decodeAscii_encodeAscii (h : encodeAscii s = some data) : decodeAscii data = s := by
  rw [← String.toList_inj, toList_decodeAscii (encodeAscii_lt h)]
  obtain ⟨hlt, rfl⟩ := encodeAscii_eq_some_iff.mp h
  rw [List.map_map]
  exact (List.map_congr_left fun c hc => char_byte (hlt c hc)).trans (List.map_id _)

theorem encodeAscii_decodeAscii (h : ∀ b ∈ data, b < 128) :
    encodeAscii (decodeAscii data) = some data := by
  rw [encodeAscii_eq_some_iff, toList_decodeAscii h]
  constructor
  · intro c hc
    obtain ⟨b, hb, rfl⟩ := List.mem_map.mp hc
    rw [toNat_char (h b hb)]
    exact h b hb
  · rw [List.map_map]
    exact (List.map_congr_left fun b hb => byte_char (h b hb)).trans (List.map_id _)

end Bytes
