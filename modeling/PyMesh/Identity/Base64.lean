import PyMesh.Identity.Keys
import Mathlib.Data.List.Basic

/-! `base64.b64encode` and its URL-safe variant, and that what is encoded is decoded again. -/
namespace PyMesh.Base64

def alphabet : List Char :=
  "ABCDEFGHIJKLMNOPQRSTUVWXYZabcdefghijklmnopqrstuvwxyz0123456789+/".toList

/-- The character of six bits. -/
def character (v : Nat) : Char := alphabet.getD v 'A'

/-- The data characters of an encoding. -/
def digits : List UInt8 → List Char
  | [] => []
  | [a] => [character (a.toNat / 4), character (a.toNat % 4 * 16)]
  | [a, b] =>
    [character (a.toNat / 4), character (a.toNat % 4 * 16 + b.toNat / 16),
      character (b.toNat % 16 * 4)]
  | a :: b :: c :: bs =>
    character (a.toNat / 4) :: character (a.toNat % 4 * 16 + b.toNat / 16) ::
      character (b.toNat % 16 * 4 + c.toNat / 64) :: character (c.toNat % 64) :: digits bs

/-- How many padding characters fill up the last group. -/
def pads (bs : List UInt8) : Nat := (3 - bs.length % 3) % 3

/-- `base64.b64encode(s).decode()`. -/
def b64encode (bs : List UInt8) : String :=
  String.ofList (digits bs ++ List.replicate (pads bs) '=')

/-- How a character of the alphabet is written in a URL. -/
def urlsafe (c : Char) : Char := if c = '+' then '-' else if c = '/' then '_' else c

/-- `s.translate(_urlsafe_decode_translation)`. -/
def standard (c : Char) : Char := if c = '-' then '+' else if c = '_' then '/' else c

def urlsafeB64decode (s : String) : Except Exc (List UInt8) :=
  b64decode (String.ofList (s.toList.map standard))

/-- `s + "=" * (-len(s) % 4)`. -/
def padded (s : String) : String :=
  String.ofList (s.toList ++ List.replicate ((4 - s.toList.length % 4) % 4) '=')

variable {v quadPos left n : Nat} {cs : List Char} {bs out : List UInt8} {a b c : UInt8} {x : Char}

theorem character_spec : ∀ v < 64, sextet (character v) = some v ∧ character v ≠ '=' ∧
    (character v).toNat < 128 ∧ standard (urlsafe (character v)) = character v ∧
    standard (character v) = character v := by
  decide +kernel

/-- A data character moves the loop on by one place in its group. -/
theorem a2bLoop_character (hv : v < 64) :
    a2bLoop (character v :: cs) quadPos left n out = match quadPos with
      | 0 => a2bLoop cs 1 v 0 out
      | 1 => a2bLoop cs 2 (v % 16) 0 (UInt8.ofNat (left * 4 + v / 16) :: out)
      | 2 => a2bLoop cs 3 (v % 4) 0 (UInt8.ofNat (left * 16 + v / 4) :: out)
      | _ => a2bLoop cs 0 0 0 (UInt8.ofNat (left * 64 + v) :: out) := by
  obtain ⟨hs, hne, -⟩ := character_spec v hv
  rcases quadPos with _ | _ | _ | _ <;> simp [a2bLoop, hne, hs]

theorem ofNat_eq {m : Nat} (h : m = a.toNat) : UInt8.ofNat m = a := by
  rw [h, UInt8.ofNat_toNat]

/-- Six bits of a first byte, and the other two with four bits of a second one. -/
theorem a2bLoop_first (a b : UInt8) (cs : List Char) (left n : Nat) (out : List UInt8) :
    a2bLoop (character (a.toNat / 4) :: character (a.toNat % 4 * 16 + b.toNat / 16) :: cs)
      0 left n out = a2bLoop cs 2 (b.toNat / 16) 0 (a :: out) := by
  have ha := a.toNat_lt
  have hb := b.toNat_lt
  have hbyte : UInt8.ofNat (a.toNat / 4 * 4 + (a.toNat % 4 * 16 + b.toNat / 16) / 16) = a :=
    ofNat_eq (by omega)
  have hleft : (a.toNat % 4 * 16 + b.toNat / 16) % 16 = b.toNat / 16 := by omega
  rw [a2bLoop_character (by omega), a2bLoop_character (by omega), hbyte, hleft]
  rfl

/-- The other four bits of a second byte with two bits of a third one. -/
theorem a2bLoop_second (b c : UInt8) (cs : List Char) (n : Nat) (out : List UInt8) :
    a2bLoop (character (b.toNat % 16 * 4 + c.toNat / 64) :: cs) 2 (b.toNat / 16) n out =
      a2bLoop cs 3 (c.toNat / 64) 0 (b :: out) := by
  have hb := b.toNat_lt
  have hc := c.toNat_lt
  have hbyte : UInt8.ofNat (b.toNat / 16 * 16 + (b.toNat % 16 * 4 + c.toNat / 64) / 4) = b :=
    ofNat_eq (by omega)
  have hleft : (b.toNat % 16 * 4 + c.toNat / 64) % 4 = c.toNat / 64 := by omega
  rw [a2bLoop_character (by omega), hbyte, hleft]
  rfl

/-- The other six bits of a third byte. -/
theorem a2bLoop_third (c : UInt8) :
    a2bLoop (character (c.toNat % 64) :: cs) 3 (c.toNat / 64) n out =
      a2bLoop cs 0 0 0 (c :: out) := by
  have hbyte : UInt8.ofNat (c.toNat / 64 * 64 + c.toNat % 64) = c := ofNat_eq (by omega)
  rw [a2bLoop_character (by omega), hbyte]
  rfl

/-- The loop gives back the bytes that were encoded, group by group. -/
theorem a2bLoop_digits (bs : List UInt8) (n : Nat) (out : List UInt8) :
    a2bLoop (digits bs ++ List.replicate (pads bs) '=') 0 0 n out = .ok (out.reverse ++ bs) := by
  induction bs using digits.induct generalizing n out with
  | case1 => simp [digits, pads, a2bLoop]
  | case2 a =>
    have hfirst := a2bLoop_first a 0 ['=', '='] 0 n out
    simp only [UInt8.toNat_zero, Nat.zero_div, Nat.add_zero] at hfirst
    simp only [digits, pads, List.length_singleton, List.cons_append, List.nil_append]
    rw [show List.replicate ((3 - 1 % 3) % 3) '=' = ['=', '='] from rfl, hfirst]
    simp [a2bLoop]
  | case3 a b =>
    have hsecond := a2bLoop_second b 0 ['='] 0 (a :: out)
    simp only [UInt8.toNat_zero, Nat.zero_div, Nat.add_zero] at hsecond
    simp only [digits, pads, List.length_cons, List.length_nil, List.cons_append, List.nil_append]
    rw [show List.replicate ((3 - (0 + 1 + 1) % 3) % 3) '=' = ['='] from rfl, a2bLoop_first,
      hsecond]
    simp [a2bLoop]
  | case4 a b c bs ih =>
    have hpads : pads (a :: b :: c :: bs) = pads bs := by
      simp only [pads, List.length_cons]
      omega
    rw [digits, hpads, List.cons_append, List.cons_append, List.cons_append, List.cons_append,
      a2bLoop_first, a2bLoop_second, a2bLoop_third, ih]
    simp

/-- What an encoding is made up of. -/
theorem mem_digits (h : x ∈ digits bs) : ∃ v < 64, x = character v := by
  induction bs using digits.induct with
  | case1 => cases h
  | case2 a =>
    have ha := a.toNat_lt
    simp only [digits, List.mem_cons, List.not_mem_nil, or_false] at h
    rcases h with rfl | rfl
    · exact ⟨_, by omega, rfl⟩
    · exact ⟨_, by omega, rfl⟩
  | case3 a b =>
    have ha := a.toNat_lt
    have hb := b.toNat_lt
    simp only [digits, List.mem_cons, List.not_mem_nil, or_false] at h
    rcases h with rfl | rfl | rfl
    · exact ⟨_, by omega, rfl⟩
    · exact ⟨_, by omega, rfl⟩
    · exact ⟨_, by omega, rfl⟩
  | case4 a b c bs ih =>
    have ha := a.toNat_lt
    have hb := b.toNat_lt
    have hc := c.toNat_lt
    simp only [digits, List.mem_cons] at h
    rcases h with rfl | rfl | rfl | rfl | h
    · exact ⟨_, by omega, rfl⟩
    · exact ⟨_, by omega, rfl⟩
    · exact ⟨_, by omega, rfl⟩
    · exact ⟨_, by omega, rfl⟩
    · exact ih h

theorem length_digits (bs : List UInt8) :
    (digits bs).length + pads bs = (bs.length + 2) / 3 * 4 := by
  induction bs using digits.induct with
  | case1 => simp [digits, pads]
  | case2 a => simp [digits, pads]
  | case3 a b => simp [digits, pads]
  | case4 a b c bs ih =>
    simp only [digits, pads, List.length_cons] at ih ⊢
    omega

theorem length_digits_le (bs : List UInt8) : 3 * (digits bs).length ≤ 4 * bs.length + 2 := by
  have hlen := length_digits bs
  simp only [pads] at hlen
  omega

/-- What is encoded is decoded again. -/
theorem b64decode_b64encode (bs : List UInt8) : b64decode (b64encode bs) = .ok bs := by
  have hascii : (b64encode bs).toList.all (fun c => c.toNat < 128) = true := by
    rw [List.all_eq_true]
    intro x hx
    rw [b64encode, String.toList_ofList, List.mem_append] at hx
    rcases hx with hx | hx
    · obtain ⟨v, hv, rfl⟩ := mem_digits hx
      exact decide_eq_true (character_spec v hv).2.2.1
    · rw [List.eq_of_mem_replicate hx]
      decide
  rw [b64decode, if_pos hascii, b64encode, String.toList_ofList, a2bLoop_digits]
  rfl

/-- Missing padding is filled up, in either alphabet. -/
theorem urlsafeB64decode_padded {ds : List Char} (h : n ≤ pads bs)
    (hlen : ds.length = (digits bs).length) (hds : ds.map standard = digits bs) :
    urlsafeB64decode (padded (String.ofList (ds ++ List.replicate n '='))) = .ok bs := by
  have hdigits := length_digits bs
  have hfill : n + (4 - ((digits bs).length + n) % 4) % 4 = pads bs := by
    have hp : pads bs < 3 := Nat.mod_lt _ (by decide)
    omega
  have htext : padded (String.ofList (ds ++ List.replicate n '=')) =
      String.ofList (ds ++ List.replicate (pads bs) '=') := by
    rw [padded, String.toList_ofList, List.append_assoc, ← List.replicate_add, List.length_append,
      List.length_replicate, hlen, hfill]
  rw [htext, urlsafeB64decode, String.toList_ofList, List.map_append, hds, List.map_replicate]
  exact b64decode_b64encode bs

theorem map_standard_urlsafe (bs : List UInt8) :
    ((digits bs).map urlsafe).map standard = digits bs := by
  rw [List.map_map]
  refine (List.map_congr_left fun x hx => ?_).trans (List.map_id _)
  obtain ⟨v, hv, rfl⟩ := mem_digits hx
  exact (character_spec v hv).2.2.2.1

theorem map_standard_digits (bs : List UInt8) : (digits bs).map standard = digits bs := by
  refine (List.map_congr_left fun x hx => ?_).trans (List.map_id _)
  obtain ⟨v, hv, rfl⟩ := mem_digits hx
  exact (character_spec v hv).2.2.2.2

/-- How many of some characters are of the alphabet. -/
def dataCount (cs : List Char) : Nat := cs.countP fun c => (sextet c).isSome

theorem dataCount_cons_none (h : sextet x = none) : dataCount (x :: cs) = dataCount cs := by
  rw [dataCount, List.countP_cons_of_neg (by simp [h]), dataCount]

theorem dataCount_cons_some (h : sextet x = some v) : dataCount (x :: cs) = dataCount cs + 1 := by
  rw [dataCount, List.countP_cons_of_pos (by simp [h]), dataCount]

theorem dataCount_append (cs ds : List Char) :
    dataCount (cs ++ ds) = dataCount cs + dataCount ds :=
  List.countP_append

/-- What is still in hand of the characters of a group, in quarters of a byte. -/
def credit (quadPos : Nat) : Nat := (4 - quadPos) % 4

/-- Four characters of the alphabet stand for three bytes. -/
theorem length_a2bLoop_le {pads : Nat} {res : List UInt8} (hq : quadPos < 4)
    (h : a2bLoop cs quadPos left pads out = .ok res) :
    4 * res.length ≤ 4 * out.length + credit quadPos + 3 * dataCount cs := by
  fun_induction a2bLoop cs quadPos left pads out with
  | case1 left pads out =>
    cases h
    rw [List.length_reverse]
    omega
  | case2 => cases h
  | case3 => cases h
  | case4 cs quadPos left pads out hlt ih =>
    rw [dataCount_cons_none (by decide)]
    exact ih hq h
  | case5 cs quadPos left pads out hge hend =>
    cases h
    rw [List.length_reverse]
    omega
  | case6 cs quadPos left pads out hge hend ih =>
    rw [dataCount_cons_none (by decide)]
    exact ih hq h
  | case7 c cs quadPos left pads out hc hs ih =>
    rw [dataCount_cons_none hs]
    exact ih hq h
  | case8 c cs left pads out hc v hs ih =>
    have hle := ih (by decide) h
    rw [dataCount_cons_some hs]
    simp only [credit] at hle ⊢
    omega
  | case9 c cs left pads out hc v hs ih =>
    have hle := ih (by decide) h
    rw [dataCount_cons_some hs]
    simp only [credit, List.length_cons] at hle ⊢
    omega
  | case10 c cs left pads out hc v hs ih =>
    have hle := ih (by decide) h
    rw [dataCount_cons_some hs]
    simp only [credit, List.length_cons] at hle ⊢
    omega
  | case11 c cs quadPos left pads out hc v hs h0 h1 h2 ih =>
    have hle := ih (by decide) h
    have h0 : quadPos ≠ 0 := h0
    have h1 : quadPos ≠ 1 := h1
    have h2 : quadPos ≠ 2 := h2
    rw [dataCount_cons_some hs]
    simp only [credit, List.length_cons] at hle ⊢
    omega

theorem length_b64decode_le {s : String} (h : b64decode s = .ok bs) :
    4 * bs.length ≤ 3 * dataCount s.toList := by
  rw [b64decode] at h
  split at h
  · have hle := length_a2bLoop_le (by decide) h
    simpa [credit] using hle
  · cases h

end PyMesh.Base64
