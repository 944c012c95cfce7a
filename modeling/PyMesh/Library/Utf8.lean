import Mathlib.Data.Nat.Init

/-! Reading UTF-8 with a replacement character for what is no UTF-8. -/
namespace Utf8

/-- A character that has been read in part: `owed` more bytes are due after the next one, which has
to lie between `low` and `high`. -/
structure Pending where
  owed : Nat
  low : Nat
  high : Nat
  acc : Nat
  le_low : 0x80 ≤ low
  high_le : high ≤ 0xbf

def tail (owed acc : Nat) : Pending := ⟨owed, 0x80, 0xbf, acc, Nat.le_refl _, Nat.le_refl _⟩

def replacement : Char := Char.ofNat 0xfffd

/-- The byte that a character starts with: what it completes, and what is read in part then. -/
def first (b : Nat) : List Char × Option Pending :=
  if b ≤ 0x7f then ([Char.ofNat b], none)
  else if 0xc2 ≤ b ∧ b ≤ 0xdf then ([], some (tail 0 (b - 0xc0)))
  else if b = 0xe0 then ([], some ⟨1, 0xa0, 0xbf, 0, by decide, by decide⟩)
  else if b = 0xed then ([], some ⟨1, 0x80, 0x9f, 0xd, by decide, by decide⟩)
  else if 0xe1 ≤ b ∧ b ≤ 0xef then ([], some (tail 1 (b - 0xe0)))
  else if b = 0xf0 then ([], some ⟨2, 0x90, 0xbf, 0, by decide, by decide⟩)
  else if b = 0xf4 then ([], some ⟨2, 0x80, 0x8f, 4, by decide, by decide⟩)
  else if 0xf1 ≤ b ∧ b ≤ 0xf3 then ([], some (tail 2 (b - 0xf0)))
  else ([replacement], none)

/-- A byte that the character read in part goes on with. -/
def next (p : Pending) (b : Nat) : List Char × Option Pending :=
  match p.owed with
  | 0 => ([Char.ofNat (p.acc * 64 + (b - 0x80))], none)
  | n + 1 => ([], some (tail n (p.acc * 64 + (b - 0x80))))

/-- A character that does not go on is replaced, and the byte starts another one. -/
def step : Option Pending → Nat → List Char × Option Pending
  | none, b => first b
  | some p, b =>
    if p.low ≤ b ∧ b ≤ p.high then next p b else (replacement :: (first b).1, (first b).2)

def decodeFrom : Option Pending → List UInt8 → List Char
  | none, [] => []
  | some _, [] => [replacement]
  | st, b :: bs => (step st b.toNat).1 ++ decodeFrom (step st b.toNat).2 bs

/-- `bs.decode("utf-8", errors="replace")`. -/
def decode (bs : List UInt8) : List Char := decodeFrom none bs

/-- What becomes of a character that has been read in part when another one starts. -/
def flush : Option Pending → List Char
  | none => []
  | some _ => [replacement]

variable {st : Option Pending} {b : Nat} {bs : List UInt8}

theorem decodeFrom_nil (st : Option Pending) : decodeFrom st [] = flush st := by
  cases st <;> rfl

theorem decodeFrom_cons (st : Option Pending) (b : UInt8) (bs : List UInt8) :
    decodeFrom st (b :: bs) =
      (step st b.toNat).1 ++ decodeFrom (step st b.toNat).2 bs := by
  cases st <;> rfl

/-- A byte that is in no character but at its start. -/
theorem step_of_start (hb : b < 0x80 ∨ 0xbf < b) (st : Option Pending) :
    step st b = (flush st ++ (first b).1, (first b).2) := by
  cases st with
  | none => rfl
  | some p =>
    have hl := p.le_low
    have hh := p.high_le
    have hrange : ¬(p.low ≤ b ∧ b ≤ p.high) := by omega
    exact if_neg hrange

theorem decodeFrom_start {b : UInt8} (hb : b.toNat < 0x80 ∨ 0xbf < b.toNat)
    (st : Option Pending) (bs : List UInt8) :
    decodeFrom st (b :: bs) = flush st ++ decodeFrom none (b :: bs) := by
  rw [decodeFrom_cons, step_of_start hb, decodeFrom_cons, step_of_start hb]
  simp [flush]

theorem length_first_le (b : Nat) :
    (first b).1.length + (flush (first b).2).length ≤ 1 := by
  unfold first
  repeat' split
  all_goals exact Nat.le_refl 1

/-- A byte completes one character at most, besides the one that it breaks off. -/
theorem length_step_le (st : Option Pending) (b : Nat) :
    (step st b).1.length + (flush (step st b).2).length ≤ 1 + (flush st).length := by
  have hf := length_first_le b
  cases st with
  | none => exact hf
  | some p =>
    change _ ≤ 1 + 1
    by_cases hr : p.low ≤ b ∧ b ≤ p.high
    · have hs : step (some p) b = next p b := if_pos hr
      rw [hs, Utf8.next]
      cases p.owed <;> simp [flush]
    · have hs : step (some p) b = (replacement :: (first b).1, (first b).2) := if_neg hr
      rw [hs]
      change (first b).1.length + 1 + (flush (first b).2).length ≤ 1 + 1
      omega

theorem first_ascii (hb : b ≤ 0x7f) : first b = ([Char.ofNat b], none) := if_pos hb

theorem first_two (h : 0xc2 ≤ b) (h' : b ≤ 0xdf) :
    first b = ([], some (tail 0 (b - 0xc0))) := by
  have hb : ¬ b ≤ 0x7f := by omega
  rw [first, if_neg hb, if_pos ⟨h, h'⟩]

/-- The first byte of a character of three, and the range that it leaves to the second. -/
theorem first_three {v : Nat} (h : 0x800 ≤ v) (h' : v ≤ 0xffff) (hv : v < 0xd800 ∨ 0xdfff < v) :
    ∃ p, first (v / 4096 % 16 + 0xe0) = ([], some p) ∧ p.owed = 1 ∧ p.acc = v / 4096 ∧
      p.low ≤ v / 64 % 64 + 0x80 ∧ v / 64 % 64 + 0x80 ≤ p.high := by
  unfold first
  rw [if_neg (by omega), if_neg (by omega)]
  split
  · exact ⟨_, rfl, rfl, by change 0 = _; omega, by change 0xa0 ≤ _; omega,
      by change _ ≤ 0xbf; omega⟩
  · split
    · exact ⟨_, rfl, rfl, by change 0xd = _; omega, by change 0x80 ≤ _; omega,
        by change _ ≤ 0x9f; omega⟩
    · rw [if_pos (by omega)]
      exact ⟨_, rfl, rfl, by change _ - 0xe0 = _; omega, by change 0x80 ≤ _; omega,
        by change _ ≤ 0xbf; omega⟩

/-- The first byte of a character of four, and the range that it leaves to the second. -/
theorem first_four {v : Nat} (h : 0x10000 ≤ v) (h' : v < 0x110000) :
    ∃ p, first (v / 262144 % 8 + 0xf0) = ([], some p) ∧ p.owed = 2 ∧ p.acc = v / 262144 ∧
      p.low ≤ v / 4096 % 64 + 0x80 ∧ v / 4096 % 64 + 0x80 ≤ p.high := by
  unfold first
  rw [if_neg (by omega), if_neg (by omega), if_neg (by omega), if_neg (by omega),
    if_neg (by omega)]
  split
  · exact ⟨_, rfl, rfl, by change 0 = _; omega, by change 0x90 ≤ _; omega,
      by change _ ≤ 0xbf; omega⟩
  · split
    · exact ⟨_, rfl, rfl, by change 4 = _; omega, by change 0x80 ≤ _; omega,
        by change _ ≤ 0x8f; omega⟩
    · rw [if_pos (by omega)]
      exact ⟨_, rfl, rfl, by change _ - 0xf0 = _; omega, by change 0x80 ≤ _; omega,
        by change _ ≤ 0xbf; omega⟩

theorem step_next {p : Pending} (h : p.low ≤ b) (h' : b ≤ p.high) :
    step (some p) b = next p b := if_pos ⟨h, h'⟩

theorem decodeFrom_byte {n : Nat} (hn : n < 256) (st : Option Pending) (bs : List UInt8) :
    decodeFrom st (UInt8.ofNat n :: bs) = (step st n).1 ++ decodeFrom (step st n).2 bs := by
  have hb : (UInt8.ofNat n).toNat = n := by
    rw [UInt8.toNat_ofNat']
    exact Nat.mod_eq_of_lt hn
  rw [decodeFrom_cons, hb]

/-- The last bytes of a character, which can be any. -/
theorem decodeFrom_tail {v acc : Nat} (hacc : acc = v / 64) (bs : List UInt8) :
    decodeFrom (some (tail 0 acc)) (UInt8.ofNat (v % 64 + 0x80) :: bs) =
      Char.ofNat v :: decodeFrom none bs := by
  have hnext : next (tail 0 acc) (v % 64 + 0x80) = ([Char.ofNat v], none) := by
    have hv : acc * 64 + (v % 64 + 0x80 - 0x80) = v := by omega
    change ([Char.ofNat (acc * 64 + (v % 64 + 0x80 - 0x80))], none) = _
    rw [hv]
  have hlow : (tail 0 acc).low ≤ v % 64 + 0x80 := by
    change 0x80 ≤ _
    omega
  have hhigh : v % 64 + 0x80 ≤ (tail 0 acc).high := by
    change _ ≤ 0xbf
    omega
  rw [decodeFrom_byte (by omega), step_next hlow hhigh, hnext]
  rfl

theorem decodeFrom_owed {p : Pending} {v : Nat} {n : Nat} (howed : p.owed = n + 1)
    (hacc : p.acc = v / 64) (hlow : p.low ≤ v % 64 + 0x80) (hhigh : v % 64 + 0x80 ≤ p.high)
    (bs : List UInt8) :
    decodeFrom (some p) (UInt8.ofNat (v % 64 + 0x80) :: bs) =
      decodeFrom (some (tail n v)) bs := by
  have hnext : next p (v % 64 + 0x80) = ([], some (tail n v)) := by
    have hv : p.acc * 64 + (v % 64 + 0x80 - 0x80) = v := by omega
    unfold Utf8.next
    rw [howed]
    simp only [hv]
  rw [decodeFrom_byte (by omega), step_next hlow hhigh, hnext]
  rfl

/-- What is encoded is read back, before anything. -/
theorem decodeFrom_encode (c : Char) (bs : List UInt8) :
    decodeFrom none (String.utf8EncodeChar c ++ bs) = c :: decodeFrom none bs := by
  have hc : Char.ofNat c.toNat = c := Char.ofNat_toNat c
  have hvalid : c.toNat < 0xd800 ∨ 0xdfff < c.toNat ∧ c.toNat < 0x110000 := c.valid
  have hdiv : ∀ v : Nat, v / 4096 = v / 64 / 64 ∧ v / 262144 = v / 4096 / 64 := by omega
  have hval : c.val.toNat = c.toNat := rfl
  unfold String.utf8EncodeChar
  dsimp only
  rw [hval]
  generalize c.toNat = v at hc hvalid
  obtain ⟨h4096, h262144⟩ := hdiv v
  rw [← hc]
  split
  · rename_i h1
    rw [List.singleton_append, decodeFrom_byte (by omega)]
    rw [step, first_ascii h1]
    rfl
  · split
    · rename_i h1 h2
      have hfirst : first (v / 64 % 0x20 + 0xc0) = ([], some (tail 0 (v / 64))) := by
        rw [first_two (by omega) (by omega)]
        have hacc : v / 64 % 0x20 + 0xc0 - 0xc0 = v / 64 := by omega
        rw [hacc]
      rw [List.cons_append, decodeFrom_byte (by omega), step, hfirst, List.nil_append,
        List.singleton_append, decodeFrom_tail rfl]
    · split
      · rename_i h1 h2 h3
        obtain ⟨p, hfirst, howed, hacc, hlow, hhigh⟩ :=
          first_three (v := v) (by omega) h3 (by omega)
        rw [List.cons_append, decodeFrom_byte (by omega), step, hfirst, List.nil_append,
          List.cons_append, decodeFrom_owed howed (hacc.trans h4096) hlow hhigh,
          List.singleton_append, decodeFrom_tail rfl]
      · rename_i h1 h2 h3
        obtain ⟨p, hfirst, howed, hacc, hlow, hhigh⟩ :=
          first_four (v := v) (by omega) (by omega)
        have htail : ∀ bs, decodeFrom (some (tail 1 (v / 4096)))
            (UInt8.ofNat (v / 64 % 64 + 0x80) :: bs) =
              decodeFrom (some (tail 0 (v / 64))) bs := by
          intro bs
          refine decodeFrom_owed rfl h4096 ?_ ?_ bs
          · change 0x80 ≤ _
            omega
          · change _ ≤ 0xbf
            omega
        rw [List.cons_append, decodeFrom_byte (by omega), step, hfirst, List.nil_append,
          List.cons_append, decodeFrom_owed howed (hacc.trans h262144) hlow hhigh,
          List.cons_append, htail, List.singleton_append, decodeFrom_tail rfl]

theorem encode_start (c : Char) : ∃ b bs, String.utf8EncodeChar c = b :: bs ∧
    (b.toNat < 0x80 ∨ 0xbf < b.toNat) := by
  have hbyte : ∀ n < 256, (UInt8.ofNat n).toNat = n := by
    intro n hn
    rw [UInt8.toNat_ofNat']
    exact Nat.mod_eq_of_lt hn
  unfold String.utf8EncodeChar
  dsimp only
  split
  · refine ⟨_, _, rfl, ?_⟩
    rw [hbyte _ (by omega)]
    omega
  · split
    · refine ⟨_, _, rfl, ?_⟩
      rw [hbyte _ (by omega)]
      omega
    · split
      · refine ⟨_, _, rfl, ?_⟩
        rw [hbyte _ (by omega)]
        omega
      · refine ⟨_, _, rfl, ?_⟩
        rw [hbyte _ (by omega)]
        omega

/-- A character that has been read in part takes nothing from the next one. -/
theorem decodeFrom_encode_flush (st : Option Pending) (c : Char) (bs : List UInt8) :
    decodeFrom st (String.utf8EncodeChar c ++ bs) = flush st ++ c :: decodeFrom none bs := by
  obtain ⟨b, rest, hc, hb⟩ := encode_start c
  rw [← decodeFrom_encode, hc, List.cons_append, decodeFrom_start hb]

/-- One byte more makes one character more at most. -/
theorem length_decodeFrom_cons_le {n : Nat}
    (h : ∀ st, (decodeFrom st bs).length ≤ n + (flush st).length) (st : Option Pending)
    (b : UInt8) : (decodeFrom st (b :: bs)).length ≤ n + 1 + (flush st).length := by
  have hs := length_step_le st b.toNat
  have ht := h (step st b.toNat).2
  rw [decodeFrom_cons, List.length_append]
  omega

end Utf8
