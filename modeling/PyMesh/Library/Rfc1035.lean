import PyMesh.Library.Bytes

/-! The wire format of DNS messages: reading names, questions and resource records. Each reader
answers with the bytes that follow what it has read. -/
namespace Rfc1035

open Bytes

/-- The rest after `n` bytes. -/
def skip (n : Nat) (bs : List UInt8) : Option (List UInt8) :=
  if n ≤ bs.length then some (bs.drop n) else none

/-- A name: labels of 1 to 63 bytes behind their lengths, ended by a zero byte or by a pointer
of two bytes. -/
def readName : List UInt8 → Option (List UInt8)
  | [] => none
  | l :: bs =>
    if l.toNat = 0 then some bs
    else if 192 ≤ l.toNat then skip 1 bs
    else if l.toNat < 64 then
      if l.toNat ≤ bs.length then readName (bs.drop l.toNat) else none
    else none
termination_by bs => bs.length
decreasing_by
  rw [List.length_drop, List.length_cons]
  omega

/-- A question: a name, a type and a class. -/
def readQuestion (bs : List UInt8) : Option (List UInt8) := (readName bs).bind (skip 4)

/-- What follows the name in a record: type, class and TTL, then the data behind its length. -/
def readData (bs : List UInt8) : Option (List UInt8) :=
  (skip 8 bs).bind fun rest =>
    (skip 2 rest).bind (skip (ofBigEndian (rest.take 2)))

def readRecord (bs : List UInt8) : Option (List UInt8) := (readName bs).bind readData

/-- `n` items one after the other. -/
def readMany (read : List UInt8 → Option (List UInt8)) : Nat → List UInt8 → Option (List UInt8)
  | 0, bs => some bs
  | n + 1, bs => (read bs).bind (readMany read n)

def qdcount (message : List UInt8) : Nat := ofBigEndian (slice message 4 6)

def ancount (message : List UInt8) : Nat := ofBigEndian (slice message 6 8)

/-- The part of a message after its header. -/
def body (message : List UInt8) : List UInt8 := message.drop 12

/-- A message that is read exactly by the counts in its header, and that carries the id and the
questions of the query. -/
structure Reply (query message : List UInt8) : Prop where
  transaction : slice message 0 2 = slice query 0 2
  counts : qdcount message = qdcount query
  read : ∃ questions records others,
    body message = questions ++ records ∧ body query = questions ++ others ∧
      readMany readQuestion (qdcount query) (body message) = some records ∧
      readMany readQuestion (qdcount query) (body query) = some others ∧
      readMany readRecord (ancount message) records = some []

variable {bs rest rest' : List UInt8} {n m : Nat}

theorem skip_eq_some_iff : skip n bs = some rest ↔ n ≤ bs.length ∧ bs.drop n = rest := by
  simp [skip]

theorem readMany_zero {read : List UInt8 → Option (List UInt8)} : readMany read 0 bs = some bs :=
  rfl

theorem readMany_one {read : List UInt8 → Option (List UInt8)} : readMany read 1 bs = read bs := by
  rw [readMany]
  cases read bs <;> rfl

/-- A complete label is passed over. -/
theorem readName_label {l : UInt8} {text more : List UInt8} (h0 : l.toNat ≠ 0)
    (h64 : l.toNat < 64) (hlen : text.length = l.toNat) :
    readName (l :: (text ++ more)) = readName more := by
  have hlong : l.toNat ≤ (text ++ more).length := by
    rw [List.length_append]
    omega
  rw [readName, if_neg h0, if_neg (by omega), if_pos h64, if_pos hlong, List.drop_left' hlen]

theorem readRecord_label {l : UInt8} {text more : List UInt8} (h0 : l.toNat ≠ 0)
    (h64 : l.toNat < 64) (hlen : text.length = l.toNat) :
    readRecord (l :: (text ++ more)) = readRecord more := by
  rw [readRecord, readName_label h0 h64 hlen, readRecord]

/-- What is read as a name does not depend on what follows. -/
theorem exists_name (h : readName bs = some rest) :
    ∃ name, name ≠ [] ∧ bs = name ++ rest ∧ ∀ more, readName (name ++ more) = some more := by
  fun_induction readName bs with
  | case1 => cases h
  | case2 l bs hl =>
    obtain rfl := Option.some.inj h
    refine ⟨[l], by simp, rfl, ?_⟩
    intro more
    rw [List.singleton_append, readName, if_pos hl]
  | case3 l bs hl hp =>
    obtain ⟨hlen, rfl⟩ := skip_eq_some_iff.mp h
    obtain ⟨c, bs, rfl⟩ := List.exists_cons_of_length_pos hlen
    refine ⟨[l, c], by simp, rfl, ?_⟩
    intro more
    simp [readName, hl, hp, skip]
  | case4 l bs hl hp hlt hlen ih =>
    obtain ⟨name, -, hname, hmore⟩ := ih h
    refine ⟨l :: bs.take l.toNat ++ name, by simp, ?_, ?_⟩
    · rw [List.cons_append, List.cons_append, List.append_assoc, ← hname, List.take_append_drop]
    · intro more
      rw [List.cons_append, List.cons_append, List.append_assoc,
        readName_label hl hlt (List.length_take_of_le hlen), hmore]
  | case5 => cases h
  | case6 => cases h

theorem exists_question (h : readQuestion bs = some rest) :
    ∃ question, bs = question ++ rest ∧ ∀ more, readQuestion (question ++ more) = some more := by
  obtain ⟨tail, htail, hskip⟩ := Option.bind_eq_some_iff.mp h
  obtain ⟨name, -, rfl, hname⟩ := exists_name htail
  obtain ⟨hlen, rfl⟩ := skip_eq_some_iff.mp hskip
  have hfour : (tail.take 4).length = 4 := by
    rw [List.length_take]
    omega
  refine ⟨name ++ tail.take 4, by rw [List.append_assoc, List.take_append_drop], ?_⟩
  intro more
  rw [readQuestion, List.append_assoc, hname, Option.bind_some, skip,
    if_pos (by rw [List.length_append]; omega), List.drop_left' hfour]

/-- A record takes at least eleven bytes. -/
theorem length_of_readRecord (h : readRecord bs = some rest) : 11 ≤ bs.length := by
  obtain ⟨tail, htail, hdata⟩ := Option.bind_eq_some_iff.mp h
  obtain ⟨name, hne, rfl, -⟩ := exists_name htail
  obtain ⟨r, hr, hrest⟩ := Option.bind_eq_some_iff.mp hdata
  obtain ⟨r', hr', -⟩ := Option.bind_eq_some_iff.mp hrest
  obtain ⟨h8, rfl⟩ := skip_eq_some_iff.mp hr
  obtain ⟨h2, -⟩ := skip_eq_some_iff.mp hr'
  have hpos := List.length_pos_of_ne_nil hne
  rw [List.length_drop] at h2
  rw [List.length_append]
  omega

theorem length_le_of_readMany_readQuestion (h : readMany readQuestion n bs = some rest) :
    rest.length ≤ bs.length := by
  induction n generalizing bs with
  | zero => exact (Option.some.inj h ▸ le_rfl)
  | succ n ih =>
    obtain ⟨r, hr, hrest⟩ := Option.bind_eq_some_iff.mp h
    obtain ⟨question, rfl, -⟩ := exists_question hr
    have hle := ih hrest
    rw [List.length_append]
    omega

/-- How many bytes are missing from the last label, when there are only labels: `some 0` when
the last one is complete and what has to follow it is not there. -/
def missing : List UInt8 → Option Nat
  | [] => some 0
  | l :: bs =>
    if l.toNat = 0 ∨ 64 ≤ l.toNat then none
    else if l.toNat ≤ bs.length then missing (bs.drop l.toNat)
    else some (l.toNat - bs.length)
termination_by bs => bs.length
decreasing_by
  rw [List.length_drop, List.length_cons]
  omega

/-- The labels are completed by the bytes that follow, and the name goes on after them. -/
theorem readName_append_of_missing (h : missing bs = some n) (more : List UInt8) :
    readName (bs ++ more) = if n ≤ more.length then readName (more.drop n) else none := by
  fun_induction missing bs with
  | case1 =>
    obtain rfl := Option.some.inj h
    simp
  | case2 => cases h
  | case3 l bs hl hlen ih =>
    rw [← ih h, ← List.take_append_drop l.toNat bs, List.cons_append, List.append_assoc,
      readName_label (by omega) (by omega) (List.length_take_of_le hlen), List.take_append_drop]
  | case4 l bs hl hlen =>
    obtain rfl := Option.some.inj h
    rw [List.cons_append, readName, if_neg (by omega), if_neg (by omega), if_pos (by omega),
      List.length_append, List.drop_append, List.drop_of_length_le (by omega), List.nil_append]
    refine if_congr (by omega) rfl rfl

end Rfc1035
