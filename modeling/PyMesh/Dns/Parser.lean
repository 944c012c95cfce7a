import PyMesh.Library.Rfc1035
import PyMesh.Library.Text
import PyMesh.Ipaddress.Parse
import PyMesh.Protocol.Messages

/-! `DNSQueryParser`: the label walk over a query, and the answers that are built with it. -/
namespace PyMesh

open Bytes Rfc1035 Text

namespace DNSQueryParser

/-- The loop of `parse_domain_name`: the labels, and where the walk ends. A label may run past
the end of the data, and so may the walk. -/
def walk (data : List UInt8) (curr : Nat) (labels : List String) : List String × Nat :=
  if h : curr < data.length then
    let length := data[curr].toNat
    if length = 0 then (labels, curr + 1)
    else if length &&& 0xC0 = 0xC0 then (labels, curr + 2)
    else
      let label := decodeAscii (slice data (curr + 1) (curr + 1 + length))
      walk data (curr + 1 + length) (labels ++ [label])
  else (labels, curr)
termination_by data.length - curr

def parseDomainName (data : List UInt8) (offset : Nat) : String × Nat :=
  let (labels, curr) := walk data offset []
  (asciiLower (join '.' labels), curr)

/-- `ipaddress.IPv4Address(target_ip).packed` -/
def packed (ip : IPv4Address) : List UInt8 := ip.octets.map UInt8.ofNat

/-- Name pointer (0xc00c), type A, class IN, TTL 30 s, RDLENGTH 4, and the address. -/
def answer (ip : IPv4Address) : List UInt8 :=
  [0xc0, 0x0c, 0x00, 0x01, 0x00, 0x01, 0x00, 0x00, 0x00, 0x1e, 0x00, 0x04] ++ packed ip

/-- The domain name is not looked at. -/
def buildAResponse (queryData : List UInt8) (_domainName targetIp : String) :
    Except Exc (List UInt8) :=
  if queryData.length < 12 then .ok []
  else
    let transactionId := slice queryData 0 2
    let flags := [0x81, 0x80]
    let qdcount := slice queryData 4 6
    let ancount := [0x00, 0x01]
    let nscount := [0x00, 0x00]
    let arcount := [0x00, 0x00]
    let header := transactionId ++ flags ++ qdcount ++ ancount ++ nscount ++ arcount
    let qEnd := (parseDomainName queryData 12).2
    let questionSection := slice queryData 12 (qEnd + 4)
    match IPv4Address.parse targetIp with
    | none => .error .addressValueError
    | some ip => .ok (header ++ questionSection ++ answer ip)

/-- How far the walk gets from the start of `bs`. -/
def walkLength : List UInt8 → Nat
  | [] => 0
  | l :: bs =>
    if l.toNat = 0 then 1
    else if 192 ≤ l.toNat then 2
    else 1 + l.toNat + walkLength (bs.drop l.toNat)
termination_by bs => bs.length
decreasing_by
  rw [List.length_drop, List.length_cons]
  omega

variable {data bs more rest : List UInt8} {curr : Nat} {labels : List String}
  {domainName targetIp : String} {ip : IPv4Address}

theorem and_c0 : ∀ n < 256, (n &&& 0xC0 = 0xC0) ↔ 192 ≤ n := by decide +kernel

theorem walk_end (data : List UInt8) (curr : Nat) (labels : List String) :
    (walk data curr labels).2 = curr + walkLength (data.drop curr) := by
  fun_induction walk data curr labels with
  | case1 curr labels h length h0 =>
    rw [List.drop_eq_getElem_cons h, walkLength, if_pos h0]
  | case2 curr labels h length h0 hp =>
    have hge := (and_c0 _ (UInt8.toNat_lt data[curr])).mp hp
    rw [List.drop_eq_getElem_cons h, walkLength, if_neg h0, if_pos hge]
  | case3 curr labels h length h0 hp label ih =>
    have hlt : ¬ 192 ≤ data[curr].toNat := fun hge =>
      hp ((and_c0 _ (UInt8.toNat_lt data[curr])).mpr hge)
    rw [ih, List.drop_eq_getElem_cons h, walkLength, if_neg h0, if_neg hlt, List.drop_drop]
    simp only [length]
    omega
  | case4 curr labels h =>
    rw [List.drop_of_length_le (by omega), walkLength]
    rfl

/-- The question section of a response. -/
def sectionOf (bs : List UInt8) : List UInt8 := bs.take (walkLength bs + 4)

theorem slice_question (data : List UInt8) :
    slice data 12 ((parseDomainName data 12).2 + 4) = sectionOf (body data) := by
  have hend : (parseDomainName data 12).2 = 12 + walkLength (body data) := walk_end data 12 []
  rw [hend, slice, sectionOf, body]
  congr 1
  omega

theorem buildAResponse_eq (hl : 12 ≤ data.length) (hip : IPv4Address.parse targetIp = some ip)
    (domainName : String) : buildAResponse data domainName targetIp =
      .ok (slice data 0 2 ++ [0x81, 0x80] ++ slice data 4 6 ++ [0, 1, 0, 0, 0, 0] ++
        sectionOf (body data) ++ answer ip) := by
  unfold buildAResponse
  rw [if_neg (by omega)]
  dsimp only
  rw [slice_question, hip]
  simp

/-- A complete label is kept, and the walk goes on after it. -/
theorem sectionOf_label {l : UInt8} (h0 : l.toNat ≠ 0) (h192 : l.toNat < 192) :
    sectionOf (l :: bs) = l :: (bs.take l.toNat ++ sectionOf (bs.drop l.toNat)) := by
  have hsplit : bs.take (l.toNat + (walkLength (bs.drop l.toNat) + 4)) =
      bs.take l.toNat ++ (bs.drop l.toNat).take (walkLength (bs.drop l.toNat) + 4) := List.take_add
  rw [sectionOf, walkLength, if_neg h0, if_neg (by omega), sectionOf, ← hsplit,
    ← List.take_succ_cons]
  congr 1
  omega

/-- A name that is complete is kept, with up to four of the bytes after it. -/
theorem readName_sectionOf (h : readName bs = some rest) (more : List UInt8) :
    readName (sectionOf bs ++ more) = some (rest.take 4 ++ more) := by
  fun_induction readName bs with
  | case1 => cases h
  | case2 l bs hl =>
    obtain rfl := Option.some.inj h
    rw [sectionOf, walkLength, if_pos hl, Nat.add_comm, List.take_succ_cons, List.cons_append,
      readName, if_pos hl]
  | case3 l bs hl hp =>
    obtain ⟨hlen, rfl⟩ := skip_eq_some_iff.mp h
    obtain ⟨c, bs, rfl⟩ := List.exists_cons_of_length_pos hlen
    simp [sectionOf, walkLength, readName, hl, hp, skip]
  | case4 l bs hl hp hlt hlen ih =>
    rw [sectionOf_label hl (by omega), List.cons_append, List.append_assoc,
      readName_label hl hlt (List.length_take_of_le hlen), ih h]
  | case5 => cases h
  | case6 => cases h

/-- Labels that are cut off are kept as they are. -/
theorem sectionOf_of_missing {n : Nat} (h : missing bs = some n) : sectionOf bs = bs := by
  fun_induction missing bs with
  | case1 => rfl
  | case2 => cases h
  | case3 l bs hl hlen ih =>
    rw [sectionOf_label (by omega) (by omega), ih h, List.take_append_drop]
  | case4 l bs hl hlen =>
    rw [sectionOf, walkLength, if_neg (by omega), if_neg (by omega), List.take_of_length_le]
    rw [List.length_cons]
    omega

/-- A name that is neither complete nor just cut off in its labels ends in a length byte that
is reserved, or in the first half of a pointer. -/
theorem readName_sectionOf_none (h : readName bs = none) (hm : missing bs = none)
    (more : List UInt8) : readName (sectionOf bs ++ more) = none ∨
      readName (sectionOf bs ++ more) = skip 1 more := by
  fun_induction readName bs with
  | case1 => rw [missing] at hm; cases hm
  | case2 l bs hl => cases h
  | case3 l bs hl hp =>
    have hnil : bs = [] := by
      rw [skip, ite_eq_right_iff] at h
      cases bs with
      | nil => rfl
      | cons c bs => simp at h
    subst hnil
    refine Or.inr ?_
    rw [sectionOf, walkLength, if_neg hl, if_pos hp, List.take_of_length_le (by simp),
      List.singleton_append, readName, if_neg hl, if_pos hp]
  | case4 l bs hl hp hlt hlen ih =>
    rw [missing, if_neg (by omega), if_pos hlen] at hm
    rw [sectionOf_label hl (by omega), List.cons_append, List.append_assoc,
      readName_label hl hlt (List.length_take_of_le hlen)]
    exact ih h hm
  | case5 l bs hl hp hlt hlen =>
    rw [missing, if_neg (by omega), if_neg hlen] at hm
    cases hm
  | case6 l bs hl hp hlt =>
    refine Or.inl ?_
    rw [sectionOf_label hl (by omega), List.cons_append, readName, if_neg hl, if_neg hp,
      if_neg hlt]

section Answer

theorem length_answer (ip : IPv4Address) : (answer ip).length = 16 := rfl

/-- The answer is a record by itself. -/
theorem readRecord_answer (ip : IPv4Address) : readRecord (answer ip) = some [] := by
  simp [readRecord, readData, readName, skip, answer, packed, IPv4Address.octets, ofBigEndian]

theorem readQuestion_answer (ip : IPv4Address) :
    readQuestion (answer ip) = some ((answer ip).drop 6) := by
  simp [readQuestion, readName, skip, answer, packed, IPv4Address.octets]

/-- Up to four bytes between a name and the answer are never the start of its data. -/
theorem readData_append_answer (ht : rest.length ≤ 4) (ip : IPv4Address) :
    readData (rest ++ answer ip) ≠ some [] := by
  match rest with
  | [] => simp [readData, skip, answer, packed, IPv4Address.octets, ofBigEndian]
  | [_] => simp [readData, skip, answer, packed, IPv4Address.octets, ofBigEndian]
  | [_, _] => simp [readData, skip, answer, packed, IPv4Address.octets, ofBigEndian]
  | [_, _, _] => simp [readData, skip, answer, packed, IPv4Address.octets, ofBigEndian]
  | [_, _, _, _] => simp [readData, skip, answer, packed, IPv4Address.octets, ofBigEndian]

theorem readData_drop_one_answer (ip : IPv4Address) : readData ((answer ip).drop 1) ≠ some [] := by
  simp [readData, skip, answer, packed, IPv4Address.octets, ofBigEndian]

/-- A label that takes four bytes of the answer leaves a record when the address is right. -/
theorem readRecord_drop_four_answer (ip : IPv4Address) :
    readRecord ((answer ip).drop 4) = some [] ↔ slice (packed ip) 1 3 = [0, 1] := by
  simp only [readRecord, answer, packed, IPv4Address.octets, List.map_cons, List.map_nil,
    List.cons_append, List.nil_append, List.drop_succ_cons, List.drop_zero]
  generalize UInt8.ofNat (ip.toNat / 2 ^ 24) = b0
  generalize UInt8.ofNat (ip.toNat / 2 ^ 16 % 256) = b1
  generalize UInt8.ofNat (ip.toNat / 2 ^ 8 % 256) = b2
  generalize UInt8.ofNat (ip.toNat % 256) = b3
  have hbytes : b1.toNat * 256 + b2.toNat ≤ 1 ∧ 1 ≤ b1.toNat * 256 + b2.toNat ↔
      b1 = 0 ∧ b2 = 1 := by
    rw [← UInt8.toNat_inj, ← UInt8.toNat_inj (b := 1)]
    simp only [UInt8.toNat_ofNat]
    omega
  simpa [readName, readData, skip, ofBigEndian, slice] using hbytes

/-- Labels that end inside the answer, or right before it, and leave a record. -/
theorem readRecord_drop_answer_iff {n : Nat} (ip : IPv4Address) :
    (n ≤ (answer ip).length ∧ readRecord ((answer ip).drop n) = some []) ↔
      n = 0 ∨ (n = 4 ∧ slice (packed ip) 1 3 = [0, 1]) := by
  constructor
  · rintro ⟨hn, h⟩
    have hlen := length_of_readRecord h
    rw [List.length_drop, length_answer] at hlen
    match n with
    | 0 => exact Or.inl rfl
    | 4 => exact Or.inr ⟨rfl, (readRecord_drop_four_answer ip).mp h⟩
    | 1 =>
      -- The bytes of the answer are a label up to the last two.
      have hsplit : (answer ip).drop 1 = 0x0c :: (((answer ip).drop 2).take 12 ++
          (answer ip).drop 14) := rfl
      rw [hsplit, readRecord_label (by decide) (by decide) rfl] at h
      have hshort := length_of_readRecord h
      rw [List.length_drop, length_answer] at hshort
      omega
    | 2 =>
      simp [readRecord, readName, readData, skip, answer, packed, IPv4Address.octets,
        ofBigEndian] at h
      omega
    | 3 =>
      simp [readRecord, readName, readData, skip, answer, packed, IPv4Address.octets] at h
    | 5 =>
      simp [readRecord, readName, readData, skip, answer, packed, IPv4Address.octets] at h
    | n + 6 => omega
  · rintro (rfl | ⟨rfl, hs⟩)
    · exact ⟨Nat.zero_le _, readRecord_answer ip⟩
    · exact ⟨by simp [length_answer], (readRecord_drop_four_answer ip).mpr hs⟩

/-- Without questions, the copied bytes and the answer have to be one record. -/
theorem readRecord_sectionOf_iff (bs : List UInt8) (ip : IPv4Address) :
    readRecord (sectionOf bs ++ answer ip) = some [] ↔
      missing bs = some 0 ∨ (missing bs = some 4 ∧ slice (packed ip) 1 3 = [0, 1]) := by
  cases hm : missing bs with
  | some n =>
    have hread : readRecord (sectionOf bs ++ answer ip) =
        if n ≤ (answer ip).length then readRecord ((answer ip).drop n) else none := by
      rw [sectionOf_of_missing hm, readRecord, readName_append_of_missing hm]
      split <;> rfl
    have hiff := readRecord_drop_answer_iff (n := n) ip
    rw [hread]
    simpa using hiff
  | none =>
    refine iff_of_false ?_ (by simp)
    intro h
    cases hr : readName bs with
    | some rest =>
      rw [readRecord, readName_sectionOf hr, Option.bind_some] at h
      exact readData_append_answer (List.length_take_le 4 rest) ip h
    | none =>
      rw [readRecord] at h
      rcases readName_sectionOf_none hr hm (answer ip) with hn | hn
      · rw [hn] at h
        cases h
      · have hskip : skip 1 (answer ip) = some ((answer ip).drop 1) :=
          skip_eq_some_iff.mpr ⟨by rw [length_answer]; omega, rfl⟩
        rw [hn, hskip, Option.bind_some] at h
        exact readData_drop_one_answer ip h

end Answer

/-- The condition on a query under which the answer that is built for it is a reply: it asks one
question that is complete; or none, and its bytes happen to start the answer's record. -/
def Answerable (query : List UInt8) (ip : IPv4Address) : Prop :=
  (qdcount query = 1 ∧ (readQuestion (body query)).isSome) ∨
    (qdcount query = 0 ∧ (missing (body query) = some 0 ∨
      (missing (body query) = some 4 ∧ slice (packed ip) 1 3 = [0, 1])))

/-- The parts of a response that is not empty. -/
theorem response_parts {response : List UInt8} (hl : 12 ≤ data.length)
    (hip : IPv4Address.parse targetIp = some ip)
    (hr : buildAResponse data domainName targetIp = .ok response) :
    slice response 0 2 = slice data 0 2 ∧ qdcount response = qdcount data ∧
      ancount response = 1 ∧ body response = sectionOf (body data) ++ answer ip := by
  have hid : (slice data 0 2).length = 2 := by
    rw [length_slice]
    omega
  have hcount : (slice data 4 6).length = 2 := by
    rw [length_slice]
    omega
  rw [buildAResponse_eq hl hip] at hr
  obtain rfl := Except.ok.inj hr
  unfold qdcount
  obtain ⟨a, b, hab⟩ := List.length_eq_two.mp hid
  obtain ⟨c, d, hcd⟩ := List.length_eq_two.mp hcount
  rw [hab, hcd]
  exact ⟨rfl, rfl, rfl, rfl⟩

/-- A response to a query with questions is read as the first of them and the answer. -/
theorem readMany_sectionOf_succ {n : Nat} {others : List UInt8} (ip : IPv4Address)
    (h : readMany readQuestion (n + 1) bs = some others) :
    readMany readQuestion (n + 1) (sectionOf bs ++ answer ip) =
      readMany readQuestion n (answer ip) := by
  obtain ⟨r, hr, -⟩ := Option.bind_eq_some_iff.mp h
  obtain ⟨tail, htail, hskip⟩ := Option.bind_eq_some_iff.mp hr
  obtain ⟨hlen, -⟩ := skip_eq_some_iff.mp hskip
  have hfour : (tail.take 4).length = 4 := by
    rw [List.length_take]
    omega
  rw [readMany, readQuestion, readName_sectionOf htail, Option.bind_some, skip,
    if_pos (by rw [List.length_append]; omega), List.drop_left' hfour, Option.bind_some]

/-- No second question can be read from the answer and leave a record. -/
theorem readMany_answer {n : Nat} {records : List UInt8} (ip : IPv4Address)
    (h : readMany readQuestion n (answer ip) = some records) (hr : readRecord records = some []) :
    n = 0 := by
  cases n with
  | zero => rfl
  | succ n =>
    rw [readMany, readQuestion_answer, Option.bind_some] at h
    have hle := length_le_of_readMany_readQuestion h
    have hge := length_of_readRecord hr
    rw [List.length_drop, length_answer] at hle
    omega

theorem reply_iff {response : List UInt8} (hl : 12 ≤ data.length)
    (hip : IPv4Address.parse targetIp = some ip)
    (hr : buildAResponse data domainName targetIp = .ok response) :
    Reply data response ↔ Answerable data ip := by
  obtain ⟨hid, hqd, han, hbody⟩ := response_parts hl hip hr
  constructor
  · rintro ⟨-, -, questions, records, others, -, -, hrecords, hothers, hread⟩
    rw [hbody] at hrecords
    rw [han, readMany_one] at hread
    cases hn : qdcount data with
    | zero =>
      rw [hn, readMany_zero, Option.some.injEq] at hrecords
      rw [← hrecords] at hread
      exact Or.inr ⟨hn, (readRecord_sectionOf_iff _ ip).mp hread⟩
    | succ n =>
      rw [hn] at hrecords hothers
      rw [readMany_sectionOf_succ ip hothers] at hrecords
      have hzero := readMany_answer ip hrecords hread
      rw [hzero, readMany_one] at hothers
      exact Or.inl ⟨by rw [hn, hzero], by rw [hothers]; rfl⟩
  · rintro (⟨hn, hq⟩ | ⟨hn, hm⟩)
    · obtain ⟨others, hothers⟩ := Option.isSome_iff_exists.mp hq
      have hread : readQuestion (sectionOf (body data) ++ answer ip) = some (answer ip) := by
        have h1 := readMany_sectionOf_succ ip (readMany_one.trans hothers)
        rwa [readMany_one, readMany_zero] at h1
      have hsplit : body data = sectionOf (body data) ++ others := by
        obtain ⟨question, hquestion, hmore⟩ := exists_question hread
        obtain rfl := List.append_cancel_right hquestion
        have hdrop := hmore ((body data).drop (walkLength (body data) + 4))
        rw [sectionOf, List.take_append_drop, hothers, Option.some.injEq] at hdrop
        rw [hdrop, sectionOf, List.take_append_drop]
      refine ⟨hid, hqd, sectionOf (body data), answer ip, others, hbody, hsplit, ?_, ?_, ?_⟩
      · rw [hn, hbody, readMany_one, hread]
      · rw [hn, readMany_one, hothers]
      · rw [han, readMany_one, readRecord_answer]
    · refine ⟨hid, hqd, [], body response, body data, rfl, rfl, by rw [hn]; rfl, by rw [hn]; rfl, ?_⟩
      rw [han, readMany_one, hbody]
      exact (readRecord_sectionOf_iff _ ip).mpr hm

/-- Every response that is not empty is a reply to its query, if and only if the query can be
answered. -/
theorem responses_are_replies_iff (hip : IPv4Address.parse targetIp = some ip)
    (data : List UInt8) (domainName : String) :
    (∀ response, buildAResponse data domainName targetIp = .ok response → response ≠ [] →
      Reply data response) ↔ (12 ≤ data.length → Answerable data ip) := by
  constructor
  · intro h hl
    have hr := buildAResponse_eq hl hip domainName
    refine (reply_iff hl hip hr).mp (h _ hr ?_)
    simp
  · intro h response hr hne
    have hl : 12 ≤ data.length := by
      by_contra hl
      rw [buildAResponse, if_pos (by omega)] at hr
      exact hne (Except.ok.inj hr).symm
    exact (reply_iff hl hip hr).mpr (h hl)

/-- The header of a query with one question, and the name `registry.cr`. -/
def registryName : List UInt8 :=
  [0x12, 0x34, 1, 0, 0, 1, 0, 0, 0, 0, 0, 0,
    8, 114, 101, 103, 105, 115, 116, 114, 121, 2, 99, 114, 0]

theorem registry_parsed : IPv4Address.parse "100.64.0.1" = some ⟨1681915905, by decide⟩ := by
  decide +kernel

theorem responses_are_replies_iff_registry : ∃ response,
    buildAResponse (registryName ++ [0, 1, 0, 1]) "registry.cr" "100.64.0.1" = .ok response ∧
      response ≠ [] ∧ Reply (registryName ++ [0, 1, 0, 1]) response := by
  refine ⟨_, rfl, by decide +kernel, ?_⟩
  refine (responses_are_replies_iff registry_parsed _ "registry.cr").mpr ?_ _ rfl
    (by decide +kernel)
  intro _
  exact Or.inl ⟨by decide +kernel, by decide +kernel⟩

/-- The same query without its type and class is answered too. -/
theorem responses_are_replies_fails : ∃ response,
    buildAResponse registryName "registry.cr" "100.64.0.1" = .ok response ∧ response ≠ [] ∧
      ¬ Reply registryName response := by
  refine ⟨_, rfl, by decide +kernel, ?_⟩
  rintro ⟨-, -, _, _, others, -, -, -, hothers, -⟩
  have hnone : readMany readQuestion (qdcount registryName) (body registryName) = none := by
    decide +kernel
  rw [hnone] at hothers
  cases hothers

end DNSQueryParser

end PyMesh
