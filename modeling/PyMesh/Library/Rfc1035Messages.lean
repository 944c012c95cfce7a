import PyMesh.Library.Rfc1035

/-! The wire format of DNS messages: how names and questions are written, and the answers that a
message holds. -/
namespace Rfc1035

open Bytes

/-- A label of a name. -/
@[ext]
structure Label where
  text : List UInt8
  pos : 0 < text.length
  le : text.length ≤ 63
deriving DecidableEq

/-- The text of a label whose bytes are ASCII. -/
def Label.ascii (l : Label) : String := String.ofList (l.text.map char)

/-- Each label behind its length, and a zero byte. -/
def encodeName : List Label → List UInt8
  | [] => [0]
  | l :: labels => UInt8.ofNat l.text.length :: (l.text ++ encodeName labels)

structure Question where
  labels : List Label
  qtype : Nat
  qclass : Nat
  qtype_lt : qtype < 65536
  qclass_lt : qclass < 65536

def Question.encode (q : Question) : List UInt8 :=
  encodeName q.labels ++ pack16 q.qtype ++ pack16 q.qclass

/-- A message with one question: the id and the flags, the counts of the records, and what
follows the question. -/
structure SingleQuery where
  start : List UInt8
  counts : List UInt8
  question : Question
  more : List UInt8
  length_start : start.length = 4
  length_counts : counts.length = 6

def SingleQuery.encode (q : SingleQuery) : List UInt8 :=
  q.start ++ pack16 1 ++ q.counts ++ q.question.encode ++ q.more

/-- The query for the IPv4 address of a name. -/
def SingleQuery.address (labels : List Label) : SingleQuery where
  start := [0x12, 0x34, 1, 0]
  counts := [0, 0, 0, 0, 0, 0]
  question := ⟨labels, 1, 1, by decide, by decide⟩
  more := []
  length_start := rfl
  length_counts := rfl

/-- A resource record, but for its name and TTL. -/
structure Record where
  type : Nat
  cls : Nat
  data : List UInt8
deriving DecidableEq

/-- The record at the start of `bs`, and what follows it. -/
def parseRecord (bs : List UInt8) : Option (Record × List UInt8) := do
  let fixed ← readName bs
  let data ← skip 10 fixed
  let rest ← skip (ofBigEndian (slice fixed 8 10)) data
  return (⟨ofBigEndian (slice fixed 0 2), ofBigEndian (slice fixed 2 4),
    data.take (ofBigEndian (slice fixed 8 10))⟩, rest)

/-- The first `n` records, or those before one that is not complete. -/
def parseRecords : Nat → List UInt8 → List Record
  | 0, _ => []
  | n + 1, bs =>
    match parseRecord bs with
    | none => []
    | some (r, rest) => r :: parseRecords n rest

/-- The records in the answer section of a message. -/
def answers (message : List UInt8) : List Record :=
  match readMany readQuestion (qdcount message) (body message) with
  | none => []
  | some rest => parseRecords (ancount message) rest

/-- The response code. -/
def rcode (message : List UInt8) : Nat := ofBigEndian (slice message 3 4) % 16

variable {labels : List Label} {rest : List UInt8}

theorem Label.toNat_length (l : Label) : (UInt8.ofNat l.text.length).toNat = l.text.length := by
  have hle := l.le
  rw [UInt8.toNat_ofNat', Nat.mod_eq_of_lt (by omega)]

theorem Label.decodeAscii_text {l : Label} (h : ∀ b ∈ l.text, b < 128) :
    decodeAscii l.text = l.ascii := by
  rw [← String.toList_inj, toList_decodeAscii h, ascii, String.toList_ofList]

theorem readName_encodeName (labels : List Label) (rest : List UInt8) :
    readName (encodeName labels ++ rest) = some rest := by
  induction labels with
  | nil =>
    rw [encodeName, List.singleton_append, readName]
    rfl
  | cons l labels ih =>
    have hpos := l.pos
    have hle := l.le
    rw [encodeName, List.cons_append, List.append_assoc, readName_label _ _ l.toNat_length.symm, ih]
    · rw [l.toNat_length]
      omega
    · rw [l.toNat_length]
      omega

theorem readQuestion_encode (q : Question) (rest : List UInt8) :
    readQuestion (q.encode ++ rest) = some rest := by
  have hlen : (pack16 q.qtype ++ pack16 q.qclass).length = 4 := rfl
  rw [readQuestion, Question.encode, List.append_assoc, List.append_assoc, readName_encodeName,
    Option.bind_some, ← List.append_assoc, skip, if_pos (by rw [List.length_append]; omega),
    List.drop_left' hlen]

/-- An answer of type A and class IN, under a pointer to the name of the question. -/
theorem parseRecords_answer {ttl data : List UInt8} (ht : ttl.length = 4) (hd : data.length = 4) :
    parseRecords 1 ([0xc0, 0x0c, 0x00, 0x01, 0x00, 0x01] ++ ttl ++ [0x00, 0x04] ++ data) =
      [⟨1, 1, data⟩] := by
  match ttl, data, ht, hd with
  | [_, _, _, _], [_, _, _, _], _, _ =>
    simp [parseRecords, parseRecord, readName, skip, ofBigEndian, slice]

namespace SingleQuery

variable (q : SingleQuery)

theorem length_header : (q.start ++ pack16 1 ++ q.counts).length = 12 := by
  have hs := q.length_start
  have hc := q.length_counts
  simp
  omega

theorem le_length : 12 ≤ q.encode.length := by
  have h := q.length_header
  rw [encode, List.length_append, List.length_append]
  omega

theorem slice_start : slice q.encode 0 2 = q.start.take 2 := by
  have hs := q.length_start
  rw [slice_zero, encode, List.append_assoc, List.append_assoc, List.append_assoc,
    List.take_append_of_le_length (by omega)]

theorem slice_qdcount : slice q.encode 4 6 = pack16 1 := by
  have hparts : q.encode = q.start ++ pack16 1 ++ (q.counts ++ q.question.encode ++ q.more) := by
    simp [encode]
  rw [hparts]
  exact slice_append q.length_start rfl

theorem body_encode : body q.encode = q.question.encode ++ q.more := by
  rw [body, encode, List.append_assoc, List.drop_left' q.length_header]

/-- The name and the question of a query, as the parts of it that they are. -/
theorem encode_name : q.encode = (q.start ++ pack16 1 ++ q.counts) ++
    encodeName q.question.labels ++
      (pack16 q.question.qtype ++ pack16 q.question.qclass ++ q.more) := by
  simp [encode, Question.encode]

theorem slice_question : slice q.encode 12 (12 + (encodeName q.question.labels).length + 4) =
    q.question.encode := by
  have hlen : 12 + q.question.encode.length = 12 + (encodeName q.question.labels).length + 4 := by
    simp [Question.encode]
    omega
  rw [encode]
  exact slice_append q.length_header hlen

end SingleQuery

/-- The answers of a message whose header counts one question. -/
theorem answers_of_body {message : List UInt8} {question : Question}
    (hq : qdcount message = 1) (hb : body message = question.encode ++ rest) :
    answers message = parseRecords (ancount message) rest := by
  rw [answers, hq, readMany_one, hb, readQuestion_encode]

end Rfc1035
