import PyMesh.Dns.Names
import PyMesh.Library.Dict

/-! `MagicDNSProtocol`: its own label walk, its two lookups, and the responses that it builds. -/
namespace PyMesh.MagicDNSProtocol

open Bytes Rfc1035 Text

/-- The loop over the labels. Every length byte but zero is that of a label. -/
def walk (query : List UInt8) (offset : Nat) (labels : List String) : List String × Nat :=
  if h : offset < query.length then
    let length := query[offset].toNat
    if length = 0 then (labels, offset + 1)
    else
      let label := decodeAscii (slice query (offset + 1) (offset + 1 + length))
      walk query (offset + 1 + length) (labels ++ [label])
  else (labels, offset)
termination_by query.length - offset

def domainName (labels : List String) : String := asciiLower (join '.' labels)

/-- `labels[0] if labels else ""` -/
def shortName (labels : List String) : String := labels.headD ""

/-- The whole name is looked up first, and then the first label alone. -/
def ipStr (records : Dict String String) (labels : List String) : Option String :=
  match truthy (records (domainName labels)) with
  | some ip => some ip
  | none => truthy (records (shortName labels))

/-- Name pointer, type A, class IN, TTL 60 s, RDLENGTH 4, and the address. -/
def answer (ip : IPv4Address) : List UInt8 :=
  [0xc0, 0x0c, 0x00, 0x01, 0x00, 0x01, 0x00, 0x00, 0x00, 0x3c, 0x00, 0x04] ++
    DNSQueryParser.packed ip

/-- The type and the class of the question are read, and nothing is done with them. -/
def buildDnsResponse (records : Dict String String) (query : List UInt8) :
    Except Exc (List UInt8) :=
  if query.length < 12 then .ok []
  else
    let transactionId := slice query 0 2
    let flags := [0x81, 0x80]
    let qdcount := slice query 4 6
    let ancount := [0x00, 0x01]
    let nscount := [0x00, 0x00]
    let arcount := [0x00, 0x00]
    let header := transactionId ++ flags ++ qdcount ++ ancount ++ nscount ++ arcount
    let (labels, offset) := walk query 12 []
    let _qtype := slice query offset (offset + 2)
    let _qclass := slice query (offset + 2) (offset + 4)
    let questionSection := slice query 12 (offset + 4)
    match ipStr records labels with
    | none =>
      -- NXDOMAIN
      let flags := [0x81, 0x83]
      .ok (transactionId ++ flags ++ qdcount ++ [0x00, 0x00] ++ nscount ++ arcount ++
        questionSection)
    | some ipStr =>
      match IPv4Address.parse ipStr with
      | none => .error .addressValueError
      | some ip => .ok (header ++ questionSection ++ answer ip)

/-- The walk over the labels meets no length byte that marks a pointer. -/
def NoPointer : List UInt8 → Prop
  | [] => True
  | l :: bs => l.toNat = 0 ∨ (l.toNat < 0xC0 ∧ NoPointer (bs.drop l.toNat))
termination_by bs => bs.length
decreasing_by
  rw [List.length_drop, List.length_cons]
  omega

variable {records : Dict String String} {query data bs : List UInt8} {offset : Nat}
  {labels : List String} {l : UInt8} {ip : IPv4Address} {domain targetIp : String}

/-- One turn, by what is left of the query. -/
theorem walk_of_drop (h : data.drop offset = l :: bs) (labels : List String) :
    walk data offset labels = if l.toNat = 0 then (labels, offset + 1)
      else walk data (offset + 1 + l.toNat) (labels ++ [decodeAscii (bs.take l.toNat)]) := by
  obtain ⟨hlt, rfl, rfl⟩ := drop_eq_cons_iff.mp h
  have hslice : slice data (offset + 1) (offset + 1 + data[offset].toNat) =
      (data.drop (offset + 1)).take data[offset].toNat := by
    rw [slice, Nat.add_sub_cancel_left]
  rw [walk, dif_pos hlt]
  simp only [hslice]

/-- Without pointers, both walks see the same labels and end at the same byte. -/
theorem walk_eq (data : List UInt8) (offset : Nat) (labels : List String)
    (h : NoPointer (data.drop offset)) :
    walk data offset labels = DNSQueryParser.walk data offset labels := by
  fun_induction walk data offset labels with
  | case1 offset labels hlt length h0 =>
    rw [DNSQueryParser.walk, dif_pos hlt, if_pos h0]
  | case2 offset labels hlt length h0 label ih =>
    have hdrop := List.drop_eq_getElem_cons hlt
    rw [hdrop, NoPointer, List.drop_drop] at h
    obtain ⟨hlt', hnext⟩ := h.resolve_left h0
    have hlabel : label = decodeAscii ((data.drop (offset + 1)).take length) := by
      simp only [label, slice, Nat.add_sub_cancel_left]
    rw [ih hnext, DNSQueryParser.walk_of_drop hdrop, if_neg h0, if_neg (by omega), hlabel]
  | case3 offset labels hge => rw [DNSQueryParser.walk, dif_neg hge]

/-- What is built, by what the walk over the question gives and what the lookups find. -/
theorem buildDnsResponse_eq (h : 12 ≤ query.length) : buildDnsResponse records query =
    match ipStr records (walk query 12 []).1 with
    | none => .ok (slice query 0 2 ++ [0x81, 0x83] ++ slice query 4 6 ++ [0, 0, 0, 0, 0, 0] ++
        slice query 12 ((walk query 12 []).2 + 4))
    | some ipStr =>
      match IPv4Address.parse ipStr with
      | none => .error .addressValueError
      | some ip => .ok (slice query 0 2 ++ [0x81, 0x80] ++ slice query 4 6 ++ [0, 1, 0, 0, 0, 0] ++
          slice query 12 ((walk query 12 []).2 + 4) ++ answer ip) := by
  rw [buildDnsResponse, if_neg (by omega)]
  simp only [List.append_assoc, List.cons_append, List.nil_append]

theorem ne_empty_of_parse (h : IPv4Address.parse targetIp = some ip) : targetIp ≠ "" := by
  rintro rfl
  have hnone : IPv4Address.parse "" = none := by decide +kernel
  rw [hnone] at h
  cases h

theorem ipStr_of_name (h : records (domainName labels) = some targetIp) (hne : targetIp ≠ "") :
    ipStr records labels = some targetIp := by
  rw [ipStr, h, truthy_some hne]

/-- The responses to one query from records that bind its name to an address: they differ in the
time to live of the answer, and in nothing else. -/
theorem responders_agree (h : 12 ≤ query.length) (hw : NoPointer (body query))
    (hr : records (DNSQueryParser.parseDomainName query 12).1 = some targetIp)
    (hip : IPv4Address.parse targetIp = some ip) (domain : String) :
    ∃ before after, after.length = 6 ∧
      buildDnsResponse records query = .ok (before ++ [0x00, 0x00, 0x00, 0x3c] ++ after) ∧
      DNSQueryParser.buildAResponse query domain targetIp =
        .ok (before ++ [0x00, 0x00, 0x00, 0x1e] ++ after) := by
  have hwalk : walk query 12 [] = DNSQueryParser.walk query 12 [] := walk_eq query 12 [] hw
  have hfound : ipStr records (walk query 12 []).1 = some targetIp := by
    rw [hwalk]
    exact ipStr_of_name hr (ne_empty_of_parse hip)
  have hend : (walk query 12 []).2 = (DNSQueryParser.parseDomainName query 12).2 := by
    rw [hwalk]
    rfl
  refine ⟨slice query 0 2 ++ [0x81, 0x80] ++ slice query 4 6 ++ [0, 1, 0, 0, 0, 0] ++
    DNSQueryParser.sectionOf (body query) ++ [0xc0, 0x0c, 0x00, 0x01, 0x00, 0x01],
    [0x00, 0x04] ++ DNSQueryParser.packed ip, rfl, ?_, ?_⟩
  · rw [buildDnsResponse_eq h, hfound, hend, DNSQueryParser.slice_question]
    simp only [hip, answer, List.append_assoc, List.cons_append, List.nil_append]
  · rw [DNSQueryParser.buildAResponse_eq h hip]
    simp only [DNSQueryParser.answer, List.append_assoc, List.cons_append, List.nil_append]

/-- A query that ends inside its name. -/
theorem responders_agree_truncated : ∃ before after, after.length = 6 ∧
    buildDnsResponse (Dict.ofList [("registry.cr", "100.64.0.1")])
      (DNSQueryParser.registryName.take 24) = .ok (before ++ [0x00, 0x00, 0x00, 0x3c] ++ after) ∧
    DNSQueryParser.buildAResponse (DNSQueryParser.registryName.take 24) "registry.cr" "100.64.0.1" =
      .ok (before ++ [0x00, 0x00, 0x00, 0x1e] ++ after) :=
  responders_agree (by decide) (by
    have hbody : body (DNSQueryParser.registryName.take 24) =
      [8, 114, 101, 103, 105, 115, 116, 114, 121, 2, 99, 114] := rfl
    simp [hbody, NoPointer]) (by decide +kernel) DNSQueryParser.registry_parsed "registry.cr"

end PyMesh.MagicDNSProtocol
