import PyMesh.Networking.MagicDnsProtocol
import PyMesh.Networking.MagicDns

/-! What `MagicDNSProtocol` answers to a query with one question, from the records that
`MagicDNSServer.update_records` installs. -/
namespace PyMesh.MagicDNSProtocol

open Bytes Rfc1035 Text MagicDNSServer HostsManager

/-- The labels of the question, as the walk decodes them. -/
def texts (q : SingleQuery) : List String := q.question.labels.map fun l => decodeAscii l.text

/-- What a client reads in a response: its code and its answers. -/
def verdict (response : Except Exc (List UInt8)) : Except Exc (Nat × List Record) :=
  response.map fun message => (rcode message, Rfc1035.answers message)

/-- The response to a name that is bound to `ipStr`, or to none. -/
def outcome (ipStr : Option String) : Except Exc (Nat × List Record) :=
  match ipStr with
  | none => .ok (3, [])
  | some ipStr =>
    match IPv4Address.parse ipStr with
    | none => .error .addressValueError
    | some ip => .ok (0, [⟨1, 1, DNSQueryParser.packed ip⟩])

variable {records : Dict String String} {q q' : SingleQuery} {ip : IPv4Address}
  {labels : List Label} {rest bs : List UInt8}

theorem noPointer_encodeName (labels : List Label) (rest : List UInt8) :
    NoPointer (encodeName labels ++ rest) := by
  induction labels with
  | nil =>
    rw [encodeName, List.singleton_append, NoPointer]
    exact Or.inl rfl
  | cons l labels ih =>
    have hle := l.le
    rw [encodeName, List.cons_append, List.append_assoc, NoPointer, l.toNat_length, List.drop_left]
    exact Or.inr ⟨by omega, ih⟩

/-- The walk over a query that is well formed. -/
theorem walk_encode (q : SingleQuery) :
    walk q.encode 12 [] = (texts q, 12 + (encodeName q.question.labels).length) := by
  have hbody : NoPointer (q.encode.drop 12) := by
    have h := q.body_encode
    rw [body] at h
    rw [h, Question.encode, List.append_assoc, List.append_assoc]
    exact noPointer_encodeName _ _
  have hwalk := DNSQueryParser.walk_encodeName (q.start ++ pack16 1 ++ q.counts)
    (pack16 q.question.qtype ++ pack16 q.question.qclass ++ q.more) q.question.labels []
  rw [← q.encode_name, q.length_header, List.nil_append] at hwalk
  rw [walk_eq _ _ _ hbody, hwalk]
  rfl

/-- A response as it is put together, read as a message: its code is in the second byte of the
flags, and it counts `n` answers. -/
theorem verdict_message (q : SingleQuery) (flag code n : UInt8) (rest : List UInt8) :
    verdict (.ok (slice q.encode 0 2 ++ [flag, code] ++ slice q.encode 4 6 ++
      [0, n, 0, 0, 0, 0] ++ slice q.encode 12 (12 + (encodeName q.question.labels).length + 4) ++
        rest)) = .ok (code.toNat % 16, parseRecords n.toNat rest) := by
  have hid : (q.start.take 2).length = 2 := by
    rw [List.length_take, q.length_start]
    rfl
  obtain ⟨a, b, hab⟩ := List.length_eq_two.mp hid
  rw [q.slice_start, q.slice_qdcount, q.slice_question, hab]
  have hanswers : Rfc1035.answers ([a, b] ++ [flag, code] ++ pack16 1 ++ [0, n, 0, 0, 0, 0] ++
      q.question.encode ++ rest) = parseRecords n.toNat rest := by
    rw [answers_of_body rfl (rfl : body _ = q.question.encode ++ rest)]
    congr 1
    simp [ancount, slice, pack16, ofBigEndian]
  have hcode : rcode ([a, b] ++ [flag, code] ++ pack16 1 ++ [0, n, 0, 0, 0, 0] ++
      q.question.encode ++ rest) = code.toNat % 16 := by
    simp [rcode, slice, ofBigEndian]
  rw [verdict, Except.map, hanswers, hcode]

theorem verdict_eq (records : Dict String String) (q : SingleQuery) :
    verdict (buildDnsResponse records q.encode) = outcome (ipStr records (texts q)) := by
  have hlen := q.le_length
  rw [buildDnsResponse_eq hlen, walk_encode]
  dsimp only
  cases hfound : ipStr records (texts q) with
  | none =>
    have h := verdict_message q 0x81 0x83 0 []
    rw [List.append_nil] at h
    exact h
  | some targetIp =>
    dsimp only [outcome]
    cases IPv4Address.parse targetIp with
    | none => rfl
    | some ip =>
      have hanswer : answer ip = [0xc0, 0x0c, 0x00, 0x01, 0x00, 0x01] ++
          [0x00, 0x00, 0x00, 0x3c] ++ [0x00, 0x04] ++ DNSQueryParser.packed ip := rfl
      refine (verdict_message q 0x81 0x80 1 (answer ip)).trans ?_
      rw [UInt8.toNat_one, hanswer, parseRecords_answer rfl rfl]
      rfl

section Case

/-- A text without ASCII letters in upper case. -/
def IsLower (s : String) : Prop := asciiLower s = s

instance (s : String) : Decidable (IsLower s) := inferInstanceAs (Decidable (_ = _))

/-- `str.lower` leaves no ASCII letter in upper case. -/
def Lowers (rt : Runtime) : Prop := ∀ s, IsLower (rt.lower s)

/-- Two queries that differ in the case of the letters in their names only. -/
structure SameButCase (q q' : SingleQuery) : Prop where
  start : q'.start = q.start
  counts : q'.counts = q.counts
  qtype : q'.question.qtype = q.question.qtype
  qclass : q'.question.qclass = q.question.qclass
  more : q'.more = q.more
  labels : (q'.question.labels.map fun l => l.text.map lowerByte) =
    q.question.labels.map fun l => l.text.map lowerByte

variable {rt : Runtime} {newRecords : List (String × String)} {activeTlds : Option (List String)}
  {name s t : String}

theorem asciiLower_append (s t : String) : asciiLower (s ++ t) = asciiLower s ++ asciiLower t := by
  simp [← String.toList_inj, toList_asciiLower]

theorem asciiLower_asciiLower (s : String) : IsLower (asciiLower s) := by
  have hchar : ∀ c : Char, c.toLower.toLower = c.toLower := by
    intro c
    rw [← Char.toNat_inj, toNat_toLower c.toLower, toNat_toLower c]
    by_cases hc : 65 ≤ c.toNat ∧ c.toNat ≤ 90
    · rw [if_pos hc, if_neg (by omega)]
    · rw [if_neg hc, if_neg hc]
  simp [IsLower, ← String.toList_inj, toList_asciiLower, hchar]

theorem IsLower.append (hs : IsLower s) (ht : IsLower t) : IsLower (s ++ t) := by
  unfold IsLower at *
  rw [asciiLower_append, hs, ht]

theorem char_lowerByte : ∀ n < 128, (Char.ofNat n).toLower =
    char (lowerByte (UInt8.ofNat n)) ∧ lowerByte (UInt8.ofNat n) < 128 := by decide +kernel

theorem lowerByte_lt_iff (b : UInt8) : lowerByte b < 128 ↔ b < 128 := by
  constructor
  · intro h
    unfold lowerByte at h
    split at h
    · rename_i hb
      change b.toNat < 128
      omega
    · exact h
  · intro h
    have hn := (char_lowerByte b.toNat h).2
    rwa [UInt8.ofNat_toNat] at hn

/-- The text of a label in lower case comes from its bytes in lower case. -/
theorem asciiLower_decodeAscii (bs : List UInt8) :
    asciiLower (decodeAscii bs) = decodeAscii (bs.map lowerByte) := by
  rw [← String.toList_inj, toList_asciiLower, decodeAscii, decodeAscii, String.toList_ofList,
    String.toList_ofList]
  induction bs with
  | nil => rfl
  | cons b bs ih =>
    by_cases hb : b < 128
    · have hlow := (lowerByte_lt_iff b).mpr hb
      have hchar := (char_lowerByte b.toNat hb).1
      rw [UInt8.ofNat_toNat] at hchar
      rw [List.map_cons, List.filter_cons_of_pos (by simpa using hb),
        List.filter_cons_of_pos (by simpa using hlow), List.map_cons, List.map_cons, List.map_cons,
        ih]
      exact congrArg (· :: _) hchar
    · have hlow := (lowerByte_lt_iff b).not.mpr hb
      rw [List.map_cons, List.filter_cons_of_neg (by simpa using hb),
        List.filter_cons_of_neg (by simpa using hlow), ih]

theorem SameButCase.texts (h : SameButCase q q') :
    (texts q').map asciiLower = (MagicDNSProtocol.texts q).map asciiLower := by
  have hmap : ∀ q : SingleQuery, (MagicDNSProtocol.texts q).map asciiLower =
      (q.question.labels.map fun l => l.text.map lowerByte).map decodeAscii := by
    intro q
    simp [MagicDNSProtocol.texts, asciiLower_decodeAscii]
  rw [hmap, hmap, h.labels]

theorem domainName_eq (texts : List String) : domainName texts = join '.' (texts.map asciiLower) :=
  asciiLower_join rfl texts

theorem asciiLower_shortName (texts : List String) :
    asciiLower (shortName texts) = shortName (texts.map asciiLower) := by
  cases texts <;> rfl

/-- Every key of the records is in lower case. -/
theorem isLower_of_updateRecords (hrt : Lowers rt)
    (h : updateRecords rt newRecords activeTlds name ≠ none) : IsLower name := by
  have hdot : IsLower "." := by decide
  have hqualified : ∀ s t, IsLower s → IsLower (qualified s (rt.lower t)) :=
    fun s t hs => (hs.append hdot).append (hrt t)
  obtain ⟨r, -, ha⟩ := updateRecords_ne_none_iff.mp h
  rcases ha with hd | ⟨-, tld, -, rfl⟩
  · rcases List.mem_cons.mp hd with rfl | hd
    · exact hrt r.1
    · simp only [List.mem_map, exists_exists_and_eq_and] at hd
      obtain ⟨tld, -, rfl⟩ := hd
      exact hqualified _ _ (hrt r.1)
  · exact hqualified _ _ (by decide)

/-- The address of a first label: only the spelling in lower case is found. -/
theorem shortName_lookup (hrt : Lowers rt) (s : String) :
    truthy (updateRecords rt newRecords activeTlds s) =
      if IsLower s then truthy (updateRecords rt newRecords activeTlds (asciiLower s))
      else none := by
  split
  · rename_i h
    rw [h]
  · rename_i h
    have hnone : updateRecords rt newRecords activeTlds s = none :=
      not_not.mp fun hne => h (isLower_of_updateRecords hrt hne)
    rw [hnone]
    rfl

theorem outcome_some_ne (t : String) : outcome (some t) ≠ outcome none := by
  unfold outcome
  dsimp only
  cases IPv4Address.parse t with
  | none => exact fun h => nomatch h
  | some ip => simp

/-- Two queries that differ in case get the same code and the same answers, if and only if the
whole name is bound, or its first label is not, or the first label is in lower case in both of
them or in neither. -/
theorem same_answer_iff (hrt : Lowers rt) (h : SameButCase q q')
    (newRecords : List (String × String)) (activeTlds : Option (List String)) :
    let records := updateRecords rt newRecords activeTlds
    verdict (buildDnsResponse records q.encode) = verdict (buildDnsResponse records q'.encode) ↔
      truthy (records (domainName (texts q))) ≠ none ∨
        truthy (records (asciiLower (shortName (texts q)))) = none ∨
          (IsLower (shortName (texts q)) ↔ IsLower (shortName (texts q'))) := by
  intro records
  have hname : domainName (texts q') = domainName (texts q) := by
    rw [domainName_eq, domainName_eq, h.texts]
  have hshort : asciiLower (shortName (texts q')) = asciiLower (shortName (texts q)) := by
    rw [asciiLower_shortName, asciiLower_shortName, h.texts]
  rw [verdict_eq, verdict_eq, ipStr, ipStr, hname]
  cases hbound : truthy (records (domainName (texts q))) with
  | some ip => simp
  | none =>
    have hlookup : ∀ s, truthy (records s) =
        if IsLower s then truthy (records (asciiLower s)) else none := shortName_lookup hrt
    have hq := hlookup (shortName (texts q))
    have hq' := hlookup (shortName (texts q'))
    rw [hshort] at hq'
    cases hfirst : truthy (records (asciiLower (shortName (texts q)))) with
    | none =>
      rw [hfirst, ite_self] at hq hq'
      simp [hq, hq']
    | some ip =>
      rw [hfirst] at hq hq'
      by_cases h1 : IsLower (shortName (texts q)) <;> by_cases h2 : IsLower (shortName (texts q'))
      · simp [hq, hq', h1, h2]
      · simpa [hq, hq', h1, h2] using outcome_some_ne ip
      · simpa [hq, hq', h1, h2] using (outcome_some_ne ip).symm
      · simp [hq, hq', h1, h2]

/-- The labels `web`, `Web`, `mesh`, `example` and `com`. -/
def webLabel : Label := ⟨[119, 101, 98], by decide, by decide⟩

def webUpper : Label := ⟨[87, 101, 98], by decide, by decide⟩

def meshLabel : Label := ⟨[109, 101, 115, 104], by decide, by decide⟩

def exampleLabel : Label := ⟨[101, 120, 97, 109, 112, 108, 101], by decide, by decide⟩

def comLabel : Label := ⟨[99, 111, 109], by decide, by decide⟩

/-- The records of one node with the default TLDs. -/
def webRecords : Dict String String := updateRecords .ascii [("web", "100.64.0.5")] none

theorem lowers_ascii : Lowers .ascii := asciiLower_asciiLower

theorem webUpper_sameButCase (labels : List Label) :
    SameButCase (.address (webLabel :: labels)) (.address (webUpper :: labels)) :=
  ⟨rfl, rfl, rfl, rfl, rfl, rfl⟩

/-- The whole name `web.mesh` is bound. -/
theorem same_answer_iff_mesh :
    verdict (buildDnsResponse webRecords (SingleQuery.address [webLabel, meshLabel]).encode) =
      verdict (buildDnsResponse webRecords (SingleQuery.address [webUpper, meshLabel]).encode) := by
  have hiff := same_answer_iff lowers_ascii (webUpper_sameButCase [meshLabel])
    [("web", "100.64.0.5")] none
  exact hiff.mpr (Or.inl (by decide +kernel))

/-- Of the name `web.example` only the first label is found, and only in lower case. -/
theorem same_answer_fails :
    let q := SingleQuery.address [webLabel, exampleLabel]
    let q' := SingleQuery.address [webUpper, exampleLabel]
    SameButCase q q' ∧
      verdict (buildDnsResponse webRecords q.encode) = .ok (0, [⟨1, 1, [100, 64, 0, 5]⟩]) ∧
      verdict (buildDnsResponse webRecords q'.encode) = .ok (3, []) :=
  ⟨webUpper_sameButCase [exampleLabel], by decide +kernel, by decide +kernel⟩

end Case

section Foreign

variable {rt : Runtime} {newRecords : List (String × String)} {activeTlds : Option (List String)}
  {name : String} {texts : List String}

/-- The active TLDs as they stand in the records. -/
def activeTldNames (rt : Runtime) (activeTlds : Option (List String)) : List String :=
  (tldsOr activeTlds).map fun tld => rt.lower (lstrip (· = '.') tld)

/-- The last label is one of the active TLDs. -/
def LastActive (rt : Runtime) (activeTlds : Option (List String)) (texts : List String) : Prop :=
  asciiLower (texts.getLastD "") ∈ activeTldNames rt activeTlds

instance (rt : Runtime) (activeTlds : Option (List String)) (texts : List String) :
    Decidable (LastActive rt activeTlds texts) := inferInstanceAs (Decidable (_ ∈ _))

/-- A key is a single label, or a single label before an active TLD. -/
theorem key_cases (hhost : ∀ r ∈ newRecords, '.' ∉ (rt.lower r.1).toList)
    (h : updateRecords rt newRecords activeTlds name ≠ none) :
    '.' ∉ name.toList ∨ ∃ host tld, '.' ∉ host.toList ∧ tld ∈ activeTldNames rt activeTlds ∧
      name = qualified host tld := by
  obtain ⟨r, hr, ha⟩ := updateRecords_ne_none_iff.mp h
  rcases ha with hd | ⟨-, tld, htld, rfl⟩
  · rcases List.mem_cons.mp hd with rfl | hd
    · exact Or.inl (hhost r hr)
    · obtain ⟨tld, htld, rfl⟩ := List.mem_map.mp hd
      exact Or.inr ⟨_, tld, hhost r hr, htld, rfl⟩
  · exact Or.inr ⟨"registry", _, by decide, List.mem_map_of_mem htld, rfl⟩

/-- Two or more words that have two parts between the dots in all are two words. -/
theorem parts_of_words {ws : List String} (hlen : 2 ≤ ws.length) :
    2 ≤ (ws.flatMap fun w => split w '.').length ∧ ∀ a b,
      (ws.flatMap fun w => split w '.') = [a, b] → ∃ v w, ws = [v, w] ∧ split w '.' = [b] := by
  have hpos : ∀ w, 0 < (split w '.').length :=
    fun w => List.length_pos_of_ne_nil (split_ne_nil w '.')
  match ws with
  | v :: w :: ws =>
    have hv := hpos v
    have hw := hpos w
    refine ⟨?_, ?_⟩
    · simp only [List.flatMap_cons, List.length_append]
      omega
    · intro a b h
      have hsum := congrArg List.length h
      simp only [List.flatMap_cons, List.length_append, List.length_cons, List.length_nil] at hsum
      cases ws with
      | nil =>
        obtain ⟨x, hx⟩ := List.length_eq_one_iff.mp (by omega : (split v '.').length = 1)
        rw [List.flatMap_cons, List.flatMap_cons, List.flatMap_nil, List.append_nil, hx,
          List.singleton_append, List.cons.injEq] at h
        exact ⟨v, w, rfl, h.2⟩
      | cons u ws =>
        have hu := hpos u
        simp only [List.flatMap_cons, List.length_append] at hsum
        omega

/-- A name of two or more labels that is bound ends in an active TLD, when no TLD has a dot. -/
theorem lastActive_of_bound (hhost : ∀ r ∈ newRecords, '.' ∉ (rt.lower r.1).toList)
    (htld : ∀ tld ∈ activeTldNames rt activeTlds, '.' ∉ tld.toList) (hlen : 2 ≤ texts.length)
    (h : updateRecords rt newRecords activeTlds (domainName texts) ≠ none) :
    LastActive rt activeTlds texts := by
  have hlen' : 2 ≤ (texts.map asciiLower).length := by
    rwa [List.length_map]
  have hsplit : split (domainName texts) '.' =
      (texts.map asciiLower).flatMap fun w => split w '.' := by
    rw [domainName_eq]
    exact split_join_eq_flatMap (List.ne_nil_of_length_pos (by omega))
  obtain ⟨hparts, htwo⟩ := parts_of_words hlen'
  rw [← hsplit] at hparts htwo
  rcases key_cases hhost h with hdot | ⟨host, tld, hhost', hmem, hname⟩
  · -- A single label does not split, and two labels do.
    rw [split_of_notMem hdot, List.length_singleton] at hparts
    omega
  · have hcut : (qualified host tld).toList = host.toList ++ '.' :: tld.toList := by
      simp [qualified]
    have hkey : split (domainName texts) '.' = [host, tld] := by
      rw [hname, split_of_toList hcut, split_of_notMem hhost', split_of_notMem (htld tld hmem)]
      rfl
    obtain ⟨v, w, hvw, hw⟩ := htwo host tld hkey
    rw [← split_of_notMem (htld tld hmem)] at hw
    obtain rfl : w = tld := split_injective '.' hw
    obtain ⟨x, y, rfl⟩ := List.length_eq_two.mp (by
      rw [← List.length_map asciiLower, hvw]
      rfl : texts.length = 2)
    rw [List.map_cons, List.map_cons, List.map_nil, List.cons.injEq, List.cons.injEq] at hvw
    rw [LastActive, List.getLastD_cons, List.getLastD_cons, List.getLastD_nil, hvw.2.1]
    exact hmem

/-- The code and the answers of a response that is sent. -/
theorem verdict_ok {response : List UInt8} (h : buildDnsResponse records q.encode = .ok response) :
    outcome (ipStr records (MagicDNSProtocol.texts q)) =
      .ok (rcode response, Rfc1035.answers response) := by
  rw [← verdict_eq, h]
  rfl

/-- Nothing is found, and the response is NXDOMAIN without an answer. -/
theorem nxdomain_of_none (h : ipStr records (MagicDNSProtocol.texts q) = none) : ∃ response,
    buildDnsResponse records q.encode = .ok response ∧ rcode response = 3 ∧
      Rfc1035.answers response = [] := by
  have hv := verdict_eq records q
  rw [h] at hv
  cases hr : buildDnsResponse records q.encode with
  | error e =>
    rw [hr] at hv
    cases hv
  | ok response =>
    have hok := verdict_ok hr
    rw [h] at hok
    obtain ⟨hcode, hanswers⟩ := Prod.mk.inj (Except.ok.inj hok)
    exact ⟨response, rfl, hcode.symm, hanswers.symm⟩

theorem none_of_nxdomain {response : List UInt8}
    (h : buildDnsResponse records q.encode = .ok response) (hcode : rcode response = 3) :
    ipStr records (MagicDNSProtocol.texts q) = none := by
  have hok := verdict_ok h
  cases hfound : ipStr records (MagicDNSProtocol.texts q) with
  | none => rfl
  | some t =>
    rw [hfound, outcome, hcode] at hok
    cases hip : IPv4Address.parse t with
    | none =>
      rw [hip] at hok
      cases hok
    | some ip =>
      rw [hip] at hok
      cases (Prod.mk.inj (Except.ok.inj hok)).1

/-- A name of two or more labels gets an address only under an active TLD, and NXDOMAIN anywhere
else, if and only if it is under one, or its first label is not bound (and its whole name is not
either, by way of a TLD that has a dot in it). -/
theorem foreign_iff (rt : Runtime) (newRecords : List (String × String))
    (activeTlds : Option (List String)) (q : SingleQuery)
    (hhost : ∀ r ∈ newRecords, '.' ∉ (rt.lower r.1).toList)
    (hlen : 2 ≤ q.question.labels.length) :
    let records := updateRecords rt newRecords activeTlds
    let texts := MagicDNSProtocol.texts q
    ((∀ response, buildDnsResponse records q.encode = .ok response → Rfc1035.answers response ≠ [] →
        LastActive rt activeTlds texts) ∧
      (¬ LastActive rt activeTlds texts → ∃ response,
        buildDnsResponse records q.encode = .ok response ∧ rcode response = 3)) ↔
      LastActive rt activeTlds texts ∨ (truthy (records (shortName texts)) = none ∧
        ((∀ tld ∈ activeTldNames rt activeTlds, '.' ∉ tld.toList) ∨
          truthy (records (domainName texts)) = none)) := by
  intro records texts
  by_cases hlast : LastActive rt activeTlds texts
  · exact iff_of_true ⟨fun _ _ _ => hlast, fun hnot => (hnot hlast).elim⟩ (Or.inl hlast)
  · have hnone : ipStr records texts = none ↔ truthy (records (shortName texts)) = none ∧
        truthy (records (domainName texts)) = none := by
      unfold ipStr
      cases truthy (records (domainName texts)) <;> simp
    constructor
    · rintro ⟨-, hnx⟩
      obtain ⟨response, hr, hcode⟩ := hnx hlast
      obtain ⟨hshort, hname⟩ := hnone.mp (none_of_nxdomain hr hcode)
      exact Or.inr ⟨hshort, Or.inr hname⟩
    · rintro (hyes | ⟨hshort, hor⟩)
      · exact (hlast hyes).elim
      · have hname : truthy (records (domainName texts)) = none := by
          rcases hor with htld | hname
          · have htwo : 2 ≤ texts.length := by
              simpa [texts, MagicDNSProtocol.texts] using hlen
            have hunbound : records (domainName texts) = none :=
              not_not.mp fun hne => hlast (lastActive_of_bound hhost htld htwo hne)
            rw [hunbound]
            rfl
          · exact hname
        obtain ⟨response, hr, hcode, hanswers⟩ := nxdomain_of_none (hnone.mpr ⟨hshort, hname⟩)
        refine ⟨?_, fun _ => ⟨response, hr, hcode⟩⟩
        intro response' hr' hne
        obtain rfl := Except.ok.inj (hr.symm.trans hr')
        exact (hne hanswers).elim

/-- The name `example.com`, of which neither label is bound. -/
theorem foreign_iff_example : ∃ response,
    buildDnsResponse webRecords (SingleQuery.address [exampleLabel, comLabel]).encode =
      .ok response ∧ rcode response = 3 := by
  have hiff := foreign_iff .ascii [("web", "100.64.0.5")] none
    (.address [exampleLabel, comLabel]) (by decide) (by decide)
  exact (hiff.mpr (Or.inr ⟨by decide +kernel, Or.inl (by decide +kernel)⟩)).2 (by decide +kernel)

/-- The name `web.example.com` has the hostname of a node as its first label. -/
theorem foreign_fails :
    let q := SingleQuery.address [webLabel, exampleLabel, comLabel]
    ¬ LastActive .ascii none (MagicDNSProtocol.texts q) ∧
      verdict (buildDnsResponse webRecords q.encode) = .ok (0, [⟨1, 1, [100, 64, 0, 5]⟩]) :=
  ⟨by decide +kernel, by decide +kernel⟩

end Foreign

end PyMesh.MagicDNSProtocol
