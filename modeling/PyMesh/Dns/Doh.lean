import PyMesh.Dns.LocalAnswers
import PyMesh.Identity.Base64
import PyMesh.Library.UrlQuery
import Mathlib.Data.List.Count

/-! DNS over HTTPS: `doh_dns_query` reads a query out of a request and has it answered by the
server that also answers over UDP. -/
namespace PyMesh

open LTS Resumption Text UrlQuery

/-- A request to `/dns-query`. -/
inductive DohRequest where
  | get (queryString : List Char)
  | post (body : List UInt8)

/-- How `/dns-query` answers. -/
inductive DohResponse where
  /-- Status 400, "Missing DNS query message". -/
  | missing
  | dnsMessage (outcome : Outcome)

namespace Api

/-- `query_bytes`, which stays empty when the parameter is not there or cannot be decoded. -/
def queryBytes : DohRequest → List UInt8
  | .post body => body
  | .get queryString =>
    match truthy (lookup (parseQsl queryString) "dns") with
    | none => []
    | some dnsParam => match Base64.urlsafeB64decode (Base64.padded dnsParam) with
      | .ok bytes => bytes
      | .error _ => []

def dohDnsQuery {γ : Type} (rt : Runtime) (dnsSrv : PyMeshDNSServer)
    (nodesReply : γ → HttpReply (String × String)) (tldsReply : γ → HttpReply String)
    (request : DohRequest) : Prog (DnsState γ) Exc DohResponse := do
  if queryBytes request = [] then return .missing
  return .dnsMessage (← dnsSrv.processQueryData rt nodesReply tldsReply (queryBytes request))

variable {client : Client} {base : String} {bs : List UInt8} {n : Nat} {ds text : List Char}
  {c : Char}

/-- The URL of a query in the `dns` parameter. -/
def dohUrl (base : String) (text : List Char) : String :=
  String.ofList (base.toList ++ '?' :: ("dns".toList ++ '=' :: text))

theorem key_dns : Key "dns" := by decide

/-- What is read of the parameter, where nothing in it is escaped. -/
theorem queryBytes_dohUrl (hbase : ∀ c ∈ ['?', '#'], c ∉ base.toList)
    (htext : ∀ c ∈ ['#', '&', '%'], c ∉ text) (hne : text ≠ []) :
    queryBytes (.get (query client (dohUrl base text))) =
      match Base64.urlsafeB64decode (Base64.padded (String.ofList (text.map plusToSpace))) with
      | .ok bytes => bytes
      | .error _ => [] := by
  have hparam : lookup (parseQsl (query client (dohUrl base text))) "dns" =
      some (String.ofList (text.map plusToSpace)) := by
    rw [dohUrl, parseQsl_query hbase, key_dns.takeWhile_field,
      takeWhile_ne_of_notMem (htext '#' (by simp)), key_dns.parseQsl_field (htext '&' (by simp)),
      lookup_singleton, if_pos rfl, unquotePlus_of_notMem (htext '%' (by simp))]
  have htruthy : truthy (some (String.ofList (text.map plusToSpace))) =
      some (String.ofList (text.map plusToSpace)) := by
    refine truthy_some fun h => hne ?_
    have hl := congrArg String.toList h
    rw [String.toList_ofList] at hl
    exact List.map_eq_nil_iff.mp hl
  rw [queryBytes, hparam, htruthy]

/-- The characters of both alphabets mean nothing in a query, except for the plus sign. -/
theorem characters_plain : ∀ v < 64,
    Base64.character v ∉ ['#', '&', '%'] ∧
      Base64.urlsafe (Base64.character v) ∉ ['#', '&', '%', '+'] := by
  decide +kernel

theorem plain_digits (hc : c ∈ ['#', '&', '%']) : c ∉ Base64.digits bs ++ List.replicate n '=' ∧
    c ∉ (Base64.digits bs).map Base64.urlsafe ++ List.replicate n '=' := by
  have hpad : c ∉ List.replicate n '=' := by
    intro h
    rw [List.eq_of_mem_replicate h] at hc
    exact absurd hc (by decide)
  refine ⟨fun h => ?_, fun h => ?_⟩
  · rcases List.mem_append.mp h with h | h
    · obtain ⟨v, hv, rfl⟩ := Base64.mem_digits h
      exact (characters_plain v hv).1 hc
    · exact hpad h
  · rcases List.mem_append.mp h with h | h
    · obtain ⟨d, hd, rfl⟩ := List.mem_map.mp h
      obtain ⟨v, hv, rfl⟩ := Base64.mem_digits hd
      exact (characters_plain v hv).2 (List.mem_append_left ['+'] hc)
    · exact hpad h

theorem map_plusToSpace (h : '+' ∉ ds) :
    (ds ++ List.replicate n '=').map plusToSpace = ds ++ List.replicate n '=' := by
  refine (List.map_congr_left fun c hc => ?_).trans (List.map_id _)
  refine if_neg ?_
  rintro rfl
  rcases List.mem_append.mp hc with hc | hc
  · exact h hc
  · exact absurd (List.eq_of_mem_replicate hc) (by decide)

/-- The query comes out of a text that stands for it and has no plus sign. -/
theorem queryBytes_of_digits (client : Client) (hbase : ∀ c ∈ ['?', '#'], c ∉ base.toList)
    (hbs : bs ≠ []) (hn : n ≤ Base64.pads bs) (hlen : ds.length = (Base64.digits bs).length)
    (hds : ds.map Base64.standard = Base64.digits bs) (hplus : '+' ∉ ds)
    (hplain : ∀ c ∈ ['#', '&', '%'], c ∉ ds ++ List.replicate n '=') :
    queryBytes (.get (query client (dohUrl base (ds ++ List.replicate n '=')))) = bs := by
  have hdigits : Base64.digits bs ≠ [] := by
    intro h
    have hle := Base64.length_digits bs
    have hpos := List.length_pos_iff.mpr hbs
    have hp : Base64.pads bs < 3 := Nat.mod_lt _ (by decide)
    rw [h, List.length_nil] at hle
    omega
  have hne : ds ++ List.replicate n '=' ≠ [] := by
    intro h
    rw [(List.append_eq_nil_iff.mp h).1] at hds
    exact hdigits hds.symm
  rw [queryBytes_dohUrl hbase hplain hne, map_plusToSpace hplus,
    Base64.urlsafeB64decode_padded hn hlen hds]

/-- A plus sign is lost on the way, so that fewer bytes come out. -/
theorem queryBytes_of_plus (hbase : ∀ c ∈ ['?', '#'], c ∉ base.toList)
    (hplus : '+' ∈ Base64.digits bs) :
    queryBytes (.get (query client (dohUrl base (Base64.digits bs ++ List.replicate n '=')))) ≠
      bs := by
  have hne : Base64.digits bs ++ List.replicate n '=' ≠ [] :=
    List.append_ne_nil_of_left_ne_nil (List.ne_nil_of_mem hplus) _
  have hbs : bs ≠ [] := by
    rintro rfl
    cases hplus
  rw [queryBytes_dohUrl hbase (fun c hc => (plain_digits hc).1) hne]
  cases hdec : Base64.urlsafeB64decode (Base64.padded (String.ofList
      ((Base64.digits bs ++ List.replicate n '=').map plusToSpace))) with
  | error e => exact hbs.symm
  | ok out =>
    rintro rfl
    have hle := Base64.length_b64decode_le hdec
    have hcount : Base64.dataCount ((Base64.digits out).map (Base64.standard ∘ plusToSpace)) <
        (Base64.digits out).length := by
      rw [Base64.dataCount, List.countP_map, List.countP_lt_length_iff]
      exact ⟨'+', hplus, by decide⟩
    have hpadding : ∀ k, Base64.dataCount (List.replicate k '=') = 0 := by
      intro k
      rw [Base64.dataCount, List.countP_eq_zero]
      intro c hc
      rw [List.eq_of_mem_replicate hc]
      decide
    have hdigits := Base64.length_digits_le out
    have hequals : Base64.standard (plusToSpace '=') = '=' ∧ Base64.standard '=' = '=' := by decide
    simp only [Base64.padded, String.toList_ofList, List.map_append, List.map_replicate,
      List.map_map, Base64.dataCount_append, hequals, hpadding] at hle
    omega

/-- The encoding of a query for URLs says the same in a GET, however much of its padding is left
out, as the query in a POST. The standard encoding does so only if it has no plus sign. -/
theorem doh_get {γ : Type} (rt : Runtime) (dnsSrv : PyMeshDNSServer)
    (nodesReply : γ → HttpReply (String × String)) (tldsReply : γ → HttpReply String)
    (client : Client) (hbase : ∀ c ∈ ['?', '#'], c ∉ base.toList) (hbs : bs ≠ [])
    (hn : n ≤ Base64.pads bs) :
    dohDnsQuery rt dnsSrv nodesReply tldsReply (.get (query client
        (dohUrl base ((Base64.digits bs).map Base64.urlsafe ++ List.replicate n '=')))) =
      dohDnsQuery rt dnsSrv nodesReply tldsReply (.post bs) ∧
    (queryBytes (.get (query client
        (dohUrl base (Base64.digits bs ++ List.replicate n '=')))) = bs ↔
      '+' ∉ Base64.digits bs) := by
  have hurlsafe : '+' ∉ (Base64.digits bs).map Base64.urlsafe := by
    intro h
    obtain ⟨d, hd, hplus⟩ := List.mem_map.mp h
    obtain ⟨v, hv, rfl⟩ := Base64.mem_digits hd
    exact (characters_plain v hv).2 (by simp [hplus])
  have hget := queryBytes_of_digits client hbase hbs hn (List.length_map _)
    (Base64.map_standard_urlsafe bs) hurlsafe fun c hc => (plain_digits hc).2
  refine ⟨?_, fun h hplus => queryBytes_of_plus hbase hplus h, fun hplus => ?_⟩
  · rw [dohDnsQuery, hget, dohDnsQuery, queryBytes]
  · exact queryBytes_of_digits client hbase hbs hn rfl (Base64.map_standard_digits bs) hplus
      fun c hc => (plain_digits hc).1

/-- A client that sends printable ASCII characters as they are. -/
def printableClient : Client where
  safe c := decide (0x20 < c.toNat ∧ c.toNat < 0x7f)
  delimiters := by
    intro c hc
    simp only [List.mem_cons, List.not_mem_nil, or_false] at hc
    rcases hc with rfl | rfl | rfl <;> rfl
  ascii c h := Nat.lt_trans (of_decide_eq_true h).2 (by decide)

/-- Twelve bytes whose standard encoding is all plus signs. -/
def plusBytes : List UInt8 :=
  [0xfb, 0xef, 0xbe, 0xfb, 0xef, 0xbe, 0xfb, 0xef, 0xbe, 0xfb, 0xef, 0xbe]

theorem doh_get_plus :
    queryBytes (.get (query printableClient (dohUrl "http://localhost:8000/dns-query"
      (Base64.digits plusBytes ++ List.replicate 0 '=')))) ≠ plusBytes ∧
    dohDnsQuery .ascii (.init "http://localhost:8000") (fun _ : Unit => .ok [])
        (fun _ => .ok []) (.get (query printableClient (dohUrl "http://localhost:8000/dns-query"
          ((Base64.digits plusBytes).map Base64.urlsafe ++ List.replicate 0 '=')))) =
      dohDnsQuery .ascii (.init "http://localhost:8000") (fun _ => .ok []) (fun _ => .ok [])
        (.post plusBytes) := by
  have hbase : ∀ c ∈ ['?', '#'], c ∉ "http://localhost:8000/dns-query".toList := by
    intro c hc
    simp only [List.mem_cons, List.not_mem_nil, or_false] at hc
    rcases hc with rfl | rfl <;> decide
  obtain ⟨hget, hstandard⟩ := doh_get .ascii (.init "http://localhost:8000")
    (fun _ : Unit => .ok []) (fun _ => .ok []) printableClient hbase
    (by decide : plusBytes ≠ []) (Nat.zero_le _)
  exact ⟨mt hstandard.mp (by decide +kernel), hget⟩

end Api

/-- What comes of a query over UDP, of which the same query over HTTPS has this outcome: where the
one is answered with nothing or fails, the other is dropped. -/
def overUdp : Except Exc Outcome → Except Exc Outcome
  | .ok (.answered []) => .ok .ignored
  | .ok outcome => .ok outcome
  | .error _ => .ok .ignored

namespace Query

open PyMeshDNSServer

variable {data response : List UInt8} {domain targetIp : String}

theorem buildAResponse_ne_nil (hl : 12 ≤ data.length)
    (h : DNSQueryParser.buildAResponse data domain targetIp = .ok response) : response ≠ [] := by
  rw [DNSQueryParser.buildAResponse, if_neg (Nat.not_lt.mpr hl)] at h
  dsimp only at h
  split at h
  · cases h
  · cases h
    simp [DNSQueryParser.answer]

theorem finish_udp (hl : 12 ≤ data.length) (targetIp : Option String) :
    (Query.udp data).finish domain targetIp =
      overUdp ((Query.doh data).finish domain targetIp) := by
  simp only [finish, answerDoh, answerUdp]
  cases truthy targetIp with
  | none => rfl
  | some targetIp =>
    cases hb : DNSQueryParser.buildAResponse data domain targetIp with
    | error e =>
      simp only [hb, bind, Except.bind]
      rfl
    | ok response =>
      have hne := buildAResponse_ne_nil hl hb
      simp only [hb, bind, Except.bind, pure, Except.pure, if_pos hne]
      cases response with
      | nil => exact absurd rfl hne
      | cons b bs => rfl

theorem le_length_of_named (h : named data = some domain) : 12 ≤ data.length := by
  by_contra hlt
  rw [named, if_pos (Nat.not_le.mp hlt)] at h
  cases h

/-- The two queries start at the same point of the same call. -/
theorem start_udp {γ : Type} (rt : Runtime) (srv : PyMeshDNSServer)
    (nodesReply : γ → HttpReply (String × String)) (tldsReply : γ → HttpReply String)
    (data : List UInt8) :
    (Query.udp data).start rt srv nodesReply tldsReply =
      (((Query.doh data).start rt srv nodesReply tldsReply).1, fun targetIp =>
        overUdp (((Query.doh data).start rt srv nodesReply tldsReply).2 targetIp)) := by
  simp only [start, Query.domain]
  cases h : named data with
  | none => rfl
  | some domain =>
    refine Prod.ext rfl (funext fun targetIp => ?_)
    exact finish_udp (le_length_of_named h) targetIp

end Query

namespace PyMeshDNSServer

variable {γ ι : Type} [DecidableEq ι] {rt : Runtime} {srv : PyMeshDNSServer} {g : γ}
  {call call' : ι → Call γ} {c : Pool (dnsFrames rt srv γ) ι} {i : ι} {ls : List ι}

/-- The same calls, but that some of the queries over HTTPS are made over UDP. -/
def Switched (call call' : ι → Call γ) : Prop :=
  ∀ i, call' i = call i ∨ ∃ data nodesReply tldsReply,
    call i = .query (.doh data) nodesReply tldsReply ∧
      call' i = .query (.udp data) nodesReply tldsReply

/-- The same point of a call, after which it goes on over UDP. Resolving a name does not fail. -/
def OverUdp (rt : Runtime) (srv : PyMeshDNSServer) (f f' : (dnsFrames rt srv γ).Frame) : Prop :=
  ∃ q finish, f = .inl (q, finish) ∧ f' = .inl (q, fun targetIp => overUdp (finish targetIp)) ∧
    ∀ e, q.point ≠ .done (.error e)

theorem OverUdp.outcome {f f' : (dnsFrames rt srv γ).Frame} (h : OverUdp rt srv f f') :
    (dnsFrames rt srv γ).result f' = ((dnsFrames rt srv γ).result f).map overUdp := by
  obtain ⟨q, finish, rfl, rfl, hne⟩ := h
  change (q.result.map fun res => res.bind fun targetIp => overUdp (finish targetIp)) =
    (q.result.map fun res => res.bind finish).map overUdp
  rw [Option.map_map]
  cases hr : q.result with
  | none => rfl
  | some res =>
    cases res with
    | ok targetIp => rfl
    | error e => exact absurd (Resolving.result_eq_some_iff.mp hr) (hne e)

omit [DecidableEq ι] in
theorem twins_overUdp : Pool.Twins (dnsFrames rt srv γ) fun _ : ι => OverUdp rt srv := by
  constructor
  · intro i f f' h hf
    rw [h.outcome, hf]
    rfl
  · rintro i f f' ⟨q, finish, rfl, rfl, -⟩ s
    rfl
  · rintro i f f' ⟨q, finish, rfl, rfl, hne⟩ s
    refine ⟨{ q with point := q.nextPoint rt srv s }, finish, rfl, rfl, fun e he => ?_⟩
    rcases Resolving.of_nextPoint_done he with he | he
    · exact hne e he
    · cases he

/-- The frame of a call that is switched, and of one that is not. -/
def SwitchedFrame (call call' : ι → Call γ) (i : ι) (f f' : (dnsFrames rt srv γ).Frame) : Prop :=
  (call' i = call i ∧ f' = f) ∨ (call' i ≠ call i ∧ OverUdp rt srv f f')

omit [DecidableEq ι] in
theorem twins_switched :
    Pool.Twins (dnsFrames rt srv γ) (SwitchedFrame call call') := by
  have hudp : Pool.Twins (dnsFrames rt srv γ) fun _ : ι => OverUdp rt srv := twins_overUdp
  constructor
  · rintro i f f' (⟨-, rfl⟩ | ⟨-, h⟩) hf
    · exact hf
    · exact hudp.due i f f' h hf
  · rintro i f f' (⟨-, rfl⟩ | ⟨-, h⟩) s
    · rfl
    · exact hudp.upd i f f' h s
  · rintro i f f' (⟨hi, rfl⟩ | ⟨hi, h⟩) s
    · exact Or.inl ⟨hi, rfl⟩
    · exact Or.inr ⟨hi, hudp.next i f f' h s⟩

omit [DecidableEq ι] in
theorem switched_start (hs : Switched call call') (i : ι) :
    SwitchedFrame call call' i ((calls rt srv g call).frame i)
      ((calls rt srv g call').frame i) := by
  rcases hs i with heq | ⟨data, nodesReply, tldsReply, hi, hi'⟩
  · exact Or.inl ⟨heq, by simp only [calls, heq]⟩
  · refine Or.inr ⟨?_, ?_⟩
    · rw [hi, hi']
      intro h
      cases h
    · refine ⟨((Query.doh data).start rt srv nodesReply tldsReply).1,
        ((Query.doh data).start rt srv nodesReply tldsReply).2, ?_, ?_, ?_⟩
      · simp only [calls, hi]
        rfl
      · simp only [calls, hi', callFrame, Query.start_udp]
        rfl
      · intro e he
        rcases Query.start_point rt srv nodesReply tldsReply (.doh data) with h | h
        · rw [h] at he
          cases he
        · rw [h] at he
          cases he

/-- Which transport a query comes over makes no difference to the server or to any other call, in
any order of steps: the response is the same, and what HTTPS answers with nothing or with an error
is dropped. -/
theorem transports_agree (hs : Switched call call') (h : Run Pool.Step (calls rt srv g call) ls c) :
    ∃ c', Run Pool.Step (calls rt srv g call') ls c' ∧ c'.shared = c.shared ∧ ∀ i,
      (call' i = call i → outcome c' i = outcome c i) ∧
      ∀ data nodesReply tldsReply, call i = .query (.doh data) nodesReply tldsReply →
        call' i = .query (.udp data) nodesReply tldsReply →
        outcome c' i = (outcome c i).map overUdp := by
  have htwins : ∃ c', Run Pool.Step (calls rt srv g call') ls c' ∧ c'.shared = c.shared ∧
      ∀ i, SwitchedFrame call call' i (c.frame i) (c'.frame i) :=
    Pool.run_twins twins_switched h rfl (switched_start hs)
  obtain ⟨c', hrun, hshared, htwin⟩ := htwins
  refine ⟨c', hrun, hshared, fun i => ⟨fun hi => ?_, fun data nodesReply tldsReply hi hi' => ?_⟩⟩
  · rcases htwin i with ⟨-, hf⟩ | ⟨hne, -⟩
    · rw [outcome, hf, outcome]
    · exact absurd hi hne
  · rcases htwin i with ⟨heq, -⟩ | ⟨-, hf⟩
    · rw [hi, hi'] at heq
      cases heq
    · exact hf.outcome

/-- Two queries for `registry.cr` over HTTPS, of which the second one is switched. -/
theorem transports_agree_registry : ∃ c c' ls,
    Run Pool.Step (calls .ascii (init "http://localhost:8000/") () fun _ : Bool =>
      registryCall true) ls c ∧
    Run Pool.Step (calls .ascii (init "http://localhost:8000/") () registryCall) ls c' ∧
    (outcome c false).isSome ∧ outcome c' false = (outcome c false).map overUdp ∧
    outcome c' true = outcome c true := by
  obtain ⟨c, hrun, hres⟩ := Pool.exists_run_of_play
    (c := calls .ascii (init "http://localhost:8000/") () fun _ : Bool => registryCall true)
    (G := fun _ _ => True) (P := fun c => (outcome c false).isSome = true)
    (l := [true, true, true, true, true, false, true])
    (by decide +kernel)
  have hs : Switched (fun _ : Bool => registryCall true) registryCall := by
    intro i
    cases i with
    | false => exact Or.inr ⟨_, _, _, rfl, rfl⟩
    | true => exact Or.inl rfl
  obtain ⟨c', hrun', -, hout⟩ := transports_agree hs hrun.of_guarded
  exact ⟨c, c', _, hrun.of_guarded, hrun', hres, (hout false).2 _ _ _ rfl rfl, (hout true).1 rfl⟩

end PyMeshDNSServer

end PyMesh
