import PyMesh.Dns.Queries

/-! When every cached record is an IPv4 address, and with it every name that resolves locally is
answered. -/
namespace PyMesh

open LTS Relational Resumption Text

namespace PyMeshDNSServer

/-- What `ipaddress.IPv4Address` accepts: a dotted quad. -/
def IsIpv4 (ip : String) : Prop := (IPv4Address.parse ip).isSome

/-- A reply whose `mesh_ipv4` values are addresses. -/
def ValidReply (reply : HttpReply (String × String)) : Prop :=
  ∀ items, reply = .ok items → ∀ n, .ok n ∈ items → IsIpv4 n.2

variable {γ ι : Type} [DecidableEq ι] {rt : Runtime} {srv : PyMeshDNSServer} {g : γ}
  {call : ι → Call γ} {c d : Pool (dnsFrames rt srv γ) ι} {i : ι} {ls : List ι}

/-- Where records for TLDs are about to be stored, what stands in for the controller is an
address: the host part of the URL, or the default for a host part that is local. -/
def HostIsAddress (c : Pool (dnsFrames rt srv γ) ι) (i : ι) : Prop :=
  ∀ f finish ip items, c.frame i = .inl (f, finish) → f.point = .storeTlds ip items →
    HttpReply.readable items = [] ∨ IsIpv4 ip

/-- The addresses that a call still works with. -/
structure Addressed (f : Resolving γ) : Prop where
  replies : ∀ g, ValidReply (f.nodesReply g)
  reply : ∀ items, f.point = .storeNodes items → ∀ n, .ok n ∈ items → IsIpv4 n.2
  target : ∀ res, f.point = .done res → ∀ ip, res = .ok (some ip) → IsIpv4 ip

/-- The addresses in the cache. -/
def CachesAddresses (s : DnsState γ) : Prop :=
  ∀ name ip, s.recordsCache name = some ip → IsIpv4 ip

theorem stored_apply (f : Resolving γ) (s : DnsState γ) (name : String) :
    (stored rt f s).recordsCache name =
      (Dict.ofList (f.records rt) name).or (s.recordsCache name) :=
  Dict.setAll_apply _ _ _

theorem mem_nodeRecords {n : String × String} {name ip : String} :
    (name, ip) ∈ nodeRecords rt n ↔ ip = n.2 ∧ (name = rt.lower n.1 ∨
      name = rt.lower n.1 ++ ".cr" ∨ name = rt.lower n.1 ++ ".mesh") := by
  simp only [nodeRecords, List.mem_cons, Prod.mk.injEq, List.not_mem_nil, or_false]
  tauto

theorem mem_tldRecords {t name ctrl ip : String} : (name, ip) ∈ tldRecords rt ctrl t ↔
    ip = ctrl ∧ (name = "registry." ++ rt.lower (lstrip (· = '.') t) ∨ name = "registry") := by
  simp only [tldRecords, List.mem_cons, Prod.mk.injEq, List.not_mem_nil, or_false]
  tauto

omit [DecidableEq ι] in
theorem caches_stored {f : Resolving γ} {finish : Option String → Except Exc Outcome}
    (hf : c.frame i = .inl (f, finish)) (hs : CachesAddresses c.shared) (ha : Addressed f)
    (hg : HostIsAddress c i) : CachesAddresses (stored rt f c.shared) := by
  intro name ip hc
  rw [stored_apply] at hc
  rcases Option.or_eq_some_iff.mp hc with hnew | ⟨-, hold⟩
  · rcases Resolving.mem_records (Dict.mem_of_ofList hnew) with
      ⟨items, hp, n, hn, hr⟩ | ⟨ctrl, items, hp, t, ht, hr⟩
    · rw [(mem_nodeRecords.mp hr).1]
      exact ha.reply items hp n (HttpReply.mem_readable hn)
    · rw [(mem_tldRecords.mp hr).1]
      rcases hg f finish ctrl items hf hp with hnil | hip
      · rw [hnil] at ht
        cases ht
      · exact hip
  · exact hs name ip hold

theorem addressed_next {f : Resolving γ} {s : DnsState γ} (hs : CachesAddresses s)
    (ha : Addressed f) : Addressed { f with point := f.nextPoint rt srv s } := by
  constructor
  · exact ha.replies
  · intro items hp
    exact ha.replies s.controller items (Resolving.of_nextPoint_storeNodes hp)
  · intro res hp ip hip
    rcases Resolving.of_nextPoint_done hp with hd | rfl
    · exact ha.target res hd ip hip
    · exact hs _ ip (Except.ok.inj hip)

theorem addressed_step (h : Keeps CachesAddresses (fun _ => Addressed) (fun _ _ => True) c)
    (hg : HostIsAddress c i) (hs : Pool.Step c i d) :
    Keeps CachesAddresses (fun _ => Addressed) (fun _ _ => True) d := by
  refine h.step hs ?_ ?_ ?_
  · intro f finish hf hd
    rw [hd]
    exact ⟨caches_stored hf h.state (h.query i f finish hf) hg,
      addressed_next h.state (h.query i f finish hf)⟩
  · intro p _ hd name ip hc
    rw [hd.2] at hc
    exact h.state name ip hc
  · intro j f finish _ hf _
    exact hf

theorem addressed_run (hv : ∀ i q nodesReply tldsReply, call i = .query q nodesReply tldsReply →
      ∀ g, ValidReply (nodesReply g))
    (h : Run (Guarded Pool.Step HostIsAddress) (calls rt srv g call) ls c) :
    Keeps CachesAddresses (fun _ => Addressed) (fun _ _ => True) c := by
  refine h.invariant (keeps_calls ?_ ?_ ?_) ?_
  · intro name ip hc
    cases hc
  · intro i q nodesReply tldsReply hi
    obtain ⟨hnodes, -⟩ := q.start_replies rt srv nodesReply tldsReply
    have hpoint := q.start_point rt srv nodesReply tldsReply
    constructor
    · rw [hnodes]
      exact hv i q nodesReply tldsReply hi
    · intro items hp
      exact absurd hp ((Resolving.not_storing hpoint).1 items)
    · intro res hp ip hip
      rcases hpoint with he | he
      · rw [he] at hp
        cases hp
      · rw [he] at hp
        cases hp
        cases hip
  · intro i p _
    exact Prog.moves_true p
  · rintro a i b ha ⟨hg, hs⟩
    exact addressed_step ha hg hs

/-- An address that is found is what the packet is answered with. -/
theorem finish_eq {q : Query} {data : List UInt8} {domain ip : String} (hp : q.packet = some data)
    (hd : q.domain = some domain) (hip : IsIpv4 ip) :
    ∃ response, DNSQueryParser.buildAResponse data domain ip = .ok response ∧ response ≠ [] ∧
      q.finish domain (some ip) = .ok (.answered response) := by
  obtain ⟨a, ha⟩ := Option.isSome_iff_exists.mp hip
  have hne : ip ≠ "" := by
    rintro rfl
    have hnone : IPv4Address.parse "" = none := by decide +kernel
    rw [hnone] at ha
    cases ha
  have hlen : 12 ≤ data.length := by
    have hn : Query.named data = some domain := by
      cases q with
      | resolve => cases hp
      | doh =>
        cases hp
        exact hd
      | udp =>
        cases hp
        exact hd
    by_contra hlt
    rw [Query.named, if_pos (by omega)] at hn
    cases hn
  obtain ⟨response, hb, hr⟩ : ∃ response,
      DNSQueryParser.buildAResponse data domain ip = .ok response ∧ response ≠ [] :=
    ⟨_, DNSQueryParser.buildAResponse_eq hlen ha domain, by simp⟩
  refine ⟨response, hb, hr, ?_⟩
  cases q with
  | resolve => cases hp
  | doh =>
    cases hp
    simp only [Query.finish, answerDoh, truthy_some hne, hb]
    exact if_pos hr
  | udp =>
    cases hp
    have ha : answerUdp data domain (some ip) = .ok (.answered response) := by
      simp only [answerUdp, truthy_some hne, hb]
      exact if_pos hr
    simp only [Query.finish, ha]

/-- In every run in which records for TLDs are only stored when the controller's URL names an
address, all records are addresses, and a packet whose name is found is answered. -/
theorem found_names_answered {controllerUrl : String}
    {call : ι → Call γ} {c : Pool (dnsFrames rt (init controllerUrl) γ) ι}
    (hv : ∀ i q nodesReply tldsReply, call i = .query q nodesReply tldsReply →
      ∀ g, ValidReply (nodesReply g))
    (h : Run (Guarded Pool.Step HostIsAddress) (calls rt (init controllerUrl) g call) ls c) :
    CachesAddresses c.shared ∧ ∀ i q nodesReply tldsReply data domain ip,
      call i = .query q nodesReply tldsReply → q.packet = some data → q.domain = some domain →
      resolved c i = some (.ok (some ip)) →
      ∃ response, DNSQueryParser.buildAResponse data domain ip = .ok response ∧ response ≠ [] ∧
        outcome c i = some (.ok (.answered response)) := by
  have hkeeps := addressed_run hv h
  refine ⟨hkeeps.state, ?_⟩
  intro i q nodesReply tldsReply data domain ip hi hp hd hr
  obtain ⟨point, hf⟩ := named_frame_of_run h.of_guarded hi hd
  have hpoint : point = .done (.ok (some ip)) := by
    simp only [resolved, hf] at hr
    exact Resolving.result_eq_some_iff.mp hr
  subst hpoint
  have hip := (hkeeps.query i _ _ hf).target _ rfl ip rfl
  obtain ⟨response, hb, hne, hfin⟩ := finish_eq hp hd hip
  refine ⟨response, hb, hne, ?_⟩
  simp only [outcome, hf]
  exact congrArg some hfin

/-- A query for `registry.cr` over HTTPS, and one over UDP. -/
def registryQuery (overHttps : Bool) : Query :=
  let data := DNSQueryParser.registryName ++ [0, 1, 0, 1]
  if overHttps then .doh data else .udp data

/-- Both queries, to a server whose controller has the TLD `cr` and no nodes. -/
def registryCall (overHttps : Bool) : Call Unit :=
  .query (registryQuery overHttps) (fun _ => .ok []) fun _ => .ok [.ok ".cr"]

/-- Whether what stands in for the controller is an address, wherever it is stored. -/
def checkHost (c : Pool (dnsFrames rt srv γ) ι) (i : ι) : Bool :=
  match c.frame i with
  | .inl (f, _) => match f.point with
    | .storeTlds ip _ => (IPv4Address.parse ip).isSome
    | _ => true
  | .inr _ => true

omit [DecidableEq ι] in
theorem hostIsAddress_of_check (h : checkHost c i = true) : HostIsAddress c i := by
  intro f finish ip items hf hp
  simp only [checkHost, hf, hp] at h
  exact Or.inr h

/-- Both queries are answered when the controller is on the same host. -/
theorem found_names_answered_local :
    ∃ c : Pool (dnsFrames .ascii (init "http://localhost:8000/") Unit) Bool, ∀ overHttps,
      resolved c overHttps = some (.ok (some "100.64.0.1")) ∧
      ∃ response, response ≠ [] ∧ outcome c overHttps = some (.ok (.answered response)) := by
  obtain ⟨c, hrun, hres⟩ := Pool.exists_run_of_play
    (c := calls .ascii (init "http://localhost:8000/") () registryCall)
    (G := fun c i => checkHost c i = true)
    (P := fun c => ∀ overHttps, resolved c overHttps = some (.ok (some "100.64.0.1")))
    (l := [true, true, true, true, true, false, true])
    (by decide +kernel)
  have hguard := hrun.mono fun a i b (h : Guarded Pool.Step _ a i b) =>
    (⟨hostIsAddress_of_check h.1, h.2⟩ : Guarded Pool.Step HostIsAddress a i b)
  have hv : ∀ i q nodesReply tldsReply, registryCall i = .query q nodesReply tldsReply →
      ∀ g, ValidReply (nodesReply g) := by
    intro i q nodesReply tldsReply hi g items hr n hn
    cases hi
    cases hr
    cases hn
  refine ⟨c, fun overHttps => ⟨hres overHttps, ?_⟩⟩
  obtain ⟨response, -, hne, hout⟩ := (found_names_answered hv hguard).2 overHttps _ _ _
    (DNSQueryParser.registryName ++ [0, 1, 0, 1]) "registry.cr" "100.64.0.1" rfl
    (by cases overHttps <;> rfl) (by cases overHttps <;> decide +kernel) (hres overHttps)
  exact ⟨response, hne, hout⟩

/-- With a host name in the URL it is the host name that is stored, the query over HTTPS raises
and the one over UDP gets no answer. -/
theorem found_names_answered_fails :
    ∃ c ls, Run Pool.Step (calls .ascii (init "http://mesh.example.com:8000") () registryCall) ls c ∧
      c.shared.recordsCache "registry.cr" = some "mesh.example.com" ∧
      ¬ IsIpv4 "mesh.example.com" ∧ outcome c true = some (.error .addressValueError) ∧
      outcome c false = some (.ok .ignored) := by
  obtain ⟨c, hrun, hres⟩ := Pool.exists_run_of_play
    (c := calls .ascii (init "http://mesh.example.com:8000") () registryCall)
    (G := fun _ _ => True)
    (P := fun c => c.shared.recordsCache "registry.cr" = some "mesh.example.com" ∧
      outcome c true = some (.error .addressValueError) ∧ outcome c false = some (.ok .ignored))
    (l := [true, true, true, true, true, false, true])
    (by decide +kernel)
  have hhost : ¬ IsIpv4 "mesh.example.com" := by
    unfold IsIpv4
    decide +kernel
  exact ⟨c, _, hrun.of_guarded, hres.1, hhost, hres.2.1, hres.2.2⟩

end PyMeshDNSServer

end PyMesh
