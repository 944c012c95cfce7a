import PyMesh.Dns.Live

/-! Names that belong to the internet, and when the server leaves them to the upstream server. -/
namespace PyMesh

open LTS Relational Resumption Text

namespace PyMeshDNSServer

/-- A name with at least two labels that ends neither in `cr` nor in `mesh` nor in one of `tlds`. -/
def Foreign (tlds : List String) (name : String) : Prop :=
  2 ≤ (split name '.').length ∧
    ∀ last, (split name '.').getLast? = some last → last ≠ "cr" ∧ last ≠ "mesh" ∧ last ∉ tlds

variable {ι : Type} [DecidableEq ι] {rt : Runtime} {srv : PyMeshDNSServer} {w : Controller}
  {call : ι → LiveCall} {c d : Pool (dnsFrames rt srv Controller) ι} {i : ι} {ls : List ι}
  {s s' : DnsState Controller} {f : Resolving Controller} {names names' : List String}
  {name : String}

theorem Foreign.anti (h : Foreign names' name) (hn : ∀ t ∈ names, t ∈ names') :
    Foreign names name := by
  refine ⟨h.1, ?_⟩
  intro last hl
  obtain ⟨hcr, hmesh, ht⟩ := h.2 last hl
  exact ⟨hcr, hmesh, fun hm => ht (hn last hm)⟩

/-- A name whose last label is its own. -/
theorem not_foreign_of_last {pre last : String} (hsplit : split name '.' = split pre '.' ++ [last])
    (hlast : last = "cr" ∨ last = "mesh" ∨ last ∈ names) : ¬ Foreign names name := by
  intro h
  obtain ⟨hcr, hmesh, ht⟩ := h.2 last (by simp [hsplit])
  rcases hlast with hl | hl | hl
  · exact hcr hl
  · exact hmesh hl
  · exact ht hl

theorem split_label {t u : String} (ht : '.' ∉ t.toList) (hu : u.toList = '.' :: t.toList)
    (pre : String) : split (pre ++ u) '.' = split pre '.' ++ [t] := by
  rw [← split_of_notMem ht]
  apply split_of_toList
  rw [String.toList_append, hu]

theorem split_cr (h : String) : split (h ++ ".cr") '.' = split h '.' ++ ["cr"] :=
  split_label (by decide) rfl h

theorem split_mesh (h : String) : split (h ++ ".mesh") '.' = split h '.' ++ ["mesh"] :=
  split_label (by decide) rfl h

theorem split_registry {t : String} (ht : '.' ∉ t.toList) :
    split ("registry." ++ t) '.' = split "registry" '.' ++ [t] := by
  rw [← split_of_notMem ht]
  apply split_of_toList
  rw [String.toList_append]
  rfl

/-- No node that is about to be stored has a foreign name for a hostname. -/
def NoForeignHostname (c : Pool (dnsFrames rt srv Controller) ι) (i : ι) : Prop :=
  ∀ f finish items, c.frame i = .inl (f, finish) → f.point = .storeNodes items →
    ∀ n ∈ HttpReply.readable items, strip (· = '.') (rt.lower n.1) = rt.lower n.1 →
      ¬ Foreign (tlds c.shared) (rt.lower n.1)

/-- No foreign name that can be asked for is in the cache. -/
structure OwnNames (rt : Runtime) (s : DnsState Controller) : Prop where
  accepted : Accepted rt s.controller
  cached : ∀ name ip, s.recordsCache name = some ip → strip (· = '.') name = name →
    ¬ Foreign (tlds s) name

/-- A call that has ended has found no foreign name. -/
structure AnswersOwn (rt : Runtime) (s : DnsState Controller) (f : Resolving Controller) : Prop where
  asks : Asks s f
  target : ∀ res, f.point = .done res → ∃ targetIp, res = .ok targetIp ∧
    (Foreign (tlds s) (dClean rt f.domain) → targetIp = none)

omit [DecidableEq ι] in
/-- What is stored at a point keeps foreign names out. -/
theorem own_stored {finish : Option String → Except Exc Outcome}
    (hf : c.frame i = .inl (f, finish)) (hs : OwnNames rt c.shared) (ha : Asks c.shared f)
    (hg : NoForeignHostname c i) : OwnNames rt (stored rt f c.shared) := by
  refine ⟨hs.accepted, ?_⟩
  intro name ip hc hstrip
  rw [stored_apply] at hc
  rcases Option.or_eq_some_iff.mp hc with hnew | ⟨-, hold⟩
  · rcases Resolving.mem_records (Dict.mem_of_ofList hnew) with
      ⟨items, hp, n, hn, hr⟩ | ⟨ctrl, items, hp, t, ht, hr⟩
    · rcases (mem_nodeRecords.mp hr).2 with rfl | rfl | rfl
      · exact hg f finish items hf hp n hn hstrip
      · exact not_foreign_of_last (split_cr _) (Or.inl rfl)
      · exact not_foreign_of_last (split_mesh _) (Or.inr (Or.inl rfl))
    · rcases registry_of_tldRecords hs.accepted ha hp ht hr with rfl | ⟨t, ht, rfl⟩
      · intro hforeign
        have htwo : 2 ≤ (split "registry" '.').length := hforeign.1
        exact absurd htwo (by decide)
      · have hdot : '.' ∉ t.toList := (hs.accepted t ht).noDot
        exact not_foreign_of_last (split_registry hdot) (Or.inr (Or.inr ht))
  · exact hs.cached name ip hold hstrip

theorem answersOwn_next (hs : OwnNames rt s) (ha : AnswersOwn rt s f) (ht : tlds s' = tlds s) :
    AnswersOwn rt s' { f with point := f.nextPoint rt srv s } := by
  refine ⟨ha.asks.next ht, ?_⟩
  intro res hp
  rw [ht]
  rcases Resolving.of_nextPoint_done hp with hd | rfl
  · exact ha.target res hd
  · refine ⟨_, rfl, ?_⟩
    intro hforeign
    cases hc : s.recordsCache (dClean rt f.domain) with
    | none => rfl
    | some ip => exact (hs.cached _ ip hc (strip_strip _ _) hforeign).elim

theorem own_step (h : Keeps (OwnNames rt) (AnswersOwn rt) (Grows rt) c)
    (hg : NoForeignHostname c i) (hs : Pool.Step c i d) :
    Keeps (OwnNames rt) (AnswersOwn rt) (Grows rt) d := by
  refine h.step hs ?_ ?_ ?_
  · intro f finish hf hd
    have hq := h.query i f finish hf
    rw [hd]
    exact ⟨own_stored hf h.state hq.asks hg, answersOwn_next h.state hq rfl⟩
  · intro p _ hd
    refine ⟨h.state.accepted.grows hd.1, ?_⟩
    intro name ip hc hstrip hforeign
    rw [hd.2] at hc
    exact h.state.cached name ip hc hstrip (hforeign.anti (tlds_mono (Or.inr hd)))
  · intro j f finish _ hf hd
    refine ⟨hf.asks.mono (tlds_mono hd), ?_⟩
    intro res hp
    obtain ⟨targetIp, hres, ht⟩ := hf.target res hp
    exact ⟨targetIp, hres, fun hforeign => ht (hforeign.anti (tlds_mono hd))⟩

theorem own_run (hw : Accepted rt w)
    (h : Run (Guarded Pool.Step NoForeignHostname) (liveCalls rt srv w call) ls c) :
    Keeps (OwnNames rt) (AnswersOwn rt) (Grows rt) c := by
  refine h.invariant (keeps_liveCalls ?_ ?_) ?_
  · refine ⟨hw, ?_⟩
    intro name ip hc
    cases hc
  · intro f ha hpoint
    refine ⟨ha, ?_⟩
    intro res hp
    rcases hpoint with he | he
    · rw [he] at hp
      cases hp
    · rw [he] at hp
      cases hp
      exact ⟨none, rfl, fun _ => rfl⟩
  · rintro a j b ha ⟨hg, hs⟩
    exact own_step ha hg hs

/-- What becomes of a query whose name is found nowhere. -/
def upstream : Query → Outcome
  | .resolve _ => .resolved none
  | .doh data => .forwarded data
  | .udp data => .forwarded data

theorem finish_none {q : Query} (domain : String) : q.finish domain none = .ok (upstream q) := by
  cases q <;> rfl

/-- In every run in which no node is stored whose hostname is a foreign name, a query for a
foreign name finds nothing and is left to the upstream server. -/
theorem foreign_names_forwarded (hw : Accepted rt w)
    (h : Run (Guarded Pool.Step NoForeignHostname) (liveCalls rt srv w call) ls c)
    {q : Query} {nodeOrder : RowOrder NodeModel} {tldOrder : RowOrder TLDRegistry}
    {domain : String} (hi : call i = .query q nodeOrder tldOrder) (hq : q.domain = some domain)
    (hforeign : Foreign (tlds c.shared) (dClean rt domain)) :
    (resolved c i = none ∨ resolved c i = some (.ok none)) ∧
      (resolved c i = some (.ok none) → outcome c i = some (.ok (upstream q))) := by
  obtain ⟨point, hf⟩ := live_frame_of_run h.of_guarded hi hq
  have hr : resolved c i = Resolving.result ⟨domain, Controller.nodesReply nodeOrder,
      Controller.tldsReply tldOrder, point⟩ := by
    simp only [resolved, hf]
  constructor
  · rw [hr]
    cases hres : Resolving.result (γ := Controller) ⟨domain, _, _, point⟩ with
    | none => exact Or.inl rfl
    | some res =>
      refine Or.inr ?_
      have hp := Resolving.result_eq_some_iff.mp hres
      obtain ⟨targetIp, rfl, ht⟩ := ((own_run hw h).query i _ _ hf).target res hp
      rw [ht hforeign]
  · intro hnone
    rw [hr] at hnone
    obtain rfl := Resolving.result_eq_some_iff.mp hnone
    simp only [outcome, hf]
    exact congrArg some (finish_none domain)

/-- A query for `google.com`. -/
def googleQuery : List UInt8 :=
  [0x12, 0x34, 1, 0, 0, 1, 0, 0, 0, 0, 0, 0,
    6, 103, 111, 111, 103, 108, 101, 3, 99, 111, 109, 0, 0, 1, 0, 1]

/-- The answer to it with 100.64.0.2, which is an address of the mesh. -/
def googleResponse : List UInt8 :=
  [0x12, 0x34, 0x81, 0x80, 0, 1, 0, 1, 0, 0, 0, 0] ++ googleQuery.drop 12 ++
    [0xc0, 0x0c, 0, 1, 0, 1, 0, 0, 0, 0x1e, 0, 4, 100, 64, 0, 2]

/-- A node registers under a hostname, and `google.com` is asked for over HTTPS. -/
def googleCall (hostname : String) (query : Bool) : LiveCall :=
  if query then .query (.doh googleQuery) .stored .stored else registerAs hostname "YQ=="

/-- The registration, then the query. -/
def googleSchedule : List Bool := List.replicate 7 false ++ List.replicate 5 true

/-- Whether the hostnames that are about to be stored have one label each. -/
def checkHostnames (c : Pool (dnsFrames rt srv Controller) ι) (i : ι) : Bool :=
  match c.frame i with
  | .inl (f, _) => match f.point with
    | .storeNodes items =>
      (HttpReply.readable items).all fun n => (split (rt.lower n.1) '.').length < 2
    | _ => true
  | .inr _ => true

omit [DecidableEq ι] in
theorem noForeign_of_check (h : checkHostnames c i = true) : NoForeignHostname c i := by
  intro f finish items hf hp n hn _ hforeign
  simp only [checkHostnames, hf, hp, List.all_eq_true, decide_eq_true_eq] at h
  have hlt := h n hn
  have hge := hforeign.1
  omega

theorem foreign_google : Foreign [] "google.com" := by
  have hsplit : split "google.com" '.' = ["google", "com"] := by decide
  refine ⟨by rw [hsplit]; decide, ?_⟩
  intro last hl
  rw [hsplit] at hl
  cases hl
  decide

theorem foreign_names_forwarded_google :
    ∃ c : Pool (dnsFrames .ascii (init "http://localhost:8000") Controller) Bool,
      outcome c true = some (.ok (.forwarded googleQuery)) := by
  obtain ⟨c, hrun, hres⟩ := Pool.exists_run_of_play
    (c := liveCalls .ascii (init "http://localhost:8000") .empty (googleCall "web"))
    (G := fun c i => checkHostnames c i = true)
    (P := fun c => resolved c true = some (.ok none) ∧ tlds c.shared = [])
    (l := googleSchedule ++ [true]) (by decide +kernel)
  have hguard := hrun.mono fun a i b (h : Guarded Pool.Step _ a i b) =>
    (⟨noForeign_of_check h.1, h.2⟩ : Guarded Pool.Step NoForeignHostname a i b)
  have hw : Accepted .ascii Controller.empty := by
    intro name hn
    cases hn
  have hforeign : Foreign (tlds c.shared) (dClean .ascii "google.com") := by
    have hd : dClean .ascii "google.com" = "google.com" := by decide
    rw [hres.2, hd]
    exact foreign_google
  exact ⟨c, (foreign_names_forwarded hw hguard (i := true) (q := .doh googleQuery) rfl
    (by decide +kernel) hforeign).2 hres.1⟩

/-- A node that calls itself `google.com` gets its queries. -/
theorem foreign_names_forwarded_fails : ∃ c, Run Pool.Step
    (liveCalls .ascii (init "http://localhost:8000") .empty (googleCall "google.com"))
      (googleSchedule ++ [true]) c ∧
    Foreign (tlds c.shared) (dClean .ascii "google.com") ∧
    resolved c true = some (.ok (some "100.64.0.2")) ∧
    outcome c true = some (.ok (.answered googleResponse)) := by
  obtain ⟨c, hrun, hres, htlds, hout⟩ := Pool.exists_run_of_play
    (c := liveCalls .ascii (init "http://localhost:8000") .empty (googleCall "google.com"))
    (G := fun _ _ => True)
    (P := fun c => resolved c true = some (.ok (some "100.64.0.2")) ∧ tlds c.shared = [] ∧
      outcome c true = some (.ok (.answered googleResponse)))
    (l := googleSchedule ++ [true]) (by decide +kernel)
  have hforeign : Foreign (tlds c.shared) (dClean .ascii "google.com") := by
    have hd : dClean .ascii "google.com" = "google.com" := by decide
    rw [htlds, hd]
    exact foreign_google
  exact ⟨c, hrun.of_guarded, hforeign, hres, hout⟩

end PyMeshDNSServer

end PyMesh
