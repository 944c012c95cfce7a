import PyMesh.Dns.Server

/-! Queries as sessions: any number of them to one server, with the sessions of the controller
between their accesses. -/
namespace PyMesh

open LTS Relational Resumption Text

/-- A query: a call of `resolve_custom_tld`, or a packet that arrives over HTTPS or over UDP. -/
inductive Query where
  | resolve (domain : String)
  | doh (data : List UInt8)
  | udp (data : List UInt8)

namespace Query

open PyMeshDNSServer

variable {γ : Type}

/-- The session of a query. -/
def session (rt : Runtime) (srv : PyMeshDNSServer) (nodesReply : γ → HttpReply (String × String))
    (tldsReply : γ → HttpReply String) : Query → Prog (DnsState γ) Exc Outcome
  | resolve domain => do
    return .resolved (← resolveCustomTld rt srv nodesReply tldsReply domain)
  | doh data => processQueryData rt srv nodesReply tldsReply data
  | udp data => processQuery rt srv nodesReply tldsReply data

/-- The packet of a query that carries one. -/
def packet : Query → Option (List UInt8)
  | resolve _ => none
  | doh data => some data
  | udp data => some data

/-- The name in a packet that is long enough to have one. -/
def named (data : List UInt8) : Option String :=
  if data.length < 12 then none
  else
    let domain := (DNSQueryParser.parseDomainName data 12).1
    if domain = "" then none else some domain

/-- The name that a query has resolved. -/
def domain : Query → Option String
  | resolve domain => some domain
  | doh data => named data
  | udp data => named data

/-- What becomes of a packet without a name. -/
def unnamed : Query → Outcome
  | resolve _ => .resolved none
  | doh _ => .answered []
  | udp _ => .ignored

/-- What becomes of a query whose name is resolved to `targetIp`. -/
def finish (domain : String) (targetIp : Option String) : Query → Except Exc Outcome
  | resolve _ => .ok (.resolved targetIp)
  | doh data => answerDoh data domain targetIp
  | udp data => match answerUdp data domain targetIp with
    | .ok outcome => .ok outcome
    | .error _ => .ok .ignored

section Start

variable (rt : Runtime) (srv : PyMeshDNSServer) (nodesReply : γ → HttpReply (String × String))
  (tldsReply : γ → HttpReply String)

/-- A query that has arrived. -/
def start (q : Query) : ((resolution rt srv γ).finish Outcome).Frame :=
  match q.domain with
  | some domain => (⟨domain, nodesReply, tldsReply, .start⟩, fun targetIp => q.finish domain targetIp)
  | none => (⟨"", nodesReply, tldsReply, .done (.ok none)⟩, fun _ => .ok q.unnamed)

theorem quiet_swallow (fetch : Prog (DnsState γ) Exc Unit) : (swallow fetch).Quiet :=
  Prog.quiet_handle fetch fun _ => trivial

/-- A query that arrives has its call before it, or has no name. -/
theorem start_point (q : Query) : (q.start rt srv nodesReply tldsReply).1.point = .start ∨
    (q.start rt srv nodesReply tldsReply).1.point = .done (.ok none) := by
  unfold start
  cases q.domain with
  | some domain => exact Or.inl rfl
  | none => exact Or.inr rfl

theorem start_replies (q : Query) :
    (q.start rt srv nodesReply tldsReply).1.nodesReply = nodesReply ∧
      (q.start rt srv nodesReply tldsReply).1.tldsReply = tldsReply := by
  unfold start
  cases q.domain with
  | some domain => exact ⟨rfl, rfl⟩
  | none => exact ⟨rfl, rfl⟩

/-- What is fetched never makes the call raise. -/
theorem quiet_resolve (domain : String) :
    (resolveCustomTld rt srv nodesReply tldsReply domain).Quiet := by
  refine Prog.Quiet.bind (fun _ => trivial) ?_
  intro found
  cases found with
  | some ip => trivial
  | none =>
    refine Prog.Quiet.bind (quiet_swallow _) ?_
    intro _ _
    trivial

theorem prog_start (q : Query) : ((resolution rt srv γ).finish Outcome).prog
    (q.start rt srv nodesReply tldsReply) = q.session rt srv nodesReply tldsReply := by
  cases q with
  | resolve domain => rfl
  | doh data =>
    simp only [start, domain, named, session, processQueryData]
    split_ifs
    · rfl
    · rfl
    · rfl
  | udp data =>
    simp only [start, domain, named, session, processQuery]
    split_ifs
    · rfl
    · rfl
    · refine Eq.trans ?_ (Prog.Quiet.handle_bind (quiet_resolve rt srv nodesReply tldsReply _) _ _).symm
      refine congrArg (Prog.bind _) (funext fun targetIp => ?_)
      simp only [finish]
      cases answerUdp data (DNSQueryParser.parseDomainName data 12).1 targetIp <;> rfl

end Start

end Query

/-- What goes on around one server: queries to it, with what the controller answers at the
moment it is asked, and the sessions of the controller. -/
inductive Call (γ : Type) where
  | query (q : Query) (nodesReply : γ → HttpReply (String × String))
      (tldsReply : γ → HttpReply String)
  | session (p : Prog γ Exc Outcome)

namespace PyMeshDNSServer

/-- The points of both kinds of calls. -/
def dnsFrames (rt : Runtime) (srv : PyMeshDNSServer) (γ : Type) : Frames (DnsState γ) Exc Outcome :=
  ((resolution rt srv γ).finish Outcome).sum (.ofProg (DnsState γ) Exc Outcome)

section Calls

variable {γ ι : Type} [DecidableEq ι] {rt : Runtime} {srv : PyMeshDNSServer} {g : γ}
  {call : ι → Call γ} {c d : Pool (dnsFrames rt srv γ) ι} {i j : ι} {ls : List ι}

def callFrame (rt : Runtime) (srv : PyMeshDNSServer) : Call γ → (dnsFrames rt srv γ).Frame
  | .query q nodesReply tldsReply => .inl (q.start rt srv nodesReply tldsReply)
  | .session p => .inr (p.zoom DnsState.controller fun g s => { s with controller := g })

/-- The calls to a server that has just been started. -/
def calls (rt : Runtime) (srv : PyMeshDNSServer) (g : γ) (call : ι → Call γ) :
    Pool (dnsFrames rt srv γ) ι :=
  ⟨⟨g, .empty⟩, fun i => callFrame rt srv (call i)⟩

/-- What `resolve_custom_tld` has returned in a call. -/
def resolved (c : Pool (dnsFrames rt srv γ) ι) (i : ι) : Option (Except Exc (Option String)) :=
  match c.frame i with
  | .inl f => f.1.result
  | .inr _ => none

/-- The outcome of a call. -/
def outcome (c : Pool (dnsFrames rt srv γ) ι) (i : ι) : Option (Except Exc Outcome) :=
  (dnsFrames rt srv γ).result (c.frame i)

/-- The state after what is stored at a point. -/
def stored (rt : Runtime) (f : Resolving γ) (s : DnsState γ) : DnsState γ :=
  { s with recordsCache := s.recordsCache.setAll (f.records rt) }

/-- An access of the controller, which does not touch the cache. -/
def Beside (R : γ → γ → Prop) (s s' : DnsState γ) : Prop :=
  R s.controller s'.controller ∧ s'.recordsCache = s.recordsCache

/-- A query makes its next access, or a session of the controller does. -/
theorem step_cases (h : Pool.Step c i d) :
    (∃ f finish, c.frame i = .inl (f, finish) ∧
      d.frame i = .inl ({ f with point := f.nextPoint rt srv c.shared }, finish) ∧
      d.shared = stored rt f c.shared) ∨
    ∃ p, c.frame i = .inr p ∧ (Frames.ofProg (DnsState γ) Exc Outcome).result p = none ∧
      d.frame i = .inr ((Frames.ofProg _ _ _).next p c.shared) ∧
      d.shared = (Frames.ofProg _ _ _).upd p c.shared := by
  have hself := h.frame_self
  have hshared := h.shared
  have hresult := h.result
  cases hf : c.frame i with
  | inl f =>
    rw [hf] at hself hshared
    exact Or.inl ⟨f.1, f.2, rfl, hself, hshared⟩
  | inr p =>
    rw [hf] at hself hshared hresult
    exact Or.inr ⟨p, rfl, hresult, hself.trans Frames.sum_next_inr, hshared⟩

/-- A query goes from point to point; its name, its replies and its end stay. -/
theorem frame_of_run {q : Query} {nodesReply : γ → HttpReply (String × String)}
    {tldsReply : γ → HttpReply String} (h : Run Pool.Step (calls rt srv g call) ls c)
    (hi : call i = .query q nodesReply tldsReply) :
    ∃ point, c.frame i = .inl ({ (q.start rt srv nodesReply tldsReply).1 with point := point },
      (q.start rt srv nodesReply tldsReply).2) := by
  induction h with
  | refl =>
    refine ⟨(q.start rt srv nodesReply tldsReply).1.point, ?_⟩
    simp only [calls, hi]
    rfl
  | @tail ls c j d _ hs ih =>
    obtain ⟨point, hc⟩ := ih
    by_cases hij : i = j
    · subst i
      rcases step_cases hs with ⟨f, finish, hf, hd, -⟩ | ⟨p, hf, -⟩
      · rw [hc] at hf
        cases hf
        exact ⟨_, hd⟩
      · rw [hc] at hf
        cases hf
    · refine ⟨point, ?_⟩
      rw [hs.frame_of_ne hij]
      exact hc

/-- The same for a query with a name. -/
theorem named_frame_of_run {q : Query} {nodesReply : γ → HttpReply (String × String)}
    {tldsReply : γ → HttpReply String} {domain : String}
    (h : Run Pool.Step (calls rt srv g call) ls c) (hi : call i = .query q nodesReply tldsReply)
    (hq : q.domain = some domain) :
    ∃ point, c.frame i = .inl (⟨domain, nodesReply, tldsReply, point⟩,
      fun targetIp => q.finish domain targetIp) := by
  obtain ⟨point, hf⟩ := frame_of_run h hi
  simp only [Query.start, hq] at hf
  exact ⟨point, hf⟩

/-- What holds of the state, of each query at its point, and of what each session of the
controller may still do. -/
structure Keeps (I : DnsState γ → Prop) (P : DnsState γ → Resolving γ → Prop) (R : γ → γ → Prop)
    (c : Pool (dnsFrames rt srv γ) ι) : Prop where
  state : I c.shared
  query : ∀ i f finish, c.frame i = .inl (f, finish) → P c.shared f
  session : ∀ i p, c.frame i = .inr p → p.Moves (Beside R)

variable {I : DnsState γ → Prop} {P : DnsState γ → Resolving γ → Prop} {R : γ → γ → Prop}

omit [DecidableEq ι] in
theorem keeps_calls (hI : I ⟨g, .empty⟩) (hP : ∀ i q nodesReply tldsReply,
      call i = .query q nodesReply tldsReply →
        P ⟨g, .empty⟩ (q.start rt srv nodesReply tldsReply).1)
    (hR : ∀ i p, call i = .session p → p.Moves R) : Keeps I P R (calls rt srv g call) := by
  constructor
  · exact hI
  · intro i f finish hf
    cases hi : call i with
    | query q nodesReply tldsReply =>
      have hq := hP i q nodesReply tldsReply hi
      simp only [calls, hi, callFrame] at hf
      rw [Sum.inl.inj hf] at hq
      exact hq
    | session p =>
      simp only [calls, hi, callFrame] at hf
      cases hf
  · intro i p hp
    cases hi : call i with
    | query q nodesReply tldsReply =>
      simp only [calls, hi, callFrame] at hp
      cases hp
    | session p' =>
      simp only [calls, hi, callFrame] at hp
      rw [← Sum.inr.inj hp]
      refine (hR i p' hi).zoom ?_
      intro s g hg
      exact ⟨hg, rfl⟩

/-- To keep all of it, a query has to see to its own next point, and both kinds of accesses
to the state and to the queries that stand elsewhere. -/
theorem Keeps.step (h : Keeps I P R c) (hs : Pool.Step c i d)
    (hquery : ∀ f finish, c.frame i = .inl (f, finish) → d.shared = stored rt f c.shared →
      I d.shared ∧ P d.shared { f with point := f.nextPoint rt srv c.shared })
    (hsession : ∀ p, c.frame i = .inr p → Beside R c.shared d.shared → I d.shared)
    (hothers : ∀ j f finish, c.frame j = .inl (f, finish) → P c.shared f →
      (∃ e, d.shared = stored rt e c.shared) ∨ Beside R c.shared d.shared → P d.shared f) :
    Keeps I P R d := by
  rcases step_cases hs with ⟨f, finish, hf, hd, hshared⟩ | ⟨p, hp, hr, hd, hshared⟩
  · obtain ⟨hstate, hown⟩ := hquery f finish hf hshared
    constructor
    · exact hstate
    · intro j g fin hj
      by_cases hji : j = i
      · subst j
        rw [hd] at hj
        cases hj
        exact hown
      · rw [hs.frame_of_ne hji] at hj
        exact hothers j g fin hj (h.query j g fin hj) (Or.inl ⟨f, hshared⟩)
    · intro j p hj
      by_cases hji : j = i
      · subst j
        rw [hd] at hj
        cases hj
      · rw [hs.frame_of_ne hji] at hj
        exact h.session j p hj
  · obtain ⟨hmove, hnext⟩ := Frames.ofProg_moves (h.session i p hp) hr c.shared
    rw [← hshared] at hmove
    constructor
    · exact hsession p hp hmove
    · intro j g fin hj
      by_cases hji : j = i
      · subst j
        rw [hd] at hj
        cases hj
      · rw [hs.frame_of_ne hji] at hj
        exact hothers j g fin hj (h.query j g fin hj) (Or.inr hmove)
    · intro j p' hj
      by_cases hji : j = i
      · subst j
        rw [hd] at hj
        cases hj
        exact hnext
      · rw [hs.frame_of_ne hji] at hj
        exact h.session j p' hj

end Calls

end PyMeshDNSServer

end PyMesh
