import PyMesh.Dns.LocalAnswers

/-! Queries to a server whose controller is in use: nodes are registered, deleted and renumbered
and TLDs are published between their accesses. -/
namespace PyMesh

open LTS Relational Resumption Text

namespace Controller

/-- What the resolver reads of `GET /nodes`. -/
def nodesReply (order : RowOrder NodeModel) (w : Controller) : HttpReply (String × String) :=
  match ((onDb (Api.listNodes order)).run w).1 with
  | .ok entries => .ok (entries.map fun n => .ok (n.hostname, n.meshIpv4))
  | .error _ => .status 500

/-- What the resolver reads of `GET /tld`. -/
def tldsReply (order : RowOrder TLDRegistry) (w : Controller) : HttpReply String :=
  match ((onTlds (Api.listTlds order)).run w).1 with
  | .ok entries => .ok (entries.map fun t => .ok t.name)
  | .error _ => .status 500

/-- A node as the resolver reads it. -/
def addressOf (n : NodeModel) : String × String := (n.hostname, IPv4Address.str n.meshIpv4)

theorem nodesReply_eq (order : RowOrder NodeModel) (w : Controller) : nodesReply order w =
    .ok (((order.arrange w.db.nodes.rows).map addressOf).map .ok) := by
  have hrun : ((onDb (Api.listNodes order)).run w).1 =
      .ok ((order.arrange w.db.nodes.rows).map Api.listedNode) := rfl
  simp only [nodesReply, hrun, List.map_map]
  rfl

theorem tldsReply_eq (order : RowOrder TLDRegistry) (w : Controller) : tldsReply order w =
    .ok (((order.arrange w.tlds.rows).map fun t => "." ++ t.name).map .ok) := by
  have hrun : ((onTlds (Api.listTlds order)).run w).1 =
      .ok ((order.arrange w.tlds.rows).map Api.listedTld) := rfl
  simp only [tldsReply, hrun, List.map_map]
  rfl

end Controller

/-- A query to the server or a request to its controller. The orders are those in which the
SELECTs for a query return their rows. -/
inductive LiveCall where
  | query (q : Query) (nodeOrder : RowOrder NodeModel) (tldOrder : RowOrder TLDRegistry)
  | request (r : Request)
  | publishTld (name description publisherInfo : String)

namespace LiveCall

def call (rt : Runtime) : LiveCall → Call Controller
  | query q nodeOrder tldOrder =>
    .query q (Controller.nodesReply nodeOrder) (Controller.tldsReply tldOrder)
  | request r => .session do return .served (← Controller.onDb r.session)
  | publishTld name description publisherInfo => .session do
    return .published (← Controller.onTlds (Api.publishTld rt name description publisherInfo))

end LiveCall

namespace PyMeshDNSServer

variable {ι : Type} [DecidableEq ι] {rt : Runtime} {srv : PyMeshDNSServer} {w : Controller}
  {call : ι → LiveCall} {c d : Pool (dnsFrames rt srv Controller) ι} {i : ι} {ls : List ι}
  {s s' : DnsState Controller} {f : Resolving Controller}

/-- The calls to a fresh server, with the controller at `w`. -/
def liveCalls (rt : Runtime) (srv : PyMeshDNSServer) (w : Controller) (call : ι → LiveCall) :
    Pool (dnsFrames rt srv Controller) ι :=
  calls rt srv w fun i => (call i).call rt

/-- The names of the TLDs that are published in a state. -/
def tlds (s : DnsState Controller) : List String := published s.controller.tlds

/-- What every access of the controller does to its TLDs. -/
def Grows (rt : Runtime) (w w' : Controller) : Prop := Publishes rt w.tlds w'.tlds

omit [DecidableEq ι] in
theorem moves_live {p : Prog Controller Exc Outcome} (h : (call i).call rt = .session p) :
    p.Moves (Grows rt) := by
  cases hc : call i with
  | query q nodeOrder tldOrder =>
    rw [hc] at h
    cases h
  | request r =>
    rw [hc] at h
    cases h
    refine Prog.Moves.bind ((Prog.moves_true r.session).zoom ?_) fun _ => trivial
    intro w _ _
    exact Publishes.refl w.tlds
  | publishTld name description publisherInfo =>
    rw [hc] at h
    cases h
    refine Prog.Moves.bind ((moves_publishTld rt name description publisherInfo).zoom ?_)
      fun _ => trivial
    intro w t ht
    exact ht

/-- All names were accepted by `publish_tld`. -/
def Accepted (rt : Runtime) (w : Controller) : Prop :=
  ∀ name ∈ published w.tlds, TLDManager.Publishable rt name

theorem Accepted.grows {w w' : Controller} (h : Accepted rt w) (hg : Grows rt w w') :
    Accepted rt w' := by
  intro name hn
  rcases hg.added name hn with hn | hn
  · exact h name hn
  · exact hn

/-- A query asks the controller, and the TLDs that it is about to store are published. -/
structure Asks (s : DnsState Controller) (f : Resolving Controller) : Prop where
  nodesReply : ∃ order, f.nodesReply = Controller.nodesReply order
  tldsReply : ∃ order, f.tldsReply = Controller.tldsReply order
  reply : ∀ ip items, f.point = .storeTlds ip items → ∀ t ∈ HttpReply.readable items,
    ∃ name ∈ tlds s, t = "." ++ name

theorem Asks.next (h : Asks s f) (hs : tlds s' = tlds s) :
    Asks s' { f with point := f.nextPoint rt srv s } := by
  refine ⟨h.nodesReply, h.tldsReply, ?_⟩
  intro ip items hp t ht
  obtain ⟨hr, -⟩ := Resolving.of_nextPoint_storeTlds hp
  obtain ⟨order, ho⟩ := h.tldsReply
  rw [ho, Controller.tldsReply_eq] at hr
  cases hr
  rw [HttpReply.readable_map_ok] at ht
  obtain ⟨row, hrow, rfl⟩ := List.mem_map.mp ht
  refine ⟨row.name, ?_, rfl⟩
  rw [hs]
  exact List.mem_map_of_mem (order.mem.mp hrow)

/-- The names of the published TLDs only become more. -/
theorem tlds_mono (h : (∃ e, s' = stored rt e s) ∨ Beside (Grows rt) s s') :
    ∀ name ∈ tlds s, name ∈ tlds s' := by
  intro name hn
  rcases h with ⟨e, rfl⟩ | hb
  · exact hn
  · exact hb.1.kept name hn

theorem Asks.mono (h : Asks s f) (hs : ∀ name ∈ tlds s, name ∈ tlds s') : Asks s' f := by
  refine ⟨h.nodesReply, h.tldsReply, ?_⟩
  intro ip items hp t ht
  obtain ⟨name, hn, rfl⟩ := h.reply ip items hp t ht
  exact ⟨name, hs name hn, rfl⟩

theorem asks_start {q : Query} {nodeOrder : RowOrder NodeModel}
    {tldOrder : RowOrder TLDRegistry} : Asks s
      (q.start rt srv (Controller.nodesReply nodeOrder) (Controller.tldsReply tldOrder)).1 := by
  obtain ⟨hnodes, htlds⟩ := q.start_replies rt srv (Controller.nodesReply nodeOrder)
    (Controller.tldsReply tldOrder)
  refine ⟨⟨nodeOrder, hnodes⟩, ⟨tldOrder, htlds⟩, ?_⟩
  intro ip items hp
  exact absurd hp ((Resolving.not_storing (q.start_point rt srv _ _)).2 ip items)

omit [DecidableEq ι] in
theorem keeps_liveCalls {I : DnsState Controller → Prop}
    {P : DnsState Controller → Resolving Controller → Prop} (hI : I ⟨w, .empty⟩)
    (hP : ∀ f, Asks ⟨w, .empty⟩ f → f.point = .start ∨ f.point = .done (.ok none) →
      P ⟨w, .empty⟩ f) : Keeps I P (Grows rt) (liveCalls rt srv w call) := by
  refine keeps_calls hI ?_ fun _ _ hj => moves_live hj
  intro j q nodesReply tldsReply hj
  cases hcall : call j with
  | query q' nodeOrder tldOrder =>
    simp only [hcall, LiveCall.call] at hj
    cases hj
    exact hP _ asks_start (q.start_point _ _ _ _)
  | request r =>
    simp only [hcall, LiveCall.call] at hj
    cases hj
  | publishTld =>
    simp only [hcall, LiveCall.call] at hj
    cases hj

/-- A query with a name after a run. -/
theorem live_frame_of_run {q : Query} {nodeOrder : RowOrder NodeModel}
    {tldOrder : RowOrder TLDRegistry} {domain : String}
    (h : Run Pool.Step (liveCalls rt srv w call) ls c) (hi : call i = .query q nodeOrder tldOrder)
    (hq : q.domain = some domain) :
    ∃ point, c.frame i = .inl (⟨domain, Controller.nodesReply nodeOrder,
      Controller.tldsReply tldOrder, point⟩, fun targetIp => q.finish domain targetIp) := by
  have hcall : (call i).call rt = .query q (Controller.nodesReply nodeOrder)
      (Controller.tldsReply tldOrder) := by
    rw [hi]
    rfl
  exact named_frame_of_run h hcall hq

/-- The names under which a TLD is stored. -/
theorem registry_of_tldRecords (ha : Accepted rt s.controller) (h : Asks s f) {ip : String}
    {items : List (Except Exc String)} (hp : f.point = .storeTlds ip items) {t name ip' : String}
    (ht : t ∈ HttpReply.readable items) (hr : (name, ip') ∈ tldRecords rt ip t) :
    name = "registry" ∨ ∃ t ∈ tlds s, name = "registry." ++ t := by
  obtain ⟨t, hn, rfl⟩ := h.reply ip items hp t ht
  rcases (mem_tldRecords.mp hr).2 with hname | hname
  · rw [(ha t hn).lstrip] at hname
    exact Or.inr ⟨t, hn, hname⟩
  · exact Or.inl hname

/-- The registration of a key under a hostname, without a token. -/
def registerAs (hostname publicKey : String) : LiveCall :=
  .request (.registerNode none { hostname := hostname, publicKey := publicKey } 0)

end PyMeshDNSServer

end PyMesh
