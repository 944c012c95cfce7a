import Mathlib.Data.Fintype.Basic
import PyMesh.Controller.Reachable
import PyMesh.Dns.Foreign

/-! The names of nodes, and when an answer for one of them is the address of a node that is
registered at that moment. -/
namespace PyMesh

open LTS Relational Resumption Text

namespace PyMeshDNSServer

/-- A name of the node `x`, in the form in which names are looked up. -/
structure NodeName (x name : String) : Prop where
  mesh : name = x ++ ".cr" ∨ name = x ++ ".mesh"
  ne : x ≠ "registry"
  strip : strip (· = '.') name = name

/-- A node with the hostname `x` has the address `ip`. -/
def Registered (rt : Runtime) (w : Controller) (x ip : String) : Prop :=
  ∃ n ∈ w.db.nodes.rows, rt.lower n.hostname = x ∧ IPv4Address.str n.meshIpv4 = ip

/-- A node whose hostname is a name of the node `x` is listed before a node `x`. -/
def Unshadowed (rt : Runtime) (nodes : List (String × String)) : Prop :=
  ∀ pre n post, nodes = pre ++ n :: post → ∀ x, NodeName x (rt.lower n.1) →
    ∃ m ∈ post, rt.lower m.1 = x

variable {ι : Type} [DecidableEq ι] {rt : Runtime} {srv : PyMeshDNSServer} {w w' : Controller}
  {call : ι → LiveCall} {c d : Pool (dnsFrames rt srv Controller) ι} {i : ι} {ls : List ι}
  {s s' : DnsState Controller} {f : Resolving Controller} {x name ip : String}

/-- The address that is kept for a name, in the cache or in a reply that is about to be stored. -/
def Remembered (c : Pool (dnsFrames rt srv Controller) ι) (name ip : String) : Prop :=
  c.shared.recordsCache name = some ip ∨ ∃ j f finish items, c.frame j = .inl (f, finish) ∧
    f.point = .storeNodes items ∧ Dict.ofList (f.records rt) name = some ip

/-- The nodes that are about to be stored do not shadow each other, and an access of the
controller leaves every node its address under which it is remembered. -/
structure Undisturbed (c : Pool (dnsFrames rt srv Controller) ι) (i : ι) : Prop where
  stores : ∀ f finish items, c.frame i = .inl (f, finish) → f.point = .storeNodes items →
    Unshadowed rt (HttpReply.readable items)
  changes : ∀ p, c.frame i = .inr p → ∀ x name ip, NodeName x name → Remembered c name ip →
    Registered rt c.shared.controller x ip →
      Registered rt ((Frames.ofProg _ _ _).upd p c.shared).controller x ip

/-- Every cached address of a node is that of a node that is registered. -/
structure Current (rt : Runtime) (s : DnsState Controller) : Prop where
  accepted : Accepted rt s.controller
  cached : ∀ x name ip, NodeName x name → s.recordsCache name = some ip →
    Registered rt s.controller x ip

/-- So is every address in a reply that is about to be stored. -/
structure RepliesCurrent (rt : Runtime) (s : DnsState Controller) (f : Resolving Controller) :
    Prop where
  asks : Asks s f
  reply : ∀ items, f.point = .storeNodes items → Unshadowed rt (HttpReply.readable items) →
    ∀ x name ip, NodeName x name → Dict.ofList (f.records rt) name = some ip →
      Registered rt s.controller x ip

theorem NodeName.eq_of_cr {h : String} (hx : NodeName x (h ++ ".cr")) : h = x := by
  rcases hx.mesh with he | he
  · apply String.toList_inj.mp
    have hl := congrArg String.toList he
    rw [String.toList_append, String.toList_append] at hl
    exact List.append_cancel_right hl
  · have hs := congrArg (split · '.') he
    simp only [split_cr, split_mesh] at hs
    have hlast := List.append_inj_right' hs rfl
    exact absurd hlast (by decide)

theorem NodeName.eq_of_mesh {h : String} (hx : NodeName x (h ++ ".mesh")) : h = x := by
  rcases hx.mesh with he | he
  · have hs := congrArg (split · '.') he
    simp only [split_cr, split_mesh] at hs
    have hlast := List.append_inj_right' hs rfl
    exact absurd hlast (by decide)
  · apply String.toList_inj.mp
    have hl := congrArg String.toList he
    rw [String.toList_append, String.toList_append] at hl
    exact List.append_cancel_right hl

/-- The labels of a node's name. -/
theorem NodeName.split (hx : NodeName x name) :
    ∃ last, Text.split name '.' = Text.split x '.' ++ [last] := by
  rcases hx.mesh with rfl | rfl
  · exact ⟨"cr", split_cr x⟩
  · exact ⟨"mesh", split_mesh x⟩

/-- The names under which TLDs are stored are no node's. -/
theorem not_nodeName_registry {names : List String} (hdot : ∀ t ∈ names, '.' ∉ t.toList)
    (h : name = "registry" ∨ ∃ t ∈ names, name = "registry." ++ t) : ¬ NodeName x name := by
  intro hx
  obtain ⟨last, hsplit⟩ := hx.split
  have hreg : Text.split "registry" '.' = ["registry"] := by decide
  rcases h with rfl | ⟨t, ht, rfl⟩
  · rw [hreg] at hsplit
    have hlen := congrArg List.length hsplit
    rw [List.length_append, List.length_singleton, List.length_singleton] at hlen
    have hpos := List.length_pos_iff.mpr (split_ne_nil x '.')
    omega
  · rw [split_registry (hdot t ht)] at hsplit
    have hx' := List.append_inj_left' hsplit rfl
    exact hx.ne (split_injective '.' hx').symm

/-- Of a list without shadows, the last record under a node's name is that of a node so called. -/
theorem mem_of_unshadowed {nodes : List (String × String)} (hu : Unshadowed rt nodes)
    (hx : NodeName x name) (h : Dict.ofList (nodes.flatMap (nodeRecords rt)) name = some ip) :
    ∃ n ∈ nodes, rt.lower n.1 = x ∧ n.2 = ip := by
  obtain ⟨pre, n, post, hnodes, hn, hpost⟩ := Dict.ofList_flatMap_eq_some_iff.mp h
  have hmem : n ∈ nodes := by
    rw [hnodes]
    simp
  obtain ⟨hip, hname⟩ := mem_nodeRecords.mp (Dict.mem_of_ofList hn)
  refine ⟨n, hmem, ?_, hip.symm⟩
  rcases hname with rfl | rfl | rfl
  · -- The node is called like a name of `x`, but then a node `x` has overwritten its record.
    exfalso
    obtain ⟨m, hm, hmx⟩ := hu pre n post hnodes x hx
    apply Dict.ofList_eq_none_iff.mp (hpost m hm)
    apply List.mem_map_of_mem (f := Prod.fst) (a := (rt.lower n.1, m.2))
    rw [mem_nodeRecords, hmx]
    exact ⟨rfl, Or.inr hx.mesh⟩
  · exact hx.eq_of_cr
  · exact hx.eq_of_mesh

omit [DecidableEq ι] in
theorem current_stored {finish : Option String → Except Exc Outcome}
    (hf : c.frame i = .inl (f, finish)) (hs : Current rt c.shared)
    (ha : RepliesCurrent rt c.shared f) (hg : Undisturbed c i) :
    Current rt (stored rt f c.shared) := by
  refine ⟨hs.accepted, ?_⟩
  intro x name ip hx hc
  rw [stored_apply] at hc
  rcases Option.or_eq_some_iff.mp hc with hnew | ⟨-, hold⟩
  · rcases Resolving.mem_records (Dict.mem_of_ofList hnew) with
      ⟨items, hp, -⟩ | ⟨ctrl, items, hp, t, ht, hr⟩
    · exact ha.reply items hp (hg.stores f finish items hf hp) x name ip hx hnew
    · have hname := registry_of_tldRecords hs.accepted ha.asks hp ht hr
      exact (not_nodeName_registry (fun t ht => (hs.accepted t ht).noDot) hname hx).elim
  · exact hs.cached x name ip hx hold

/-- A reply is current when it is made. -/
theorem repliesCurrent_next (ha : Asks s f) (hs : s'.controller = s.controller) :
    RepliesCurrent rt s' { f with point := f.nextPoint rt srv s } := by
  refine ⟨ha.next (by rw [tlds, tlds, hs]), ?_⟩
  intro items hp hu x name ip hx hr
  have hreply := Resolving.of_nextPoint_storeNodes hp
  obtain ⟨order, ho⟩ := ha.nodesReply
  rw [ho, Controller.nodesReply_eq] at hreply
  cases hreply
  dsimp only at hp
  simp only [Resolving.records, hp] at hr
  rw [HttpReply.readable_map_ok] at hu hr
  obtain ⟨n, hn, hnx, hnip⟩ := mem_of_unshadowed hu hx hr
  obtain ⟨row, hrow, rfl⟩ := List.mem_map.mp hn
  rw [hs]
  exact ⟨row, order.mem.mp hrow, hnx, hnip⟩

theorem current_step (h : Keeps (Current rt) (RepliesCurrent rt) (Grows rt) c)
    (hg : Undisturbed c i) (hs : Pool.Step c i d) :
    Keeps (Current rt) (RepliesCurrent rt) (Grows rt) d := by
  refine h.step hs ?_ ?_ ?_
  · intro f finish hf hd
    have hq := h.query i f finish hf
    rw [hd]
    exact ⟨current_stored hf h.state hq hg, repliesCurrent_next hq.asks rfl⟩
  · intro p hp hd
    refine ⟨h.state.accepted.grows hd.1, ?_⟩
    intro x name ip hx hc
    rw [hd.2] at hc
    have hshared : d.shared = (Frames.ofProg _ _ _).upd p c.shared := by
      rw [hs.shared, hp]
      rfl
    rw [hshared]
    exact hg.changes p hp x name ip hx (Or.inl hc) (h.state.cached x name ip hx hc)
  · intro j f finish hj hf hd
    refine ⟨hf.asks.mono (tlds_mono hd), ?_⟩
    intro items hp hu x name ip hx hr
    have hbefore := hf.reply items hp hu x name ip hx hr
    rcases step_cases hs with ⟨e, _, -, -, hshared⟩ | ⟨p, hi, -, -, hshared⟩
    · rw [hshared]
      exact hbefore
    · rw [hshared]
      exact hg.changes p hi x name ip hx (Or.inr ⟨j, f, finish, items, hj, hp, hr⟩) hbefore

theorem current_run (hw : Accepted rt w)
    (h : Run (Guarded Pool.Step Undisturbed) (liveCalls rt srv w call) ls c) :
    Keeps (Current rt) (RepliesCurrent rt) (Grows rt) c := by
  refine h.invariant (keeps_liveCalls ?_ ?_) ?_
  · refine ⟨hw, ?_⟩
    intro x name ip _ hc
    cases hc
  · intro f ha hpoint
    refine ⟨ha, ?_⟩
    intro items hp
    exact absurd hp ((Resolving.not_storing hpoint).1 items)
  · rintro a j b ha ⟨hg, hs⟩
    exact current_step ha hg hs

/-- In every undisturbed run, an address that a call returns for a node's name is that of a node
which is registered at that moment under that hostname. -/
theorem answers_registered (hw : Accepted rt w)
    (h : Run (Guarded Pool.Step Undisturbed) (liveCalls rt srv w call) ls c)
    (hs : Pool.Step c i d) {q : Query} {nodeOrder : RowOrder NodeModel}
    {tldOrder : RowOrder TLDRegistry} {domain : String}
    (hi : call i = .query q nodeOrder tldOrder) (hq : q.domain = some domain)
    (hx : dClean rt domain = x ++ ".cr" ∨ dClean rt domain = x ++ ".mesh") (hne : x ≠ "registry")
    (hr : resolved d i = some (.ok (some ip))) : Registered rt d.shared.controller x ip := by
  obtain ⟨point, hf⟩ := live_frame_of_run h.of_guarded hi hq
  have hname : NodeName x (dClean rt domain) := ⟨hx, hne, strip_strip _ _⟩
  rcases step_cases hs with ⟨f, finish, hfi, hd, hshared⟩ | ⟨p, hp, -⟩
  · rw [hf] at hfi
    cases hfi
    simp only [resolved, hd] at hr
    have hpoint := Resolving.result_eq_some_iff.mp hr
    rcases Resolving.of_nextPoint_done hpoint with hdone | hcache
    · have hresult := hs.result
      rw [hf] at hresult
      have hnone := Frames.finish_result_none.mp hresult
      rw [show point = _ from hdone] at hnone
      cases hnone
    · rw [hshared]
      exact (current_run hw h).state.cached x _ ip hname (Except.ok.inj hcache).symm
  · rw [hf] at hp
    cases hp

/-- The record for a name in the reply that a call is about to store. -/
def replyRecord (c : Pool (dnsFrames rt srv Controller) ι) (j : ι) (name : String) :
    Option String :=
  match c.frame j with
  | .inl (f, _) => match f.point with
    | .storeNodes _ => Dict.ofList (f.records rt) name
    | _ => none
  | .inr _ => none

/-- An access of the controller leaves every node its address under which it is remembered, as a
test on the rows before and after it. -/
def checkChanges [Fintype ι] (c : Pool (dnsFrames rt srv Controller) ι) (i : ι) : Bool :=
  match c.frame i with
  | .inl _ => true
  | .inr p => c.shared.controller.db.nodes.rows.all fun n =>
    (((Frames.ofProg _ _ _).upd p c.shared).controller.db.nodes.rows.any fun n' =>
      rt.lower n'.hostname = rt.lower n.hostname ∧ n'.meshIpv4 = n.meshIpv4) ||
    [rt.lower n.hostname ++ ".cr", rt.lower n.hostname ++ ".mesh"].all fun name =>
      c.shared.recordsCache name ≠ some (IPv4Address.str n.meshIpv4) ∧
        ∀ j, replyRecord c j name ≠ some (IPv4Address.str n.meshIpv4)

omit [DecidableEq ι] in
/-- A step is undisturbed where it stores hostnames of one label each, and changes no node that is
remembered. -/
theorem undisturbed_of_check [Fintype ι]
    (h : checkHostnames c i = true ∧ checkChanges c i = true) : Undisturbed c i := by
  constructor
  · intro f finish items hf hp pre n post hnodes x hx
    exfalso
    simp only [checkHostnames, hf, hp, List.all_eq_true, decide_eq_true_eq] at h
    obtain ⟨last, hsplit⟩ := hx.split
    have hlt := h.1 n (by rw [hnodes]; simp)
    have hpos := List.length_pos_iff.mpr (split_ne_nil x '.')
    rw [hsplit, List.length_append, List.length_singleton] at hlt
    omega
  · intro p hp x name ip hx hr hreg
    obtain ⟨n, hn, rfl, rfl⟩ := hreg
    have hcheck := h.2
    simp only [checkChanges, hp, List.all_eq_true, Bool.or_eq_true, List.any_eq_true,
      decide_eq_true_eq] at hcheck
    rcases hcheck n hn with ⟨n', hn', hsame, haddr⟩ | hforgotten
    · exact ⟨n', hn', hsame, by rw [haddr]⟩
    · exfalso
      have hname : name ∈ [rt.lower n.hostname ++ ".cr", rt.lower n.hostname ++ ".mesh"] := by
        simpa using hx.mesh
      obtain ⟨hcache, hreplies⟩ := hforgotten name hname
      rcases hr with hr | ⟨j, f, finish, items, hj, hpoint, hr⟩
      · exact hcache hr
      · apply hreplies j
        simp only [replyRecord, hj, hpoint]
        exact hr

/-- A node registers, and another while the name of the first is asked for; a third registers, the
second is deleted, all are renumbered, and the name of the first is asked for again. -/
def renumberedCall : Fin 7 → LiveCall
  | 0 => registerAs "Node" "YQ=="
  | 1 => .query (.resolve "node.cr") .stored .stored
  | 2 => registerAs "old" "Yw=="
  | 3 => registerAs "new" "Yg=="
  | 4 => .request (.deleteNode "2e7d2c03a9507ae265ecf5b5356885a53393a2029d241394997265a1a25aefc6")
  | 5 => .request (putSubnet "100.64.0.0/10" "fd00:7079:6d65::/48")
  | 6 => .query (.resolve "NODE.mesh") .stored .stored

/-- The third node has another address by then, and the first is answered with its own. -/
theorem answers_registered_renumbered : ∃ c d, Run (Guarded Pool.Step Undisturbed)
      (liveCalls .ascii (init "http://localhost:8000") .empty renumberedCall)
      [0, 0, 0, 0, 0, 0, 0, 1, 1, 2, 2, 2, 2, 1, 1, 1, 1, 3, 3, 3, 3, 4, 4, 5, 5, 5] c ∧
    Pool.Step c 6 d ∧ resolved d 6 = some (.ok (some "100.64.0.2")) ∧
    (d.shared.controller.db.nodes.rows.map fun n => (n.hostname, IPv4Address.str n.meshIpv4)) =
      [("Node", "100.64.0.2"), ("new", "100.64.0.3")] ∧
    Registered .ascii d.shared.controller "node" "100.64.0.2" := by
  obtain ⟨d, hrun, hres, hrows⟩ := Pool.exists_run_of_play
    (c := liveCalls .ascii (init "http://localhost:8000") .empty renumberedCall)
    (G := fun c i => checkHostnames c i = true ∧ checkChanges c i = true)
    (P := fun d => resolved d 6 = some (.ok (some "100.64.0.2")) ∧
      (d.shared.controller.db.nodes.rows.map fun n => (n.hostname, IPv4Address.str n.meshIpv4)) =
        [("Node", "100.64.0.2"), ("new", "100.64.0.3")])
    (l := [0, 0, 0, 0, 0, 0, 0, 1, 1, 2, 2, 2, 2, 1, 1, 1, 1, 3, 3, 3, 3, 4, 4, 5, 5, 5] ++ [6])
    (by decide +kernel)
  obtain ⟨c, hrun, -, hstep⟩ := run_concat_iff.mp hrun
  have hguard := hrun.mono fun a i b (h : Guarded Pool.Step _ a i b) =>
    (⟨undisturbed_of_check h.1, h.2⟩ : Guarded Pool.Step Undisturbed a i b)
  have hw : Accepted .ascii .empty := by
    intro name hn
    cases hn
  exact ⟨c, d, hguard, hstep, hres, hrows, answers_registered hw hguard hstep (i := 6)
    (q := .resolve "NODE.mesh") rfl rfl (Or.inr (by decide)) (by decide) hres⟩

/-- A node registers, its name is asked for, the node is deleted, its name is asked for. -/
def deletedCall : Fin 4 → LiveCall
  | 0 => registerAs "node" "YQ=="
  | 1 => .query (.resolve "node.cr") .stored .stored
  | 2 => .request (.deleteNode "ca978112ca1bbdcafac231b39a23dc4da786eff8147c4e72b9807785afee48bb")
  | 3 => .query (.resolve "node.cr") .stored .stored

/-- The second answer is the address of the node that is gone. -/
theorem answers_registered_fails : ∃ c d, Run Pool.Step
      (liveCalls .ascii (init "http://localhost:8000") .empty deletedCall)
      [0, 0, 0, 0, 0, 0, 0, 1, 1, 1, 1, 1, 1, 2, 2] c ∧ Pool.Step c 3 d ∧
    resolved d 3 = some (.ok (some "100.64.0.2")) ∧
    ¬ Registered .ascii d.shared.controller "node" "100.64.0.2" := by
  obtain ⟨d, hrun, hres, hrows⟩ := Pool.exists_run_of_play
    (c := liveCalls .ascii (init "http://localhost:8000") .empty deletedCall)
    (G := fun _ _ => True)
    (P := fun d => resolved d 3 = some (.ok (some "100.64.0.2")) ∧
      d.shared.controller.db.nodes.rows = [])
    (l := [0, 0, 0, 0, 0, 0, 0, 1, 1, 1, 1, 1, 1, 2, 2] ++ [3]) (by decide +kernel)
  obtain ⟨c, hrun, -, hstep⟩ := run_concat_iff.mp hrun
  refine ⟨c, d, hrun.of_guarded, hstep, hres, ?_⟩
  rintro ⟨n, hn, -⟩
  rw [hrows] at hn
  cases hn

end PyMeshDNSServer

end PyMesh
