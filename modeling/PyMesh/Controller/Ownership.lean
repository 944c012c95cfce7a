import PyMesh.Controller.Closure

/-! The prefixes of the peers of one config: the own addresses of a peer and the routes via
it. -/
namespace PyMesh

open LTS Relational Resumption PeerManager

/-- The prefixes of a peer's own addresses. -/
def ownPrefixes (p : PeerConfig) : List String := [p.meshIpv4 ++ "/32", p.meshIpv6 ++ "/128"]

variable {db : Database} {nodeOrder : RowOrder NodeModel} {routeOrder : RowOrder SubnetRoute}
  {nodeId s : String} {c : NetworkConfigResponse} {targetNode m n : NodeModel}
  {p q : PeerConfig} {routes : List SubnetRoute}

/-- The two kinds of own prefixes are told apart by their last characters. -/
theorem hostPrefix_ne (a b : String) : a ++ "/32" ≠ b ++ "/128" := by
  intro h
  have hl := congrArg (fun s => s.toList.getLast?) h
  simp at hl

theorem append_right_inj {a b t : String} (h : a ++ t = b ++ t) : a = b := by
  have hl := congrArg String.toList h
  rw [String.toList_append, String.toList_append] at hl
  exact String.toList_inj.mp (List.append_cancel_right hl)

/-- Peers for nodes that share no address share no own prefix. -/
theorem ownPrefixes_disjoint (h4 : m.meshIpv4 ≠ n.meshIpv4) (h6 : m.meshIpv6 ≠ n.meshIpv6)
    (hs : s ∈ ownPrefixes (peerConfig routes m)) : s ∉ ownPrefixes (peerConfig routes n) := by
  intro hs'
  simp only [ownPrefixes, peerConfig, List.mem_cons, List.not_mem_nil, or_false] at hs hs'
  rcases hs with rfl | rfl <;> rcases hs' with h | h
  · exact h4 (IPv4Address.str_injective (append_right_inj h))
  · exact hostPrefix_ne _ _ h
  · exact hostPrefix_ne _ _ h.symm
  · exact h6 (IPv6Address.str_injective (append_right_inj h))

theorem mem_allowedIps_iff : s ∈ (peerConfig routes m).allowedIps ↔
    s ∈ ownPrefixes (peerConfig routes m) ∨ ∃ r ∈ routes, r.viaNodeId = m.id ∧ r.pfx = s := by
  simp only [peerConfig, allowedIps, ownPrefixes, List.mem_append, routeMap, List.mem_map,
    List.mem_filter, decide_eq_true_eq, and_assoc]

/-- Two peers of a config have different own prefixes, and a prefix that both have is the
prefix of an enabled route via one of them. -/
theorem shared_prefix_routed
    (hc : (buildNetworkConfig nodeOrder routeOrder nodeId).run db = (.ok c, db))
    (hp : p ∈ c.peers) (hq : q ∈ c.peers) (hne : p.nodeId ≠ q.nodeId) :
    (∀ s ∈ ownPrefixes p, s ∉ ownPrefixes q) ∧
      ∀ s ∈ p.allowedIps, s ∈ q.allowedIps →
        ∃ r ∈ c.routes, r.pfx = s ∧ (r.viaNodeId = p.nodeId ∨ r.viaNodeId = q.nodeId) := by
  obtain ⟨targetNode, hm, -, rfl⟩ := exists_target hc
  obtain ⟨m, hmo, rfl⟩ := List.mem_map.mp hp
  obtain ⟨n, hno, rfl⟩ := List.mem_map.mp hq
  have hmn : m ≠ n := fun h => hne (by rw [h])
  have hclash := Table.not_clash (mem_otherNodes.mp hmo).1 (mem_otherNodes.mp hno).1 hmn
  have h4 : m.meshIpv4 ≠ n.meshIpv4 := fun h => hclash (Or.inr (Or.inl h))
  have h6 : m.meshIpv6 ≠ n.meshIpv6 := fun h => hclash (Or.inr (Or.inr h))
  refine ⟨fun s hs => ownPrefixes_disjoint h4 h6 hs, fun s hsp hsq => ?_⟩
  rcases mem_allowedIps_iff.mp hsp with hown | ⟨r, hr, hvia, rfl⟩
  · rcases mem_allowedIps_iff.mp hsq with hown' | ⟨r, hr, hvia, rfl⟩
    · exact (ownPrefixes_disjoint h4 h6 hown hown').elim
    · exact ⟨formattedRoute r, List.mem_map_of_mem hr, rfl, Or.inr hvia⟩
  · exact ⟨formattedRoute r, List.mem_map_of_mem hr, rfl, Or.inl hvia⟩

def thirdId : String := "2e7d2c03a9507ae265ecf5b5356885a53393a2029d241394997265a1a25aefc6"

/-- Three nodes, and two routes for one prefix via different nodes. -/
def twoGateways : List Request :=
  [registerKey "YQ==", registerKey "Yg==", registerKey "Yw==",
    routeVia "10.9.0.0/16" secondId, routeVia "10.9.0.0/16" thirdId]

theorem shared_prefix_routed_gateways : ∃ c,
    let db := serveAll .empty twoGateways
    (buildNetworkConfig .stored .stored firstId).run db = (.ok c, db) ∧
      ∃ p ∈ c.peers, ∃ q ∈ c.peers, p.nodeId ≠ q.nodeId ∧
        (∀ s ∈ ownPrefixes p, s ∉ ownPrefixes q) ∧
        ∀ s ∈ p.allowedIps, s ∈ q.allowedIps →
          ∃ r ∈ c.routes, r.pfx = s ∧ (r.viaNodeId = p.nodeId ∨ r.viaNodeId = q.nodeId) := by
  have hc : ∃ c, ((buildNetworkConfig .stored .stored firstId).run
      (serveAll .empty twoGateways)).1 = .ok c ∧
        ∃ p ∈ c.peers, ∃ q ∈ c.peers, p.nodeId ≠ q.nodeId := by
    decide +kernel
  obtain ⟨c, hc, p, hp, q, hq, hne⟩ := hc
  exact ⟨c, run_eq_of_fst hc, p, hp, q, hq, hne,
    shared_prefix_routed (run_eq_of_fst hc) hp hq hne⟩

/-- Both gateways have the prefix. -/
theorem shared_prefix_occurs : ∃ db c, Run Serves Database.empty twoGateways db ∧
    (buildNetworkConfig .stored .stored firstId).run db = (.ok c, db) ∧
    ∃ p ∈ c.peers, ∃ q ∈ c.peers, p.nodeId ≠ q.nodeId ∧ ∃ s ∈ p.allowedIps, s ∈ q.allowedIps := by
  have hc : ∃ c, ((buildNetworkConfig .stored .stored firstId).run
      (serveAll .empty twoGateways)).1 = .ok c ∧
        ∃ p ∈ c.peers, ∃ q ∈ c.peers, p.nodeId ≠ q.nodeId ∧
          ∃ s ∈ p.allowedIps, s ∈ q.allowedIps := by
    decide +kernel
  obtain ⟨c, hc, hshared⟩ := hc
  exact ⟨_, c, run_serves_iff.mpr rfl, run_eq_of_fst hc, hshared⟩

end PyMesh
