import PyMesh.Controller.Reachable

/-! When `PUT /network/subnet` goes through: the rows are updated one after the other under
the UNIQUE constraints, while the old addresses of the later rows still stand. -/
namespace PyMesh

open LTS Relational Resumption

variable {db db' : Database} {ipv4Prefix : String} {ipv6Prefix : Option String}
  {selectOrder flushOrder : RowOrder NodeModel} {used : IPAllocator} {res : Except Exc Response}

/-- The request commits, and every node has an address of the new prefix. -/
def Reallocates (db : Database) (used : IPAllocator) (r : Request) : Prop :=
  (∃ res, (serve db r).1 = .ok res) ∧
    (serve db r).2.nodes.rows.map NodeModel.id = db.nodes.rows.map NodeModel.id ∧
      ∀ node ∈ (serve db r).2.nodes.rows, node.meshIpv4 ∈ used.eligible ∧
        used.derive6 node.meshIpv4 = some node.meshIpv6

/-- The nodes after a flush that went through. -/
theorem reallocated_nodes {t t' : Table NodeModel} {nodes : List NodeModel}
    {new : List (NodeModel × IPv4Address × IPv6Address)} (hp : nodes.Perm t.rows)
    (hr : Api.reallocate used nodes [] [] = .ok new)
    (ht : t'.rows = t.rows.map (Api.renumberRow new)) :
    t'.rows.map NodeModel.id = t.rows.map NodeModel.id ∧
      ∀ node ∈ t'.rows, node.meshIpv4 ∈ used.eligible ∧
        used.derive6 node.meshIpv4 = some node.meshIpv6 := by
  constructor
  · rw [ht, List.map_map]
    exact List.map_congr_left fun n _ => Api.renumberRow_id new n
  · intro node hm
    obtain ⟨old, ho, rfl⟩ := List.mem_map.mp (ht ▸ hm)
    obtain ⟨v4, v6, hpl, hder, hrow⟩ := Api.exists_new hp hr ho
    rw [hrow]
    exact ⟨List.mem_of_mem_take (Api.mem_take_of_places hpl), hder⟩

/-- For an accepted pair of prefixes with enough hosts and without an IPv6 overflow, the
request does what it is for exactly when no row is given an address that a row still holds
which the flush has yet to reach. -/
theorem reallocates_iff (selectOrder flushOrder : RowOrder NodeModel) (h : Reachable db)
    (hv : IPAllocator.validateCidr ipv4Prefix ipv6Prefix = true)
    (hu : usedPool ipv4Prefix ipv6Prefix = .ok used)
    (hlen : db.nodes.rows.length ≤ used.eligible.length)
    (h6 : ∀ host ∈ used.eligible.take db.nodes.rows.length, (used.derive6 host).isSome) :
    Reallocates db used (.updateNetworkSubnet ipv4Prefix ipv6Prefix selectOrder flushOrder) ↔
      Api.Unobstructed used (selectOrder.arrange db.nodes.rows)
        (flushOrder.arrange (selectOrder.arrange db.nodes.rows)) := by
  have hp := selectOrder.perm db.nodes.rows
  have hans := renumbers (wellformed_reachable h) ipv4Prefix ipv6Prefix selectOrder flushOrder
  unfold Reallocates
  generalize (serve db (.updateNetworkSubnet ipv4Prefix ipv6Prefix selectOrder flushOrder)).1 = res
    at hans ⊢
  generalize (serve db (.updateNetworkSubnet ipv4Prefix ipv6Prefix selectOrder flushOrder)).2 = db'
    at hans ⊢
  cases hans with
  | invalid hi =>
    rw [hv] at hi
    cases hi
  | noAddress _ hu' he =>
    rw [hu] at hu'
    obtain rfl := Except.ok.inj hu'
    rw [← hp.length_eq] at hlen h6
    obtain ⟨new, hnew⟩ := Api.exists_reallocate hlen h6
    rw [he] at hnew
    cases hnew
  | obstructed _ hu' hr hf =>
    rw [hu] at hu'
    obtain rfl := Except.ok.inj hu'
    constructor
    · rintro ⟨⟨res, hres⟩, -⟩
      cases hres
    · intro hf'
      exact (hf hf').elim
  | done _ hu' hr hf htn ht =>
    rw [hu] at hu'
    obtain rfl := Except.ok.inj hu'
    exact ⟨fun _ => hf, fun _ => ⟨⟨_, rfl⟩, reallocated_nodes hp hr ht⟩⟩

/-- Three nodes in a small prefix, of which the first has been deleted. -/
def gapBefore : List Request :=
  [putSubnet "10.0.0.0/29" "fd00::/64", registerKey "YQ==", registerKey "Yw==", registerKey "Yg==",
    .deleteNode "ca978112ca1bbdcafac231b39a23dc4da786eff8147c4e72b9807785afee48bb"]

/-- In a wider prefix, which has the old one in it, each node gets the address before its own; the
one in front goes first. -/
theorem reallocates_iff_moved : ∃ used, usedPool "10.0.0.0/28" (some "fd00::/64") = .ok used ∧
    let db := serveAll .empty gapBefore
    (db.nodes.rows.map fun n => IPv4Address.str n.meshIpv4) = ["10.0.0.3", "10.0.0.4"] ∧
    ((serve db (putSubnet "10.0.0.0/28" "fd00::/64")).2.nodes.rows.map fun n =>
      IPv4Address.str n.meshIpv4) = ["10.0.0.2", "10.0.0.3"] ∧
    Reallocates db used (putSubnet "10.0.0.0/28" "fd00::/64") := by
  have hr : Reachable (serveAll .empty gapBefore) := ⟨_, run_serves_iff.mpr rfl⟩
  have hv : IPAllocator.validateCidr "10.0.0.0/28" (some "fd00::/64") = true := by decide +kernel
  obtain ⟨used, hu⟩ := exists_usedPool hv
  have hlen : (serveAll .empty gapBefore).nodes.rows.length ≤ used.eligible.length := by
    revert used
    decide +kernel
  have h6 : ∀ host ∈ used.eligible.take (serveAll .empty gapBefore).nodes.rows.length,
      (used.derive6 host).isSome := by
    clear hlen
    revert used
    decide +kernel
  have hfree : Api.Unobstructed used (RowOrder.stored.arrange (serveAll .empty gapBefore).nodes.rows)
      (RowOrder.stored.arrange
        (RowOrder.stored.arrange (serveAll .empty gapBefore).nodes.rows)) := by
    clear hlen h6
    revert used
    decide +kernel
  exact ⟨used, hu, by decide +kernel, by decide +kernel,
    (reallocates_iff .stored .stored hr hv hu hlen h6).mpr hfree⟩

/-- After the deletion of the first node the second and the third one have to swap their
addresses, and neither can go first. -/
theorem reallocates_fails : ∃ db, Run Serves Database.empty [
      putSubnet "10.0.0.0/29" "fd00::/64", registerKey "YQ==", registerKey "Yg==",
      .deleteNode "ca978112ca1bbdcafac231b39a23dc4da786eff8147c4e72b9807785afee48bb",
      registerKey "Yw=="] db ∧
    IPAllocator.validateCidr "10.0.0.0/29" (some "fd00::/64") = true ∧
    (∃ used, usedPool "10.0.0.0/29" (some "fd00::/64") = .ok used ∧
      db.nodes.rows.length ≤ used.eligible.length ∧
      ∀ host ∈ used.eligible.take db.nodes.rows.length, (used.derive6 host).isSome) ∧
    (serve db (putSubnet "10.0.0.0/29" "fd00::/64")).1 = .error .integrityError :=
  ⟨_, run_serves_iff.mpr rfl, by decide +kernel⟩

end PyMesh
