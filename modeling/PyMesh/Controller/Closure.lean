import PyMesh.Controller.Reachable

/-! The routes of a config and the peers that carry them. -/
namespace PyMesh

open LTS Relational Resumption PeerManager

/-- Each route of the config that is not via `nodeId` itself has one peer, which carries it. -/
def Closed (c : NetworkConfigResponse) (nodeId : String) : Prop :=
  ∀ r ∈ c.routes, r.viaNodeId ≠ nodeId →
    (c.peers.filter fun p => p.nodeId = r.viaNodeId).length = 1 ∧
      ∀ p ∈ c.peers, p.nodeId = r.viaNodeId → r.pfx ∈ p.allowedIps

instance (c : NetworkConfigResponse) (nodeId : String) : Decidable (Closed c nodeId) :=
  inferInstanceAs (Decidable (∀ r ∈ c.routes, _))

/-- Every enabled route is via a registered node, unless there is no node at all. -/
def Carried (db : Database) : Prop :=
  db.nodes.rows = [] ∨ ∀ r ∈ db.subnetRoutes.rows, r.enabled = true →
    r.viaNodeId ∈ db.nodes.rows.map NodeModel.id

variable {db db' : Database} {r : Request} {rs : List Request} {res : Except Exc Response}
  {nodeOrder : RowOrder NodeModel} {routeOrder : RowOrder SubnetRoute} {nodeId : String}
  {c : NetworkConfigResponse} {targetNode : NodeModel}

theorem carried_congr (h : Carried db)
    (hids : db'.nodes.rows.map NodeModel.id = db.nodes.rows.map NodeModel.id)
    (hroutes : db'.subnetRoutes = db.subnetRoutes) : Carried db' := by
  rcases h with hnil | hall
  · left
    rw [hnil] at hids
    exact List.map_eq_nil_iff.mp hids
  · right
    rw [hroutes, hids]
    exact hall

/-- A config that is answered is that of a registered node. -/
theorem exists_target
    (hc : (buildNetworkConfig nodeOrder routeOrder nodeId).run db = (.ok c, db)) :
    ∃ targetNode ∈ db.nodes.rows, targetNode.id = nodeId ∧
      c = networkConfig nodeOrder routeOrder db targetNode := by
  rw [run_buildNetworkConfig] at hc
  cases hn : db.nodes.find nodeId with
  | none => simp [hn] at hc
  | some targetNode =>
    rw [hn] at hc
    obtain ⟨hm, hk⟩ := Table.find_eq_some_iff.mp hn
    exact ⟨targetNode, hm, hk, (Except.ok.inj (Prod.mk.inj hc).1).symm⟩

/-- A registered node other than the target is one of the peers. -/
theorem peer_unique (hw : Wellformed db) (hm : targetNode ∈ db.nodes.rows) {n : NodeModel}
    (hn : n ∈ db.nodes.rows) (hne : n.id ≠ targetNode.id) :
    ((networkConfig nodeOrder routeOrder db targetNode).peers.filter fun p =>
      p.nodeId = n.id).length = 1 := by
  have hmem : n ∈ otherNodes nodeOrder db targetNode :=
    mem_otherNodes.mpr ⟨hn, by rw [hw.members n hn, hw.members _ hm], hne⟩
  have hnodup : (otherNodes nodeOrder db targetNode).Nodup := by
    refine (nodeOrder.perm _).nodup_iff.mpr ?_
    exact db.nodes.rows_nodup.filter _
  have heq : ∀ m ∈ otherNodes nodeOrder db targetNode,
      decide (m.id = n.id) = (m == n) := by
    intro m hmo
    refine decide_eq_decide.mpr ⟨fun h => ?_, fun h => by rw [h]⟩
    exact Table.eq_of_key (mem_otherNodes.mp hmo).1 hn h
  simp only [networkConfig, List.filter_map, List.length_map]
  refine (congrArg List.length (List.filter_congr heq)).trans ?_
  rw [← List.countP_eq_length_filter]
  exact List.count_eq_one_of_mem hnodup hmem

/-- A config is closed when every enabled route is via a registered node. -/
theorem closed_of_carried (hw : Wellformed db) (h : Carried db)
    (hc : (buildNetworkConfig nodeOrder routeOrder nodeId).run db = (.ok c, db)) :
    Closed c nodeId := by
  obtain ⟨targetNode, hm, rfl, rfl⟩ := exists_target hc
  intro r hr hne
  obtain ⟨row, hrow, rfl⟩ := List.mem_map.mp hr
  obtain ⟨hrm, -, hen⟩ := mem_enabledRoutes.mp hrow
  rcases h with hnil | hall
  · simp [hnil] at hm
  · obtain ⟨n, hn, hid⟩ := List.mem_map.mp (hall row hrm hen)
    have hvia : (formattedRoute row).viaNodeId = n.id := hid.symm
    rw [hvia] at hne ⊢
    refine ⟨peer_unique hw hm hn hne, fun p hp hpn => ?_⟩
    obtain ⟨m, hmo, rfl⟩ := List.mem_map.mp hp
    have hmid : row.viaNodeId = m.id := hvia.trans hpn.symm
    have hmap : row.pfx ∈ routeMap (enabledRoutes routeOrder db targetNode) m.id :=
      List.mem_map.mpr ⟨row, List.mem_filter.mpr ⟨hrow, by simp [hmid]⟩, rfl⟩
    exact List.mem_append_right _ hmap

/-- A new enabled route is via a registered node, a deleted node carries no enabled route, and
the first node to register is the one that all enabled routes are via. -/
def KeepsCarried (db : Database) : Request → Prop
  | .addRoute route uuid => route.enabled = true → db.nodes.rows ≠ [] →
      (∀ r ∈ db.subnetRoutes.rows, r.id ≠ (Api.dbRoute route uuid).id) →
      route.viaNodeId ∈ db.nodes.rows.map NodeModel.id
  | .deleteNode nodeId => nodeId ∈ db.nodes.rows.map NodeModel.id →
      (∃ n ∈ db.nodes.rows, n.id ≠ nodeId) →
      ∀ r ∈ db.subnetRoutes.rows, r.enabled = true → r.viaNodeId ≠ nodeId
  | .registerNode authorization req _ => db.nodes.rows = [] →
      ∀ id al, CanAdd authorization req db id al →
        ∀ r ∈ db.subnetRoutes.rows, r.enabled = true → r.viaNodeId = id
  | _ => True

theorem Registers.carried {authorization : Option String} {req : NodeRegistrationRequest}
    {now : Nat} (h : Registers authorization req now db res db') (hw : Wellformed db)
    (hg : KeepsCarried db (.registerNode authorization req now)) (hc : Carried db) :
    Carried db' := by
  obtain ⟨ts, tn, _, hd⟩ := Api.admitted_frame authorization hw
  have hadmitted : Carried (Api.admitted authorization db) := by
    rw [hd]
    exact hc
  cases h with
  | refused => exact hc
  | badKey => exact hadmitted
  | known ha hk hn ht =>
    refine carried_congr hadmitted ?_ rfl
    rw [hd, ht, List.map_map]
    refine List.map_congr_left fun n _ => ?_
    simp only [Function.comp_apply]
    split <;> rfl
  | noAddress => exact hadmitted
  | taken => exact hadmitted
  | added ha hk hn hal hv h6 ht =>
    right
    rw [hd, ht]
    intro r hr hen
    rw [List.map_append, List.mem_append]
    rcases hc with hnil | hall
    · have hvia := hg hnil _ _ (canAdd_of_allocate ha hk hn hal hv) r hr hen
      exact Or.inr (List.mem_singleton.mpr hvia)
    · exact Or.inl (hall r hr hen)

theorem Renumbers.carried {ipv4Prefix : String} {ipv6Prefix : Option String}
    {selectOrder flushOrder : RowOrder NodeModel}
    (h : Renumbers ipv4Prefix ipv6Prefix selectOrder flushOrder db res db') (hw : Wellformed db)
    (hc : Carried db) : Carried db' := by
  obtain ⟨t, _, he⟩ := NodeManager.ensureNetwork_frame hw
  have hens : Carried (NodeManager.ensureNetwork db) := by
    rw [he]
    exact hc
  cases h with
  | invalid => exact hc
  | noAddress => exact hens
  | obstructed => exact hens
  | done hv hu hr hf htn ht =>
    refine carried_congr hc ?_ rfl
    rw [ht, List.map_map]
    exact List.map_congr_left fun n _ => Api.renumberRow_id _ n

theorem Answers.carried (h : Answers db r res db') (hw : Wellformed db) (hg : KeepsCarried db r)
    (hc : Carried db) : Carried db' := by
  cases h with
  | joined => exact hc
  | joinTaken => exact hc
  | tokenCreated => exact hc
  | tokenTaken => exact hc
  | register h => exact h.carried hw hg hc
  | beat hn ht =>
    refine carried_congr hc ?_ rfl
    rw [ht, List.map_map]
    refine List.map_congr_left fun n _ => ?_
    simp only [Function.comp_apply]
    split <;> rfl
  | beatUnknown => exact hc
  | @deleted nodeId node hn =>
    obtain ⟨hm, hk⟩ := Table.find_eq_some_iff.mp hn
    by_cases hother : ∃ n ∈ db.nodes.rows, n.id ≠ nodeId
    · right
      intro r hr hen
      have hne := hg (List.mem_map.mpr ⟨node, hm, hk⟩) hother r hr hen
      rcases hc with hnil | hall
      · simp [hnil] at hm
      · obtain ⟨n, hnm, hid⟩ := List.mem_map.mp (hall r hr hen)
        refine List.mem_map.mpr ⟨n, Table.mem_delete.mpr ⟨hnm, ?_⟩, hid⟩
        simpa [hid] using hne
    · left
      refine List.filter_eq_nil_iff.mpr fun n hnm => ?_
      have hid : n.id = nodeId := by
        by_contra hne
        exact hother ⟨n, hnm, hne⟩
      simp [hid]
  | deleteUnknown => exact hc
  | @routeAdded route uuid res t ht =>
    by_cases hnil : db.nodes.rows = []
    · exact Or.inl hnil
    · right
      intro r hr hen
      rcases List.mem_append.mp (ht ▸ hr) with hr | hr
      · exact hc.resolve_left hnil r hr hen
      · obtain rfl := List.mem_singleton.mp hr
        have hfree : ∀ a ∈ db.subnetRoutes.rows, a.id ≠ (Api.dbRoute route uuid).id := by
          have hu := t.unique
          rw [ht, List.pairwise_append] at hu
          exact fun a ha => hu.2.2 a ha _ (List.mem_singleton.mpr rfl)
        exact hg hen hnil hfree
  | routeTaken => exact hc
  | routeDeleted =>
    rcases hc with hnil | hall
    · exact Or.inl hnil
    · exact Or.inr fun r hr hen => hall r (Table.mem_delete.mp hr).1 hen
  | config => exact hc
  | renumber h => exact h.carried hw hc

/-- In a run that keeps the enabled routes via registered nodes, every config is closed. -/
theorem configs_closed (h : Run (Guarded Serves KeepsCarried) Database.empty rs db)
    (hc : (buildNetworkConfig nodeOrder routeOrder nodeId).run db = (.ok c, db)) :
    Closed c nodeId := by
  have hcarried : Wellformed db ∧ Carried db := by
    refine Run.invariant (I := fun a => Wellformed a ∧ Carried a) (run_answers h)
      ⟨wellformed_empty, Or.inl rfl⟩ ?_
    rintro a r b ⟨hw, hca⟩ ⟨-, hg, res, hans⟩
    exact ⟨hans.wellformed hw, hans.carried hw hg hca⟩
  exact closed_of_carried hcarried.1 hcarried.2 hc

/-- A route that is enabled. -/
def routeVia (pfx viaNodeId : String) : Request :=
  .addRoute { pfx := pfx, viaNodeId := viaNodeId, advertisedBy := viaNodeId } viaNodeId

def firstId : String := "ca978112ca1bbdcafac231b39a23dc4da786eff8147c4e72b9807785afee48bb"

def secondId : String := "3e23e8160039594a33894f6564e1b1348bbd7a0088d42c4acb73eeaed59c009d"

/-- Two nodes and a route via the second one. -/
theorem configs_closed_routed : ∃ c,
    let db := serveAll .empty
      [registerKey "YQ==", registerKey "Yg==", routeVia "10.9.0.0/16" secondId]
    (buildNetworkConfig .stored .stored firstId).run db = (.ok c, db) ∧
      c.routes.length = 1 ∧ Closed c firstId := by
  have hfirst : KeepsCarried .empty (registerKey "YQ==") :=
    fun _ _ _ _ r hr => (List.not_mem_nil hr).elim
  have hsecond : KeepsCarried (serveAll .empty [registerKey "YQ=="]) (registerKey "Yg==") := by
    intro hnil
    have hne : (serveAll .empty [registerKey "YQ=="]).nodes.rows ≠ [] := by decide +kernel
    exact (hne hnil).elim
  have hroute : KeepsCarried (serveAll .empty [registerKey "YQ==", registerKey "Yg=="])
      (routeVia "10.9.0.0/16" secondId) := by
    intro _ _ _
    decide +kernel
  have hc : ∃ c, ((buildNetworkConfig .stored .stored firstId).run (serveAll .empty
      [registerKey "YQ==", registerKey "Yg==", routeVia "10.9.0.0/16" secondId])).1 = .ok c ∧
        c.routes.length = 1 := by
    decide +kernel
  obtain ⟨c, hc, hlen⟩ := hc
  have hrun : Run (Guarded Serves KeepsCarried) Database.empty _ (serveAll .empty
      [registerKey "YQ==", registerKey "Yg==", routeVia "10.9.0.0/16" secondId]) :=
    .tail (.tail (.tail .refl ⟨hfirst, rfl⟩) ⟨hsecond, rfl⟩) ⟨hroute, rfl⟩
  exact ⟨c, run_eq_of_fst hc, hlen, configs_closed hrun (run_eq_of_fst hc)⟩

/-- The second node is deleted, its route stays. -/
theorem configs_closed_fails : ∃ db c, Run Serves Database.empty [registerKey "YQ==",
      registerKey "Yg==", routeVia "10.9.0.0/16" secondId, .deleteNode secondId] db ∧
    (buildNetworkConfig .stored .stored firstId).run db = (.ok c, db) ∧ ¬ Closed c firstId := by
  have hc : ∃ c, ((buildNetworkConfig .stored .stored firstId).run (serveAll .empty
      [registerKey "YQ==", registerKey "Yg==", routeVia "10.9.0.0/16" secondId,
        .deleteNode secondId])).1 = .ok c ∧ ¬ Closed c firstId := by
    decide +kernel
  obtain ⟨c, hc, hn⟩ := hc
  exact ⟨_, c, run_serves_iff.mpr rfl, run_eq_of_fst hc, hn⟩

end PyMesh
