import PyMesh.Controller.Provenance

/-! The subnet routes: the tables and the configs have those that have been added and not deleted
since. -/
namespace PyMesh

open LTS Relational

/-- What becomes of the route with an id when a request gets this answer. -/
def placed (id : String) (known : Option SubnetRoute) :
    Request × Except Exc Response → Option SubnetRoute
  | (.addRoute route uuid, .ok _) =>
    if (Api.dbRoute route uuid).id = id then some (Api.dbRoute route uuid) else known
  | (.deleteRoute routeId, .ok _) => if routeId = id then none else known
  | _ => known

def routeOf (id : String) (log : List (Request × Except Exc Response)) : Option SubnetRoute :=
  log.foldl (placed id) none

variable {db db' : Database} {r : Request} {res : Except Exc Response} {id : String}
  {log : List (Request × Except Exc Response)} {nodeOrder : RowOrder NodeModel}
  {routeOrder : RowOrder SubnetRoute} {c : NetworkConfigResponse}

/-- Every route is in the network of all nodes. -/
def RoutesInNetwork (db : Database) : Prop :=
  ∀ r ∈ db.subnetRoutes.rows, r.networkId = "net-pymesh"

/-- What a request does to the routes is what its answer tells. -/
structure PlacesRoutes (db : Database) (x : Request × Except Exc Response) (db' : Database) :
    Prop where
  find : ∀ id, db'.subnetRoutes.find id = placed id (db.subnetRoutes.find id) x
  network : RoutesInNetwork db → RoutesInNetwork db'

theorem placesRoutes_of_eq {x : Request × Except Exc Response}
    (h : db'.subnetRoutes = db.subnetRoutes) (hx : ∀ id known, placed id known x = known) :
    PlacesRoutes db x db' where
  find id := by rw [h, hx]
  network hnet := by
    rw [RoutesInNetwork, h]
    exact hnet

theorem Registers.subnetRoutes {authorization : Option String} {req : NodeRegistrationRequest}
    {now : Nat} (hw : Wellformed db) (h : Registers authorization req now db res db') :
    db'.subnetRoutes = db.subnetRoutes := by
  obtain ⟨ts, tn, -, hd⟩ := Api.admitted_frame authorization hw
  have hadmitted : (Api.admitted authorization db).subnetRoutes = db.subnetRoutes := by rw [hd]
  cases h with
  | refused => rfl
  | _ => exact hadmitted

theorem Renumbers.subnetRoutes {ipv4Prefix : String} {ipv6Prefix : Option String}
    {selectOrder flushOrder : RowOrder NodeModel} (hw : Wellformed db)
    (h : Renumbers ipv4Prefix ipv6Prefix selectOrder flushOrder db res db') :
    db'.subnetRoutes = db.subnetRoutes := by
  obtain ⟨t, -, he⟩ := NodeManager.ensureNetwork_frame hw
  have hens : (NodeManager.ensureNetwork db).subnetRoutes = db.subnetRoutes := by rw [he]
  cases h with
  | invalid => rfl
  | noAddress => exact hens
  | obstructed => exact hens
  | done => rfl

/-- A table with a new row at its end had none with the key of this row. -/
theorem find_routeAdded {t : Table SubnetRoute} {row : SubnetRoute}
    (ht : t.rows = db.subnetRoutes.rows ++ [row]) (id : String) :
    t.find id = if row.id = id then some row else db.subnetRoutes.find id := by
  rw [Table.find_append ht, key_route]
  split
  next hid =>
    have hnone : db.subnetRoutes.find id = none := by
      refine Table.find_eq_none_iff.mpr fun a ha => ?_
      have hu := t.unique
      rw [ht, List.pairwise_append] at hu
      rw [key_route, ← hid]
      exact hu.2.2 a ha row (List.mem_singleton.mpr rfl)
    rw [hnone, Option.none_or]
  next => rw [Option.or_none]

theorem Answers.placesRoutes (hw : Wellformed db) (h : Answers db r res db') :
    PlacesRoutes db (r, res) db' := by
  cases h with
  | @routeAdded route uuid res t ht =>
    refine ⟨find_routeAdded ht, fun hnet row hrow => ?_⟩
    rw [ht] at hrow
    rcases List.mem_append.mp hrow with hrow | hrow
    · exact hnet row hrow
    · rw [List.mem_singleton.mp hrow]
      rfl
  | @routeDeleted routeId =>
    refine ⟨fun id => Table.find_delete id, fun hnet row hrow => ?_⟩
    exact hnet row (Table.mem_delete.mp hrow).1
  | register h => exact placesRoutes_of_eq (h.subnetRoutes hw) fun _ _ => rfl
  | renumber h => exact placesRoutes_of_eq (h.subnetRoutes hw) fun _ _ => rfl
  | _ => exact placesRoutes_of_eq rfl fun _ _ => rfl

/-- The tables refine a map from ids to routes. -/
theorem find_routes_run (h : Run ServesAs Database.empty log db) :
    (∀ id, db.subnetRoutes.find id = routeOf id log) ∧ RoutesInNetwork db := by
  induction h with
  | refl => exact ⟨fun _ => rfl, fun r hr => by cases hr⟩
  | @tail log a x b ha hs ih =>
    have hans := answers (wellformed_servesAs ha) x.1
    rw [hs] at hans
    have hplaces := hans.placesRoutes (wellformed_servesAs ha)
    refine ⟨fun id => ?_, hplaces.network ih.2⟩
    rw [hplaces.find, ih.1, routeOf, routeOf, List.foldl_append]
    rfl

theorem nodup_enabledRoutes (routeOrder : RowOrder SubnetRoute) (db : Database)
    (targetNode : NodeModel) :
    ((PeerManager.enabledRoutes routeOrder db targetNode).map SubnetRoute.id).Nodup := by
  refine ((routeOrder.perm _).map _).nodup_iff.mpr ?_
  exact (List.filter_sublist.map _).nodup db.subnetRoutes.keys_nodup

/-- The routes that the config of a node is made from. -/
theorem find_enabledRoutes (routeOrder : RowOrder SubnetRoute) (routeId : String)
    (hnet : RoutesInNetwork db) {targetNode : NodeModel}
    (hm : targetNode.networkId = "net-pymesh") :
    ((PeerManager.enabledRoutes routeOrder db targetNode).find? fun r => r.id = routeId) =
      (db.subnetRoutes.find routeId).filter SubnetRoute.enabled := by
  refine Option.ext fun r => ?_
  rw [Table.find?_key_eq_some_iff (nodup_enabledRoutes routeOrder db targetNode),
    Option.filter_eq_some_iff, Table.find_eq_some_iff, PeerManager.mem_enabledRoutes, key_route, hm]
  constructor
  · rintro ⟨⟨hr, -, hen⟩, hk⟩
    exact ⟨⟨hr, hk⟩, hen⟩
  · rintro ⟨⟨hr, hk⟩, hen⟩
    exact ⟨⟨hr, hnet r hr, hen⟩, hk⟩

/-- What a peer is allowed beside its own addresses. -/
theorem mem_routed {routes : List SubnetRoute} {n : NodeModel} {pfx : String} :
    pfx ∈ (PeerManager.peerConfig routes n).allowedIps.drop 2 ↔
      ∃ r ∈ routes, r.viaNodeId = n.id ∧ r.pfx = pfx := by
  have hdrop : (PeerManager.peerConfig routes n).allowedIps.drop 2 =
      PeerManager.routeMap routes n.id := rfl
  rw [hdrop, PeerManager.routeMap, List.mem_map]
  simp only [List.mem_filter, decide_eq_true_eq, and_assoc]

/-- After any requests a config has the routes that have been added and not deleted since and are
enabled, each id once, and each peer is allowed the prefixes of those via it. -/
theorem routes_told (h : Run ServesAs Database.empty log db)
    (hc : (PeerManager.buildNetworkConfig nodeOrder routeOrder id).run db = (.ok c, db)) :
    (c.routes.map RouteEntry.id).Nodup ∧
    (∀ routeId, (c.routes.find? fun r => r.id = routeId) =
      ((routeOf routeId log).filter SubnetRoute.enabled).map PeerManager.formattedRoute) ∧
    ∀ p ∈ c.peers, ∀ pfx, pfx ∈ p.allowedIps.drop 2 ↔ ∃ routeId r,
      routeOf routeId log = some r ∧ r.enabled = true ∧ r.viaNodeId = p.nodeId ∧ r.pfx = pfx := by
  obtain ⟨hfind, hnet⟩ := find_routes_run h
  obtain ⟨targetNode, hm, rfl, rfl⟩ := exists_target hc
  have hnetwork := (wellformed_servesAs h).members targetNode hm
  refine ⟨?_, fun routeId => ?_, fun p hp pfx => ?_⟩
  · rw [PeerManager.networkConfig, List.map_map]
    exact nodup_enabledRoutes routeOrder db targetNode
  · rw [← hfind, ← find_enabledRoutes routeOrder routeId hnet hnetwork]
    exact List.find?_map
  · obtain ⟨n, -, rfl⟩ := List.mem_map.mp hp
    rw [mem_routed]
    constructor
    · rintro ⟨r, hr, hvia, hpfx⟩
      obtain ⟨hrow, -, hen⟩ := PeerManager.mem_enabledRoutes.mp hr
      exact ⟨r.id, r, (hfind r.id) ▸ Table.find_eq_some_iff.mpr ⟨hrow, rfl⟩, hen, hvia, hpfx⟩
    · rintro ⟨routeId, r, hr, hen, hvia, hpfx⟩
      rw [← hfind] at hr
      obtain ⟨hrow, -⟩ := Table.find_eq_some_iff.mp hr
      refine ⟨r, PeerManager.mem_enabledRoutes.mpr ⟨hrow, ?_, hen⟩, hvia, hpfx⟩
      rw [hnet r hrow, hnetwork]

/-- A route is added, deleted, and added again with another prefix. -/
def moved : List Request :=
  [registerKey "YQ==", registerKey "Yg==", routeVia "10.9.0.0/16" secondId,
    .deleteRoute ("route-" ++ secondId), routeVia "10.8.0.0/16" secondId]

theorem routes_told_moved : ∃ c,
    (PeerManager.buildNetworkConfig .stored .stored firstId).run (serveAll .empty moved) =
      (.ok c, serveAll .empty moved) ∧
    (c.routes.find? fun r => r.id = "route-" ++ secondId).map RouteEntry.pfx =
      some "10.8.0.0/16" := by
  have hbuilt : ∃ c, ((PeerManager.buildNetworkConfig .stored .stored firstId).run
      (serveAll .empty moved)).1 = .ok c ∧ True := by
    decide +kernel
  have hroute : ((routeOf ("route-" ++ secondId) (answerAll .empty moved)).filter
      SubnetRoute.enabled).map SubnetRoute.pfx = some "10.8.0.0/16" := by
    decide +kernel
  obtain ⟨c, hc, -⟩ := hbuilt
  have hrun := PeerManager.run_eq_of_fst hc
  refine ⟨c, hrun, ?_⟩
  rw [(routes_told (run_answerAll .empty moved) hrun).2.1, Option.map_map]
  exact hroute

end PyMesh
