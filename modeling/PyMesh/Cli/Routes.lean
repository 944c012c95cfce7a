import PyMesh.Controller.Registry
import PyMesh.Controller.Routes
import PyMesh.Dns.Server
import PyMesh.Identity.Node

/-! `pymesh route add`: what it posts, and which peers carry the route. -/
namespace PyMesh

open LTS Relational Resumption Text

/-- The loop of a command over the nodes that are listed: a field of the first one with this
hostname, or what was given. -/
def fieldOf (field : NodeEntry → String) (given : String) :
    List (Except Exc NodeEntry) → Except Exc String
  | [] => .ok given
  | .error e :: _ => .error e
  | .ok n :: ns => if n.hostname = given then .ok (field n) else fieldOf field given ns

/-- `via_id`, over the nodes that are listed. -/
def viaId (viaNode : String) : List (Except Exc NodeEntry) → Except Exc String :=
  fieldOf NodeEntry.id viaNode

/-- The route that `handle_route_add` posts, after this reply to `GET /nodes`. -/
def handleRouteAdd (identity : NodeIdentity) (subnet viaNode : String)
    (reply : HttpReply NodeEntry) : Option SubnetRouteModel :=
  match truthy identity.controllerUrl with
  | none => none
  | some _ =>
    let found := match reply with
      | .ok nodes => viaId viaNode nodes
      | .status _ => .ok viaNode
      | .raised e => .error e
    match found with
    | .error _ => none
    | .ok viaId => some
      { pfx := subnet, viaNodeId := viaId, advertisedBy := identity.hostname, enabled := true }

/-- How a controller replies to `GET /nodes`. -/
def nodesListing (order : RowOrder NodeModel) (db : Database) : HttpReply NodeEntry :=
  match ((Api.listNodes order).run db).1 with
  | .ok nodes => .ok (nodes.map .ok)
  | .error _ => .status 500

variable {db db' db₀ db₁ db₂ : Database} {r : Request} {res : Except Exc Response}
  {answer : Response} {id : String}
  {log log₁ log₂ : List (Request × Except Exc Response)} {nodeOrder order : RowOrder NodeModel}
  {routeOrder : RowOrder SubnetRoute} {c : NetworkConfigResponse} {identity : NodeIdentity}
  {subnet viaNode uuid nodeId : String} {route : SubnetRouteModel} {row : SubnetRoute}

theorem nodesListing_eq (order : RowOrder NodeModel) (db : Database) : nodesListing order db =
    .ok ((order.arrange db.nodes.rows).map fun n => .ok (Api.listedNode n)) := by
  have hrun : ((Api.listNodes order).run db).1 =
      .ok ((order.arrange db.nodes.rows).map Api.listedNode) := rfl
  simp only [nodesListing, hrun, List.map_map]
  rfl

theorem fieldOf_ok (field : NodeEntry → String) (given : String) (nodes : List NodeModel) :
    ∃ v, fieldOf field given (nodes.map fun n => .ok (Api.listedNode n)) = .ok v ∧
      ((∃ n ∈ nodes, n.hostname = given ∧ field (Api.listedNode n) = v) ∨
        (∀ n ∈ nodes, n.hostname ≠ given) ∧ v = given) := by
  induction nodes with
  | nil => exact ⟨given, rfl, Or.inr ⟨by simp, rfl⟩⟩
  | cons n nodes ih =>
    rw [List.map_cons, fieldOf]
    split
    next hn => exact ⟨_, rfl, Or.inl ⟨n, by simp, hn, rfl⟩⟩
    next hn =>
      obtain ⟨v, hv, ⟨n', hn', hv'⟩ | ⟨hnone, hv'⟩⟩ := ih
      · exact ⟨v, hv, Or.inl ⟨n', List.mem_cons_of_mem _ hn', hv'⟩⟩
      · refine ⟨v, hv, Or.inr ⟨?_, hv'⟩⟩
        rw [List.forall_mem_cons]
        exact ⟨hn, hnone⟩

/-- The route that is posted: via the first node of that name, or via what was given. -/
theorem handleRouteAdd_cases
    (h : handleRouteAdd identity subnet viaNode (nodesListing order db) = some route) :
    route.id = none ∧ route.pfx = subnet ∧ route.advertisedBy = identity.hostname ∧
      route.enabled = true ∧
      ((∃ n ∈ db.nodes.rows, n.hostname = viaNode ∧ n.id = route.viaNodeId) ∨
        (∀ n ∈ db.nodes.rows, n.hostname ≠ viaNode) ∧ route.viaNodeId = viaNode) := by
  obtain ⟨v, hv, hvia⟩ := fieldOf_ok NodeEntry.id viaNode (order.arrange db.nodes.rows)
  simp only [order.mem] at hvia
  simp only [handleRouteAdd, viaId, nodesListing_eq] at h
  cases hurl : truthy identity.controllerUrl with
  | none =>
    rw [hurl] at h
    cases h
  | some url =>
    simp only [hurl, hv, Option.some.injEq] at h
    subst h
    exact ⟨rfl, rfl, rfl, rfl, hvia⟩

/-- A route stays until a request deletes it. -/
theorem Answers.find_route (hw : Wellformed db) (h : Answers db r res db')
    (hr : db.subnetRoutes.find id = some row) (hdel : r ≠ .deleteRoute id) :
    db'.subnetRoutes.find id = some row := by
  cases h with
  | routeAdded ht => rw [Table.find_append ht, hr, Option.some_or]
  | @routeDeleted routeId =>
    refine (Table.find_delete id).trans ?_
    rw [if_neg fun he => hdel (congrArg Request.deleteRoute he), hr]
  | register h => rw [h.subnetRoutes hw, hr]
  | renumber h => rw [h.subnetRoutes hw, hr]
  | _ => exact hr

theorem find_route_run (h : Run ServesAs db log db') (hw : Wellformed db)
    (hr : db.subnetRoutes.find id = some row) (hdel : ∀ x ∈ log, x.1 ≠ .deleteRoute id) :
    db'.subnetRoutes.find id = some row := by
  induction h with
  | refl => exact hr
  | @tail log a x b ha hs ih =>
    have hwa := wellformed_served ha hw
    have hans := answers hwa x.1
    rw [hs] at hans
    exact hans.find_route hwa (ih fun y hy => hdel y (List.mem_append_left _ hy))
      (hdel x (by simp))

/-- A route that is posted without an id gets one that no route has. -/
theorem find_posted (h : ServesAs db (.addRoute route uuid, .ok answer) db') (hw : Wellformed db)
    (hid : route.id = none) :
    db'.subnetRoutes.find ("route-" ++ uuid) = some (Api.dbRoute route uuid) := by
  have hrid : (Api.dbRoute route uuid).id = "route-" ++ uuid := by
    rw [Api.dbRoute, hid]
    rfl
  have hans := answers hw (.addRoute route uuid)
  rw [h] at hans
  cases hans with
  | routeAdded ht => rw [find_routeAdded ht, if_pos hrid]

theorem profileIn_kept (h : Run ServesAs db log db') (hw : Wellformed db)
    (hs : (profileIn db id).isSome) (hdel : ∀ x ∈ log, x.1 ≠ .deleteNode id) :
    (profileIn db' id).isSome := by
  induction h with
  | refl => exact hs
  | @tail log a x b ha hstep ih =>
    have hserved := profileIn_serve (wellformed_served ha hw) (hdel x (by simp))
      (ih fun y hy => hdel y (List.mem_append_left _ hy))
    rw [hstep] at hserved
    exact hserved

/-- Whatever else is requested before and after `pymesh route add` posts its route: as long as
nobody deletes it, every config has it, and a peer carries it if and only if the node that it is
via is there. It is, as long as nobody deletes it, when some node had the given name at the
start. -/
theorem route_add_carried (h₀ : Run ServesAs Database.empty log db₀)
    (h₁ : Run ServesAs db₀ log₁ db₁)
    (hadd : handleRouteAdd identity subnet viaNode (nodesListing order db₀) = some route)
    (hpost : ServesAs db₁ (.addRoute route uuid, .ok answer) db₂)
    (h₂ : Run ServesAs db₂ log₂ db) (hkept : ∀ x ∈ log₂, x.1 ≠ .deleteRoute ("route-" ++ uuid))
    (hc : (PeerManager.buildNetworkConfig nodeOrder routeOrder nodeId).run db = (.ok c, db)) :
    (c.routes.find? fun r => r.id = "route-" ++ uuid) =
      some ⟨"route-" ++ uuid, subnet, route.viaNodeId, identity.hostname⟩ ∧
    (route.viaNodeId ≠ nodeId →
      ((∃ p ∈ c.peers, p.nodeId = route.viaNodeId ∧ subnet ∈ p.allowedIps) ↔
        (db.nodes.find route.viaNodeId).isSome)) ∧
    ((∃ n ∈ db₀.nodes.rows, n.hostname = viaNode) →
      (∀ x ∈ log₁ ++ log₂, x.1 ≠ .deleteNode route.viaNodeId) →
      (db.nodes.find route.viaNodeId).isSome) := by
  obtain ⟨hid, rfl, hadv, hen, hvia⟩ := handleRouteAdd_cases hadd
  have hw₁ := wellformed_servesAs (h₀.append h₁)
  have hrun := ((h₀.append h₁).tail hpost).append h₂
  have hw := wellformed_servesAs hrun
  have hrow := find_route_run h₂ (wellformed_served (.single hpost) hw₁)
    (find_posted hpost hw₁ hid) hkept
  have hrid := (Table.find_eq_some_iff.mp hrow).2
  rw [key_route] at hrid
  have hnet := (find_routes_run hrun).2
  obtain ⟨targetNode, hm, rfl, rfl⟩ := exists_target hc
  have hnetwork := hw.members targetNode hm
  refine ⟨?_, fun hne => ⟨?_, fun hsome => ?_⟩, fun hnamed hdel => ?_⟩
  · have hfind := find_enabledRoutes routeOrder ("route-" ++ uuid) hnet hnetwork
    rw [hrow, Option.filter_some, if_pos (show (Api.dbRoute route uuid).enabled = true from hen)]
      at hfind
    have hroutes : ((PeerManager.enabledRoutes routeOrder db targetNode).map
        PeerManager.formattedRoute).find? (fun r => r.id = "route-" ++ uuid) = _ := List.find?_map
    refine hroutes.trans ((congrArg _ hfind).trans ?_)
    simp only [Option.map_some, PeerManager.formattedRoute, hrid]
    rw [← hadv]
    rfl
  · rintro ⟨p, hp, hpid, -⟩
    obtain ⟨n, hn, rfl⟩ := List.mem_map.mp hp
    rw [Option.isSome_iff_exists]
    exact ⟨n, Table.find_eq_some_iff.mpr ⟨(PeerManager.mem_otherNodes.mp hn).1, hpid⟩⟩
  · obtain ⟨n, hn⟩ := Option.isSome_iff_exists.mp hsome
    obtain ⟨hrows, hnid⟩ := Table.find_eq_some_iff.mp hn
    have hother : n ∈ PeerManager.otherNodes nodeOrder db targetNode := by
      refine PeerManager.mem_otherNodes.mpr ⟨hrows, ?_, fun he => hne (hnid.symm.trans he)⟩
      rw [hw.members n hrows, hnetwork]
    refine ⟨_, List.mem_map_of_mem hother, hnid, List.mem_of_mem_drop (i := 2) (mem_routed.mpr ?_)⟩
    obtain ⟨hrouteRow, -⟩ := Table.find_eq_some_iff.mp hrow
    exact ⟨Api.dbRoute route uuid, PeerManager.mem_enabledRoutes.mpr
      ⟨hrouteRow, (hnet _ hrouteRow).trans hnetwork.symm, hen⟩, hnid.symm, rfl⟩
  · obtain ⟨n, hn, -, hnid⟩ : ∃ n ∈ db₀.nodes.rows, n.hostname = viaNode ∧
        n.id = route.viaNodeId := by
      rcases hvia with hvia | ⟨hnone, -⟩
      · exact hvia
      · obtain ⟨n, hn, hname⟩ := hnamed
        exact absurd hname (hnone n hn)
    have hlater : Run ServesAs db₀ (log₁ ++ [(.addRoute route uuid, .ok answer)] ++ log₂) db :=
      (h₁.tail hpost).append h₂
    have hstart : (profileIn db₀ route.viaNodeId).isSome := by
      rw [profileIn, Table.find_eq_some_iff.mpr ⟨hn, hnid⟩]
      rfl
    have hend := profileIn_kept hlater (wellformed_servesAs h₀) hstart ?_
    · rwa [profileIn, Option.isSome_map] at hend
    · intro x hx
      simp only [List.mem_append, List.mem_singleton] at hx
      rcases hx with (hx | rfl) | hx
      · exact hdel x (List.mem_append_left _ hx)
      · exact fun he => by cases he
      · exact hdel x (List.mem_append_right _ hx)

theorem servesAs_of_fst (h : (serve db r).1 = res) : ServesAs db (r, res) (serve db r).2 := by
  subst h
  rfl

/-- A node that has joined a controller. -/
def operator : NodeIdentity where
  nodeId := secondId
  hostname := "ops"
  identityPrivateKey := "YQ=="
  identityPublicKey := "Yg=="
  wgPrivateKey := "YQ=="
  wgPublicKey := "Yg=="
  controllerUrl := some "http://localhost:8000"
  os := "linux"

def twoNodes : List Request := [registerKey "YQ==", registerKey "Yg=="]

/-- The first of the nodes gets another name before the route is posted. -/
def renamed : List Request :=
  [.registerNode none { hostname := "edge", publicKey := "YQ==" } 3]

def tunnel : SubnetRouteModel :=
  { pfx := "10.9.0.0/16", viaNodeId := firstId, advertisedBy := "ops" }

def beforeTunnel : Database := serveAll (serveAll .empty twoNodes) renamed

theorem route_add_carried_renamed : ∃ c db,
    (PeerManager.buildNetworkConfig .stored .stored secondId).run db = (.ok c, db) ∧
    ∃ p ∈ c.peers, p.nodeId = firstId ∧ "10.9.0.0/16" ∈ p.allowedIps := by
  have hadd : handleRouteAdd operator "10.9.0.0/16" "node"
      (nodesListing .stored (serveAll .empty twoNodes)) = some tunnel := by
    decide +kernel
  have hanswer : ∃ answer, (serve beforeTunnel (.addRoute tunnel "5f2c81d0")).1 = .ok answer ∧
      True := by
    decide +kernel
  have hbuilt : ∃ c, ((PeerManager.buildNetworkConfig .stored .stored secondId).run
      (serve beforeTunnel (.addRoute tunnel "5f2c81d0")).2).1 = .ok c ∧ True := by
    decide +kernel
  have hnamed : ∃ n ∈ (serveAll .empty twoNodes).nodes.rows, n.hostname = "node" := by
    decide +kernel
  obtain ⟨answer, hanswer, -⟩ := hanswer
  obtain ⟨c, hc, -⟩ := hbuilt
  have hpost := servesAs_of_fst hanswer
  have hrun := PeerManager.run_eq_of_fst hc
  obtain ⟨-, hcarried, hthere⟩ := route_add_carried (run_answerAll .empty twoNodes)
    (run_answerAll _ renamed) hadd hpost .refl (by simp) hrun
  have hsome := hthere hnamed (by simp [renamed, answerAll])
  obtain ⟨p, hp, hvia, hsubnet⟩ := (hcarried (by decide)).mpr hsome
  exact ⟨c, _, hrun, p, hp, hvia, hsubnet⟩

end PyMesh
