import PyMesh.Controller.Closure

/-! What the controller knows of a node is what the node has said of itself. -/
namespace PyMesh

open LTS Relational

/-- The columns of a node that the node itself fills. -/
structure Profile where
  hostname : String
  wireguardPublicKey : String
  identityPublicKey : String
  listenPort : Int
  os : String
  version : String
  endpoints : List String
  tags : List String
  online : Bool
  natType : String
  lastSeen : Nat
deriving DecidableEq

def NodeModel.profile (n : NodeModel) : Profile where
  hostname := n.hostname
  wireguardPublicKey := n.wireguardPublicKey
  identityPublicKey := n.identityPublicKey
  listenPort := n.listenPort
  os := n.os
  version := n.version
  endpoints := n.endpoints
  tags := n.tags
  online := n.online
  natType := n.natType
  lastSeen := n.lastSeen

/-- What the controller can be told about one node. -/
inductive Said where
  | registered (req : NodeRegistrationRequest) (now : Nat)
  | beat (req : HeartbeatRequest) (now : Nat)
  | deleted

/-- A registration replaces all but the first key and the NAT type. A heartbeat without endpoints
keeps the endpoints, and what is deleted is forgotten. -/
def heard (known : Option Profile) : Said → Option Profile
  | .registered req now => some {
      hostname := req.hostname
      wireguardPublicKey := req.publicKey
      identityPublicKey := (known.map Profile.identityPublicKey).getD req.publicKey
      listenPort := req.listenPort
      os := req.os
      version := req.version
      endpoints := req.endpoints
      tags := req.tags
      online := true
      natType := (known.map Profile.natType).getD "unknown"
      lastSeen := now }
  | .beat req now => known.map fun p =>
      { p with
        endpoints := if req.endpoints = [] then p.endpoints else req.endpoints
        online := true
        natType := req.natType
        lastSeen := now }
  | .deleted => none

def profileOf (ss : List Said) : Option Profile := ss.foldl heard none

/-- What a request that got this answer has said about node `id`. -/
def saidBy (id : String) : Request × Except Exc Response → Option Said
  | (.registerNode _ req now, .ok _) =>
    if deriveNodeId req.publicKey = .ok id then some (.registered req now) else none
  | (.heartbeat nodeId req now, .ok _) => if nodeId = id then some (.beat req now) else none
  | (.deleteNode nodeId, .ok _) => if nodeId = id then some .deleted else none
  | _ => none

def said (id : String) (log : List (Request × Except Exc Response)) : List Said :=
  log.filterMap (saidBy id)

/-- A request is served and gets this answer. -/
def ServesAs (db : Database) (x : Request × Except Exc Response) (db' : Database) : Prop :=
  serve db x.1 = (x.2, db')

variable {db db' : Database} {r : Request} {res : Except Exc Response} {id : String}
  {log : List (Request × Except Exc Response)} {nodeOrder : RowOrder NodeModel}
  {routeOrder : RowOrder SubnetRoute}

/-- The profile that the tables have for an id. -/
def profileIn (db : Database) (id : String) : Option Profile :=
  (db.nodes.find id).map NodeModel.profile

theorem profileIn_congr (h : db'.nodes = db.nodes) : profileIn db' id = profileIn db id := by
  rw [profileIn, h, profileIn]

/-- Rows that keep their ids and profiles. -/
theorem profileIn_map {t : Table NodeModel} {g : NodeModel → NodeModel}
    (ht : t.rows = db.nodes.rows.map g) (hid : ∀ n, (g n).id = n.id)
    (hg : ∀ n, (g n).profile = n.profile) :
    profileIn { db with nodes := t } id = profileIn db id := by
  rw [profileIn, Table.find_map ht hid, Option.map_map, profileIn]
  congr 1
  funext n
  exact hg n

/-- One row is rewritten. -/
theorem profileIn_rewritten {t : Table NodeModel} {f : NodeModel → NodeModel} {nodeId : String}
    (ht : t.rows = db.nodes.rows.map fun n => if n.id = nodeId then f n else n)
    (hid : ∀ n, (f n).id = n.id) : profileIn { db with nodes := t } id =
      if nodeId = id then (db.nodes.find id).map fun n => (f n).profile else profileIn db id := by
  rw [profileIn, Table.find_rewritten ht hid]
  split
  · rw [Option.map_map]
    rfl
  · rfl

theorem profileIn_deleted {nodeId : String} :
    profileIn { db with nodes := db.nodes.delete fun n => n.id = nodeId } id =
      if nodeId = id then none else profileIn db id := by
  have hfind : (db.nodes.delete fun n => n.id = nodeId).find id =
      if nodeId = id then none else db.nodes.find id := Table.find_delete id
  rw [profileIn, hfind, profileIn]
  split <;> rfl

/-- What a request says of each node is what the tables take up. -/
def Hears (db : Database) (x : Request × Except Exc Response) (db' : Database) : Prop :=
  ∀ id, profileIn db' id = match saidBy id x with
    | none => profileIn db id
    | some s => heard (profileIn db id) s

theorem hears_of_silent {x : Request × Except Exc Response} (hs : ∀ id, saidBy id x = none)
    (h : ∀ id, profileIn db' id = profileIn db id) : Hears db x db' := by
  intro id
  rw [h, hs]

theorem Registers.hears {authorization : Option String} {req : NodeRegistrationRequest} {now : Nat}
    (hw : Wellformed db) (h : Registers authorization req now db res db') :
    Hears db (.registerNode authorization req now, res) db' := by
  have hnodes := Api.nodes_admitted authorization hw
  cases h with
  | refused => exact hears_of_silent (fun _ => rfl) fun _ => rfl
  | badKey => exact hears_of_silent (fun _ => rfl) fun _ => profileIn_congr hnodes
  | @known key node t ha hk hn ht =>
    intro id
    refine (profileIn_rewritten ht fun _ => rfl).trans ?_
    rw [saidBy, hk]
    by_cases hid : key = id
    · subst hid
      rw [if_pos rfl, if_pos rfl, hn, profileIn, hn]
      rfl
    · rw [if_neg hid, if_neg fun h => hid (Except.ok.inj h)]
  | noAddress => exact hears_of_silent (fun _ => rfl) fun _ => profileIn_congr hnodes
  | taken => exact hears_of_silent (fun _ => rfl) fun _ => profileIn_congr hnodes
  | @added key _ v4 v6 t ha hk hn hal hv h6 ht =>
    intro id
    rw [saidBy, hk, profileIn, Table.find_append ht, key_node, NodeManager.newNode]
    by_cases hid : key = id
    · subst hid
      rw [if_pos rfl, profileIn, hn]
      simp [NodeModel.profile, heard]
    · rw [if_neg fun h => hid (Except.ok.inj h), if_neg hid, Option.or_none]
      rfl

theorem Answers.hears (hw : Wellformed db) (h : Answers db r res db') : Hears db (r, res) db' := by
  cases h with
  | joined => exact hears_of_silent (fun _ => rfl) fun _ => rfl
  | joinTaken => exact hears_of_silent (fun _ => rfl) fun _ => rfl
  | tokenCreated => exact hears_of_silent (fun _ => rfl) fun _ => rfl
  | tokenTaken => exact hears_of_silent (fun _ => rfl) fun _ => rfl
  | register h => exact h.hears hw
  | @beat nodeId req now node t hn ht =>
    intro id
    refine (profileIn_rewritten ht fun _ => rfl).trans ?_
    rw [saidBy]
    split
    · simp only [profileIn, heard, Option.map_map]
      rfl
    · rfl
  | beatUnknown => exact hears_of_silent (fun _ => rfl) fun _ => rfl
  | @deleted nodeId node hn =>
    intro id
    rw [profileIn_deleted, saidBy]
    split <;> rfl
  | deleteUnknown => exact hears_of_silent (fun _ => rfl) fun _ => rfl
  | routeAdded => exact hears_of_silent (fun _ => rfl) fun _ => rfl
  | routeTaken => exact hears_of_silent (fun _ => rfl) fun _ => rfl
  | routeDeleted => exact hears_of_silent (fun _ => rfl) fun _ => rfl
  | config => exact hears_of_silent (fun _ => rfl) fun _ => rfl
  | @renumber ipv4Prefix ipv6Prefix selectOrder flushOrder _ _ h =>
    have hens : (NodeManager.ensureNetwork db).nodes = db.nodes := by
      obtain ⟨t, -, he⟩ := NodeManager.ensureNetwork_frame hw
      rw [he]
    cases h with
    | invalid => exact hears_of_silent (fun _ => rfl) fun _ => rfl
    | noAddress => exact hears_of_silent (fun _ => rfl) fun _ => profileIn_congr hens
    | obstructed => exact hears_of_silent (fun _ => rfl) fun _ => profileIn_congr hens
    | @done used new tn t hv hu hr hf htn ht =>
      refine hears_of_silent (fun _ => rfl) fun _ => ?_
      refine (profileIn_map ht (fun n => ?_) fun n => ?_)
      · rw [Api.renumberRow]
        split <;> rfl
      · rw [Api.renumberRow]
        split <;> rfl

theorem wellformed_served (h : Run ServesAs db log db') (hw : Wellformed db) : Wellformed db' := by
  refine h.invariant hw fun a x b ha hb => ?_
  have hserved := wellformed_serve ha x.1
  rw [hb] at hserved
  exact hserved

theorem wellformed_servesAs (h : Run ServesAs Database.empty log db) : Wellformed db :=
  wellformed_served h wellformed_empty

/-- After any requests the tables have of each node what the node has said in those that were
answered. -/
theorem profileIn_run (h : Run ServesAs Database.empty log db) (id : String) :
    profileIn db id = profileOf (said id log) := by
  induction h with
  | refl => rfl
  | @tail log a x b ha hs ih =>
    have hans := answers (wellformed_servesAs ha) x.1
    rw [hs] at hans
    have hsaid : said id (log ++ [x]) = said id log ++ (saidBy id x).toList := by
      cases hx : saidBy id x <;> simp [said, hx]
    rw [hans.hears (wellformed_servesAs ha) id, ih, hsaid, profileOf, profileOf, List.foldl_append]
    cases saidBy id x <;> rfl

theorem eq_deleteNode_of_saidBy {x : Except Exc Response} (h : saidBy id (r, x) = some .deleted) :
    r = .deleteNode id := by
  unfold saidBy at h
  split at h
  next =>
    split at h
    · cases h
    · cases h
  next =>
    split at h
    · cases h
    · cases h
  next nodeId _ heq =>
    split at h
    next hid => rw [(Prod.mk.inj heq).1, hid]
    next => cases h
  next => cases h

/-- A node stays until a request deletes it. -/
theorem profileIn_serve (hw : Wellformed db) (hr : r ≠ .deleteNode id)
    (h : (profileIn db id).isSome) : (profileIn (serve db r).2 id).isSome := by
  obtain ⟨p, hp⟩ := Option.isSome_iff_exists.mp h
  rw [(answers hw r).hears hw id]
  cases hs : saidBy id (r, (serve db r).1) with
  | none => exact h
  | some s =>
    cases s with
    | registered req now => rfl
    | beat req now =>
      rw [hp]
      rfl
    | deleted => exact absurd (eq_deleteNode_of_saidBy hs) hr

/-- A row other than that of the node that asks is among the peers of its config. -/
theorem find_otherNodes (nodeOrder : RowOrder NodeModel) (id : String) (hw : Wellformed db)
    {targetNode : NodeModel} (hm : targetNode ∈ db.nodes.rows) :
    ((PeerManager.otherNodes nodeOrder db targetNode).find? fun n => n.id = id) =
      if id = targetNode.id then none else db.nodes.find id := by
  split
  next hid =>
    rw [List.find?_eq_none]
    intro n hn
    have hne := (PeerManager.mem_otherNodes.mp hn).2.2
    simpa [hid] using hne
  next hid =>
    have hnodup : ((PeerManager.otherNodes nodeOrder db targetNode).map NodeModel.id).Nodup := by
      refine ((nodeOrder.perm _).map _).nodup_iff.mpr ?_
      exact (List.filter_sublist.map _).nodup db.nodes.keys_nodup
    refine Option.ext fun n => ?_
    rw [Table.find?_key_eq_some_iff hnodup, Table.find_eq_some_iff, PeerManager.mem_otherNodes]
    constructor
    · rintro ⟨⟨hn, -, -⟩, hk⟩
      exact ⟨hn, hk⟩
    · rintro ⟨hn, hk⟩
      have hk' : n.id = id := hk
      refine ⟨⟨hn, ?_, by rw [hk']; exact hid⟩, hk⟩
      rw [hw.members n hn, hw.members targetNode hm]

/-- What a config has of a peer that comes from the peer itself. -/
def told (p : PeerConfig) : String × String × List String := (p.hostname, p.publicKey, p.endpoints)

/-- After any requests the tables have of each node what the node has said of itself in those that
were answered, and every config has it of each of the other nodes. -/
theorem told_eq_said (h : Run ServesAs Database.empty log db) :
    (∀ id, profileIn db id = profileOf (said id log)) ∧
      ∀ (nodeOrder : RowOrder NodeModel) (routeOrder : RowOrder SubnetRoute) nodeId c,
        (PeerManager.buildNetworkConfig nodeOrder routeOrder nodeId).run db = (.ok c, db) →
        ∀ id, (c.peers.find? fun p => p.nodeId = id).map told =
          if id = nodeId then none
          else (profileOf (said id log)).map fun p =>
            (p.hostname, p.wireguardPublicKey, p.endpoints) := by
  refine ⟨profileIn_run h, ?_⟩
  intro nodeOrder routeOrder nodeId c hc id
  obtain ⟨targetNode, hm, rfl, rfl⟩ := exists_target hc
  have hfind := find_otherNodes nodeOrder id (wellformed_servesAs h) hm
  have hpeers : ((PeerManager.otherNodes nodeOrder db targetNode).map
      (PeerManager.peerConfig (PeerManager.enabledRoutes routeOrder db targetNode))).find?
        (fun p => p.nodeId = id) = _ := List.find?_map
  have hpeer : (fun n => decide (n.id = id)) = (fun p : PeerConfig => decide (p.nodeId = id)) ∘
      PeerManager.peerConfig (PeerManager.enabledRoutes routeOrder db targetNode) := rfl
  rw [← profileIn_run h id, profileIn, PeerManager.networkConfig, hpeers, ← hpeer, hfind]
  split
  · rfl
  · rw [Option.map_map, Option.map_map]
    rfl

/-- Requests with their answers. -/
def answerAll (db : Database) : List Request → List (Request × Except Exc Response)
  | [] => []
  | r :: rs => (r, (serve db r).1) :: answerAll (serve db r).2 rs

theorem run_answerAll (db : Database) (rs : List Request) :
    Run ServesAs db (answerAll db rs) (serveAll db rs) := by
  induction rs generalizing db with
  | nil => exact .refl
  | cons r rs ih => exact (Run.single (l := (r, (serve db r).1)) rfl).append (ih (serve db r).2)

/-- A node registers without endpoints, and its heartbeats send one and then none. -/
def talk : List Request :=
  [registerKey "YQ==", registerKey "Yg==",
    .heartbeat secondId { nodeId := secondId, endpoints := ["192.0.2.1:51820"] } 1,
    .heartbeat secondId { nodeId := secondId } 2]

theorem told_eq_said_talk : ∃ c,
    (PeerManager.buildNetworkConfig .stored .stored firstId).run (serveAll .empty talk) =
      (.ok c, serveAll .empty talk) ∧
    (c.peers.find? fun p => p.nodeId = secondId).map told =
      some ("node", "Yg==", ["192.0.2.1:51820"]) := by
  have hbuilt : ∃ c, ((PeerManager.buildNetworkConfig .stored .stored firstId).run
      (serveAll .empty talk)).1 = .ok c ∧ True := by
    decide +kernel
  have hsaid : (if secondId = firstId then none
      else (profileOf (said secondId (answerAll .empty talk))).map fun p =>
        (p.hostname, p.wireguardPublicKey, p.endpoints)) =
      some ("node", "Yg==", ["192.0.2.1:51820"]) := by
    decide +kernel
  obtain ⟨c, hc, -⟩ := hbuilt
  have hrun := PeerManager.run_eq_of_fst hc
  refine ⟨c, hrun, ?_⟩
  rw [(told_eq_said (run_answerAll .empty talk)).2 .stored .stored firstId c hrun secondId, hsaid]

end PyMesh
