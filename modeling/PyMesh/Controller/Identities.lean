import PyMesh.Controller.Closure

/-! Ids, keys and networks after any sequence of requests and of registrations in networks of
any name. -/
namespace PyMesh

open LTS Relational Resumption

/-- What holds of the tables whatever the networks are called. -/
structure Sound (db : Database) : Prop where
  keyed : ∀ n ∈ db.nodes.rows, deriveNodeId n.wireguardPublicKey = .ok n.id
  named : ∀ net ∈ db.networks.rows, net.id = "net-" ++ net.name
  parsed : ∀ net ∈ db.networks.rows, ∃ al,
    IPAllocator.make net.ipv4Prefix net.ipv6Prefix = .ok al

/-- What an access does to sound tables. -/
def KeepsSound (db db' : Database) : Prop := Sound db → Sound db'

variable {db db' : Database} {id networkName : String} {now : Nat}
  {req : NodeRegistrationRequest} {ipv4Prefix : String} {ipv6Prefix : Option String}

theorem sound_empty : Sound Database.empty where
  keyed := by simp [Database.empty]
  named := by simp [Database.empty]
  parsed := by simp [Database.empty]

theorem Sound.congr (h : Sound db) (hnet : db'.networks = db.networks)
    (hnodes : db'.nodes = db.nodes) : Sound db' where
  keyed := by rw [hnodes]; exact h.keyed
  named := by rw [hnet]; exact h.named
  parsed := by rw [hnet]; exact h.parsed

/-- Prefixes that were accepted parse, also where a row keeps one of those it had. -/
theorem exists_make_recordPrefixes {net read : Network}
    (hv : IPAllocator.validateCidr ipv4Prefix ipv6Prefix = true)
    (hnet : ∃ al, IPAllocator.make net.ipv4Prefix net.ipv6Prefix = .ok al) :
    ∃ al, IPAllocator.make (Api.recordPrefixes read ipv4Prefix ipv6Prefix net).ipv4Prefix
      (Api.recordPrefixes read ipv4Prefix ipv6Prefix net).ipv6Prefix = .ok al := by
  obtain ⟨al, hal⟩ := hnet
  obtain ⟨used, hused⟩ := exists_usedPool hv
  obtain ⟨h4, h6⟩ := IPAllocator.make_eq_ok_iff.mp hal
  obtain ⟨hu4, hu6⟩ := IPAllocator.make_eq_ok_iff.mp hused
  have hnet4 : ∃ n, IPv4Network.parse
      (Api.recordPrefixes read ipv4Prefix ipv6Prefix net).ipv4Prefix = some n := by
    dsimp only [Api.recordPrefixes]
    split
    · exact ⟨_, h4⟩
    · exact ⟨_, hu4⟩
  have hnet6 : ∃ n, IPv6Network.parse
      (Api.recordPrefixes read ipv4Prefix ipv6Prefix net).ipv6Prefix = some n := by
    dsimp only [Api.recordPrefixes]
    split
    · exact ⟨_, h6⟩
    · rename_i hne
      cases ht : truthy ipv6Prefix with
      | none =>
        rw [ht] at hne
        exact (hne rfl).elim
      | some cidr =>
        rw [ht] at hu6
        exact ⟨_, hu6⟩
  obtain ⟨n4, hn4⟩ := hnet4
  obtain ⟨n6, hn6⟩ := hnet6
  exact ⟨⟨n4, n6⟩, IPAllocator.make_eq_ok_iff.mpr ⟨hn4, hn6⟩⟩

namespace KeepsSound

theorem refl (db : Database) : KeepsSound db db := fun h => h

theorem insertNetwork (h : db.insertNetwork (NodeManager.newNetwork networkName) = .ok db') :
    KeepsSound db db' := by
  obtain ⟨t, ht, rfl⟩ := checked_map_eq_ok h
  intro hs
  exact ⟨hs.keyed, Table.forall_insert hs.named rfl ht,
    Table.forall_insert hs.parsed default_parsed ht⟩

theorem insertNode {node : NodeModel} (hk : deriveNodeId node.wireguardPublicKey = .ok node.id)
    (h : db.insertNode node = .ok db') : KeepsSound db db' := by
  obtain ⟨t, ht, rfl⟩ := checked_map_eq_ok h
  intro hs
  exact ⟨Table.forall_insert hs.keyed hk ht, hs.named, hs.parsed⟩

/-- The key of a row may be overwritten with another spelling of it. -/
theorem updateNode {f : NodeModel → NodeModel}
    (hf : ∀ n, deriveNodeId n.wireguardPublicKey = .ok n.id → n.id = id →
      deriveNodeId (f n).wireguardPublicKey = .ok (f n).id)
    (h : db.updateNode id f = .ok db') : KeepsSound db db' := by
  unfold Database.updateNode at h
  split at h
  · cases h
  · obtain ⟨t, ht, rfl⟩ := checked_map_eq_ok h
    intro hs
    exact ⟨Table.forall_update hs.keyed hf ht, hs.named, hs.parsed⟩

theorem updateNodes {ids : List String} {new : List (NodeModel × IPv4Address × IPv6Address)}
    (h : db.updateNodes ids (Api.renumberRow new) = .ok db') : KeepsSound db db' := by
  unfold Database.updateNodes at h
  split at h
  · obtain ⟨t, ht, rfl⟩ := checked_map_eq_ok h
    intro hs
    refine ⟨Table.forall_updateEach hs.keyed (fun n hn => ?_) ht, hs.named, hs.parsed⟩
    rw [Api.renumberRow_id]
    unfold Api.renumberRow
    split
    · exact hn
    · exact hn
  · cases h

theorem flushSubnet {network : Network} {order : RowOrder NodeModel}
    {new : List (NodeModel × IPv4Address × IPv6Address)}
    (hv : IPAllocator.validateCidr ipv4Prefix ipv6Prefix = true)
    (h : Api.flushSubnet network ipv4Prefix ipv6Prefix new order db = .ok db') :
    KeepsSound db db' := by
  unfold Api.flushSubnet at h
  cases hu : db.updateNetwork network.id (Api.recordPrefixes network ipv4Prefix ipv6Prefix) with
  | error e =>
    rw [hu] at h
    cases h
  | ok db₁ =>
    rw [hu] at h
    intro hs
    refine updateNodes h ?_
    unfold Database.updateNetwork at hu
    split at hu
    · cases hu
    · obtain ⟨t, ht, rfl⟩ := checked_map_eq_ok hu
      refine ⟨hs.keyed, Table.forall_update hs.named (fun net hn _ => ?_) ht,
        Table.forall_update hs.parsed (fun net hn _ => ?_) ht⟩
      · exact hn
      · exact exists_make_recordPrefixes hv hn

end KeepsSound

section Sessions

theorem moves_refresh {α : Type} (query : Database → Option α) :
    (refresh query).Moves KeepsSound := by
  refine Prog.Moves.bind (Prog.moves_read _ KeepsSound.refl) ?_
  intro found
  cases found with
  | some row => trivial
  | none => trivial

theorem moves_getOrCreateNetwork (networkName : String) :
    (NodeManager.getOrCreateNetwork networkName).Moves KeepsSound := by
  refine Prog.Moves.bind (Prog.moves_read _ KeepsSound.refl) ?_
  intro found
  cases found with
  | some net => trivial
  | none =>
    refine Prog.Moves.bind (Prog.moves_commit KeepsSound.refl ?_) fun _ => moves_refresh _
    intro db db' h
    exact KeepsSound.insertNetwork h

/-- The id that is looked up is that of the key which the row then gets. -/
theorem moves_registerNode (req : NodeRegistrationRequest) (networkName : String) (now : Nat) :
    (NodeManager.registerNode req networkName now).Moves KeepsSound := by
  refine Prog.Moves.bind (moves_getOrCreateNetwork networkName) ?_
  intro network
  refine Prog.Moves.bind (Prog.moves_read _ KeepsSound.refl) ?_
  intro existing
  refine Prog.moves_ofExcept_bind ?_
  intro allocator _
  refine Prog.moves_ofExcept_bind ?_
  intro nodeId hk
  refine Prog.moves_read_bind KeepsSound.refl ?_
  intro db
  cases hn : db.nodes.find nodeId with
  | some existingNode =>
    have hid : existingNode.id = nodeId := (Table.find_eq_some_iff.mp hn).2
    refine Prog.Moves.bind (Prog.moves_commit KeepsSound.refl ?_) fun _ => moves_refresh _
    intro db db' h
    refine KeepsSound.updateNode (fun n _ hni => ?_) h
    exact hk.trans (by rw [← hid, ← hni]; rfl)
  | none =>
    refine Prog.moves_ofExcept_bind ?_
    intro v _
    refine Prog.Moves.bind (Prog.moves_commit KeepsSound.refl ?_) fun _ => moves_refresh _
    intro db db' h
    exact KeepsSound.insertNode hk h

theorem moves_createToken (tokenStr networkId description : String) (maxUses : Option Int) :
    (AuthManager.createToken tokenStr networkId description maxUses).Moves KeepsSound := by
  refine Prog.Moves.bind (Prog.moves_commit KeepsSound.refl ?_) fun _ => trivial
  intro db db' h hs
  obtain ⟨t, _, rfl⟩ := checked_map_eq_ok h
  exact hs.congr rfl rfl

theorem moves_verifyToken (authorization : Option String) :
    (Api.verifyToken authorization).Moves KeepsSound := by
  unfold Api.verifyToken
  cases Api.bearerToken authorization with
  | none => trivial
  | some tokenStr =>
    refine Prog.Moves.bind (Prog.Moves.bind (Prog.moves_read _ KeepsSound.refl) ?_) ?_
    · intro found
      cases found with
      | none => trivial
      | some tokenObj =>
        cases hx : AuthManager.exhausted tokenObj with
        | true =>
          simp only [hx, if_true]
          trivial
        | false =>
          simp only [hx, Bool.false_eq_true, if_false]
          refine Prog.Moves.bind (Prog.moves_commit KeepsSound.refl ?_) fun _ => trivial
          intro db db' h hs
          unfold Database.updateToken at h
          split at h
          · cases h
          · obtain ⟨t, _, rfl⟩ := checked_map_eq_ok h
            exact hs.congr rfl rfl
    · intro valid
      cases valid with
      | true => trivial
      | false => trivial

theorem moves_heartbeat (nodeId : String) (req : HeartbeatRequest) (now : Nat) :
    (Api.heartbeat nodeId req now).Moves KeepsSound := by
  refine Prog.Moves.bind (Prog.moves_read _ KeepsSound.refl) ?_
  intro found
  cases found with
  | none => trivial
  | some node =>
    refine Prog.Moves.bind (Prog.moves_commit KeepsSound.refl ?_) fun _ => trivial
    intro db db' h
    exact KeepsSound.updateNode (f := Api.beat req now) (fun n hn _ => hn) h

theorem moves_deleteNode (nodeId : String) : (Api.deleteNode nodeId).Moves KeepsSound := by
  refine Prog.Moves.bind (Prog.moves_read _ KeepsSound.refl) ?_
  intro rowcount
  refine Prog.Moves.bind (Prog.moves_commit KeepsSound.refl ?_) ?_
  · intro db db' h hs
    cases h
    exact ⟨fun n hn => hs.keyed n (Table.mem_delete.mp hn).1, hs.named, hs.parsed⟩
  · intro _
    dsimp only
    split
    · trivial
    · trivial

theorem moves_getNetworkConfig (nodeOrder : RowOrder NodeModel)
    (routeOrder : RowOrder SubnetRoute) (nodeId : String) :
    (Api.getNetworkConfig nodeOrder routeOrder nodeId).Moves KeepsSound := by
  refine Prog.Moves.handle (Prog.Moves.bind ?_ fun _ => trivial) fun e => by cases e <;> trivial
  refine Prog.Moves.bind (Prog.moves_read _ KeepsSound.refl) ?_
  intro found
  cases found with
  | none => trivial
  | some targetNode =>
    refine Prog.Moves.bind (Prog.moves_read _ KeepsSound.refl) fun _ => ?_
    exact Prog.Moves.bind (Prog.moves_read _ KeepsSound.refl) fun _ => trivial

theorem moves_updateNetworkSubnet (ipv4Prefix : String) (ipv6Prefix : Option String)
    (selectOrder flushOrder : RowOrder NodeModel) :
    (Api.updateNetworkSubnet ipv4Prefix ipv6Prefix selectOrder flushOrder).Moves KeepsSound := by
  unfold Api.updateNetworkSubnet
  cases hv : IPAllocator.validateCidr ipv4Prefix ipv6Prefix with
  | false => trivial
  | true =>
    refine Prog.Moves.bind (moves_getOrCreateNetwork "pymesh") ?_
    intro network
    refine Prog.Moves.bind (Prog.moves_read _ KeepsSound.refl) ?_
    intro nodes
    refine Prog.moves_ofExcept_bind ?_
    intro allocator _
    refine Prog.moves_ofExcept_bind ?_
    intro new _
    refine Prog.Moves.bind (Prog.moves_commit KeepsSound.refl ?_) fun _ => trivial
    intro db db' h
    exact KeepsSound.flushSubnet hv h

/-- Every access of every endpoint, alone or in between those of others. -/
theorem moves_session (r : Request) : r.session.Moves KeepsSound := by
  cases r with
  | join tokenStr description =>
    exact Prog.Moves.bind (moves_createToken _ _ _ _) fun _ => trivial
  | createToken tokenStr networkId description maxUses =>
    exact Prog.Moves.bind (moves_createToken _ _ _ _) fun _ => trivial
  | registerNode authorization req now =>
    refine Prog.Moves.bind (moves_verifyToken authorization) fun _ => ?_
    exact Prog.Moves.bind (moves_registerNode req "pymesh" now) fun _ => trivial
  | heartbeat nodeId req now => exact moves_heartbeat nodeId req now
  | deleteNode nodeId => exact moves_deleteNode nodeId
  | addRoute route uuid =>
    refine Prog.Moves.bind (Prog.moves_commit KeepsSound.refl ?_) fun _ => trivial
    intro db db' h hs
    obtain ⟨t, _, rfl⟩ := checked_map_eq_ok h
    exact hs.congr rfl rfl
  | deleteRoute routeId =>
    refine Prog.Moves.bind (Prog.moves_commit KeepsSound.refl ?_) fun _ => trivial
    intro db db' h hs
    cases h
    exact hs.congr rfl rfl
  | networkConfig nodeOrder routeOrder nodeId => exact moves_getNetworkConfig _ _ _
  | updateNetworkSubnet ipv4Prefix ipv6Prefix selectOrder flushOrder =>
    exact moves_updateNetworkSubnet _ _ _ _

end Sessions

/-- A request to an endpoint, or a registration in a network that the caller names. -/
inductive Served where
  | request (r : Request)
  | register (req : NodeRegistrationRequest) (networkName : String) (now : Nat)

/-- The tables after it. -/
def Served.after (db : Database) : Served → Database
  | .request r => (serve db r).2
  | .register req networkName now => ((NodeManager.registerNode req networkName now).run db).2

/-- One after the other, in any order. -/
def ServesNamed (db : Database) (c : Served) (db' : Database) : Prop := db' = c.after db

/-- The databases that such sequences lead to. -/
def ReachableNamed (db : Database) : Prop := ∃ cs, Run ServesNamed Database.empty cs db

theorem Reachable.named (h : Reachable db) : ReachableNamed db := by
  obtain ⟨rs, hr⟩ := h
  refine ⟨rs.map .request, ?_⟩
  induction hr with
  | refl => exact .refl
  | tail _ hs ih =>
    rw [List.map_append]
    exact .tail ih hs

theorem Sound.after (hs : Sound db) (c : Served) : Sound (c.after db) := by
  cases c with
  | request r => exact (moves_session r).run hs
  | register req networkName now => exact (moves_registerNode req networkName now).run hs

theorem sound_reachable (h : ReachableNamed db) : Sound db := by
  obtain ⟨cs, hr⟩ := h
  refine hr.invariant sound_empty ?_
  intro a c b ha hb
  rw [hb]
  exact ha.after c

/-- Two nodes never have the same key, however it is spelled. -/
theorem Sound.eq_of_decoded (hs : Sound db) {a b : NodeModel} (ha : a ∈ db.nodes.rows)
    (hb : b ∈ db.nodes.rows)
    (h : Base64.b64decode a.wireguardPublicKey = Base64.b64decode b.wireguardPublicKey) :
    a = b := by
  have hid : (Except.ok a.id : Except Exc String) = .ok b.id := by
    rw [← hs.keyed a ha, ← hs.keyed b hb, deriveNodeId_congr h]
  exact Table.eq_of_key ha hb (Except.ok.inj hid)

/-- The peers of a config have different keys, none of which is the key of the node that asks,
whichever spellings the keys were registered under. -/
theorem keys_distinct (h : ReachableNamed db) :
    (∀ n ∈ db.nodes.rows, deriveNodeId n.wireguardPublicKey = .ok n.id) ∧
    (∀ a ∈ db.nodes.rows, ∀ b ∈ db.nodes.rows,
      Base64.b64decode a.wireguardPublicKey = Base64.b64decode b.wireguardPublicKey → a = b) ∧
    ∀ nodeOrder routeOrder nodeId c,
      (PeerManager.buildNetworkConfig nodeOrder routeOrder nodeId).run db = (.ok c, db) →
      ∃ targetNode ∈ db.nodes.rows, targetNode.id = nodeId ∧
        (∀ p ∈ c.peers, ∃ pubBytes, Base64.b64decode p.publicKey = .ok pubBytes ∧
          Base64.b64decode targetNode.wireguardPublicKey ≠ .ok pubBytes) ∧
        (c.peers.map fun p => Base64.b64decode p.publicKey).Nodup := by
  have hs := sound_reachable h
  refine ⟨hs.keyed, fun a ha b hb => hs.eq_of_decoded ha hb, ?_⟩
  intro nodeOrder routeOrder nodeId c hc
  obtain ⟨targetNode, hm, hid, rfl⟩ := exists_target hc
  refine ⟨targetNode, hm, hid, ?_, ?_⟩
  · intro p hp
    obtain ⟨n, hn, rfl⟩ := List.mem_map.mp hp
    obtain ⟨hnm, -, hne⟩ := PeerManager.mem_otherNodes.mp hn
    obtain ⟨pubBytes, hd⟩ := exists_decoded (hs.keyed n hnm)
    refine ⟨pubBytes, hd, fun ht => hne ?_⟩
    rw [hs.eq_of_decoded hnm hm (hd.trans ht.symm)]
  · have hnodup : (PeerManager.otherNodes nodeOrder db targetNode).Nodup := by
      refine (nodeOrder.perm _).nodup_iff.mpr ?_
      exact db.nodes.rows_nodup.filter _
    rw [PeerManager.networkConfig, List.map_map]
    refine hnodup.map_on ?_
    intro a ha b hb hab
    exact hs.eq_of_decoded (PeerManager.mem_otherNodes.mp ha).1
      (PeerManager.mem_otherNodes.mp hb).1 hab

/-- The second key is registered again under a spelling with a blank in it. -/
def respelled : Database :=
  serveAll .empty [registerKey "YQ==", registerKey "Yg==", registerKey "Y g=="]

theorem keys_distinct_respelled :
    (∃ n ∈ respelled.nodes.rows, n.wireguardPublicKey = "Y g==" ∧ n.id = secondId) ∧
    ∃ c, (PeerManager.buildNetworkConfig .stored .stored firstId).run respelled =
        (.ok c, respelled) ∧ c.peers.length = 1 ∧
      ∃ targetNode ∈ respelled.nodes.rows, targetNode.id = firstId ∧
        (∀ p ∈ c.peers, ∃ pubBytes, Base64.b64decode p.publicKey = .ok pubBytes ∧
          Base64.b64decode targetNode.wireguardPublicKey ≠ .ok pubBytes) ∧
        (c.peers.map fun p => Base64.b64decode p.publicKey).Nodup := by
  have hr : ReachableNamed respelled := Reachable.named ⟨_, run_serves_iff.mpr rfl⟩
  have heval : (∃ n ∈ respelled.nodes.rows, n.wireguardPublicKey = "Y g==" ∧ n.id = secondId) ∧
      ∃ c, ((PeerManager.buildNetworkConfig .stored .stored firstId).run respelled).1 = .ok c ∧
        c.peers.length = 1 := by
    decide +kernel
  obtain ⟨hspelled, c, hc, hlen⟩ := heval
  have hrun := PeerManager.run_eq_of_fst hc
  exact ⟨hspelled, c, hrun, hlen, (keys_distinct hr).2.2 _ _ _ c hrun⟩

end PyMesh
