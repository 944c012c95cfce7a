import PyMesh.Controller.Sessions

/-! The ways in which a registration that is served alone can end. -/
namespace PyMesh

open FirstFit Relational Resumption

/-- The IPv4 addresses that are held. -/
def heldV4 (db : Database) : List IPv4Address := db.nodes.rows.map NodeModel.meshIpv4

/-- The IPv6 addresses that are held. -/
def heldV6 (db : Database) : List IPv6Address := db.nodes.rows.map NodeModel.meshIpv6

/-- The allocator for the prefixes that the default network records. -/
def recordedPool (db : Database) : Except Exc IPAllocator :=
  IPAllocator.make (recorded db).ipv4Prefix (recorded db).ipv6Prefix

/-- The outcome of a registration and the tables it leaves. -/
inductive Registers (authorization : Option String) (req : NodeRegistrationRequest) (now : Nat)
    (db : Database) : Except Exc Response → Database → Prop
  | refused (ha : Api.accepted authorization db = false) :
      Registers authorization req now db (.error Api.unauthorized) db
  | badKey {e : Exc} (ha : Api.accepted authorization db = true)
      (hk : deriveNodeId req.publicKey = .error e) :
      Registers authorization req now db (.error e) (Api.admitted authorization db)
  | known {id : String} {node : NodeModel} {t : Table NodeModel}
      (ha : Api.accepted authorization db = true) (hk : deriveNodeId req.publicKey = .ok id)
      (hn : db.nodes.find id = some node)
      (ht : t.rows = db.nodes.rows.map fun r =>
        if r.id = id then NodeManager.reregister req now r else r) :
      Registers authorization req now db
        (.ok (.registered (Api.registrationResponse (NodeManager.reregister req now node))))
        { Api.admitted authorization db with nodes := t }
  | noAddress {id : String} {al : IPAllocator} {e : Exc}
      (ha : Api.accepted authorization db = true) (hk : deriveNodeId req.publicKey = .ok id)
      (hn : db.nodes.find id = none) (hal : recordedPool db = .ok al)
      (he : al.allocate (heldV4 db) (heldV6 db) = .error e) :
      Registers authorization req now db (.error e) (Api.admitted authorization db)
  /-- The one constraint that a registration served alone can violate. -/
  | taken {id : String} {al : IPAllocator} {v4 : IPv4Address} {v6 : IPv6Address}
      (ha : Api.accepted authorization db = true) (hk : deriveNodeId req.publicKey = .ok id)
      (hn : db.nodes.find id = none) (hal : recordedPool db = .ok al)
      (hv : al.allocate (heldV4 db) (heldV6 db) = .ok (v4, v6)) (h6 : v6 ∈ heldV6 db) :
      Registers authorization req now db (.error .integrityError) (Api.admitted authorization db)
  | added {id : String} {al : IPAllocator} {v4 : IPv4Address} {v6 : IPv6Address}
      {t : Table NodeModel}
      (ha : Api.accepted authorization db = true) (hk : deriveNodeId req.publicKey = .ok id)
      (hn : db.nodes.find id = none) (hal : recordedPool db = .ok al)
      (hv : al.allocate (heldV4 db) (heldV6 db) = .ok (v4, v6)) (h6 : v6 ∉ heldV6 db)
      (ht : t.rows = db.nodes.rows ++ [NodeManager.newNode req now id "net-pymesh" v4 v6]) :
      Registers authorization req now db
        (.ok (.registered (Api.registrationResponse
          (NodeManager.newNode req now id "net-pymesh" v4 v6))))
        { Api.admitted authorization db with nodes := t }

variable {authorization : Option String} {req : NodeRegistrationRequest} {now : Nat}
  {db db' : Database} {al : IPAllocator} {res : Except Exc Response}

theorem mem_heldV4 {a : IPv4Address} : a ∈ heldV4 db ↔ ∃ n ∈ db.nodes.rows, n.meshIpv4 = a := by
  simp [heldV4]

theorem mem_heldV6 {a : IPv6Address} : a ∈ heldV6 db ↔ ∃ n ∈ db.nodes.rows, n.meshIpv6 = a := by
  simp [heldV6]

/-- What a registration needs to add node `id`: an accepted token, a key that decodes, a new
id, and a free host whose IPv6 address fits into 128 bits. -/
structure CanAdd (authorization : Option String) (req : NodeRegistrationRequest) (db : Database)
    (id : String) (al : IPAllocator) : Prop where
  accepted : Api.accepted authorization db = true
  key : deriveNodeId req.publicKey = .ok id
  fresh : db.nodes.find id = none
  pool : recordedPool db = .ok al
  free : ∃ host ∈ al.eligible, host ∉ heldV4 db ∧ (al.derive6 host).isSome

theorem canAdd_of_allocate {id : String} {v4 : IPv4Address} {v6 : IPv6Address}
    (ha : Api.accepted authorization db = true) (hk : deriveNodeId req.publicKey = .ok id)
    (hn : db.nodes.find id = none) (hal : recordedPool db = .ok al)
    (hv : al.allocate (heldV4 db) (heldV6 db) = .ok (v4, v6)) :
    CanAdd authorization req db id al := by
  obtain ⟨hff, h6⟩ := IPAllocator.allocate_eq_ok_iff.mp hv
  exact ⟨ha, hk, hn, hal, v4, firstFit_mem hff, firstFit_not_held hff, by simp [h6]⟩

/-- A new row under a free id with a free IPv4 address can only clash in its IPv6 address. -/
theorem clash_newNode {id netId : String} {v4 : IPv4Address} {v6 : IPv6Address}
    (hn : db.nodes.find id = none) (h4 : v4 ∉ heldV4 db) {a : NodeModel} (ha : a ∈ db.nodes.rows) :
    Row.Clash a (NodeManager.newNode req now id netId v4 v6) ↔ a.meshIpv6 = v6 := by
  rw [node_clash_iff]
  constructor
  · rintro (h | h | h)
    · exact (Table.find_eq_none_iff.mp hn a ha h).elim
    · exact (h4 (mem_heldV4.mpr ⟨a, ha, h⟩)).elim
    · exact h
  · exact fun h => Or.inr (Or.inr h)

namespace NodeManager

/-- The end of a registration of a node that exists. -/
def rewriteNode (req : NodeRegistrationRequest) (now : Nat) (node : NodeModel) :
    Session NodeModel := do
  commit (Database.updateNode node.id (reregister req now))
  refresh fun db => db.nodes.find node.id

/-- The end of a registration that adds a node. -/
def storeNode (node : NodeModel) : Session NodeModel := do
  commit (Database.insertNode node)
  refresh fun db => db.nodes.find node.id

theorem run_rewriteNode (req : NodeRegistrationRequest) (now : Nat) {id : String}
    {node : NodeModel} (hn : db.nodes.find id = some node) :
    ∃ t : Table NodeModel,
      (t.rows = db.nodes.rows.map fun r => if r.id = id then reregister req now r else r) ∧
      (rewriteNode req now node).run db =
        (.ok (reregister req now node), { db with nodes := t }) := by
  obtain ⟨hm, hk⟩ := Table.find_eq_some_iff.mp hn
  have hid : node.id = id := hk
  obtain ⟨t, ht, hu⟩ := Database.updateNode_ok (f := reregister req now) hn fun _ _ h => h
  have hf : t.find id = some (reregister req now node) := by
    refine Table.find_eq_some_iff.mpr ⟨?_, hk⟩
    rw [ht]
    exact List.mem_map.mpr ⟨node, hm, if_pos hid⟩
  refine ⟨t, ht, ?_⟩
  rw [rewriteNode, hid]
  refine (Prog.run_commit_ok hu _).trans ?_
  simp [refresh, execute, Prog.run_read_bind, hf]

theorem run_storeNode {node : NodeModel} (h : ∀ a ∈ db.nodes.rows, ¬ Row.Clash a node) :
    ∃ t : Table NodeModel, t.rows = db.nodes.rows ++ [node] ∧
      (storeNode node).run db = (.ok node, { db with nodes := t }) := by
  obtain ⟨t, ht, hi⟩ := Database.insertNode_ok h
  have hf : t.find node.id = some node :=
    Table.find_eq_some_iff.mpr ⟨by simp [ht], rfl⟩
  refine ⟨t, ht, (Prog.run_commit_ok hi _).trans ?_⟩
  simp [refresh, execute, Prog.run_read_bind, hf]

theorem run_storeNode_error {node : NodeModel} (h : ∃ a ∈ db.nodes.rows, Row.Clash a node) :
    (storeNode node).run db = (.error .integrityError, db) :=
  Prog.run_commit_error (Database.insertNode_error h) _

theorem existingIps_fst (hw : Wellformed db) :
    (existingIps "net-pymesh" db).map Prod.fst = heldV4 db := by
  rw [existingIps_eq hw, List.map_map]
  rfl

theorem existingIps_snd (hw : Wellformed db) :
    (existingIps "net-pymesh" db).map Prod.snd = heldV6 db := by
  rw [existingIps_eq hw, List.map_map]
  rfl

/-- A registration without its token, from its network on. -/
theorem run_registerNode (hw : Wellformed db) (hal : recordedPool db = .ok al) :
    (registerNode req "pymesh" now).run db =
      match deriveNodeId req.publicKey with
      | .error e => (.error e, ensureNetwork db)
      | .ok id => match db.nodes.find id with
        | some node => (rewriteNode req now node).run (ensureNetwork db)
        | none => match al.allocate (heldV4 db) (heldV6 db) with
          | .error e => (.error e, ensureNetwork db)
          | .ok (v4, v6) =>
            (storeNode (newNode req now id "net-pymesh" v4 v6)).run (ensureNetwork db) := by
  obtain ⟨t, _, he⟩ := ensureNetwork_frame hw
  have hnodes : (ensureNetwork db).nodes = db.nodes := by rw [he]
  have h4 : (existingIps "net-pymesh" (ensureNetwork db)).map Prod.fst = heldV4 db := by
    rw [existingIps_fst (wellformed_ensureNetwork hw), heldV4, hnodes, heldV4]
  have h6 : (existingIps "net-pymesh" (ensureNetwork db)).map Prod.snd = heldV6 db := by
    rw [existingIps_snd (wellformed_ensureNetwork hw), heldV6, hnodes, heldV6]
  rw [registerNode, Prog.run_bind_ok (run_getOrCreateNetwork hw)]
  simp only [execute, Prog.run_read_bind, hw.id, h4, h6]
  rw [recordedPool] at hal
  rw [hal]
  cases deriveNodeId req.publicKey with
  | error e => rfl
  | ok id =>
    simp only [Prog.ofExcept_ok, Prog.ret_bind, Prog.run_read_bind, hnodes]
    cases db.nodes.find id with
    | some node => rfl
    | none =>
      cases al.allocate (heldV4 db) (heldV6 db) with
      | error e => rfl
      | ok v => rfl

end NodeManager

/-- The same after the token, in terms of the tables before the request. -/
theorem run_registerNode_spend (authorization : Option String) (req : NodeRegistrationRequest)
    (now : Nat) (hw : Wellformed db) (hal : recordedPool db = .ok al) :
    (NodeManager.registerNode req "pymesh" now).run (Api.spend authorization db) =
      match deriveNodeId req.publicKey with
      | .error e => (.error e, Api.admitted authorization db)
      | .ok id => match db.nodes.find id with
        | some node => (NodeManager.rewriteNode req now node).run (Api.admitted authorization db)
        | none => match al.allocate (heldV4 db) (heldV6 db) with
          | .error e => (.error e, Api.admitted authorization db)
          | .ok (v4, v6) => (NodeManager.storeNode
              (NodeManager.newNode req now id "net-pymesh" v4 v6)).run
                (Api.admitted authorization db) := by
  have hal' : recordedPool (Api.spend authorization db) = .ok al := by
    rw [recordedPool, Api.recorded_spend]
    exact hal
  rw [NodeManager.run_registerNode (Api.wellformed_spend authorization hw) hal']
  obtain ⟨ts, hs⟩ := Api.spend_frame authorization db
  have hnodes : (Api.spend authorization db).nodes = db.nodes := by rw [hs]
  simp only [heldV4, heldV6, hnodes, Api.admitted]

/-- Every way in which a registration can end that is served alone. -/
theorem registers (hw : Wellformed db) (authorization : Option String)
    (req : NodeRegistrationRequest) (now : Nat) :
    Registers authorization req now db (serve db (.registerNode authorization req now)).1
      (serve db (.registerNode authorization req now)).2 := by
  have hv := Api.run_verifyToken authorization db
  cases ha : Api.accepted authorization db with
  | false =>
    rw [ha] at hv
    rw [serve, Request.session, Api.registerNode, Prog.run_bind_error hv]
    exact .refused ha
  | true =>
    rw [ha] at hv
    obtain ⟨al, hal⟩ := hw.parsed
    have hrun := run_registerNode_spend authorization req now hw hal
    rw [serve, Request.session, Api.registerNode, Prog.run_bind_ok hv, Prog.run_bind, hrun]
    cases hk : deriveNodeId req.publicKey with
    | error e => exact .badKey ha hk
    | ok id =>
      have hnodes := Api.nodes_admitted authorization hw
      cases hn : db.nodes.find id with
      | some node =>
        have hn' : (Api.admitted authorization db).nodes.find id = some node := by rw [hnodes, hn]
        obtain ⟨t, ht, hr⟩ := NodeManager.run_rewriteNode req now hn'
        rw [hnodes] at ht
        simp only [hn, hr]
        exact .known ha hk hn ht
      | none =>
        cases hv : al.allocate (heldV4 db) (heldV6 db) with
        | error e =>
          simp only [hn]
          exact .noAddress ha hk hn hal hv
        | ok v =>
          obtain ⟨v4, v6⟩ := v
          have h4 : v4 ∉ heldV4 db :=
            firstFit_not_held (IPAllocator.allocate_eq_ok_iff.mp hv).1
          by_cases h6 : v6 ∈ heldV6 db
          · obtain ⟨a, hm, hc⟩ := mem_heldV6.mp h6
            have hclash : Row.Clash a (NodeManager.newNode req now id "net-pymesh" v4 v6) :=
              (clash_newNode hn h4 hm).mpr hc
            have ha' : a ∈ (Api.admitted authorization db).nodes.rows := by rwa [hnodes]
            have hr := NodeManager.run_storeNode_error ⟨a, ha', hclash⟩
            simp only [hn, hr]
            exact .taken ha hk hn hal hv h6
          · have hfree : ∀ a ∈ (Api.admitted authorization db).nodes.rows,
                ¬ Row.Clash a (NodeManager.newNode req now id "net-pymesh" v4 v6) := by
              rw [hnodes]
              intro a hm hc
              exact h6 (mem_heldV6.mpr ⟨a, hm, (clash_newNode hn h4 hm).mp hc⟩)
            obtain ⟨t, ht, hr⟩ := NodeManager.run_storeNode hfree
            rw [hnodes] at ht
            simp only [hn, hr]
            exact .added ha hk hn hal hv h6 ht

/-- Once a request has been admitted the network is there. -/
theorem networks_admitted_ne_nil (authorization : Option String) (hw : Wellformed db) :
    (Api.admitted authorization db).networks.rows ≠ [] := by
  obtain ⟨ts, t, ht, hd⟩ := Api.admitted_frame authorization hw
  rw [hd]
  simp [ht]

theorem Registers.wellformed (h : Registers authorization req now db res db')
    (hw : Wellformed db) : Wellformed db' := by
  have hwa := Api.wellformed_admitted authorization hw
  have hne := networks_admitted_ne_nil authorization hw
  cases h with
  | refused => exact hw
  | badKey => exact hwa
  | known ha hk hn ht =>
    refine hwa.with_nodes _ (fun h => (hne h).elim) fun n hm => ?_
    rw [ht] at hm
    obtain ⟨m, hmr, rfl⟩ := List.mem_map.mp hm
    split
    · exact hw.members m hmr
    · exact hw.members m hmr
  | noAddress => exact hwa
  | taken => exact hwa
  | added ha hk hn hal hv h6 ht =>
    refine hwa.with_nodes _ (fun h => (hne h).elim) fun n hm => ?_
    rw [ht] at hm
    rcases List.mem_append.mp hm with hm | hm
    · exact hw.members n hm
    · rw [List.mem_singleton.mp hm]
      rfl

end PyMesh
