import PyMesh.Controller.Api

/-! What the sessions do that run alone, from the states that the endpoints lead to. -/
namespace PyMesh

open FirstFit LTS Relational Resumption

/-- The default network, as the next session finds or creates it. -/
def recorded (db : Database) : Network :=
  (NodeManager.networkNamed "pymesh" db).getD (NodeManager.newNetwork "pymesh")

/-- What holds of the tables between two requests: there is at most the default network,
its prefixes were accepted, and the nodes belong to it. -/
structure Wellformed (db : Database) : Prop where
  networks : db.networks.rows = [] ∨ db.networks.rows = [recorded db]
  id : (recorded db).id = "net-pymesh"
  name : (recorded db).name = "pymesh"
  parsed : ∃ al, IPAllocator.make (recorded db).ipv4Prefix (recorded db).ipv6Prefix = .ok al
  members : ∀ node ∈ db.nodes.rows, node.networkId = "net-pymesh"
  opened : db.networks.rows = [] → db.nodes.rows = []

theorem default_parsed : ∃ al, IPAllocator.make defaultIpv4Prefix defaultIpv6Prefix = .ok al := by
  have h : (IPAllocator.make defaultIpv4Prefix defaultIpv6Prefix).isOk = true := by
    decide +kernel
  cases hm : IPAllocator.make defaultIpv4Prefix defaultIpv6Prefix with
  | ok al => exact ⟨al, rfl⟩
  | error e => rw [hm] at h; cases h

section Recorded

variable {db db' : Database}

theorem recorded_of_nil (h : db.networks.rows = []) :
    recorded db = NodeManager.newNetwork "pymesh" := by
  simp [recorded, NodeManager.networkNamed, h]

theorem recorded_of_singleton {net : Network} (h : db.networks.rows = [net])
    (hn : net.name = "pymesh") : recorded db = net := by
  simp [recorded, NodeManager.networkNamed, h, hn]

theorem recorded_congr (h : db'.networks = db.networks) : recorded db' = recorded db := by
  simp only [recorded, NodeManager.networkNamed, h]

theorem Wellformed.networkNamed_eq (h : Wellformed db) :
    NodeManager.networkNamed "pymesh" db = db.networks.rows.head? := by
  rcases h.networks with hn | hn
  · simp [NodeManager.networkNamed, hn]
  · simp [NodeManager.networkNamed, hn, h.name]

theorem wellformed_empty : Wellformed Database.empty where
  networks := Or.inl rfl
  id := by rw [recorded_of_nil rfl]; decide
  name := by rw [recorded_of_nil rfl]; rfl
  parsed := by
    rw [recorded_of_nil rfl]
    exact default_parsed
  members := by simp [Database.empty]
  opened _ := rfl

/-- The tables that no part of `Wellformed` looks at may change. -/
theorem Wellformed.congr (h : Wellformed db) (hnet : db'.networks = db.networks)
    (hnodes : db'.nodes = db.nodes) : Wellformed db' where
  networks := by rw [hnet, recorded_congr hnet]; exact h.networks
  id := by rw [recorded_congr hnet]; exact h.id
  name := by rw [recorded_congr hnet]; exact h.name
  parsed := by rw [recorded_congr hnet]; exact h.parsed
  members := by rw [hnodes]; exact h.members
  opened := by rw [hnet, hnodes]; exact h.opened

/-- Once the network exists, the nodes may be any that belong to it. -/
theorem Wellformed.with_nodes (h : Wellformed db) (t : Table NodeModel)
    (ho : db.networks.rows = [] → t.rows = [])
    (ht : ∀ node ∈ t.rows, node.networkId = "net-pymesh") :
    Wellformed { db with nodes := t } where
  networks := h.networks
  id := h.id
  name := h.name
  parsed := h.parsed
  members := ht
  opened := ho

end Recorded

namespace NodeManager

/-- The default network after `get_or_create_network`. -/
def ensureNetwork (db : Database) : Database :=
  match networkNamed "pymesh" db with
  | some _ => db
  | none => (db.insertNetwork (newNetwork "pymesh")).toOption.getD db

variable {db : Database}

theorem ensureNetwork_of_nil (h : db.networks.rows = []) :
    ∃ t : Table Network, t.rows = [newNetwork "pymesh"] ∧
      db.insertNetwork (newNetwork "pymesh") = .ok { db with networks := t } ∧
      ensureNetwork db = { db with networks := t } := by
  have hc : ∀ a ∈ db.networks.rows, ¬ Row.Clash a (newNetwork "pymesh") := by simp [h]
  obtain ⟨t, ht, hi⟩ := Database.insertNetwork_ok hc
  refine ⟨t, by simpa [h] using ht, hi, ?_⟩
  simp [ensureNetwork, networkNamed, h, hi, Except.toOption]

/-- A network that exists is left as it is. -/
theorem ensureNetwork_of_singleton (hw : Wellformed db) (h : db.networks.rows = [recorded db]) :
    ensureNetwork db = db := by
  simp [ensureNetwork, hw.networkNamed_eq, h]

theorem ensureNetwork_frame (hw : Wellformed db) :
    ∃ t : Table Network, t.rows = [recorded db] ∧ ensureNetwork db = { db with networks := t } := by
  rcases hw.networks with h | h
  · obtain ⟨t, ht, _, he⟩ := ensureNetwork_of_nil h
    exact ⟨t, by rw [ht, recorded_of_nil h], he⟩
  · exact ⟨db.networks, h, ensureNetwork_of_singleton hw h⟩

theorem recorded_ensureNetwork (hw : Wellformed db) :
    recorded (ensureNetwork db) = recorded db := by
  obtain ⟨t, ht, he⟩ := ensureNetwork_frame hw
  exact recorded_of_singleton (by rw [he]; exact ht) hw.name

theorem wellformed_ensureNetwork (hw : Wellformed db) : Wellformed (ensureNetwork db) := by
  have hr := recorded_ensureNetwork hw
  obtain ⟨t, ht, he⟩ := ensureNetwork_frame hw
  refine ⟨Or.inr ?_, ?_, ?_, ?_, ?_, ?_⟩
  · rw [hr, he]; exact ht
  · rw [hr]; exact hw.id
  · rw [hr]; exact hw.name
  · rw [hr]; exact hw.parsed
  · rw [he]; exact hw.members
  · rw [he]; simp [ht]

theorem run_getOrCreateNetwork (hw : Wellformed db) :
    (getOrCreateNetwork "pymesh").run db = (.ok (recorded db), ensureNetwork db) := by
  rcases hw.networks with h | h
  · obtain ⟨t, ht, hi, he⟩ := ensureNetwork_of_nil h
    have hf : t.find (newNetwork "pymesh").id = some (newNetwork "pymesh") :=
      Table.find_eq_some_iff.mpr ⟨by simp [ht], rfl⟩
    have hnone : networkNamed "pymesh" db = none := by simp [hw.networkNamed_eq, h]
    rw [getOrCreateNetwork, execute, Prog.run_read_bind, hnone, recorded_of_nil h, he]
    refine (Prog.run_commit_ok hi _).trans ?_
    simp [refresh, execute, Prog.run_read_bind, hf]
  · have hsome : networkNamed "pymesh" db = some (recorded db) := by
      simp [hw.networkNamed_eq, h]
    rw [getOrCreateNetwork, execute, Prog.run_read_bind, hsome, ensureNetwork_of_singleton hw h]
    rfl

/-- All nodes belong to the default network, so all their addresses are held in it. -/
theorem existingIps_eq (hw : Wellformed db) :
    existingIps "net-pymesh" db = db.nodes.rows.map fun n => (n.meshIpv4, n.meshIpv6) := by
  have hall : (db.nodes.rows.filter fun n => n.networkId = "net-pymesh") = db.nodes.rows :=
    List.filter_eq_self.mpr fun n hn => by simp [hw.members n hn]
  rw [existingIps, hall]

theorem run_listNodes (hw : Wellformed db) (order : RowOrder NodeModel) :
    (listNodes order (some "net-pymesh")).run db = (.ok (order.arrange db.nodes.rows), db) := by
  have htruthy : truthy (some "net-pymesh") = some "net-pymesh" := truthy_some (by decide)
  have hall : (db.nodes.rows.filter fun n => n.networkId = "net-pymesh") = db.nodes.rows :=
    List.filter_eq_self.mpr fun n hn => by simp [hw.members n hn]
  rw [listNodes, htruthy]
  refine Prod.ext (congrArg (fun l => Except.ok (order.arrange l)) ?_) rfl
  exact hall

end NodeManager

namespace Api

/-- Whether the header carries no token, or one that can still be used. -/
def accepted (authorization : Option String) (db : Database) : Bool :=
  match bearerToken authorization with
  | none => true
  | some tokenStr => (db.authTokens.find tokenStr).any fun t => !AuthManager.exhausted t

/-- The tokens after one more use of the token in the header. -/
def spend (authorization : Option String) (db : Database) : Database :=
  match bearerToken authorization with
  | none => db
  | some tokenStr =>
    (db.updateToken tokenStr fun t => { t with usedCount := t.usedCount + 1 }).toOption.getD db

variable {db db' : Database} {authorization : Option String}

theorem spend_frame (authorization : Option String) (db : Database) :
    ∃ ts, spend authorization db = { db with authTokens := ts } := by
  unfold spend
  cases bearerToken authorization with
  | none => exact ⟨db.authTokens, rfl⟩
  | some tokenStr =>
    cases ht : db.authTokens.find tokenStr with
    | none => exact ⟨db.authTokens, by simp [Database.updateToken, ht, Except.toOption]⟩
    | some t =>
      obtain ⟨ts, _, hu⟩ := Database.updateToken_ok ht
        (f := fun t => { t with usedCount := t.usedCount + 1 }) fun _ => rfl
      exact ⟨ts, by simp [hu, Except.toOption]⟩

/-- The value that `validate_token` writes back is the stored one plus one, when nothing
has come between its SELECT and its commit. -/
theorem updateToken_countUse {tokenStr : String} {t : AuthToken}
    (ht : db.authTokens.find tokenStr = some t) :
    db.updateToken tokenStr (AuthManager.countUse t) =
      db.updateToken tokenStr fun t => { t with usedCount := t.usedCount + 1 } := by
  obtain ⟨hm, hk⟩ := Table.find_eq_some_iff.mp ht
  have hrow : (db.authTokens.rows.map fun r =>
      if Row.key r = tokenStr then AuthManager.countUse t r else r) =
      db.authTokens.rows.map fun r =>
        if Row.key r = tokenStr then { r with usedCount := r.usedCount + 1 } else r := by
    refine List.map_congr_left fun r hr => ?_
    by_cases hrk : Row.key r = tokenStr
    · have he : r = t := Table.eq_of_key hr hm (hrk.trans hk.symm)
      simp [he, AuthManager.countUse]
    · rw [if_neg hrk, if_neg hrk]
  simp only [Database.updateToken, ht, Table.update, hrow]

theorem run_verifyToken (authorization : Option String) (db : Database) :
    (verifyToken authorization).run db =
      if accepted authorization db then (.ok (), spend authorization db)
      else (.error unauthorized, db) := by
  unfold verifyToken accepted spend
  cases bearerToken authorization with
  | none => rfl
  | some tokenStr =>
    cases ht : db.authTokens.find tokenStr with
    | none =>
      simp [AuthManager.validateToken, execute, Prog.bind_assoc, Prog.run_read_bind, ht]
    | some t =>
      cases hx : AuthManager.exhausted t with
      | true =>
        simp [AuthManager.validateToken, execute, Prog.bind_assoc, Prog.run_read_bind, ht, hx]
      | false =>
        obtain ⟨ts, _, hu⟩ := Database.updateToken_ok ht
          (f := fun t => { t with usedCount := t.usedCount + 1 }) fun _ => rfl
        have hc := (updateToken_countUse ht).trans hu
        simp only [AuthManager.validateToken, execute, Prog.bind_assoc, Prog.run_read_bind, ht, hx]
        simp only [Bool.false_eq_true, ↓reduceIte, Prog.pure_eq, Prog.ret_bind, Prog.bind_assoc,
          commit]
        rw [Prog.run_commit_ok hc]
        simp [hu, Except.toOption, hx]

/-- The tables when the token has been checked and the network is there. -/
def admitted (authorization : Option String) (db : Database) : Database :=
  NodeManager.ensureNetwork (spend authorization db)

theorem wellformed_spend (authorization : Option String) (hw : Wellformed db) :
    Wellformed (spend authorization db) := by
  obtain ⟨ts, hs⟩ := spend_frame authorization db
  rw [hs]
  exact hw.congr rfl rfl

theorem recorded_spend : recorded (spend authorization db) = recorded db := by
  obtain ⟨ts, hs⟩ := spend_frame authorization db
  rw [hs]
  exact recorded_congr rfl

theorem wellformed_admitted (authorization : Option String) (hw : Wellformed db) :
    Wellformed (admitted authorization db) :=
  NodeManager.wellformed_ensureNetwork (wellformed_spend authorization hw)

theorem recorded_admitted (hw : Wellformed db) :
    recorded (admitted authorization db) = recorded db :=
  (NodeManager.recorded_ensureNetwork (wellformed_spend authorization hw)).trans recorded_spend

theorem admitted_frame (authorization : Option String) (hw : Wellformed db) :
    ∃ (ts : Table AuthToken) (t : Table Network), t.rows = [recorded db] ∧
      admitted authorization db = { db with authTokens := ts, networks := t } := by
  obtain ⟨ts, hs⟩ := spend_frame authorization db
  obtain ⟨t, ht, he⟩ := NodeManager.ensureNetwork_frame (wellformed_spend authorization hw)
  refine ⟨ts, t, by rw [ht, recorded_spend], ?_⟩
  rw [admitted, he, hs]

theorem nodes_admitted (authorization : Option String) (hw : Wellformed db) :
    (admitted authorization db).nodes = db.nodes := by
  obtain ⟨ts, t, _, hd⟩ := admitted_frame authorization hw
  rw [hd]

end Api

end PyMesh
