import PyMesh.Controller.Closure
import PyMesh.Controller.Failure

/-! The addresses of a node stay as they are until they are renumbered or the node is
deleted. -/
namespace PyMesh

open LTS Relational Resumption

variable {db db' : Database} {id networkName : String} {node : NodeModel} {r : Request}
  {rs : List Request} {v4 : IPv4Address} {v6 : IPv6Address} {req : NodeRegistrationRequest}
  {now : Nat}

/-- The node is there and has these addresses. -/
def HasAddresses (id : String) (v4 : IPv4Address) (v6 : IPv6Address) (db : Database) : Prop :=
  ∃ node, db.nodes.find id = some node ∧ node.meshIpv4 = v4 ∧ node.meshIpv6 = v6

theorem HasAddresses.congr (h : HasAddresses id v4 v6 db) (hn : db'.nodes = db.nodes) :
    HasAddresses id v4 v6 db' := by
  obtain ⟨node, hf, ha⟩ := h
  exact ⟨node, by rw [hn]; exact hf, ha⟩

/-- Rows may be rewritten as long as their ids and addresses stay. -/
theorem HasAddresses.map {t : Table NodeModel} {g : NodeModel → NodeModel}
    (h : HasAddresses id v4 v6 db)
    (hg : ∀ n, (g n).id = n.id ∧ (g n).meshIpv4 = n.meshIpv4 ∧ (g n).meshIpv6 = n.meshIpv6)
    (ht : t.rows = db.nodes.rows.map g) : HasAddresses id v4 v6 { db with nodes := t } := by
  obtain ⟨node, hf, h4, h6⟩ := h
  refine ⟨g node, ?_, ?_, ?_⟩
  · have hmap := Table.find_map ht (fun n => (hg n).1) id
    rw [hf] at hmap
    exact hmap
  · rw [(hg node).2.1, h4]
  · rw [(hg node).2.2, h6]

theorem HasAddresses.registers {authorization : Option String} {res : Except Exc Response}
    (h : HasAddresses id v4 v6 db) (hw : Wellformed db)
    (hr : Registers authorization req now db res db') : HasAddresses id v4 v6 db' := by
  have hnodes := Api.nodes_admitted authorization hw
  cases hr with
  | refused => exact h
  | badKey => exact h.congr hnodes
  | @known key _ t ha hk hn ht =>
    have hd := h.map (g := fun n => if n.id = key then NodeManager.reregister req now n else n)
      (fun n => by split <;> exact ⟨rfl, rfl, rfl⟩) ht
    exact hd.congr rfl
  | noAddress => exact h.congr hnodes
  | taken => exact h.congr hnodes
  | added ha hk hn hal hv h6 ht =>
    obtain ⟨node, hf, haddr⟩ := h
    refine ⟨node, ?_, haddr⟩
    have happ := Table.find_append ht id
    rw [hf] at happ
    exact happ

theorem HasAddresses.deleted {nodeId : String} (h : HasAddresses id v4 v6 db)
    (hne : nodeId ≠ id) :
    HasAddresses id v4 v6 { db with nodes := db.nodes.delete fun n => n.id = nodeId } := by
  obtain ⟨node, hf, haddr⟩ := h
  obtain ⟨hm, hid⟩ := Table.find_eq_some_iff.mp hf
  refine ⟨node, ?_, haddr⟩
  refine Table.find_eq_some_iff.mpr ⟨Table.mem_delete.mpr ⟨hm, ?_⟩, hid⟩
  have hk : node.id = id := hid
  rw [hk]
  simpa using fun h => hne h.symm

/-- The requests that may not touch the addresses of node `id`: all but its own deletion and
a renumbering that goes through. -/
def Spares (id : String) (db : Database) : Request → Prop
  | .deleteNode nodeId => nodeId ≠ id
  | .updateNetworkSubnet ipv4Prefix ipv6Prefix selectOrder flushOrder =>
    (serve db (.updateNetworkSubnet ipv4Prefix ipv6Prefix selectOrder flushOrder)).1.isOk = false
  | _ => True

theorem HasAddresses.serve (h : HasAddresses id v4 v6 db) (hw : Wellformed db)
    (hs : Spares id db r) : HasAddresses id v4 v6 (serve db r).2 := by
  have hans := answers hw r
  generalize hres : (PyMesh.serve db r).1 = res at hans
  generalize (PyMesh.serve db r).2 = db' at hans ⊢
  cases hans with
  | joined => exact h.congr rfl
  | joinTaken => exact h
  | tokenCreated => exact h.congr rfl
  | tokenTaken => exact h
  | register hr => exact h.registers hw hr
  | @beat nodeId req now _ t hn ht =>
    exact h.map (g := fun n => if n.id = nodeId then Api.beat req now n else n)
      (fun n => by split <;> exact ⟨rfl, rfl, rfl⟩) ht
  | beatUnknown => exact h
  | deleted => exact h.deleted hs
  | deleteUnknown => exact h
  | routeAdded => exact h.congr rfl
  | routeTaken => exact h
  | routeDeleted => exact h.congr rfl
  | config => exact h
  | renumber hr =>
    obtain ⟨t, -, he⟩ := NodeManager.ensureNetwork_frame hw
    have hfail : res.isOk = false := by
      rw [← hres]
      exact hs
    cases hr with
    | invalid => exact h
    | noAddress => exact h.congr (by rw [he])
    | obstructed => exact h.congr (by rw [he])
    | done => cases hfail

namespace NodeManager

end NodeManager

/-- The only host of the prefix that can be handed out is held. -/
def exhausted : Database :=
  serveAll .empty [putSubnet "10.0.0.0/30" "fd00::/64", registerKey "YQ=="]

end PyMesh
