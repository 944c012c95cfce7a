import PyMesh.Controller.Numbering
import PyMesh.Controller.Suspended
import Mathlib.Data.Fintype.Option

/-! One `PUT /network/subnet` among registrations. Each of them reads the prefix in one access
and writes what it has made of it in a later one. -/
namespace PyMesh

open LTS Relational Resumption

/-- The IPv4 address of node `id`, if it is stored. -/
def addressOf (db : Database) (id : String) : Option IPv4Address :=
  (db.nodes.find id).map NodeModel.meshIpv4

namespace RenumberRace

/-- Every node is inside the recorded IPv4 prefix. -/
def Inside (db : Database) : Prop := Numbered (fun al v4 _ => v4 ∈ al.ipv4Net) db

/-- An access after which the same prefixes are recorded, and no address has changed or come
in but those in `new`. -/
structure Carries (new : List IPv4Address) (db db' : Database) : Prop where
  wellformed : Wellformed db'
  recorded : recorded db' = recorded db
  networks : db.networks.rows ≠ [] → db'.networks.rows ≠ []
  kept : ∀ id v4, addressOf db id = some v4 → addressOf db' id = some v4
  came : ∀ id v4, addressOf db' id = some v4 → addressOf db id = some v4 ∨ v4 ∈ new

section Access

variable {db db' : Database} {al : IPAllocator} {network : Network} {node : NodeModel}
  {req : NodeRegistrationRequest} {now : Nat} {id : String} {new : List IPv4Address}

theorem inside_iff (hw : Wellformed db) (hal : recordedPool db = .ok al) :
    Inside db ↔ ∀ id v4, addressOf db id = some v4 → v4 ∈ al.ipv4Net := by
  rw [Inside, numbered_iff hw]
  constructor
  · intro h id v4 hv
    obtain ⟨node, hn, rfl⟩ := Option.map_eq_some_iff.mp hv
    exact h al hal node (Table.find_eq_some_iff.mp hn).1
  · intro h al' hal' node hm
    rw [hal] at hal'
    obtain rfl := Except.ok.inj hal'
    have hn : db.nodes.find node.id = some node := Table.find_eq_some_iff.mpr ⟨hm, rfl⟩
    exact h node.id node.meshIpv4 (by simp [addressOf, hn])

theorem Carries.inside (h : Carries new db db') (hw : Wellformed db) (hi : Inside db)
    (hal : recordedPool db = .ok al) (hnew : ∀ v4 ∈ new, v4 ∈ al.ipv4Net) : Inside db' := by
  have hal' : recordedPool db' = .ok al := by rw [recordedPool, h.recorded]; exact hal
  refine (inside_iff h.wellformed hal').mpr fun id v4 hv => ?_
  rcases h.came id v4 hv with hv | hv
  · exact (inside_iff hw hal).mp hi id v4 hv
  · exact hnew v4 hv

theorem Carries.refl (hw : Wellformed db) : Carries new db db :=
  ⟨hw, rfl, fun h => h, fun _ _ h => h, fun _ _ h => Or.inl h⟩

/-- The nodes are not touched. -/
theorem carries_of_nodes (hw : Wellformed db') (hr : recorded db' = recorded db)
    (hnet : db.networks.rows ≠ [] → db'.networks.rows ≠ []) (hn : db'.nodes = db.nodes) :
    Carries new db db' := by
  have ha : addressOf db' = addressOf db := by
    funext id
    simp only [addressOf, hn]
  exact ⟨hw, hr, hnet, fun id v4 h => ha ▸ h, fun id v4 h => Or.inl (ha ▸ h)⟩

/-- The network row can only be created when it is missing. -/
theorem carries_createNetwork (hw : Wellformed db)
    (h : db.insertNetwork (NodeManager.newNetwork "pymesh") = .ok db') : Carries new db db' := by
  rcases hw.networks with hn | hn
  · obtain ⟨t, ht, hi, he⟩ := NodeManager.ensureNetwork_of_nil hn
    obtain rfl : { db with networks := t } = db' := Except.ok.inj (hi.symm.trans h)
    rw [← he]
    refine carries_of_nodes (NodeManager.wellformed_ensureNetwork hw)
      (NodeManager.recorded_ensureNetwork hw) (fun _ => by simp [he, ht]) (by rw [he])
  · have hclash : ∃ a ∈ db.networks.rows, Row.Clash a (NodeManager.newNetwork "pymesh") :=
      ⟨recorded db, by simp [hn], Or.inr hw.name⟩
    rw [Database.insertNetwork_error hclash] at h
    cases h

theorem carries_updateToken {tokenStr : String} {r : AuthToken} (hw : Wellformed db)
    (h : db.updateToken tokenStr (AuthManager.countUse r) = .ok db') : Carries new db db' := by
  cases hf : db.authTokens.find tokenStr with
  | none => simp [Database.updateToken, hf] at h
  | some t =>
    obtain ⟨ts, -, hu⟩ := Database.updateToken_ok hf (f := AuthManager.countUse r) fun _ => rfl
    obtain rfl : { db with authTokens := ts } = db' := Except.ok.inj (hu.symm.trans h)
    exact carries_of_nodes (hw.congr rfl rfl) (recorded_congr rfl) (fun h => h) rfl

theorem carries_updateNode (hw : Wellformed db)
    (h : db.updateNode id (NodeManager.reregister req now) = .ok db') : Carries new db db' := by
  cases hf : db.nodes.find id with
  | none => simp [Database.updateNode, hf] at h
  | some node =>
    obtain ⟨t, ht, hu⟩ :=
      Database.updateNode_ok (f := NodeManager.reregister req now) hf fun _ _ h => h
    obtain rfl : { db with nodes := t } = db' := Except.ok.inj (hu.symm.trans h)
    have hfind := Table.find_map (t := db.nodes) ht fun r => by split <;> rfl
    have ha : addressOf { db with nodes := t } = addressOf db := by
      funext x
      simp only [addressOf, hfind, Option.map_map]
      congr 1
      funext r
      simp only [Function.comp]
      split <;> rfl
    refine ⟨hw.with_nodes t (fun hn => by simp [ht, hw.opened hn]) fun n hm => ?_,
      recorded_congr rfl, fun h => h, fun id v4 h => ha ▸ h, fun id v4 h => Or.inl (ha ▸ h)⟩
    obtain ⟨m, hmr, rfl⟩ := List.mem_map.mp (ht ▸ hm)
    split
    · exact hw.members m hmr
    · exact hw.members m hmr

theorem carries_insertNode (hw : Wellformed db) (hnet : db.networks.rows ≠ [])
    (hid : node.networkId = "net-pymesh") (h : db.insertNode node = .ok db') :
    Carries [node.meshIpv4] db db' := by
  by_cases hc : ∃ a ∈ db.nodes.rows, Row.Clash a node
  · rw [Database.insertNode_error hc] at h
    cases h
  · obtain ⟨t, ht, hi⟩ := Database.insertNode_ok fun a ha hca => hc ⟨a, ha, hca⟩
    obtain rfl : { db with nodes := t } = db' := Except.ok.inj (hi.symm.trans h)
    have hfind := Table.find_append ht
    refine ⟨hw.with_nodes t (fun hn => (hnet hn).elim) fun n hm => ?_, recorded_congr rfl,
      fun h => h, fun x v4 hx => ?_, fun x v4 hx => ?_⟩
    · rcases List.mem_append.mp (ht ▸ hm) with hm | hm
      · exact hw.members n hm
      · rw [List.mem_singleton.mp hm]
        exact hid
    · obtain ⟨row, hrow, rfl⟩ := Option.map_eq_some_iff.mp hx
      simp [addressOf, hfind, hrow]
    · simp only [addressOf, hfind] at hx
      cases hrow : db.nodes.find x with
      | some row => exact Or.inl (by simpa [addressOf, hrow] using hx)
      | none =>
        right
        rw [hrow, Option.none_or] at hx
        split at hx
        · simpa [eq_comm] using hx
        · cases hx

theorem network_of_mem (hw : Wellformed db) (h : network ∈ db.networks.rows) :
    db.networks.rows ≠ [] ∧ network = recorded db := by
  rcases hw.networks with hn | hn
  · simp [hn] at h
  · exact ⟨by simp [hn], by simpa [hn] using h⟩

end Access

section Registration

variable {db db' : Database} {f : Registering}

/-- The address that a registration is about to insert. -/
def adds (f : Registering) : List IPv4Address :=
  match f.point with
  | .insertNode _ node => [node.meshIpv4]
  | _ => []

/-- What a registration has read of the network. -/
def Ready (db : Database) (f : Registering) : Prop :=
  match f.point with
  | .selectIps network => db.networks.rows ≠ [] ∧ network.id = "net-pymesh"
  | .selectNode network _ _ _ => db.networks.rows ≠ [] ∧ network.id = "net-pymesh"
  | .insertNode _ node => db.networks.rows ≠ [] ∧ node.networkId = "net-pymesh"
  | _ => True

theorem Ready.mono (h : Ready db f) (hn : db.networks.rows ≠ [] → db'.networks.rows ≠ []) :
    Ready db' f := by
  obtain ⟨req, now, point⟩ := f
  cases point with
  | selectIps => exact ⟨hn h.1, h.2⟩
  | selectNode => exact ⟨hn h.1, h.2⟩
  | insertNode => exact ⟨hn h.1, h.2⟩
  | _ => trivial

theorem ready_nextPoint (hw : Wellformed db) (h : Ready db f) :
    Ready db { f with point := f.nextPoint db } := by
  have hnet : ∀ network ∈ db.networks.rows, db.networks.rows ≠ [] ∧ network.id = "net-pymesh" := by
    intro network hm
    obtain ⟨hne, rfl⟩ := network_of_mem hw hm
    exact ⟨hne, hw.id⟩
  obtain ⟨req, now, point⟩ := f
  cases point with
  | selectNetwork =>
    cases hn : NodeManager.networkNamed "pymesh" db with
    | none => simp only [Registering.nextPoint, hn, Ready]
    | some network =>
      simp only [Registering.nextPoint, hn, Ready]
      exact hnet network (List.mem_of_find?_eq_some hn)
  | refreshNetwork =>
    cases hn : db.networks.find (NodeManager.newNetwork "pymesh").id with
    | none => simp only [Registering.nextPoint, hn, Ready]
    | some network =>
      simp only [Registering.nextPoint, hn, Ready]
      exact hnet network (Table.find_eq_some_iff.mp hn).1
  | selectIps network =>
    simp only [Registering.nextPoint]
    cases IPAllocator.make network.ipv4Prefix network.ipv6Prefix with
    | error e => trivial
    | ok allocator =>
      cases deriveNodeId req.publicKey with
      | error e => trivial
      | ok nodeId => exact h
  | selectNode network existing allocator nodeId =>
    simp only [Registering.nextPoint]
    cases db.nodes.find nodeId with
    | some node => trivial
    | none =>
      cases allocator.allocate (existing.map Prod.fst) (existing.map Prod.snd) with
      | error e => trivial
      | ok v => exact h
  | selectToken tokenStr =>
    simp only [Registering.nextPoint]
    cases db.authTokens.find tokenStr with
    | none => trivial
    | some t => cases hx : AuthManager.exhausted t <;> simp [hx, Ready]
  | refreshNode nodeId =>
    simp only [Registering.nextPoint]
    cases db.nodes.find nodeId <;> trivial
  | _ => trivial

/-- One access of a registration, whether it raises or not. -/
theorem register_access (hw : Wellformed db) (h : Ready db f) :
    Carries (adds f) db (registration.upd f db) ∧
      Ready (registration.upd f db) (registration.next f db) := by
  cases hf : registration.flush f db with
  | error e =>
    rw [Frames.upd_error hf, Frames.next_error hf]
    exact ⟨.refl hw, trivial⟩
  | ok db' =>
    rw [Frames.upd_ok hf, Frames.next_ok hf]
    have hc : Carries (adds f) db db' := by
      change Registering.flush f db = .ok db' at hf
      obtain ⟨req, now, point⟩ := f
      cases point with
      | countUse tokenStr tokenObj => exact carries_updateToken hw hf
      | createNetwork => exact carries_createNetwork hw hf
      | updateNode node => exact carries_updateNode hw hf
      | insertNode existing node => exact carries_insertNode hw h.1 h.2 hf
      | _ =>
        obtain rfl : db = db' := Except.ok.inj hf
        exact .refl hw
    exact ⟨hc, (ready_nextPoint hw h).mono hc.networks⟩

end Registration

section Renumbering

variable {db db' : Database} {f : Renumbering}

/-- What the renumbering has read: the network row, and the addresses of the nodes. -/
def Listed (db : Database) (f : Renumbering) : Prop :=
  match f.point with
  | .selectNodes network => db.networks.rows ≠ [] ∧ network = recorded db
  | .commitSubnet network nodes new => db.networks.rows ≠ [] ∧ network = recorded db ∧
    (nodes.map NodeModel.id).Nodup ∧ (∀ a ∈ nodes, addressOf db a.id = some a.meshIpv4) ∧
      ∃ used, usedPool f.ipv4Prefix f.ipv6Prefix = .ok used ∧
        Api.reallocate used nodes [] [] = .ok new
  | _ => True

theorem Listed.of_carries {new : List IPv4Address} (h : Listed db f) (hc : Carries new db db') :
    Listed db' f := by
  obtain ⟨ipv4Prefix, ipv6Prefix, selectOrder, flushOrder, point⟩ := f
  cases point with
  | selectNodes network => exact ⟨hc.networks h.1, h.2.trans hc.recorded.symm⟩
  | commitSubnet network nodes new =>
    obtain ⟨hn, hnet, hids, haddr, hnew⟩ := h
    exact ⟨hc.networks hn, hnet.trans hc.recorded.symm, hids,
      fun a ha => hc.kept _ _ (haddr a ha), hnew⟩
  | _ => trivial

theorem listed_eq (hw : Wellformed db) (f : Renumbering) :
    f.listed (recorded db) db = f.selectOrder.arrange db.nodes.rows := by
  have hrun := NodeManager.run_listNodes hw f.selectOrder
  rw [← hw.id] at hrun
  exact Except.ok.inj (Prod.mk.inj hrun).1

theorem listed_nextPoint (hw : Wellformed db) (h : Listed db f) :
    Listed db { f with point := f.nextPoint db } := by
  obtain ⟨ipv4Prefix, ipv6Prefix, selectOrder, flushOrder, point⟩ := f
  cases point with
  | selectNetwork =>
    cases hn : NodeManager.networkNamed "pymesh" db with
    | none => simp only [Renumbering.nextPoint, hn, Listed]
    | some network =>
      simp only [Renumbering.nextPoint, hn, Listed]
      exact network_of_mem hw (List.mem_of_find?_eq_some hn)
  | refreshNetwork =>
    cases hn : db.networks.find (NodeManager.newNetwork "pymesh").id with
    | none => simp only [Renumbering.nextPoint, hn, Listed]
    | some network =>
      simp only [Renumbering.nextPoint, hn, Listed]
      exact network_of_mem hw (Table.find_eq_some_iff.mp hn).1
  | selectNodes network =>
    obtain ⟨hne, rfl⟩ := h
    simp only [Renumbering.nextPoint, listed_eq hw]
    cases hu : usedPool ipv4Prefix ipv6Prefix with
    | error e => trivial
    | ok used =>
      cases hr : Api.reallocate used (selectOrder.arrange db.nodes.rows) [] [] with
      | error e => simp only [hr, Listed]
      | ok new =>
        simp only [hr, Listed]
        refine ⟨hne, trivial, ?_, fun a ha => ?_, used, hu, hr⟩
        · exact (((selectOrder.perm _).map NodeModel.id).nodup_iff).mpr db.nodes.keys_nodup
        · have hn : db.nodes.find a.id = some a :=
            Table.find_eq_some_iff.mpr ⟨selectOrder.mem.mp ha, rfl⟩
          simp [addressOf, hn]
  | commitSubnet network nodes new => trivial
  | _ => trivial

/-- What the flush writes to the rows that have come in since the nodes were read: nothing. -/
theorem flushSubnet_ok {ipv4Prefix : String} {ipv6Prefix : Option String}
    {new : List (NodeModel × IPv4Address × IPv6Address)} {order : RowOrder NodeModel}
    (hnet : db.networks.rows = [recorded db]) (hids : (new.map fun x => x.1.id).Nodup)
    (h : Api.flushSubnet (recorded db) ipv4Prefix ipv6Prefix new order db = .ok db') :
    ∃ (tn : Table Network) (t : Table NodeModel),
      tn.rows = [renumbered ipv4Prefix ipv6Prefix (recorded db)] ∧
      t.rows = db.nodes.rows.map (Api.renumberRow new) ∧
      db' = { db with networks := tn, nodes := t } := by
  obtain ⟨tn, htn, hflush⟩ := exists_flushNetwork ipv4Prefix ipv6Prefix hnet
  have hperm := order.perm (new.map Prod.fst)
  have hnodup : ((order.arrange (new.map Prod.fst)).map NodeModel.id).Nodup := by
    refine ((hperm.map NodeModel.id).nodup_iff).mpr ?_
    rwa [List.map_map]
  rw [hflush, Database.updateNodes] at h
  split at h
  · obtain ⟨t, hu, rfl⟩ := checked_map_eq_ok h
    refine ⟨tn, t, htn, ?_, rfl⟩
    rw [Table.updateEach_rows (Api.renumberRow_id new) hnodup hu]
    refine List.map_congr_left fun r _ => ?_
    rw [Table.touch]
    split
    · rfl
    · rename_i hr
      refine (Api.renumberRow_of_notMem fun hm => hr ?_).symm
      obtain ⟨x, hx, hxr⟩ := List.mem_map.mp hm
      have hx' : x.1 ∈ order.arrange (new.map Prod.fst) :=
        hperm.mem_iff.mpr (List.mem_map_of_mem hx)
      exact List.mem_map.mpr ⟨x.1, hx', hxr⟩
  · cases h

/-- A row that has kept its address since it was read gets one of the new prefix. -/
theorem renumberRow_inside {used : IPAllocator} {nodes : List NodeModel}
    {new : List (NodeModel × IPv4Address × IPv6Address)} {row : NodeModel}
    (hr : Api.reallocate used nodes [] [] = .ok new) (hm : row.id ∈ nodes.map NodeModel.id)
    (haddr : ∀ a ∈ nodes, a.id = row.id → row.meshIpv4 = a.meshIpv4) :
    (Api.renumberRow new row).meshIpv4 ∈ used.ipv4Net := by
  cases hf : new.find? fun x => x.1.id = row.id with
  | none =>
    rw [← Api.new_ids hr] at hm
    obtain ⟨x, hx, hxr⟩ := List.mem_map.mp hm
    have hne := List.find?_eq_none.mp hf x hx
    simp [hxr] at hne
  | some x =>
    obtain ⟨a, v4, v6⟩ := x
    have hx := List.mem_of_find?_eq_some hf
    have hid : a.id = row.id := by simpa using List.find?_some hf
    have ha : a ∈ nodes := by
      rw [← Api.new_fst hr]
      exact List.mem_map_of_mem hx
    have hv : v4 ∈ used.ipv4Net := by
      obtain ⟨hpl, -⟩ := Api.mem_places_of_mem_new hr hx
      exact IPAllocator.eligible_mem_net (List.mem_of_mem_take (Api.mem_take_of_places hpl))
    have heq : (Api.renumberRow new row).meshIpv4 = v4 := by
      simp only [Api.renumberRow, hf, haddr a ha hid]
      split
      · rename_i h
        exact h.symm
      · rfl
    rwa [heq]

/-- The rows that have come in since the renumbering read the nodes. -/
def missed (db : Database) (f : Renumbering) : List NodeModel :=
  match f.point with
  | .commitSubnet _ nodes _ =>
    db.nodes.rows.filter fun row => decide (row.id ∉ nodes.map NodeModel.id)
  | _ => []

/-- The commit of the renumbering, when what it has missed is in the new prefix already. -/
theorem inside_commitSubnet {nodes : List NodeModel} {used : IPAllocator}
    {new : List (NodeModel × IPv4Address × IPv6Address)} (hw : Wellformed db)
    (hnet : db.networks.rows ≠ []) (hids : (nodes.map NodeModel.id).Nodup)
    (haddr : ∀ a ∈ nodes, addressOf db a.id = some a.meshIpv4)
    (hu : usedPool f.ipv4Prefix f.ipv6Prefix = .ok used)
    (hr : Api.reallocate used nodes [] [] = .ok new)
    (hmissed : ∀ row ∈ db.nodes.rows, row.id ∉ nodes.map NodeModel.id →
      row.meshIpv4 ∈ used.ipv4Net)
    (h : Api.flushSubnet (recorded db) f.ipv4Prefix f.ipv6Prefix new f.flushOrder db = .ok db') :
    Wellformed db' ∧ Inside db' ∧ db'.networks.rows ≠ [] := by
  have hnets := hw.networks.resolve_left hnet
  obtain ⟨tn, t, htn, ht, rfl⟩ := flushSubnet_ok hnets (by rwa [Api.new_ids hr]) h
  obtain ⟨al, hal⟩ := hw.parsed
  have hrec := recorded_renumbered (t := t) hw htn
  have hpool := make_renumbered hu hal
  rw [← hrec] at hpool
  have hw' := wellformed_renumbered hw hu htn ht
  refine ⟨hw', (numbered_iff hw').mpr fun al' hal' node hm => ?_, by simp [htn]⟩
  rw [recordedPool, hpool] at hal'
  obtain rfl := Except.ok.inj hal'
  obtain ⟨row, hrow, rfl⟩ := List.mem_map.mp (ht ▸ hm)
  change (Api.renumberRow new row).meshIpv4 ∈ used.ipv4Net
  by_cases hmem : row.id ∈ nodes.map NodeModel.id
  · refine renumberRow_inside hr hmem fun a ha hid => ?_
    have hfind : db.nodes.find row.id = some row := Table.find_eq_some_iff.mpr ⟨hrow, rfl⟩
    have h4 := haddr a ha
    rw [hid, addressOf, hfind] at h4
    exact Option.some.inj h4
  · rw [Api.renumberRow_of_notMem (by rwa [Api.new_ids hr])]
    exact hmissed row hrow hmem

/-- One access of the renumbering, whether it raises or not. -/
theorem renumber_access (hw : Wellformed db) (hi : Inside db) (h : Listed db f)
    (hmissed : ∀ row ∈ missed db f, ∀ used, usedPool f.ipv4Prefix f.ipv6Prefix = .ok used →
      row.meshIpv4 ∈ used.ipv4Net) :
    Wellformed (renumbering.upd f db) ∧ Inside (renumbering.upd f db) ∧
      (db.networks.rows ≠ [] → (renumbering.upd f db).networks.rows ≠ []) ∧
      Listed (renumbering.upd f db) (renumbering.next f db) := by
  cases hf : renumbering.flush f db with
  | error e =>
    rw [Frames.upd_error hf, Frames.next_error hf]
    exact ⟨hw, hi, fun h => h, trivial⟩
  | ok db' =>
    rw [Frames.upd_ok hf, Frames.next_ok hf]
    have hnext := listed_nextPoint hw h
    obtain ⟨ipv4Prefix, ipv6Prefix, selectOrder, flushOrder, point⟩ := f
    cases point with
    | createNetwork =>
      obtain ⟨al, hal⟩ := hw.parsed
      have hc : Carries [] db db' := carries_createNetwork hw hf
      exact ⟨hc.wellformed, hc.inside hw hi hal (by simp), hc.networks, hnext.of_carries hc⟩
    | commitSubnet network nodes new =>
      obtain ⟨hnet, rfl, hids, haddr, used, hu, hr⟩ := h
      obtain ⟨hw', hi', hn'⟩ := inside_commitSubnet hw hnet hids haddr hu hr
        (fun row hm hid => hmissed row
          (List.mem_filter.mpr ⟨hm, decide_eq_true hid⟩) used hu) hf
      exact ⟨hw', hi', fun _ => hn', trivial⟩
    | _ =>
      obtain rfl : db = db' := Except.ok.inj hf
      exact ⟨hw, hi, fun h => h, hnext⟩

end Renumbering

section Race

variable {ι : Type} [DecidableEq ι] {c d : Pool (registration.sum renumbering) (Option ι)}
  {i : Option ι} {ls : List (Option ι)}

/-- The address about to be inserted is in the prefix that is recorded now, and the rows that
the renumbering has missed are in the one that it is about to record. -/
def Uncrossed (c : Pool (registration.sum renumbering) (Option ι)) (i : Option ι) : Prop :=
  match c.frame i with
  | .inl f => ∀ v4 ∈ adds f, ∀ al, recordedPool c.shared = .ok al → v4 ∈ al.ipv4Net
  | .inr g => ∀ row ∈ missed c.shared g, ∀ used,
    usedPool g.ipv4Prefix g.ipv6Prefix = .ok used → row.meshIpv4 ∈ used.ipv4Net

/-- All requests have been sent: the renumbering under `none`, the registrations under the
other names. -/
def sent (auth : ι → Option String) (req : ι → NodeRegistrationRequest) (now : ι → Nat)
    (put : Renumbering) (db : Database) : Pool (registration.sum renumbering) (Option ι) where
  shared := db
  frame
    | some i => .inl (Registering.start (auth i) (req i) (now i))
    | none => .inr put

structure Running (c : Pool (registration.sum renumbering) (Option ι)) : Prop where
  wellformed : Wellformed c.shared
  inside : Inside c.shared
  registrations : ∀ i, ∃ f, c.frame (some i) = .inl f ∧ Ready c.shared f
  put : ∃ g, c.frame none = .inr g ∧ Listed c.shared g

theorem running_step (hc : Running c) (h : Guarded Pool.Step Uncrossed c i d) : Running d := by
  obtain ⟨hu, hs⟩ := h
  have hshared := hs.shared
  have hself := hs.frame_self
  cases i with
  | some i =>
    obtain ⟨f, hf, hready⟩ := hc.registrations i
    rw [hf] at hshared hself
    rw [Uncrossed, hf] at hu
    rw [Frames.sum_upd_inl] at hshared
    rw [Frames.sum_next_inl] at hself
    obtain ⟨hcarry, hnext⟩ := register_access hc.wellformed hready
    obtain ⟨al, hal⟩ := hc.wellformed.parsed
    rw [← hshared] at hcarry hnext
    refine ⟨hcarry.wellformed, hcarry.inside hc.wellformed hc.inside hal
      fun v4 hv => hu v4 hv al hal, fun j => ?_, ?_⟩
    · by_cases hj : j = i
      · subst j
        exact ⟨_, hself, hnext⟩
      · obtain ⟨g, hg, hgr⟩ := hc.registrations j
        rw [hs.frame_of_ne (by simpa using hj)]
        exact ⟨g, hg, hgr.mono hcarry.networks⟩
    · obtain ⟨g, hg, hgl⟩ := hc.put
      rw [hs.frame_of_ne (by simp)]
      exact ⟨g, hg, hgl.of_carries hcarry⟩
  | none =>
    obtain ⟨g, hg, hlisted⟩ := hc.put
    rw [hg] at hshared hself
    rw [Uncrossed, hg] at hu
    rw [Frames.sum_upd_inr] at hshared
    rw [Frames.sum_next_inr] at hself
    obtain ⟨hw, hi, hn, hnext⟩ := renumber_access hc.wellformed hc.inside hlisted hu
    rw [← hshared] at hw hi hn hnext
    refine ⟨hw, hi, fun j => ?_, _, hself, hnext⟩
    obtain ⟨f, hf, hfr⟩ := hc.registrations j
    rw [hs.frame_of_ne (by simp)]
    exact ⟨f, hf, hfr.mono hn⟩

/-- One renumbering among any registrations: in every interleaving in which they do not cross,
every node is inside the recorded IPv4 prefix. -/
theorem renumbering_leaves_none {auth : ι → Option String} {req : ι → NodeRegistrationRequest}
    {now : ι → Nat} {ipv4Prefix : String} {ipv6Prefix : Option String}
    {selectOrder flushOrder : RowOrder NodeModel} {db₀ : Database} (h₀ : Reachable db₀)
    (h : Run (Guarded Pool.Step Uncrossed) (sent auth req now
      (Renumbering.start ipv4Prefix ipv6Prefix selectOrder flushOrder) db₀) ls c) :
    Numbered (fun al v4 _ => v4 ∈ al.ipv4Net) c.shared := by
  have hstart : Running (sent auth req now
      (Renumbering.start ipv4Prefix ipv6Prefix selectOrder flushOrder) db₀) := by
    obtain ⟨rs, hrs⟩ := h₀
    refine ⟨wellformed_run hrs, ipv4_inside hrs, fun i => ⟨_, rfl, ?_⟩, _, rfl, ?_⟩
    · simp only [Registering.start, Ready]
      cases Api.bearerToken (auth i) <;> trivial
    · simp only [Renumbering.start, Listed]
      cases IPAllocator.validateCidr ipv4Prefix ipv6Prefix <;> trivial
  exact (h.invariant hstart fun _ _ _ => running_step).inside

instance (c : Pool (registration.sum renumbering) (Option ι)) (i : Option ι) :
    Decidable (Uncrossed c i) :=
  match h : c.frame i with
  | .inl f => decidable_of_iff (∀ v4 ∈ adds f, ∀ al, recordedPool c.shared = .ok al →
      v4 ∈ al.ipv4Net) (by simp only [Uncrossed, h])
  | .inr g => decidable_of_iff (∀ row ∈ missed c.shared g, ∀ used,
      usedPool g.ipv4Prefix g.ipv6Prefix = .ok used → row.meshIpv4 ∈ used.ipv4Net)
      (by simp only [Uncrossed, h])

end Race

/-- A registration and a renumbering to another prefix, from tables with a small network. -/
def bothSent : Pool (registration.sum renumbering) (Option Unit) :=
  sent (fun _ => none) (fun _ => { hostname := "node", publicKey := "YQ==" }) (fun _ => 0)
    (.start "10.1.0.0/29" (some "fd01::/64") .stored .stored)
    (serveAll .empty [putSubnet "10.0.0.0/29" "fd00::/64"])

/-- Two registrations and the renumbering. -/
def threeSent : Pool (registration.sum renumbering) (Option (Fin 2)) :=
  sent (fun _ => none)
    (fun i => { hostname := "node", publicKey := if i.val = 0 then "Yg==" else "YQ==" })
    (fun _ => 0)
    (.start "10.1.0.0/29" (some "fd01::/64") .stored .stored)
    (serveAll .empty [putSubnet "10.0.0.0/29" "fd00::/64"])

/-- The registrations read while each other and the renumbering are on their way, and store their
nodes before it lists them. -/
theorem renumbering_leaves_none_interleaved : ∃ c,
    Run (Guarded Pool.Step Uncrossed) threeSent
      [some 0, some 1, some 0, none, some 0, some 0, some 1, some 0, some 1, some 1, none, some 1,
        none] c ∧
    (∀ i, ((registration.sum renumbering).result (c.frame i)).isSome) ∧
    (c.shared.nodes.rows.map fun n => IPv4Address.str n.meshIpv4) = ["10.1.0.2", "10.1.0.3"] ∧
    Numbered (fun al v4 _ => v4 ∈ al.ipv4Net) c.shared := by
  obtain ⟨c, hc, hp⟩ := Pool.exists_run_of_play (G := Uncrossed) (c := threeSent)
    (P := fun c => (∀ i, ((registration.sum renumbering).result (c.frame i)).isSome) ∧
      (c.shared.nodes.rows.map fun n => IPv4Address.str n.meshIpv4) = ["10.1.0.2", "10.1.0.3"])
    (l := [some 0, some 1, some 0, none, some 0, some 0, some 1, some 0, some 1, some 1, none,
      some 1, none]) (by decide +kernel)
  exact ⟨c, hc, hp.1, hp.2, renumbering_leaves_none ⟨_, run_serves_iff.mpr rfl⟩ hc⟩

/-- The whole renumbering between the reads and the commit of a registration. -/
theorem renumbering_leaves_none_fails : ∃ c,
    Run Pool.Step bothSent [some (), some (), some (), none, none, none, some (), some ()] c ∧
    (∀ i, ((registration.sum renumbering).result (c.frame i)).isSome) ∧
    ¬ Numbered (fun al v4 _ => v4 ∈ al.ipv4Net) c.shared := by
  obtain ⟨c, hc, hp⟩ := Pool.exists_run_of_play (G := fun _ _ => True) (c := bothSent)
    (P := fun c => (∀ i, ((registration.sum renumbering).result (c.frame i)).isSome) ∧
      ¬ Numbered (fun al v4 _ => v4 ∈ al.ipv4Net) c.shared)
    (l := [some (), some (), some (), none, none, none, some (), some ()]) (by decide +kernel)
  exact ⟨c, hc.of_guarded, hp⟩

end RenumberRace

end PyMesh
