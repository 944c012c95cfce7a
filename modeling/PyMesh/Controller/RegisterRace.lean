import PyMesh.Controller.Reachable
import PyMesh.Controller.Suspended
import Mathlib.Data.Fintype.Card

/-! Concurrent registrations of different nodes. A registration chooses its address from one
read and inserts it later, and it looks for the network row before it creates it. -/
namespace PyMesh

open FirstFit LTS Relational Resumption

/-- The hosts that can still be handed out, in ascending order. -/
def freeHosts (al : IPAllocator) (db : Database) : List IPv4Address :=
  free al.eligible (heldV4 db)

/-- There are `n` free hosts, and the IPv6 addresses of the first `n` are free as well. -/
def Enough (n : Nat) (db : Database) : Prop :=
  ∀ al, recordedPool db = .ok al → n ≤ (freeHosts al db).length ∧
    ∀ host ∈ (freeHosts al db).take n, ∃ v6 ∈ al.derive6 host, v6 ∉ heldV6 db

instance (n : Nat) (db : Database) : Decidable (Enough n db) :=
  inferInstanceAs (Decidable (∀ al, recordedPool db = .ok al → n ≤ (freeHosts al db).length ∧
    ∀ host ∈ (freeHosts al db).take n, ∃ v6 ∈ al.derive6 host, v6 ∉ heldV6 db))

/-- What an access for node `id` does to the tables, as far as the other sessions and the
next access of its own look at them. -/
structure Extends (id : String) (db db' : Database) : Prop where
  recorded : recorded db' = recorded db
  networks : db.networks.rows ≠ [] → db'.networks.rows ≠ []
  tokens : ∀ t, (db.authTokens.find t).isSome → (db'.authTokens.find t).isSome
  nodes : ∀ x, (db.nodes.find x).isSome → (db'.nodes.find x).isSome
  others : ∀ x, x ≠ id → db'.nodes.find x = db.nodes.find x

section Extends

variable {db : Database} {id tokenStr : String} {node : NodeModel} {t : AuthToken}

theorem Extends.refl (id : String) (db : Database) : Extends id db db :=
  ⟨rfl, fun h => h, fun _ h => h, fun _ h => h, fun _ _ => rfl⟩

/-- The commit of a token use. -/
theorem extends_countUse (id : String) (ht : db.authTokens.find tokenStr = some t) (r : AuthToken) :
    ∃ ts, db.updateToken tokenStr (AuthManager.countUse r) = .ok { db with authTokens := ts } ∧
      Extends id db { db with authTokens := ts } := by
  obtain ⟨ts, hts, hu⟩ := Database.updateToken_ok ht (f := AuthManager.countUse r) fun _ => rfl
  refine ⟨ts, hu, recorded_congr rfl, fun h => h, fun x hx => ?_, fun _ h => h, fun _ _ => rfl⟩
  have hfind := Table.find_map (t := db.authTokens) hts (fun r => by split <;> rfl) x
  simp [hfind, hx]

/-- The commit of the network row, when it is missing. -/
theorem extends_createNetwork (id : String) (hn : db.networks.rows = []) :
    ∃ ts, db.insertNetwork (NodeManager.newNetwork "pymesh") = .ok { db with networks := ts } ∧
      NodeManager.ensureNetwork db = { db with networks := ts } ∧
      ts.rows ≠ [] ∧ Extends id db { db with networks := ts } := by
  obtain ⟨ts, hts, hi, he⟩ := NodeManager.ensureNetwork_of_nil hn
  refine ⟨ts, hi, he, by simp [hts], ?_, fun _ => ?_, fun _ h => h, fun _ h => h, fun _ _ => rfl⟩
  · rw [recorded_of_nil hn]
    exact recorded_of_singleton hts rfl
  · simp [hts]

/-- The commit of a node that registers again. -/
theorem extends_updateNode (req : NodeRegistrationRequest) (now : Nat)
    (hn : db.nodes.find id = some node) :
    ∃ ts, db.updateNode id (NodeManager.reregister req now) = .ok { db with nodes := ts } ∧
      Extends id db { db with nodes := ts } ∧
      ts.find id = some (NodeManager.reregister req now node) ∧
      heldV4 { db with nodes := ts } = heldV4 db ∧ heldV6 { db with nodes := ts } = heldV6 db ∧
      (∀ n ∈ ts.rows, ∃ m ∈ db.nodes.rows, n.networkId = m.networkId) := by
  obtain ⟨ts, hts, hu⟩ :=
    Database.updateNode_ok (f := NodeManager.reregister req now) hn fun _ _ h => h
  have hfind := Table.find_map (t := db.nodes) hts fun r => by split <;> rfl
  have hid : node.id = id := (Table.find_eq_some_iff.mp hn).2
  refine ⟨ts, hu, ⟨recorded_congr rfl, fun h => h, fun _ h => h, fun x hx => ?_, fun x hx => ?_⟩,
    ?_, ?_, ?_, ?_⟩
  · simp [hfind, hx]
  · cases hx' : db.nodes.find x with
    | none => simp [hfind, hx']
    | some m =>
      have hm : m.id = x := (Table.find_eq_some_iff.mp hx').2
      simp [hfind, hx', hm, hx]
  · simp [hfind, hn, hid]
  · simp only [heldV4, hts, List.map_map]
    exact List.map_congr_left fun r _ => by simp only [Function.comp]; split <;> rfl
  · simp only [heldV6, hts, List.map_map]
    exact List.map_congr_left fun r _ => by simp only [Function.comp]; split <;> rfl
  · intro n hm
    rw [hts] at hm
    obtain ⟨m, hmr, rfl⟩ := List.mem_map.mp hm
    exact ⟨m, hmr, by split <;> rfl⟩

/-- The commit of a node with a new id and new addresses. -/
theorem extends_insertNode (h : ∀ a ∈ db.nodes.rows, ¬ Row.Clash a node) :
    ∃ ts : Table NodeModel, db.insertNode node = .ok { db with nodes := ts } ∧
      ts.rows = db.nodes.rows ++ [node] ∧ Extends node.id db { db with nodes := ts } ∧
      ts.find node.id = some node := by
  obtain ⟨ts, hts, hi⟩ := Database.insertNode_ok h
  have hfind := Table.find_append hts
  refine ⟨ts, hi, hts, ⟨recorded_congr rfl, fun h => h, fun _ h => h, fun x hx => ?_,
    fun x hx => ?_⟩, Table.find_eq_some_iff.mpr ⟨by simp [hts], rfl⟩⟩
  · simp [hfind, hx]
  · simp [hfind, Ne.symm hx]

end Extends

namespace RegisterRace

section Tables

variable {ι : Type} [Fintype ι] (nodeId : ι → String) (db₀ : Database)

/-- The sessions whose node is not there at the start. -/
def newcomers : Finset ι := Finset.univ.filter fun i => db₀.nodes.find (nodeId i) = none

/-- The sessions that have added their node. -/
def added (db : Database) : Finset ι :=
  (newcomers nodeId db₀).filter fun i => (db.nodes.find (nodeId i)).isSome

/-- The tables during the race: the hosts have been handed out in ascending order. -/
structure Tables (al : IPAllocator) (db : Database) : Prop where
  wellformed : Wellformed db
  recorded : recorded db = recorded db₀
  nodes : ∀ x, (db₀.nodes.find x).isSome → (db.nodes.find x).isSome
  v4 : heldV4 db = heldV4 db₀ ++ (freeHosts al db₀).take (added nodeId db₀ db).card
  v6 : ∀ a ∈ heldV6 db, a ∈ heldV6 db₀ ∨
    ∃ host ∈ (freeHosts al db₀).take (added nodeId db₀ db).card, al.derive6 host = some a

/-- What is known about the tables at each point of the registration of node `id`. -/
def At (al : IPAllocator) (id : String) (db : Database) (f : Registering) : Prop :=
  match f.point with
  | .selectToken _ => True
  | .countUse tokenStr _ => (db.authTokens.find tokenStr).isSome
  | .selectNetwork => True
  | .createNetwork => True
  | .refreshNetwork => db.networks.rows ≠ []
  | .selectIps network => db.networks.rows ≠ [] ∧ network = PyMesh.recorded db
  | .selectNode network existing allocator nodeId' =>
    db.networks.rows ≠ [] ∧ network = PyMesh.recorded db ∧ allocator = al ∧ nodeId' = id ∧
      ∃ k ≤ (added nodeId db₀ db).card,
        existing.map Prod.fst = heldV4 db₀ ++ (freeHosts al db₀).take k
  | .updateNode node => node.id = id ∧ (db.nodes.find id).isSome
  | .insertNode existing node => db.networks.rows ≠ [] ∧ db.nodes.find id = none ∧
    ∃ v4 v6, al.allocate (existing.map Prod.fst) (existing.map Prod.snd) = .ok (v4, v6) ∧
      node = NodeManager.newNode f.req f.now id "net-pymesh" v4 v6
  | .refreshNode nodeId' => nodeId' = id ∧
    ∃ node, db.nodes.find id = some node ∧ NodeManager.reregister f.req f.now node = node
  | .done res => ∃ node, db.nodes.find id = some node ∧
    NodeManager.reregister f.req f.now node = node ∧
    res = .ok (.registered (Api.registrationResponse node))

/-- The token is good, nobody has created the network row since this session looked for it,
and nobody has changed the held addresses since this session read them. -/
def Undisturbed (db : Database) : RegisterPoint → Prop
  | .selectToken tokenStr => ∃ t ∈ db.authTokens.find tokenStr, AuthManager.exhausted t = false
  | .createNetwork => db.networks.rows = []
  | .insertNode existing _ => existing = NodeManager.existingIps "net-pymesh" db
  | _ => True

instance (db : Database) : ∀ p, Decidable (Undisturbed db p)
  | .selectToken tokenStr => inferInstanceAs
    (Decidable (∃ t ∈ db.authTokens.find tokenStr, AuthManager.exhausted t = false))
  | .createNetwork => inferInstanceAs (Decidable (db.networks.rows = []))
  | .insertNode existing _ => inferInstanceAs
    (Decidable (existing = NodeManager.existingIps "net-pymesh" db))
  | .countUse _ _ | .selectNetwork | .refreshNetwork | .selectIps _ | .selectNode _ _ _ _
  | .updateNode _ | .refreshNode _ | .done _ => isTrue trivial

variable {nodeId db₀} {al : IPAllocator} {db db' : Database} {id : String} {f : Registering}
  {i : ι}

theorem tables_start (hw : Wellformed db₀) : Tables nodeId db₀ al db₀ := by
  have hnone : added nodeId db₀ db₀ = ∅ := by
    simp only [added, newcomers, Finset.filter_filter, Finset.filter_eq_empty_iff]
    rintro i - ⟨hn, hs⟩
    simp [hn] at hs
  exact ⟨hw, rfl, fun _ h => h, by simp [hnone], fun a ha => Or.inl ha⟩

theorem added_mono (h : Extends id db db') : added nodeId db₀ db ⊆ added nodeId db₀ db' := by
  intro i hi
  obtain ⟨hn, hs⟩ := Finset.mem_filter.mp hi
  exact Finset.mem_filter.mpr ⟨hn, h.nodes _ hs⟩

/-- As long as no node is added, the held addresses and the sessions that have added one stay
the same. -/
theorem Tables.of_extends (h : Tables nodeId db₀ al db) (he : Extends id db db')
    (hw : Wellformed db') (hid : (db.nodes.find id).isSome ∨ db'.nodes = db.nodes)
    (h4 : heldV4 db' = heldV4 db) (h6 : heldV6 db' = heldV6 db) : Tables nodeId db₀ al db' := by
  have hadded : added nodeId db₀ db' = added nodeId db₀ db := by
    refine Finset.Subset.antisymm (fun i hi => ?_) (added_mono he)
    obtain ⟨hn, hs⟩ := Finset.mem_filter.mp hi
    refine Finset.mem_filter.mpr ⟨hn, ?_⟩
    rcases hid with hid | hid
    · by_cases hx : nodeId i = id
      · rwa [hx]
      · rwa [← he.others _ hx]
    · rwa [← hid]
  refine ⟨hw, he.recorded.trans h.recorded, fun x hx => he.nodes x (h.nodes x hx), ?_, ?_⟩
  · rw [h4, hadded]
    exact h.v4
  · rw [h6, hadded]
    exact h.v6

/-- What a session knows stays true when another one moves. -/
theorem At.stable {id' : String} (h : At nodeId db₀ al id db f) (he : Extends id' db db')
    (hne : id ≠ id') : At nodeId db₀ al id db' f := by
  have hnode := he.others id hne
  obtain ⟨req, now, point⟩ := f
  cases point with
  | selectToken => trivial
  | countUse tokenStr tokenObj => exact he.tokens _ h
  | selectNetwork => trivial
  | createNetwork => trivial
  | refreshNetwork => exact he.networks h
  | selectIps network => exact ⟨he.networks h.1, h.2.trans he.recorded.symm⟩
  | selectNode network existing allocator nodeId' =>
    obtain ⟨hn, hnet, hal, hid, k, hk, hex⟩ := h
    exact ⟨he.networks hn, hnet.trans he.recorded.symm, hal, hid, k,
      hk.trans (Finset.card_le_card (added_mono he)), hex⟩
  | updateNode node => exact ⟨h.1, by rw [hnode]; exact h.2⟩
  | insertNode existing node => exact ⟨he.networks h.1, by rw [hnode]; exact h.2.1, h.2.2⟩
  | refreshNode nodeId' => exact ⟨h.1, by rw [hnode]; exact h.2⟩
  | done res => simpa only [At, hnode] using h

/-- With the first `k` hosts handed out, the next registration gets the one after them. -/
theorem allocate_next {n k : Nat} (hal : recordedPool db₀ = .ok al) (he : Enough n db₀)
    (hk : k < n) (allocatedV6 : List IPv6Address) :
    ∃ v4 v6, (freeHosts al db₀)[k]? = some v4 ∧ al.derive6 v4 = some v6 ∧ v6 ∉ heldV6 db₀ ∧
      al.allocate (heldV4 db₀ ++ (freeHosts al db₀).take k) allocatedV6 = .ok (v4, v6) := by
  obtain ⟨hlen, hfree⟩ := he al hal
  have hlt : k < (freeHosts al db₀).length := by omega
  have hget : (freeHosts al db₀)[k]? = some (freeHosts al db₀)[k] := List.getElem?_eq_getElem hlt
  obtain ⟨v6, hd, h6⟩ := hfree _ (List.mem_take_iff_getElem.mpr ⟨k, by omega, rfl⟩)
  refine ⟨_, v6, hget, hd, h6, IPAllocator.allocate_eq_ok_iff.mpr ⟨?_, hd⟩⟩
  rw [← hget]
  exact firstFit_append_take al.eligible_nodup (heldV4 db₀) k

theorem mem_newcomers (ht : Tables nodeId db₀ al db) (hn : db.nodes.find (nodeId i) = none) :
    i ∈ newcomers nodeId db₀ ∧ i ∉ added nodeId db₀ db := by
  constructor
  · refine Finset.mem_filter.mpr ⟨Finset.mem_univ i, ?_⟩
    by_contra hs
    have := ht.nodes _ (Option.isSome_iff_ne_none.mpr hs)
    simp [hn] at this
  · intro hi
    have := (Finset.mem_filter.mp hi).2
    simp [hn] at this

theorem added_lt (ht : Tables nodeId db₀ al db) (hn : db.nodes.find (nodeId i) = none) :
    (added nodeId db₀ db).card < (newcomers nodeId db₀).card := by
  obtain ⟨hi, hni⟩ := mem_newcomers ht hn
  refine Finset.card_lt_card (Finset.ssubset_iff_subset_ne.mpr ⟨Finset.filter_subset _ _, ?_⟩)
  intro heq
  exact hni (heq ▸ hi)

/-- The access that is due goes through and leads to a point that is described again. -/
def Acts (nodeId : ι → String) (db₀ : Database) (al : IPAllocator) (i : ι) (db : Database)
    (f : Registering) : Prop :=
  ∃ db', f.flush db = .ok db' ∧ Extends (nodeId i) db db' ∧ Tables nodeId db₀ al db' ∧
    At nodeId db₀ al (nodeId i) db' { f with point := f.nextPoint db }

theorem acts_read {p : RegisterPoint} (ht : Tables nodeId db₀ al db) (hf : f.flush db = .ok db)
    (hp : f.nextPoint db = p) (hn : At nodeId db₀ al (nodeId i) db { f with point := p }) :
    Acts nodeId db₀ al i db f :=
  ⟨db, hf, .refl _ db, ht, hp ▸ hn⟩

variable [DecidableEq ι] (hal : recordedPool db₀ = .ok al)
  (henough : Enough (newcomers nodeId db₀).card db₀) (hinj : Function.Injective nodeId)

include hinj in
theorem card_added (ht : Tables nodeId db₀ al db) (hn : db.nodes.find (nodeId i) = none)
    (he : Extends (nodeId i) db db') (hs : (db'.nodes.find (nodeId i)).isSome) :
    (added nodeId db₀ db').card = (added nodeId db₀ db).card + 1 := by
  obtain ⟨hi, hni⟩ := mem_newcomers ht hn
  have heq : added nodeId db₀ db' = insert i (added nodeId db₀ db) := by
    refine Finset.Subset.antisymm (fun j hj => ?_) (Finset.insert_subset_iff.mpr ⟨?_, added_mono he⟩)
    · obtain ⟨hjn, hjs⟩ := Finset.mem_filter.mp hj
      by_cases hji : j = i
      · exact Finset.mem_insert.mpr (Or.inl hji)
      · have hne : nodeId j ≠ nodeId i := fun h => hji (hinj h)
        rw [he.others _ hne] at hjs
        exact Finset.mem_insert.mpr (Or.inr (Finset.mem_filter.mpr ⟨hjn, hjs⟩))
    · exact Finset.mem_filter.mpr ⟨hi, hs⟩
  rw [heq, Finset.card_insert_of_notMem hni]

include hal henough hinj in
/-- The one access that hands out an address, when the held addresses are those that the
session has read. -/
theorem act_insertNode {req : NodeRegistrationRequest} {now : Nat} {v4 : IPv4Address}
    {v6 : IPv6Address} {allocatedV6 : List IPv6Address} (ht : Tables nodeId db₀ al db)
    (hnet : db.networks.rows ≠ []) (hn : db.nodes.find (nodeId i) = none)
    (hv : al.allocate (heldV4 db) allocatedV6 = .ok (v4, v6)) :
    ∃ ts : Table NodeModel,
      db.insertNode (NodeManager.newNode req now (nodeId i) "net-pymesh" v4 v6) =
        .ok { db with nodes := ts } ∧
      Extends (nodeId i) db { db with nodes := ts } ∧
      Tables nodeId db₀ al { db with nodes := ts } ∧
      ts.find (nodeId i) = some (NodeManager.newNode req now (nodeId i) "net-pymesh" v4 v6) := by
  obtain ⟨v4', v6', hget, hd, h6, hv'⟩ :=
    allocate_next hal henough (added_lt ht hn) allocatedV6
  rw [← ht.v4, hv, Except.ok.injEq, Prod.mk.injEq] at hv'
  obtain ⟨rfl, rfl⟩ := hv'
  obtain ⟨hff, -⟩ := IPAllocator.allocate_eq_ok_iff.mp hv
  have h4 : v4 ∉ heldV4 db := firstFit_not_held hff
  have hfree : ∀ a ∈ db.nodes.rows,
      ¬ Row.Clash a (NodeManager.newNode req now (nodeId i) "net-pymesh" v4 v6) := by
    intro a ha hc
    have ha6 : a.meshIpv6 = v6 := (clash_newNode hn h4 ha).mp hc
    rcases ht.v6 v6 (mem_heldV6.mpr ⟨a, ha, ha6⟩) with h | ⟨host, hm, hh⟩
    · exact h6 h
    · have hmem := (List.mem_filter.mp (List.mem_of_mem_take hm)).1
      obtain rfl : host = v4 := IPAllocator.derive6_inj (IPAllocator.eligible_mem_net hmem)
        (IPAllocator.eligible_mem_net (firstFit_mem hff)) hh hd
      rw [ht.v4] at h4
      exact h4 (List.mem_append_right _ hm)
  obtain ⟨ts, hi, hts, hext, hfind⟩ := extends_insertNode hfree
  have hcard := card_added hinj ht hn hext (Option.isSome_of_eq_some hfind)
  have htake : (freeHosts al db₀).take ((added nodeId db₀ db).card + 1) =
      (freeHosts al db₀).take (added nodeId db₀ db).card ++ [v4] := by
    rw [List.take_add_one, hget]
    rfl
  refine ⟨ts, hi, hext, ⟨?_, ?_, ?_, ?_, ?_⟩, hfind⟩
  · refine ht.wellformed.with_nodes ts (fun h => (hnet h).elim) fun n hm => ?_
    rw [hts] at hm
    rcases List.mem_append.mp hm with hm | hm
    · exact ht.wellformed.members n hm
    · rw [List.mem_singleton.mp hm]
      rfl
  · exact hext.recorded.trans ht.recorded
  · exact fun x hx => hext.nodes x (ht.nodes x hx)
  · rw [hcard, htake, ← List.append_assoc, ← ht.v4]
    simp [heldV4, hts, NodeManager.newNode]
  · rw [hcard, htake]
    intro a ha
    obtain ⟨n, hm, rfl⟩ := mem_heldV6.mp ha
    rw [hts] at hm
    rcases List.mem_append.mp hm with hm | hm
    · rcases ht.v6 _ (mem_heldV6.mpr ⟨n, hm, rfl⟩) with h | ⟨host, hm, hh⟩
      · exact Or.inl h
      · exact Or.inr ⟨host, List.mem_append_left _ hm, hh⟩
    · rw [List.mem_singleton.mp hm]
      exact Or.inr ⟨v4, List.mem_append_right _ (List.mem_singleton.mpr rfl), hd⟩

include hal henough hinj in
/-- One access of a registration that is not disturbed. -/
theorem act (ht : Tables nodeId db₀ al db) (h : At nodeId db₀ al (nodeId i) db f)
    (hk : deriveNodeId f.req.publicKey = .ok (nodeId i)) (hr : f.result = none)
    (hu : Undisturbed db f.point) : Acts nodeId db₀ al i db f := by
  have hw := ht.wellformed
  have hpool : recordedPool db = .ok al := by rw [recordedPool, ht.recorded]; exact hal
  have hnets : db.networks.rows ≠ [] → db.networks.rows = [recorded db] :=
    fun hne => hw.networks.resolve_left hne
  obtain ⟨req, now, point⟩ := f
  cases point with
  | selectToken tokenStr =>
    obtain ⟨t, hf, hx⟩ := hu
    rw [Option.mem_def] at hf
    have hs : (db.authTokens.find tokenStr).isSome := by simp [hf]
    exact acts_read ht rfl (p := .countUse tokenStr t) (by simp [Registering.nextPoint, hf, hx]) hs
  | countUse tokenStr tokenObj =>
    obtain ⟨t, hf⟩ := Option.isSome_iff_exists.mp h
    obtain ⟨ts, hu, hext⟩ := extends_countUse (nodeId i) hf tokenObj
    exact ⟨_, hu, hext, ht.of_extends hext (hw.congr rfl rfl) (Or.inr rfl) rfl rfl, trivial⟩
  | selectNetwork =>
    rcases hw.networks with hnet | hnet
    · refine acts_read ht rfl (p := .createNetwork) ?_ trivial
      simp [Registering.nextPoint, hw.networkNamed_eq, hnet]
    · refine acts_read ht rfl (p := .selectIps (recorded db)) ?_ ⟨by simp [hnet], rfl⟩
      simp [Registering.nextPoint, hw.networkNamed_eq, hnet]
  | createNetwork =>
    obtain ⟨ts, hi, hens, hne, hext⟩ := extends_createNetwork (nodeId i) hu
    have hw' := NodeManager.wellformed_ensureNetwork hw
    rw [hens] at hw'
    exact ⟨_, hi, hext, ht.of_extends hext hw' (Or.inr rfl) rfl rfl, hne⟩
  | refreshNetwork =>
    have hfind : db.networks.find (NodeManager.newNetwork "pymesh").id = some (recorded db) :=
      Table.find_eq_some_iff.mpr ⟨by simp [hnets h], hw.id⟩
    refine acts_read ht rfl (p := .selectIps (recorded db)) ?_ ⟨h, rfl⟩
    simp [Registering.nextPoint, hfind]
  | selectIps network =>
    obtain ⟨hne, rfl⟩ := h
    have hmake : IPAllocator.make (recorded db).ipv4Prefix (recorded db).ipv6Prefix = .ok al := hpool
    have hheld : (NodeManager.existingIps (recorded db).id db).map Prod.fst = heldV4 db := by
      rw [hw.id]
      exact NodeManager.existingIps_fst hw
    refine acts_read ht rfl (p := .selectNode (recorded db) _ al (nodeId i)) ?_
      ⟨hne, rfl, rfl, rfl, (added nodeId db₀ db).card, le_rfl, hheld.trans ht.v4⟩
    simp only [Registering.nextPoint, hmake, hk]
  | selectNode network existing allocator nodeId' =>
    obtain ⟨hne, rfl, rfl, rfl, k, hkle, hex⟩ := h
    cases hn : db.nodes.find (nodeId i) with
    | some node =>
      exact acts_read ht rfl (p := .updateNode node) (by simp only [Registering.nextPoint, hn])
        ⟨(Table.find_eq_some_iff.mp hn).2, by simp [hn]⟩
    | none =>
      obtain ⟨v4, v6, -, -, -, hv⟩ := allocate_next hal henough
        (hkle.trans_lt (added_lt ht hn)) (existing.map Prod.snd)
      rw [← hex] at hv
      refine acts_read ht rfl (p := .insertNode existing
        (NodeManager.newNode req now (nodeId i) "net-pymesh" v4 v6)) ?_ ⟨hne, hn, v4, v6, hv, rfl⟩
      simp only [Registering.nextPoint, hn, hv, hw.id]
  | updateNode node =>
    obtain ⟨hid, hs⟩ := h
    obtain ⟨row, hn⟩ := Option.isSome_iff_exists.mp hs
    obtain ⟨ts, hu, hext, hfind, h4, h6, hm⟩ := extends_updateNode req now hn
    have hw' : Wellformed { db with nodes := ts } := by
      refine hw.with_nodes ts (fun hnil => ?_) fun n hn' => ?_
      · have hnone := Table.find_eq_none_iff (t := db.nodes) (k := nodeId i)
        simp [hw.opened hnil, hn] at hnone
      · obtain ⟨m, hmr, hnm⟩ := hm n hn'
        exact hnm.trans (hw.members m hmr)
    rw [← hid] at hu
    exact ⟨_, hu, hext, ht.of_extends hext hw' (Or.inl hs) h4 h6, hid, _, hfind, rfl⟩
  | insertNode existing node =>
    obtain ⟨hne, hn, v4, v6, hv, hnode⟩ := h
    have hheld : existing.map Prod.fst = heldV4 db := by
      rw [hu]
      exact NodeManager.existingIps_fst hw
    rw [hheld] at hv
    obtain rfl : node = NodeManager.newNode req now (nodeId i) "net-pymesh" v4 v6 := hnode
    obtain ⟨ts, hi, hext, htab, hfind⟩ := act_insertNode hal henough hinj ht hne hn hv
    exact ⟨_, hi, hext, htab, rfl, _, hfind, rfl⟩
  | refreshNode nodeId' =>
    obtain ⟨rfl, node, hn, hrow⟩ := h
    exact acts_read ht rfl (p := .done (.ok (.registered (Api.registrationResponse node))))
      (by simp only [Registering.nextPoint, hn]) ⟨node, hn, hrow, rfl⟩
  | done res => cases hr

end Tables

/-- The number of accesses that a registration can still make. -/
def rank (f : Registering) : Nat :=
  match f.point with
  | .selectToken _ => 9
  | .countUse _ _ => 8
  | .selectNetwork => 7
  | .createNetwork => 6
  | .refreshNetwork => 5
  | .selectIps _ => 4
  | .selectNode _ _ _ _ => 3
  | .updateNode _ => 2
  | .insertNode _ _ => 2
  | .refreshNode _ => 1
  | .done _ => 0

theorem rank_start_le (authorization : Option String) (req : NodeRegistrationRequest) (now : Nat) :
    rank (Registering.start authorization req now) ≤ 9 := by
  unfold Registering.start
  cases Api.bearerToken authorization <;> simp [rank]

theorem rank_next_lt (f : Registering) (db : Database) (h : registration.result f = none) :
    rank (registration.next f db) < rank f := by
  cases hf : registration.flush f db with
  | error e =>
    rw [Frames.next_error hf]
    obtain ⟨req, now, point⟩ := f
    cases point with
    | done res => cases h
    | _ => simp [registration, rank]
  | ok db' =>
    rw [Frames.next_ok hf]
    obtain ⟨req, now, point⟩ := f
    cases point with
    | done res => cases h
    | _ =>
      simp only [registration, Registering.nextPoint, rank]
      grind

section Race

variable {ι : Type} [Fintype ι] {auth : ι → Option String}
  {req : ι → NodeRegistrationRequest} {now : ι → Nat} {nodeId : ι → String} {db₀ : Database}
  {al : IPAllocator} {c d : Pool registration ι} {i : ι} {ls : List ι}

/-- All requests have been sent, and none has made its first access. -/
def requests (auth : ι → Option String) (req : ι → NodeRegistrationRequest) (now : ι → Nat)
    (db : Database) : Pool registration ι :=
  ⟨db, fun i => Registering.start (auth i) (req i) (now i)⟩

/-- The guard on the sessions of a race. -/
def Undisturbs (c : Pool registration ι) (i : ι) : Prop :=
  Undisturbed c.shared (c.frame i).point

instance (c : Pool registration ι) (i : ι) : Decidable (Undisturbs c i) :=
  inferInstanceAs (Decidable (Undisturbed c.shared (c.frame i).point))

/-- The race as a whole: the tables, and each session at its point. -/
structure Racing (req : ι → NodeRegistrationRequest) (now : ι → Nat) (nodeId : ι → String)
    (db₀ : Database) (al : IPAllocator) (c : Pool registration ι) : Prop where
  tables : Tables nodeId db₀ al c.shared
  request : ∀ i, (c.frame i).req = req i ∧ (c.frame i).now = now i
  point : ∀ i, At nodeId db₀ al (nodeId i) c.shared (c.frame i)

theorem racing_start (hw : Wellformed db₀) :
    Racing req now nodeId db₀ al (requests auth req now db₀) := by
  refine ⟨tables_start hw, fun i => ⟨rfl, rfl⟩, fun i => ?_⟩
  simp only [requests, Registering.start]
  cases Api.bearerToken (auth i) <;> trivial

/-- What a session that has a result knows. -/
theorem racing_done {res : Except Exc Response} (hc : Racing req now nodeId db₀ al c)
    (hr : registration.result (c.frame i) = some res) :
    ∃ node, c.shared.nodes.find (nodeId i) = some node ∧
      NodeManager.reregister (req i) (now i) node = node ∧
      res = .ok (.registered (Api.registrationResponse node)) := by
  have hp := hc.point i
  rw [← (hc.request i).1, ← (hc.request i).2]
  change Registering.result (c.frame i) = some res at hr
  unfold Registering.result at hr
  unfold At at hp
  split at hr
  next res' hd =>
    cases hr
    rw [hd] at hp
    exact hp
  next => cases hr

variable [DecidableEq ι]

theorem racing_step (hal : recordedPool db₀ = .ok al)
    (henough : Enough (newcomers nodeId db₀).card db₀) (hinj : Function.Injective nodeId)
    (hkey : ∀ i, deriveNodeId (req i).publicKey = .ok (nodeId i))
    (hc : Racing req now nodeId db₀ al c) (h : Guarded Pool.Step Undisturbs c i d) :
    Racing req now nodeId db₀ al d := by
  obtain ⟨hu, hs⟩ := h
  have hk : deriveNodeId (c.frame i).req.publicKey = .ok (nodeId i) := by
    rw [(hc.request i).1]
    exact hkey i
  obtain ⟨db', hf, hext, htab, hat⟩ :=
    act hal henough hinj hc.tables (hc.point i) hk hs.result hu
  have hflush : registration.flush (c.frame i) c.shared = .ok db' := hf
  have hshared : d.shared = db' := hs.shared.trans (Frames.upd_ok hflush)
  have hself : d.frame i = { c.frame i with point := (c.frame i).nextPoint c.shared } :=
    hs.frame_self.trans (Frames.next_ok hflush)
  refine ⟨hshared ▸ htab, fun j => ?_, fun j => ?_⟩
  · by_cases hj : j = i
    · subst j
      rw [hself]
      exact hc.request i
    · rw [hs.frame_of_ne hj]
      exact hc.request j
  · rw [hshared]
    by_cases hj : j = i
    · subst j
      rw [hself]
      exact hat
    · rw [hs.frame_of_ne hj]
      exact (hc.point j).stable hext fun h => hj (hinj h)

/-- No session makes more than nine accesses or is ever blocked, each that ends has its node
stored as the answer says, and no address is handed out twice. -/
structure Completes (req : ι → NodeRegistrationRequest) (now : ι → Nat) (nodeId : ι → String)
    (ls : List ι) (c : Pool registration ι) : Prop where
  accesses : ∀ i, ls.count i ≤ 9
  unblocked : ∀ i, registration.result (c.frame i) = none → ∃ d, Pool.Step c i d
  stored : ∀ i res, registration.result (c.frame i) = some res →
    ∃ node, c.shared.nodes.find (nodeId i) = some node ∧
      NodeManager.reregister (req i) (now i) node = node ∧
      res = .ok (.registered (Api.registrationResponse node))
  distinct : ∀ i j a b, i ≠ j → registration.result (c.frame i) = some (.ok (.registered a)) →
    registration.result (c.frame j) = some (.ok (.registered b)) →
    a.meshIpv4 ≠ b.meshIpv4 ∧ a.meshIpv6 ≠ b.meshIpv6

/-- Registrations of different nodes for which there are enough free addresses all complete,
in any interleaving in which nobody is disturbed. -/
theorem registrations_complete (h₀ : Reachable db₀)
    (hkey : ∀ i, deriveNodeId (req i).publicKey = .ok (nodeId i))
    (hinj : Function.Injective nodeId) (henough : Enough (newcomers nodeId db₀).card db₀)
    (h : Run (Guarded Pool.Step Undisturbs) (requests auth req now db₀) ls c) :
    Completes req now nodeId ls c := by
  have hw := wellformed_reachable h₀
  obtain ⟨al, hal⟩ := hw.parsed
  have hc : Racing req now nodeId db₀ al c :=
    h.invariant (racing_start hw) fun _ _ _ => racing_step hal henough hinj hkey
  refine ⟨fun i => ?_, fun i => Pool.exists_step, fun i res => racing_done hc, ?_⟩
  · have hcount := Pool.count_add_rank_le rank rank_next_lt h.of_guarded i
    have hstart := rank_start_le (auth i) (req i) (now i)
    simp only [requests] at hcount
    omega
  · intro i j a b hij ha hb
    obtain ⟨m, hm, -, hma⟩ := racing_done hc ha
    obtain ⟨n, hn, -, hnb⟩ := racing_done hc hb
    cases hma
    cases hnb
    obtain ⟨hmr, hmk⟩ := Table.find_eq_some_iff.mp hm
    obtain ⟨hnr, hnk⟩ := Table.find_eq_some_iff.mp hn
    have hne : m ≠ n := fun h => hij (hinj (by rw [← hmk, ← hnk, h]))
    have hclash := Table.not_clash hmr hnr hne
    rw [node_clash_iff, not_or, not_or] at hclash
    exact ⟨fun h => hclash.2.1 (IPv4Address.str_injective h),
      fun h => hclash.2.2 (IPv6Address.str_injective h)⟩

end Race

/-- Two requests with different keys and no tokens. -/
def keys (i : Fin 2) : NodeRegistrationRequest :=
  { hostname := "node", publicKey := if i = 0 then "YQ==" else "Yg==" }

def ids (i : Fin 2) : String := (deriveNodeId (keys i).publicKey).toOption.getD ""

/-- The tables with a small network and no nodes. -/
def small : Database := serveAll .empty [putSubnet "10.0.0.0/29" "fd00::/64"]

def bothSent (db : Database) : Pool registration (Fin 2) :=
  requests (fun _ => none) keys (fun _ => 0) db

/-- Each reads and waits while the other goes on, but for the choice of an address. -/
theorem registrations_complete_interleaved : ∃ c,
    Run (Guarded Pool.Step Undisturbs) (bothSent small) [1, 0, 1, 1, 1, 0, 0, 1, 0, 0] c ∧
      (∀ i, (registration.result (c.frame i)).isSome) ∧
      Completes keys (fun _ => 0) ids [1, 0, 1, 1, 1, 0, 0, 1, 0, 0] c := by
  obtain ⟨c, hc, hdone⟩ := Pool.exists_run_of_play (G := Undisturbs) (c := bothSent small)
    (P := fun c => ∀ i, (registration.result (c.frame i)).isSome)
    (l := [1, 0, 1, 1, 1, 0, 0, 1, 0, 0]) (by decide +kernel)
  have hcard : (newcomers ids small).card = 2 := by decide +kernel
  have henough : Enough (newcomers ids small).card small := by
    rw [hcard]
    decide +kernel
  have hsmall : Reachable small := ⟨_, run_serves_iff.mpr rfl⟩
  exact ⟨c, hc, hdone, registrations_complete hsmall (by decide +kernel) (by decide +kernel)
    henough hc⟩

/-- Two registrations that read the held addresses before either inserts choose the same
address, and two that look for the network row before either creates it both create it. -/
theorem registrations_complete_fails :
    (Reachable small ∧ (keys 0).publicKey ≠ (keys 1).publicKey ∧ Enough 2 small ∧
      ∃ c, Run Pool.Step (bothSent small) [0, 1, 0, 1, 0, 1, 0, 1] c ∧
        registration.result (c.frame 1) = some (.error .integrityError)) ∧
    ∃ c, Run Pool.Step (bothSent .empty) [0, 1, 0, 1] c ∧
      registration.result (c.frame 1) = some (.error .integrityError) := by
  refine ⟨⟨⟨_, run_serves_iff.mpr rfl⟩, by decide, by decide +kernel, ?_⟩, ?_⟩
  · obtain ⟨c, hc, hr⟩ := Pool.exists_run_of_play (G := fun _ _ => True) (c := bothSent small)
      (P := fun c => registration.result (c.frame 1) = some (.error .integrityError))
      (l := [0, 1, 0, 1, 0, 1, 0, 1]) (by decide +kernel)
    exact ⟨c, hc.of_guarded, hr⟩
  · obtain ⟨c, hc, hr⟩ := Pool.exists_run_of_play (G := fun _ _ => True) (c := bothSent .empty)
      (P := fun c => registration.result (c.frame 1) = some (.error .integrityError))
      (l := [0, 1, 0, 1]) (by decide +kernel)
    exact ⟨c, hc.of_guarded, hr⟩

end RegisterRace

end PyMesh
