import PyMesh.Controller.Identities
import PyMesh.Controller.Ownership
import PyMesh.Controller.Routes
import PyMesh.Daemon.Addresses
import PyMesh.Daemon.Resolvers

/-! The controller together with the daemons of its nodes: which node a daemon's names and
addresses lead to once it has synced. -/
namespace PyMesh

open LTS Text PeerManager DaemonLifecycle MagicDNSServer Relational

/-- How `wg` reads the prefix of a single address. -/
structure HostPrefixes {π : Type} (sys : System π) where
  host4 : IPv4Address → π
  host6 : IPv6Address → π
  read4 : ∀ a, sys.readIp (IPv4Address.str a ++ "/32") = some (host4 a)
  read6 : ∀ a, sys.readIp (IPv6Address.str a ++ "/128") = some (host6 a)
  host4_injective : Function.Injective host4
  host6_injective : Function.Injective host6
  host4_ne_host6 : ∀ a b, host4 a ≠ host6 b

/-- What the daemon of a node finds on its host. -/
structure HostEnv (α ρ π : Type) where
  sys : System π
  prefixes : HostPrefixes sys
  manager : WireGuardManager
  kernel : Kernel α ρ
  rt : Runtime

/-- What the syncs of a daemon have left: the peers, the addresses and routes of the mesh
interface, and the records of the Magic DNS server. -/
structure DaemonHost (α ρ π : Type) where
  device : Device π
  interface : MeshInterface α ρ
  records : Dict String String

/-- The controller's tables, and the host of each node by the id of the node. -/
structure Overlay (α ρ π : Type) where
  db : Database
  hosts : String → DaemonHost α ρ π

variable {α ρ π : Type} [DecidableEq α] [DecidableEq ρ] [DecidableEq π]

/-- A sync that has fetched `c`, and none of whose commands has failed. -/
structure Applies (env : HostEnv α ρ π) (nodeId : String) (host : DaemonHost α ρ π)
    (c : NetworkConfigResponse) (host' : DaemonHost α ρ π) : Prop where
  syncs : Syncs env.sys env.manager host.device c host'.device
  readdresses : Readdresses env.kernel nodeId host.interface c host'.interface
  records : host'.records = updateRecords env.rt (dnsRecords c) none

inductive MeshEvent where
  | request (r : Request)
  /-- The daemon of a node fetches its config and applies it. -/
  | synced (nodeId : String)
  /-- Anything else on the host of a node: a sync that fails midway, a restart, another program. -/
  | disturbed (nodeId : String)

inductive MeshStep (env : String → HostEnv α ρ π) (m : Overlay α ρ π) :
    MeshEvent → Overlay α ρ π → Prop
  | request (r : Request) : MeshStep env m (.request r) { m with db := (serve m.db r).2 }
  | synced {nodeOrder : RowOrder NodeModel} {routeOrder : RowOrder SubnetRoute} {nodeId : String}
      {c : NetworkConfigResponse} {host : DaemonHost α ρ π}
      (hc : (buildNetworkConfig nodeOrder routeOrder nodeId).run m.db = (.ok c, m.db))
      (h : Applies (env nodeId) nodeId (m.hosts nodeId) c host) :
      MeshStep env m (.synced nodeId) { m with hosts := Function.update m.hosts nodeId host }
  | disturbed (nodeId : String) (host : DaemonHost α ρ π) :
      MeshStep env m (.disturbed nodeId) { m with hosts := Function.update m.hosts nodeId host }

/-- The events after which a config that was fetched before is still the one to be fetched, up to
the endpoints: heartbeats, requests for configs and tokens, and syncs. -/
def Quiet : MeshEvent → Prop
  | .request (.heartbeat ..) => True
  | .request (.networkConfig ..) => True
  | .request (.join ..) => True
  | .request (.createToken ..) => True
  | .synced _ => True
  | _ => False

/-- An enabled route via `n` has this prefix. -/
def Routed (env : HostEnv α ρ π) (db : Database) (n : NodeModel) (x : π) : Prop :=
  ∃ r ∈ db.subnetRoutes.rows, r.enabled = true ∧ r.viaNodeId = n.id ∧
    ∃ s ∈ split r.pfx ',', env.sys.readIp s = some x

/-- The addresses of `n` itself, and the prefixes of the enabled routes via it. -/
def Allotted (env : HostEnv α ρ π) (db : Database) (n : NodeModel) (x : π) : Prop :=
  x = env.prefixes.host4 n.meshIpv4 ∨ x = env.prefixes.host6 n.meshIpv6 ∨ Routed env db n x

/-- Of the peers of `a` none but `b` is allotted this prefix. -/
def Unshared (env : HostEnv α ρ π) (db : Database) (a b : NodeModel) (x : π) : Prop :=
  ∀ n ∈ db.nodes.rows, n.id ≠ a.id → n.id ≠ b.id → ¬ Allotted env db n x

/-- No enabled route via another peer of `a` has a prefix of one of `b`'s addresses alone. -/
def Unshadowed (env : HostEnv α ρ π) (db : Database) (a b : NodeModel) : Prop :=
  ∀ n ∈ db.nodes.rows, n.id ≠ a.id → n.id ≠ b.id →
    ¬ Routed env db n (env.prefixes.host4 b.meshIpv4) ∧
      ¬ Routed env db n (env.prefixes.host6 b.meshIpv6)

/-- The names of a hostname, alone and under each of the default TLDs. -/
def meshNames (rt : Runtime) (hostname : String) : List String :=
  HostsManager.domainsOf rt ((tldsOr none).map fun t => rt.lower (lstrip (· = '.') t)) hostname

/-- A name of `b`, which is assigned for the record of no other peer of `a`. -/
structure Names (env : HostEnv α ρ π) (db : Database) (a b : NodeModel) (name : String) : Prop where
  own : name ∈ meshNames env.rt b.hostname
  others : ∀ n ∈ db.nodes.rows, n.id ≠ a.id → n.id ≠ b.id →
    ¬ Assigned env.rt (tldsOr none) (n.hostname, IPv4Address.str n.meshIpv4) name

/-- On the host of `a` the names of `b` alone are answered with `b`'s address. What is sent to a
prefix of `b` alone is encrypted for `b`'s key, and `b`'s key is trusted with the prefixes of `b`
only. What the routes via `b` have is sent to the mesh interface. -/
structure Leads (env : HostEnv α ρ π) (db : Database) (host : DaemonHost α ρ π) (a b : NodeModel) :
    Prop where
  name : ∀ name, Names env db a b name → host.records name = some (IPv4Address.str b.meshIpv4)
  held : ∀ x, Allotted env db b x → Unshared env db a b x →
    host.device.holder x = some b.wireguardPublicKey
  trusted : ∀ x, host.device.holder x = some b.wireguardPublicKey → Allotted env db b x
  routed : ∀ r ∈ db.subnetRoutes.rows, r.enabled = true → r.viaNodeId = b.id →
    ∃ d ∈ host.interface.routes, env.kernel.readRoute r.pfx = some d

/-- The mesh interface of this host has the addresses of `a`. -/
def Carries (env : HostEnv α ρ π) (host : DaemonHost α ρ π) (a : NodeModel) : Prop :=
  (∃ x, env.kernel.readAddress (IPv4Address.str a.meshIpv4) = some x ∧
    (x, 10) ∈ host.interface.addresses) ∧
  ∃ x, env.kernel.readAddress (IPv6Address.str a.meshIpv6) = some x ∧
    (x, 48) ∈ host.interface.addresses

/-- The host of `a` has the addresses of `a`, and leads to every other node. -/
def Settled (env : HostEnv α ρ π) (db : Database) (host : DaemonHost α ρ π) (a : NodeModel) :
    Prop :=
  Carries env host a ∧ ∀ b ∈ db.nodes.rows, b.id ≠ a.id → Leads env db host a b

section Records

variable {config : NetworkConfigResponse} {records : List (String × String)} {r : String × String}
  {hostname name ip : String} {rt : Runtime}

theorem mem_setRecord (h : r ∈ setRecord hostname ip records) :
    r = (hostname, ip) ∨ r ∈ records := by
  induction records with
  | nil => exact Or.inl (List.mem_singleton.mp h)
  | cons x records ih =>
    rw [setRecord] at h
    split at h
    next hx =>
      rcases List.mem_cons.mp h with h | h
      · exact Or.inl (h.trans (by rw [hx]))
      · exact Or.inr (List.mem_cons_of_mem x h)
    next =>
      rcases List.mem_cons.mp h with h | h
      · exact Or.inr (by rw [h]; exact List.mem_cons_self)
      · exact (ih h).imp_right (List.mem_cons_of_mem x)

/-- A hostname that is set has a record, and none loses its record. -/
theorem named_setRecord (h : name = hostname ∨ name ∈ records.map Prod.fst) :
    name ∈ (setRecord hostname ip records).map Prod.fst := by
  induction records with
  | nil => simpa [setRecord] using h
  | cons x records ih =>
    rw [setRecord]
    split
    next hx =>
      rcases h with rfl | h
      · simp [hx]
      · simpa using h
    next =>
      rw [List.map_cons, List.mem_cons]
      rcases h with rfl | h
      · exact Or.inr (ih (Or.inl rfl))
      · rw [List.map_cons, List.mem_cons] at h
        exact h.imp_right fun h => ih (Or.inr h)

/-- Every record is that of a peer, and every peer's hostname has a record. -/
theorem dnsRecords_spec (config : NetworkConfigResponse) :
    (∀ r ∈ dnsRecords config, ∃ p ∈ config.peers, r = (p.hostname, p.meshIpv4)) ∧
      ∀ p ∈ config.peers, p.hostname ∈ (dnsRecords config).map Prod.fst := by
  rw [dnsRecords]
  induction config.peers using List.reverseRecOn with
  | nil => simp
  | append_singleton ps q ih =>
    rw [List.foldl_concat]
    refine ⟨fun r hr => ?_, fun p hp => ?_⟩
    · rcases mem_setRecord hr with rfl | hr
      · exact ⟨q, by simp, rfl⟩
      · obtain ⟨p, hp, he⟩ := ih.1 r hr
        exact ⟨p, List.mem_append_left _ hp, he⟩
    · rcases List.mem_append.mp hp with hp | hp
      · exact named_setRecord (Or.inr (ih.2 p hp))
      · rw [List.mem_singleton.mp hp]
        exact named_setRecord (Or.inl rfl)

/-- A name that is assigned for a record, and only with this IP, is answered with it. -/
theorem answer_of_assigned (hr : r ∈ records) (ha : Assigned rt (tldsOr none) r name)
    (hip : ∀ r' ∈ records, Assigned rt (tldsOr none) r' name → r'.2 = ip) :
    updateRecords rt records none name = some ip := by
  cases hu : updateRecords rt records none name with
  | none => exact (updateRecords_ne_none_iff.mpr ⟨r, hr, ha⟩ hu).elim
  | some ip' =>
    obtain ⟨pre, r', post, hsplit, rfl, ha', -⟩ := updateRecords_eq_some_iff.mp hu
    rw [hip r' (by simp [hsplit]) ha']

end Records

variable {env : HostEnv α ρ π} {db db' : Database} {host host' : DaemonHost α ρ π}
  {a b n : NodeModel} {c : NetworkConfigResponse} {nodeOrder : RowOrder NodeModel}
  {routeOrder : RowOrder SubnetRoute} {x : π}

omit [DecidableEq α] [DecidableEq ρ] [DecidableEq π] in
/-- A prefix of one address is a whole entry of `allowed-ips`. -/
theorem split_ownPrefixes {routes : List SubnetRoute} {s : String}
    (hs : s ∈ ownPrefixes (peerConfig routes n)) : split s ',' = [s] := by
  apply split_of_notMem
  have h4 := IPv4Address.notMem_str (c := ',') (by decide) (by decide) n.meshIpv4
  have h6 := IPv6Address.notMem_str (c := ',') (by decide) (by decide) n.meshIpv6
  simp only [ownPrefixes, peerConfig, List.mem_cons, List.not_mem_nil, or_false] at hs
  rcases hs with rfl | rfl
  · simp [h4]
  · simp [h6]

omit [DecidableEq α] [DecidableEq ρ] [DecidableEq π] in
/-- The allowed IPs of a peer: its own addresses, and what is read out of the routes via it. -/
theorem mem_allowed {routes : List SubnetRoute} : x ∈ allowed env.sys (peerConfig routes n) ↔
    x = env.prefixes.host4 n.meshIpv4 ∨ x = env.prefixes.host6 n.meshIpv6 ∨
      ∃ r ∈ routes, r.viaNodeId = n.id ∧ ∃ s ∈ split r.pfx ',', env.sys.readIp s = some x := by
  have hown : ∀ s ∈ ownPrefixes (peerConfig routes n), ∀ t, t ∈ split s ',' ↔ t = s := by
    intro s hs t
    rw [split_ownPrefixes hs, List.mem_singleton]
  simp only [allowed, List.mem_flatMap, List.mem_filterMap, mem_allowedIps_iff, or_and_right,
    exists_or]
  constructor
  · rintro (⟨s, hs, t, ht, hx⟩ | ⟨s, ⟨r, hr, hvia, rfl⟩, t, ht, hx⟩)
    · obtain rfl := (hown s hs t).mp ht
      simp only [ownPrefixes, peerConfig, List.mem_cons, List.not_mem_nil, or_false] at hs
      rcases hs with rfl | rfl
      · exact Or.inl (Option.some.inj (hx.symm.trans (env.prefixes.read4 _)))
      · exact Or.inr (Or.inl (Option.some.inj (hx.symm.trans (env.prefixes.read6 _))))
    · exact Or.inr (Or.inr ⟨r, hr, hvia, t, ht, hx⟩)
  · rintro (rfl | rfl | ⟨r, hr, hvia, t, ht, hx⟩)
    · have hs : IPv4Address.str n.meshIpv4 ++ "/32" ∈ ownPrefixes (peerConfig routes n) := by
        simp [ownPrefixes, peerConfig]
      exact Or.inl ⟨_, hs, _, (hown _ hs _).mpr rfl, env.prefixes.read4 _⟩
    · have hs : IPv6Address.str n.meshIpv6 ++ "/128" ∈ ownPrefixes (peerConfig routes n) := by
        simp [ownPrefixes, peerConfig]
      exact Or.inl ⟨_, hs, _, (hown _ hs _).mpr rfl, env.prefixes.read6 _⟩
    · exact Or.inr ⟨r.pfx, ⟨r, hr, hvia, rfl⟩, t, ht, hx⟩

omit [DecidableEq α] [DecidableEq ρ] [DecidableEq π] in
theorem entries_networkConfig : entries env.sys (networkConfig nodeOrder routeOrder db a) =
    (otherNodes nodeOrder db a).map fun n =>
      (n.wireguardPublicKey, allowed env.sys (peerConfig (enabledRoutes routeOrder db a) n)) := by
  rw [entries, networkConfig, List.map_map]
  rfl

omit [DecidableEq α] [DecidableEq ρ] [DecidableEq π] in
/-- In a config a peer is allowed what it is allotted. -/
theorem mem_allowed_iff (hnet : RoutesInNetwork db) (ha : a.networkId = "net-pymesh") :
    x ∈ allowed env.sys (peerConfig (enabledRoutes routeOrder db a) n) ↔ Allotted env db n x := by
  have hrow : ∀ r, r ∈ enabledRoutes routeOrder db a ↔
      r ∈ db.subnetRoutes.rows ∧ r.enabled = true := by
    intro r
    rw [mem_enabledRoutes, ha]
    exact and_congr_right fun hr => and_iff_right (hnet r hr)
  rw [mem_allowed, Allotted, Routed]
  simp only [hrow, and_assoc]

omit [DecidableEq α] [DecidableEq ρ] [DecidableEq π] in
theorem Unshadowed.host4 (h : Unshadowed env db a b) (hb : b ∈ db.nodes.rows) :
    Unshared env db a b (env.prefixes.host4 b.meshIpv4) := by
  rintro n hn hna hnb (hx | hx | hx)
  · have hclash := Table.not_clash hb hn fun he => hnb (congrArg NodeModel.id he.symm)
    rw [node_clash_iff, not_or, not_or] at hclash
    exact hclash.2.1 (env.prefixes.host4_injective hx)
  · exact env.prefixes.host4_ne_host6 _ _ hx
  · exact (h n hn hna hnb).1 hx

omit [DecidableEq α] [DecidableEq ρ] [DecidableEq π] in
theorem Unshadowed.host6 (h : Unshadowed env db a b) (hb : b ∈ db.nodes.rows) :
    Unshared env db a b (env.prefixes.host6 b.meshIpv6) := by
  rintro n hn hna hnb (hx | hx | hx)
  · exact env.prefixes.host4_ne_host6 _ _ hx.symm
  · have hclash := Table.not_clash hb hn fun he => hnb (congrArg NodeModel.id he.symm)
    rw [node_clash_iff, not_or, not_or] at hclash
    exact hclash.2.2 (env.prefixes.host6_injective hx)
  · exact (h n hn hna hnb).2 hx

/-- What the keys of the peers hold after a sync. -/
theorem holder_of_applies (hs : Sound db) (hb : b ∈ otherNodes nodeOrder db a)
    (hc : (buildNetworkConfig nodeOrder routeOrder a.id).run db =
      (.ok (networkConfig nodeOrder routeOrder db a), db))
    (h : Applies env a.id host (networkConfig nodeOrder routeOrder db a) host')
    (hallowed : ∀ n, x ∈ allowed env.sys (peerConfig (enabledRoutes routeOrder db a) n) ↔
      Allotted env db n x) :
    (Allotted env db b x → (∀ n ∈ otherNodes nodeOrder db a, Allotted env db n x → n = b) →
      host'.device.holder x = some b.wireguardPublicKey) ∧
    (host'.device.holder x = some b.wireguardPublicKey → Allotted env db b x) := by
  rw [eq_of_syncs h.syncs, requested_eq hc, entries_networkConfig]
  have hkey : ∀ n ∈ otherNodes nodeOrder db a, n.wireguardPublicKey = b.wireguardPublicKey →
      n = b := by
    intro n hn hk
    exact hs.eq_of_decoded (mem_otherNodes.mp hn).1 (mem_otherNodes.mp hb).1 (by rw [hk])
  refine ⟨fun hbx hall => ?_, fun hx => ?_⟩
  · apply Holdings.holder_assignAll_of_forall
    · exact ⟨_, List.mem_map_of_mem hb, rfl⟩
    · rintro y hy
      obtain ⟨n, hn, rfl⟩ := List.mem_map.mp hy
      dsimp only
      rw [hallowed]
      refine ⟨fun hnx => ?_, fun hk => ?_⟩
      · rw [hall n hn hnx]
      · rw [hkey n hn hk]
        exact hbx
  · have hlisted := List.mem_map_of_mem (f := Prod.fst) (List.mem_map_of_mem
      (f := fun n => (n.wireguardPublicKey,
        allowed env.sys (peerConfig (enabledRoutes routeOrder db a) n))) hb)
    obtain ⟨y, hy, hk, hxy⟩ := Holdings.exists_of_holder_assignAll hlisted hx
    obtain ⟨n, hn, rfl⟩ := List.mem_map.mp hy
    dsimp only at hk hxy
    rw [hallowed] at hxy
    rw [← hkey n hn hk]
    exact hxy

theorem settled_of_applies (hw : Wellformed db) (hs : Sound db) (hnet : RoutesInNetwork db)
    (ha : a ∈ db.nodes.rows)
    (hc : (buildNetworkConfig nodeOrder routeOrder a.id).run db = (.ok c, db))
    (h : Applies env a.id host c host') : Settled env db host' a := by
  obtain ⟨targetNode, hm, hid, rfl⟩ := exists_target hc
  obtain rfl : targetNode = a := Table.eq_of_key hm ha hid
  have hpeer : ∀ {n}, n ∈ otherNodes nodeOrder db targetNode ↔
      n ∈ db.nodes.rows ∧ n.id ≠ targetNode.id := by
    intro n
    rw [mem_otherNodes]
    refine ⟨fun hn => ⟨hn.1, hn.2.2⟩, fun hn => ⟨hn.1, ?_, hn.2⟩⟩
    rw [hw.members n hn.1, hw.members _ hm]
  obtain ⟨haddr, hkernel⟩ := mem_of_readdresses h.readdresses
  refine ⟨?_, fun b hb hne => ?_⟩
  · obtain ⟨x, y, hx, hy, -, htruthy⟩ := addresses_of_built hc h.readdresses
    exact ⟨⟨x, hx, (haddr _).mpr (Or.inr (Or.inl ⟨hx, rfl⟩))⟩,
      y, hy, (haddr _).mpr (Or.inr (Or.inr ⟨_, htruthy, hy, rfl⟩))⟩
  have hbo := hpeer.mpr ⟨hb, hne⟩
  have hnetwork := hw.members _ hm
  have hholder := fun x => holder_of_applies (x := x) hs hbo hc h fun n =>
    mem_allowed_iff hnet hnetwork
  refine ⟨fun name hnames => ?_, fun x hx halone => ?_, fun x => (hholder x).2,
    fun r hr hen hvia => ?_⟩
  · obtain ⟨hrecord, hnamed⟩ := dnsRecords_spec (networkConfig nodeOrder routeOrder db targetNode)
    obtain ⟨⟨hostname, ip⟩, hr, hname⟩ := List.mem_map.mp
      (hnamed _ (List.mem_map_of_mem (f := peerConfig _) hbo))
    rw [h.records]
    refine answer_of_assigned hr (Or.inl (by rw [hname]; exact hnames.own)) ?_
    intro r hr hassigned
    obtain ⟨p, hp, rfl⟩ := hrecord r hr
    obtain ⟨n, hn, rfl⟩ := List.mem_map.mp hp
    obtain ⟨hrow, hna⟩ := hpeer.mp hn
    by_cases hnb : n = b
    · rw [hnb]
      rfl
    · exact (hnames.others n hrow hna (fun he => hnb (Table.eq_of_key hrow hb he))
        hassigned).elim
  · refine (hholder x).1 hx fun n hn hnx => ?_
    by_contra hnb
    obtain ⟨hrow, hna⟩ := hpeer.mp hn
    exact halone n hrow hna (fun he => hnb (Table.eq_of_key hrow hb he)) hnx
  · have hsubnet : r.pfx ∈ subnets targetNode.id (networkConfig nodeOrder routeOrder db
        targetNode) := by
      have hin : r ∈ enabledRoutes routeOrder db targetNode := by
        rw [mem_enabledRoutes, hnetwork]
        exact ⟨hr, hnet r hr, hen⟩
      refine List.mem_map.mpr ⟨formattedRoute r, List.mem_filter.mpr
        ⟨List.mem_map_of_mem hin, ?_⟩, rfl⟩
      simp [formattedRoute, hvia, hne]
    obtain ⟨d, hd⟩ := (readable_of_readdresses h.readdresses).2.2 _ hsubnet
    exact ⟨d, (hkernel d).mpr (Or.inr ⟨_, hsubnet, hd⟩), hd⟩

omit [DecidableEq α] [DecidableEq ρ] [DecidableEq π] in
/-- Rows may be rewritten as long as what a config tells of a node, except for its endpoints,
stays. -/
theorem Settled.map {g : NodeModel → NodeModel} (h : Settled env db host a)
    (hg : ∀ n, (g n).id = n.id ∧ (g n).hostname = n.hostname ∧
      (g n).wireguardPublicKey = n.wireguardPublicKey ∧ (g n).meshIpv4 = n.meshIpv4 ∧
      (g n).meshIpv6 = n.meshIpv6)
    (ht : db'.nodes.rows = db.nodes.rows.map g) (hr : db'.subnetRoutes = db.subnetRoutes) :
    Settled env db' host (g a) := by
  obtain ⟨hcarries, hleads⟩ := h
  refine ⟨?_, fun b hb hne => ?_⟩
  · rw [Carries, (hg a).2.2.2.1, (hg a).2.2.2.2]
    exact hcarries
  obtain ⟨b, hbm, rfl⟩ := List.mem_map.mp (ht ▸ hb)
  obtain ⟨hid, hname, hkey, h4, h6⟩ := hg b
  have hlead := hleads b hbm (by rw [hid, (hg a).1] at hne; exact hne)
  have hallotted : ∀ n x, Allotted env db' (g n) x ↔ Allotted env db n x := by
    intro n x
    simp only [Allotted, Routed, (hg n).1, (hg n).2.2.2.1, (hg n).2.2.2.2, hr]
  refine ⟨fun name hnames => ?_, fun x hx halone => ?_, fun x hx => ?_, fun r hrm hen hvia => ?_⟩
  · rw [h4]
    refine hlead.name name ⟨?_, fun n hn hna hnb => ?_⟩
    · rw [← hname]
      exact hnames.own
    · have hgn := hnames.others (g n) (ht ▸ List.mem_map_of_mem hn)
        (by rw [(hg n).1, (hg a).1]; exact hna) (by rw [(hg n).1, hid]; exact hnb)
      rw [(hg n).2.1, (hg n).2.2.2.1] at hgn
      exact hgn
  · rw [hkey]
    refine hlead.held x ((hallotted b x).mp hx) fun n hn hna hnb hnx => ?_
    exact halone (g n) (ht ▸ List.mem_map_of_mem hn) (by rw [(hg n).1, (hg a).1]; exact hna)
      (by rw [(hg n).1, hid]; exact hnb) ((hallotted n x).mpr hnx)
  · rw [hkey] at hx
    exact (hallotted b x).mpr (hlead.trusted x hx)
  · rw [hid] at hvia
    exact hlead.routed r (hr ▸ hrm) hen hvia

/-- The hosts of the nodes that are among the synced ones are settled. -/
def SettledAll (env : String → HostEnv α ρ π) (es : List MeshEvent) (m : Overlay α ρ π) : Prop :=
  ∀ a ∈ m.db.nodes.rows, .synced a.id ∈ es → Settled (env a.id) m.db (m.hosts a.id) a

variable {env : String → HostEnv α ρ π} {m m' : Overlay α ρ π} {e : MeshEvent}
  {es : List MeshEvent}
  {hosts hosts' : String → DaemonHost α ρ π}

/-- The requests among the events. -/
def requestOf : MeshEvent → Option Request
  | .request r => some r
  | _ => none

/-- To the controller a run is the requests in it. -/
theorem exists_served (h : Run (MeshStep env) m es m') :
    ∃ log, Run ServesAs m.db log m'.db ∧ log.map Prod.fst = es.filterMap requestOf := by
  induction h with
  | refl => exact ⟨[], .refl, rfl⟩
  | @tail es m₁ e m₂ _ hs ih =>
    obtain ⟨log, hlog, hrequests⟩ := ih
    cases hs with
    | request r =>
      refine ⟨log ++ [(r, (serve m₁.db r).1)], hlog.tail rfl, ?_⟩
      rw [List.map_append, hrequests, List.filterMap_append]
      rfl
    | synced => exact ⟨log, hlog, by simp [hrequests, requestOf]⟩
    | disturbed => exact ⟨log, hlog, by simp [hrequests, requestOf]⟩

theorem sound_of_mesh (h : Run (MeshStep env) ⟨.empty, hosts⟩ es m) :
    Wellformed m.db ∧ Sound m.db ∧ RoutesInNetwork m.db := by
  obtain ⟨log, hlog, -⟩ := exists_served h
  refine ⟨wellformed_servesAs hlog, ?_, (find_routes_run hlog).2⟩
  refine h.invariant (I := fun m => Sound m.db) sound_empty ?_
  intro m e m' hs hstep
  cases hstep with
  | request r => exact hs.after (.request r)
  | synced => exact hs
  | disturbed => exact hs

omit [DecidableEq α] [DecidableEq ρ] [DecidableEq π] in
/-- A request that is quiet leaves every host settled that was. -/
theorem settledAll_request {r : Request} (hw : Wellformed m.db) (hq : Quiet (.request r))
    (h : SettledAll env es m) : SettledAll env es { m with db := (serve m.db r).2 } := by
  have hans := answers hw r
  generalize (serve m.db r).1 = res at hans
  generalize (serve m.db r).2 = db' at hans ⊢
  cases hans with
  | joined =>
    intro a ha hes
    exact (h a ha hes).map (g := id) (fun _ => ⟨rfl, rfl, rfl, rfl, rfl⟩) (List.map_id _).symm rfl
  | joinTaken => exact h
  | tokenCreated =>
    intro a ha hes
    exact (h a ha hes).map (g := id) (fun _ => ⟨rfl, rfl, rfl, rfl, rfl⟩) (List.map_id _).symm rfl
  | tokenTaken => exact h
  | register => exact hq.elim
  | @beat nodeId req now _ t hn ht =>
    intro a ha hes
    obtain ⟨a, ham, rfl⟩ := List.mem_map.mp (ht ▸ ha)
    have hbeat : ∀ n, (if n.id = nodeId then Api.beat req now n else n).id = n.id := by
      intro n
      split <;> rfl
    rw [hbeat] at hes ⊢
    exact (h a ham hes).map (g := fun n => if n.id = nodeId then Api.beat req now n else n)
      (fun n => by split <;> exact ⟨rfl, rfl, rfl, rfl, rfl⟩) ht rfl
  | beatUnknown => exact h
  | deleted => exact hq.elim
  | deleteUnknown => exact hq.elim
  | routeAdded => exact hq.elim
  | routeTaken => exact hq.elim
  | routeDeleted => exact hq.elim
  | config => exact h
  | renumber => exact hq.elim

theorem settledAll_step (hw : Wellformed m.db) (hs : Sound m.db) (hnet : RoutesInNetwork m.db)
    (hq : Quiet e) (hstep : MeshStep env m e m') (h : SettledAll env es m) :
    SettledAll env (es ++ [e]) m' := by
  cases hstep with
  | request r =>
    intro a ha hes
    have hes' : .synced a.id ∈ es := by simpa using hes
    exact settledAll_request hw hq h a ha hes'
  | @synced nodeOrder routeOrder nodeId c host hc happ =>
    intro a ha hes
    by_cases hid : a.id = nodeId
    · subst hid
      simp only [Function.update_self]
      exact settled_of_applies hw hs hnet ha hc happ
    · have hes' : .synced a.id ∈ es := by simpa [hid] using hes
      simp only [Function.update_of_ne hid]
      exact h a ha hes'
  | disturbed => exact hq.elim

theorem settledAll_run {quiet : List MeshEvent}
    (h : Run (MeshStep env) ⟨.empty, hosts⟩ (es ++ quiet) m) (hq : ∀ e ∈ quiet, Quiet e) :
    SettledAll env quiet m := by
  induction quiet using List.reverseRecOn generalizing m with
  | nil => simp [SettledAll]
  | append_singleton quiet e ih =>
    rw [← List.append_assoc] at h
    obtain ⟨m₁, h₁, hstep⟩ := run_concat_iff.mp h
    obtain ⟨hw, hs, hnet⟩ := sound_of_mesh h₁
    have hall := ih h₁ fun e he => hq e (List.mem_append_left _ he)
    exact settledAll_step hw hs hnet (hq e (by simp)) hstep hall

/-- Whatever requests, syncs and failures came before: when nothing but quiet events have followed,
every node whose daemon has synced among these leads to every other node. -/
theorem mesh_settled {quiet : List MeshEvent}
    (h : Run (MeshStep env) ⟨.empty, hosts⟩ (es ++ quiet) ⟨db, hosts'⟩)
    (hq : ∀ e ∈ quiet, Quiet e) :
    ∀ a ∈ db.nodes.rows, .synced a.id ∈ quiet → Settled (env a.id) db (hosts' a.id) a :=
  settledAll_run h hq

/-- `wg` on `host` knows a prefix by its text. -/
def textPrefixes : HostPrefixes DaemonLifecycle.host where
  host4 a := IPv4Address.str a ++ "/32"
  host6 a := IPv6Address.str a ++ "/128"
  read4 _ := rfl
  read6 _ := rfl
  host4_injective a b h := by
    have h' := congrArg String.toList h
    simp only [String.toList_append, List.append_cancel_right_eq] at h'
    exact IPv4Address.str_injective (String.toList_injective h')
  host6_injective a b h := by
    have h' := congrArg String.toList h
    simp only [String.toList_append, List.append_cancel_right_eq] at h'
    exact IPv6Address.str_injective (String.toList_injective h')
  host4_ne_host6 a b h := by
    have hcolon : ':' ∈ (IPv6Address.str b ++ "/128").toList := by
      simp [IPv6Address.colon_mem_str b]
    have hno : ':' ∉ (IPv4Address.str a ++ "/32").toList := by
      simp [IPv4Address.str_noColon a]
    rw [h] at hno
    exact hno hcolon

def textEnv : HostEnv String String String where
  sys := DaemonLifecycle.host
  prefixes := textPrefixes
  manager := wgManager
  kernel := textKernel
  rt := .ascii

/-- A host before its first sync. -/
def bareHost : DaemonHost String String String where
  device := Holdings.empty
  interface := MeshInterface.empty
  records _ := none

/-- The first sync of a node on `textKernel`. -/
def readdressAs (nodeId : String) (c : NetworkConfigResponse) :
    Option (MeshInterface String String) :=
  InterfaceManager.assignAddresses textKernel c.meshIpv4 (some c.meshIpv6) .empty >>=
    RouteManager.addSubnetRoutes textKernel (subnets nodeId c)

theorem exists_applies {c : NetworkConfigResponse} {nodeId : String}
    (hdone : (sync c Holdings.empty).1 = true) (hd : ∃ d ∈ readdressAs nodeId c, True) :
    ∃ host, Applies textEnv nodeId bareHost c host := by
  obtain ⟨d, hd, -⟩ := hd
  exact ⟨⟨_, d, _⟩, syncs_of_sync hdone, hd, rfl⟩

/-- A heartbeat of the first node. -/
def ownBeat : Request := .heartbeat (idOf ownKey) { nodeId := idOf ownKey } 1

def paired : Database := serveAll .empty [registerKey ownKey, registerKey peerKey]

def beaten : Database := (serve paired ownBeat).2

theorem run_requests (rs : List Request) (db : Database) :
    Run (MeshStep env) ⟨db, hosts⟩ (rs.map .request) ⟨serveAll db rs, hosts⟩ := by
  induction rs generalizing db with
  | nil => exact .refl
  | cons r rs ih => exact (Run.single (.request r)).append (ih (serve db r).2)

theorem run_synced {nodeId : String} {host : DaemonHost α ρ π}
    (hc : ((buildNetworkConfig nodeOrder routeOrder nodeId).run db).1 = .ok c)
    (h : Applies (env nodeId) nodeId (hosts nodeId) c host) :
    Run (MeshStep env) ⟨db, hosts⟩ [.synced nodeId]
      ⟨db, Function.update hosts nodeId host⟩ :=
  .single (.synced (run_eq_of_fst hc) h)

theorem run_synced_request {r : Request} {nodeId : String} {host : DaemonHost α ρ π}
    (hc : ((buildNetworkConfig nodeOrder routeOrder nodeId).run db).1 = .ok c)
    (h : Applies (env nodeId) nodeId (hosts nodeId) c host) :
    Run (MeshStep env) ⟨db, hosts⟩ [.synced nodeId, .request r]
      ⟨(serve db r).2, Function.update hosts nodeId host⟩ :=
  (run_synced hc h).tail (.request r)

/-- Two nodes are registered, the first one syncs, and sends a heartbeat. -/
theorem mesh_settled_pair : ∃ hosts, Run (MeshStep fun _ => textEnv)
    ⟨.empty, fun _ => bareHost⟩
    ([registerKey ownKey, registerKey peerKey].map .request ++
      [.synced (idOf ownKey), .request ownBeat]) ⟨beaten, hosts⟩ ∧
    (hosts (idOf ownKey)).records "node" = some "100.64.0.3" ∧
    (hosts (idOf ownKey)).device.holder "100.64.0.3/32" = some peerKey := by
  have hsync : ∃ c,
      ((buildNetworkConfig .stored .stored (idOf ownKey)).run paired).1 = .ok c ∧
        (sync c Holdings.empty).1 = true ∧ ∃ d ∈ readdressAs (idOf ownKey) c, True := by
    decide +kernel
  have hrows : ∃ a ∈ beaten.nodes.rows, a.id = idOf ownKey ∧
      ∃ b ∈ beaten.nodes.rows, b.id ≠ a.id ∧ b.hostname = "node" ∧
        IPv4Address.str b.meshIpv4 = "100.64.0.3" ∧ b.wireguardPublicKey = peerKey ∧
        ∀ n ∈ beaten.nodes.rows, n.id = a.id ∨ n.id = b.id := by
    decide +kernel
  obtain ⟨c, hc, hdone, hd⟩ := hsync
  obtain ⟨a, ha, hida, b, hb, hne, hname, hip, hkey, hall⟩ := hrows
  obtain ⟨host, happ⟩ := exists_applies hdone hd
  have hrun : Run (MeshStep fun _ => textEnv) ⟨.empty, fun _ => bareHost⟩ _ ⟨beaten, _⟩ :=
    (run_requests [registerKey ownKey, registerKey peerKey] .empty).append
      (run_synced_request hc happ (r := ownBeat))
  have hsettled := mesh_settled hrun (by simp [Quiet, ownBeat]) a ha (by rw [hida]; simp)
  have hun : Unshadowed textEnv beaten a b := by
    intro n hn hna hnb
    exact ((hall n hn).elim hna hnb).elim
  have hnames : Names textEnv beaten a b "node" := by
    refine ⟨?_, fun n hn hna hnb => ((hall n hn).elim hna hnb).elim⟩
    rw [hname]
    decide +kernel
  have hleads := hsettled.2 b hb hne
  have haddr : textEnv.prefixes.host4 b.meshIpv4 = "100.64.0.3/32" := by
    change IPv4Address.str b.meshIpv4 ++ "/32" = "100.64.0.3/32"
    rw [hip]
    decide +kernel
  have hanswer := hleads.name "node" hnames
  have hholder := hleads.held _ (Or.inl rfl) (hun.host4 hb)
  rw [hida, hip] at hanswer
  rw [hida, haddr, hkey] at hholder
  exact ⟨_, hrun, hanswer, hholder⟩

end PyMesh
