import PyMesh.Cli.Routes
import PyMesh.Daemon.Mesh
import PyMesh.Networking.MagicDnsQueries

/-! From a name to the node: the answer of the Magic DNS server, and the way of what is sent to
the address in it; and from `pymesh route add` to the node that the subnet is reached through. -/
namespace PyMesh

open LTS Relational Rfc1035 Text PeerManager WireGuardManager DaemonLifecycle MagicDNSServer
  MagicDNSProtocol

variable {α ρ π : Type} [DecidableEq α] [DecidableEq ρ] [DecidableEq π]

/-- What the host of `a` sends to the addresses of `b` is encrypted for the key of `b`, the host of
`b` takes it from the addresses of `a`, and its own interface has the addresses that it is sent
to. -/
structure Reaches (env : String → HostEnv α ρ π) (hosts : String → DaemonHost α ρ π)
    (a b : NodeModel) : Prop where
  sent4 : (hosts a.id).device.holder ((env a.id).prefixes.host4 b.meshIpv4) =
    some b.wireguardPublicKey
  sent6 : (hosts a.id).device.holder ((env a.id).prefixes.host6 b.meshIpv6) =
    some b.wireguardPublicKey
  taken4 : (hosts b.id).device.holder ((env b.id).prefixes.host4 a.meshIpv4) =
    some a.wireguardPublicKey
  taken6 : (hosts b.id).device.holder ((env b.id).prefixes.host6 a.meshIpv6) =
    some a.wireguardPublicKey
  own : Carries (env b.id) (hosts b.id) b

variable {env : String → HostEnv α ρ π} {db : Database} {hosts hosts' : String → DaemonHost α ρ π}
  {es quiet : List MeshEvent} {a b : NodeModel} {q : SingleQuery}

/-- The response to a query for a name that has a record with an address. -/
theorem verdict_of_record {records : Dict String String} {ip : IPv4Address}
    (h : records (domainName (texts q)) = some (IPv4Address.str ip)) :
    verdict (buildDnsResponse records q.encode) =
      .ok (0, [⟨1, 1, DNSQueryParser.packed ip⟩]) := by
  have hparse := IPv4Address.parse_str ip
  rw [verdict_eq, ipStr_of_name h (ne_empty_of_parse hparse), outcome, hparse]

/-- Whatever requests, syncs and failures came before: when nothing but quiet events have followed,
and the daemons of two nodes have synced among these, a query for a name of the one is answered on
the host of the other with its address, and each of them reaches the other. -/
theorem mesh_path (h : Run (MeshStep env) ⟨.empty, hosts⟩ (es ++ quiet) ⟨db, hosts'⟩)
    (hq : ∀ e ∈ quiet, Quiet e) (ha : a ∈ db.nodes.rows) (hb : b ∈ db.nodes.rows)
    (hne : b.id ≠ a.id) (hsa : .synced a.id ∈ quiet) (hsb : .synced b.id ∈ quiet)
    (hab : Unshadowed (env a.id) db a b) (hba : Unshadowed (env b.id) db b a)
    (hname : Names (env a.id) db a b (domainName (texts q))) :
    verdict (buildDnsResponse (hosts' a.id).records q.encode) =
      .ok (0, [⟨1, 1, DNSQueryParser.packed b.meshIpv4⟩]) ∧
    Reaches env hosts' a b ∧ Reaches env hosts' b a := by
  have hsettled := settledAll_run h hq
  obtain ⟨hcarriesa, hleadsa⟩ := hsettled a ha hsa
  obtain ⟨hcarriesb, hleadsb⟩ := hsettled b hb hsb
  have hfroma := hleadsa b hb hne
  have hfromb := hleadsb a ha hne.symm
  have hab4 := hfroma.held _ (Or.inl rfl) (hab.host4 hb)
  have hab6 := hfroma.held _ (Or.inr (Or.inl rfl)) (hab.host6 hb)
  have hba4 := hfromb.held _ (Or.inl rfl) (hba.host4 ha)
  have hba6 := hfromb.held _ (Or.inr (Or.inl rfl)) (hba.host6 ha)
  refine ⟨verdict_of_record (hfroma.name _ hname), ?_, ?_⟩
  · exact ⟨hab4, hab6, hba4, hba6, hcarriesb⟩
  · exact ⟨hba4, hba6, hab4, hab6, hcarriesa⟩

/-- The label `node`. -/
def nodeLabel : Label := ⟨[110, 111, 100, 101], by decide, by decide⟩

/-- A query for the address of `node.mesh`. -/
def nodeQuery : SingleQuery := .address [nodeLabel, meshLabel]

/-- Two syncs, one after the other. -/
theorem exists_run_synced {x y : String} {c c' : NetworkConfigResponse}
    {host host' : DaemonHost α ρ π} (hxy : y ≠ x)
    (hc : ((buildNetworkConfig .stored .stored x).run db).1 = .ok c)
    (hc' : ((buildNetworkConfig .stored .stored y).run db).1 = .ok c')
    (h : Applies (env x) x (hosts x) c host) (h' : Applies (env y) y (hosts y) c' host') :
    ∃ hosts', Run (MeshStep env) ⟨db, hosts⟩ [.synced x, .synced y] ⟨db, hosts'⟩ := by
  have hy : Applies (env y) y (Function.update hosts x host y) c' host' := by
    rw [Function.update_of_ne hxy]
    exact h'
  exact ⟨_, (run_synced hc h).append (run_synced hc' hy)⟩

/-- Two nodes are registered, and both sync. -/
theorem mesh_path_pair : ∃ hosts, Run (MeshStep fun _ => textEnv) ⟨.empty, fun _ => bareHost⟩
    ([registerKey ownKey, registerKey peerKey].map .request ++
      [.synced (idOf ownKey), .synced (idOf peerKey)]) ⟨paired, hosts⟩ ∧
    verdict (buildDnsResponse (hosts (idOf ownKey)).records nodeQuery.encode) =
      .ok (0, [⟨1, 1, [100, 64, 0, 3]⟩]) ∧
    (hosts (idOf ownKey)).device.holder "100.64.0.3/32" = some peerKey ∧
    (hosts (idOf peerKey)).device.holder "100.64.0.2/32" = some ownKey := by
  have hown : ∃ c, ((buildNetworkConfig .stored .stored (idOf ownKey)).run paired).1 = .ok c ∧
      (sync c Holdings.empty).1 = true ∧ ∃ d ∈ readdressAs (idOf ownKey) c, True := by
    decide +kernel
  have hpeer : ∃ c, ((buildNetworkConfig .stored .stored (idOf peerKey)).run paired).1 = .ok c ∧
      (sync c Holdings.empty).1 = true ∧ ∃ d ∈ readdressAs (idOf peerKey) c, True := by
    decide +kernel
  have hrows : ∃ a ∈ paired.nodes.rows, a.id = idOf ownKey ∧ a.wireguardPublicKey = ownKey ∧
      IPv4Address.str a.meshIpv4 = "100.64.0.2" ∧
      ∃ b ∈ paired.nodes.rows, b.id = idOf peerKey ∧ b.hostname = "node" ∧
        b.wireguardPublicKey = peerKey ∧ IPv4Address.str b.meshIpv4 = "100.64.0.3" ∧
        DNSQueryParser.packed b.meshIpv4 = [100, 64, 0, 3] ∧
        ∀ n ∈ paired.nodes.rows, n.id = a.id ∨ n.id = b.id := by
    decide +kernel
  have hids : idOf peerKey ≠ idOf ownKey := by decide +kernel
  obtain ⟨c, hc, hdone, hd⟩ := hown
  obtain ⟨c', hc', hdone', hd'⟩ := hpeer
  obtain ⟨a, ha, hida, hkeya, hipa, b, hb, hidb, hname, hkeyb, hipb, hpacked, hall⟩ := hrows
  obtain ⟨host, happ⟩ := exists_applies hdone hd
  obtain ⟨host', happ'⟩ := exists_applies hdone' hd'
  obtain ⟨hosts, hsynced⟩ : ∃ hosts, Run (MeshStep fun _ => textEnv) ⟨paired, fun _ => bareHost⟩
      [.synced (idOf ownKey), .synced (idOf peerKey)] ⟨paired, hosts⟩ :=
    exists_run_synced hids hc hc' happ happ'
  have hrun := (run_requests [registerKey ownKey, registerKey peerKey] .empty).append hsynced
  have hab : Unshadowed textEnv paired a b :=
    fun n hn hna hnb => ((hall n hn).elim hna hnb).elim
  have hba : Unshadowed textEnv paired b a :=
    fun n hn hnb hna => ((hall n hn).elim hna hnb).elim
  have hnames : Names textEnv paired a b (domainName (texts nodeQuery)) := by
    refine ⟨?_, fun n hn hna hnb => ((hall n hn).elim hna hnb).elim⟩
    rw [hname]
    decide +kernel
  have hne : b.id ≠ a.id := by
    rw [hida, hidb]
    exact hids
  have haddr : ∀ ip, textEnv.prefixes.host4 ip = IPv4Address.str ip ++ "/32" := fun _ => rfl
  obtain ⟨hanswer, hreaches, -⟩ := mesh_path hrun (by simp [Quiet]) ha hb hne (by simp [hida])
    (by simp [hidb]) hab hba hnames
  have hsent := hreaches.sent4
  have htaken := hreaches.taken4
  rw [haddr, hipb, hkeyb, hida] at hsent
  rw [haddr, hipa, hkeya, hidb] at htaken
  rw [hida, hpacked] at hanswer
  exact ⟨_, hrun, hanswer, hsent, htaken⟩

section Routes

variable {db₀ db₁ : Database} {hosts₀ hosts₁ : String → DaemonHost α ρ π}
  {es₀ es₁ es₂ : List MeshEvent} {identity : NodeIdentity} {subnet viaNode uuid : String}
  {order : RowOrder NodeModel} {route : SubnetRouteModel} {answer : Response} {id : String}
  {row : SubnetRoute}

theorem find_route_mesh (h : Run (MeshStep env) ⟨db, hosts⟩ es ⟨db₁, hosts₁⟩) (hw : Wellformed db)
    (hr : db.subnetRoutes.find id = some row) (hkept : .request (.deleteRoute id) ∉ es) :
    db₁.subnetRoutes.find id = some row := by
  obtain ⟨log, hlog, hrequests⟩ := exists_served h
  refine find_route_run hlog hw hr fun x hx hdel => hkept ?_
  have hin : x.1 ∈ es.filterMap requestOf := hrequests ▸ List.mem_map_of_mem hx
  obtain ⟨e, he, hxe⟩ := List.mem_filterMap.mp hin
  cases e with
  | request r => rwa [← hdel, ← Option.some.inj hxe]
  | synced => cases hxe
  | disturbed => cases hxe

theorem run_posted {r : Request} (h : Run (MeshStep env) ⟨db, hosts⟩ es ⟨db₀, hosts₀⟩)
    (h' : Run (MeshStep env) ⟨(serve db₀ r).2, hosts₀⟩ es₁ ⟨db₁, hosts₁⟩) :
    Run (MeshStep env) ⟨db, hosts⟩ (es ++ [.request r] ++ es₁) ⟨db₁, hosts₁⟩ :=
  (h.tail (.request r)).append h'

/-- `pymesh route add` posts its route, and later nothing but quiet events have followed, among
them a sync of `a`: the subnet is routed to the mesh interface of `a`, and what is sent to a prefix
in it that no other peer has is encrypted for the key of the node `b` that the route is via. That
node had the given name when the command looked, or else the given id. -/
theorem route_path (h₀ : Run (MeshStep env) ⟨.empty, hosts⟩ es₀ ⟨db₀, hosts₀⟩)
    (h₁ : Run (MeshStep env) ⟨db₀, hosts₀⟩ es₁ ⟨db₁, hosts₁⟩)
    (hadd : handleRouteAdd identity subnet viaNode (nodesListing order db₀) = some route)
    (hpost : (serve db₁ (.addRoute route uuid)).1 = .ok answer)
    (h₂ : Run (MeshStep env) ⟨(serve db₁ (.addRoute route uuid)).2, hosts₁⟩ (es₂ ++ quiet)
      ⟨db, hosts'⟩)
    (hq : ∀ e ∈ quiet, Quiet e)
    (hkept : .request (.deleteRoute ("route-" ++ uuid)) ∉ es₂)
    (ha : a ∈ db.nodes.rows) (hb : b ∈ db.nodes.rows) (hne : b.id ≠ a.id)
    (hvia : b.id = route.viaNodeId) (hsa : .synced a.id ∈ quiet) :
    ((∃ n ∈ db₀.nodes.rows, n.hostname = viaNode ∧ n.id = b.id) ∨
      (∀ n ∈ db₀.nodes.rows, n.hostname ≠ viaNode) ∧ b.id = viaNode) ∧
    (∃ d ∈ (hosts' a.id).interface.routes, (env a.id).kernel.readRoute subnet = some d) ∧
    ∀ s ∈ split subnet ',', ∀ x, (env a.id).sys.readIp s = some x →
      Unshared (env a.id) db a b x →
      (hosts' a.id).device.holder x = some b.wireguardPublicKey := by
  obtain ⟨hid, rfl, -, hen, hnamed⟩ := handleRouteAdd_cases hadd
  have hbefore := h₀.append h₁
  have hposted := hbefore.tail (.request (.addRoute route uuid))
  have hdb : ServesAs db₁ (.addRoute route uuid, .ok answer)
      (serve db₁ (.addRoute route uuid)).2 := servesAs_of_fst hpost
  have hrow : db.subnetRoutes.find ("route-" ++ uuid) = some (Api.dbRoute route uuid) := by
    refine find_route_mesh h₂ (sound_of_mesh hposted).1
      (find_posted hdb (sound_of_mesh hbefore).1 hid) fun hdel => ?_
    rcases List.mem_append.mp hdel with hdel | hdel
    · exact hkept hdel
    · exact hq _ hdel
  obtain ⟨hrows, -⟩ := Table.find_eq_some_iff.mp hrow
  have hall := run_posted hbefore h₂
  rw [← List.append_assoc] at hall
  have hleads := (settledAll_run hall hq a ha hsa).2 b hb hne
  rw [← hvia] at hnamed
  refine ⟨hnamed, hleads.routed _ hrows hen hvia.symm, fun s hs x hx => ?_⟩
  exact hleads.held x (Or.inr (Or.inr ⟨_, hrows, hen, hvia.symm, s, hs, hx⟩))

/-- A tunnel to the first of two nodes. -/
def meshTunnel : SubnetRouteModel :=
  { pfx := "10.9.0.0/16", viaNodeId := idOf ownKey, advertisedBy := "ops" }

def tunneled : Database := (serve paired (.addRoute meshTunnel "5f2c81d0")).2

/-- Two nodes are registered, a route via the first one is added, and the second one syncs. -/
theorem route_path_pair : ∃ hosts, Run (MeshStep fun _ => textEnv) ⟨.empty, fun _ => bareHost⟩
    ([registerKey ownKey, registerKey peerKey].map .request ++
      [.request (.addRoute meshTunnel "5f2c81d0")] ++ [.synced (idOf peerKey)])
      ⟨tunneled, hosts⟩ ∧
    "10.9.0.0/16" ∈ (hosts (idOf peerKey)).interface.routes ∧
    (hosts (idOf peerKey)).device.holder "10.9.0.0/16" = some ownKey := by
  have hadd : handleRouteAdd operator "10.9.0.0/16" "node" (nodesListing .stored paired) =
      some meshTunnel := by
    decide +kernel
  have hpost : ∃ answer, (serve paired (.addRoute meshTunnel "5f2c81d0")).1 = .ok answer ∧
      True := by
    decide +kernel
  have hsync : ∃ c, ((buildNetworkConfig .stored .stored (idOf peerKey)).run tunneled).1 = .ok c ∧
      (sync c Holdings.empty).1 = true ∧ ∃ d ∈ readdressAs (idOf peerKey) c, True := by
    decide +kernel
  have hrows : ∃ a ∈ tunneled.nodes.rows, a.id = idOf peerKey ∧
      ∃ b ∈ tunneled.nodes.rows, b.id = idOf ownKey ∧ b.wireguardPublicKey = ownKey ∧
        ∀ n ∈ tunneled.nodes.rows, n.id = a.id ∨ n.id = b.id := by
    decide +kernel
  have hids : idOf ownKey ≠ idOf peerKey := by decide +kernel
  obtain ⟨answer, hpost, -⟩ := hpost
  obtain ⟨c, hc, hdone, hd⟩ := hsync
  obtain ⟨a, ha, hida, b, hb, hidb, hkeyb, hall⟩ := hrows
  obtain ⟨host, happ⟩ := exists_applies hdone hd
  have hpaired : Run (MeshStep fun _ => textEnv) ⟨.empty, fun _ => bareHost⟩
      ([registerKey ownKey, registerKey peerKey].map .request) ⟨paired, fun _ => bareHost⟩ :=
    run_requests [registerKey ownKey, registerKey peerKey] .empty
  have hsynced : Run (MeshStep fun _ => textEnv) ⟨tunneled, fun _ => bareHost⟩
      ([] ++ [.synced (idOf peerKey)]) ⟨tunneled, _⟩ := run_synced hc happ
  have hun : Unshared textEnv tunneled a b "10.9.0.0/16" :=
    fun n hn hna hnb => ((hall n hn).elim hna hnb).elim
  have hne : b.id ≠ a.id := by
    rw [hida, hidb]
    exact hids
  obtain ⟨-, ⟨d, hroute, hread⟩, hholder⟩ := route_path hpaired .refl hadd hpost hsynced
    (by simp [Quiet]) (by simp) ha hb hne hidb (by simp [hida])
  rw [hida, ← Option.some.inj hread] at hroute
  have hheld := hholder "10.9.0.0/16" (by decide +kernel) "10.9.0.0/16" rfl hun
  rw [hida, hkeyb] at hheld
  exact ⟨_, run_posted hpaired hsynced, hroute, hheld⟩

end Routes

end PyMesh
