import PyMesh.Daemon.Paths

/-! The commands that reach a node by its name: `pymesh ping`, `ssh` and `forward`. -/
namespace PyMesh

open LTS Text PeerManager DaemonLifecycle

/-- What `handle_ping`, `handle_ssh` and `handle_forward` connect to, after this reply to
`GET /nodes`. Whatever is raised before an address is found leaves the target as it was given. -/
def targetIp (identity : NodeIdentity) (target : String) (reply : HttpReply NodeEntry) : String :=
  match truthy identity.controllerUrl with
  | none => target
  | some _ =>
    match reply with
    | .ok nodes =>
      match fieldOf NodeEntry.meshIpv4 target nodes with
      | .ok ip => ip
      | .error _ => target
    | .status _ => target
    | .raised _ => target

/-- The command that `handle_ping` runs. -/
def handlePing (identity : NodeIdentity) (target : String) (reply : HttpReply NodeEntry) :
    List String :=
  ["ping", "-c", "4", targetIp identity target reply]

/-- The command that `handle_ssh` becomes. -/
def handleSsh (identity : NodeIdentity) (target : String) (reply : HttpReply NodeEntry) :
    List String :=
  ["ssh", targetIp identity target reply]

/-- What `asyncio.start_server` does with a local port. -/
inductive StartServer where
  | bound
  | osError
  /-- No `OSError`, as where the port is out of range: the command ends with it. -/
  | raised

/-- The first of these ports that can be bound. -/
def boundPort (startServer : Int → StartServer) : List Int → Option Int
  | [] => none
  | port :: ports =>
    match startServer port with
    | .bound => some port
    | .osError => boundPort startServer ports
    | .raised => none

/-- The local and the remote port, where `int` reads both. -/
def readPorts (ports : String) : Option (Int × Int) :=
  if ':' ∈ ports.toList then do
    let reqLocalPort ← readInt ((split ports ':').headD "")
    let remotePort ← readInt (afterFirst ports ':')
    return (reqLocalPort, remotePort)
  else (readInt ports).map fun port => (port, port)

/-- The local port that `forward_stream` is served on, and what it opens a connection to. -/
structure ForwardStream where
  boundPort : Int
  targetIp : String
  remotePort : Int
deriving DecidableEq

/-- What `handle_forward` serves, if it comes to serve anything. -/
def handleForward (startServer : Int → StartServer) (identity : NodeIdentity)
    (target ports : String) (reply : HttpReply NodeEntry) : Option ForwardStream := do
  let (reqLocalPort, remotePort) ← readPorts ports
  let port ← boundPort startServer ((List.range 100).map fun i => reqLocalPort + i)
  return ⟨port, targetIp identity target reply, remotePort⟩

variable {db : Database} {order : RowOrder NodeModel} {identity : NodeIdentity}
  {target url : String}

/-- Whatever the ports are, every connection is forwarded to the target that `pymesh ping` has. -/
theorem targetIp_of_handleForward {startServer : Int → StartServer} {ports : String}
    {reply : HttpReply NodeEntry} {f : ForwardStream}
    (h : handleForward startServer identity target ports reply = some f) :
    f.targetIp = targetIp identity target reply := by
  obtain ⟨ps, -, h⟩ := Option.bind_eq_some_iff.mp h
  obtain ⟨port, -, h⟩ := Option.bind_eq_some_iff.mp h
  obtain rfl := Option.some.inj h
  rfl

theorem targetIp_cases (db : Database) (order : RowOrder NodeModel) (target : String)
    (hurl : truthy identity.controllerUrl = some url) :
    (∃ n ∈ db.nodes.rows, n.hostname = target ∧
      targetIp identity target (nodesListing order db) = IPv4Address.str n.meshIpv4) ∨
    (∀ n ∈ db.nodes.rows, n.hostname ≠ target) ∧
      targetIp identity target (nodesListing order db) = target := by
  obtain ⟨v, hv, hfound⟩ := fieldOf_ok NodeEntry.meshIpv4 target (order.arrange db.nodes.rows)
  simp only [order.mem] at hfound
  simp only [targetIp, hurl, nodesListing_eq, hv]
  rcases hfound with ⟨n, hn, hname, rfl⟩ | hnone
  · exact Or.inl ⟨n, hn, hname, rfl⟩
  · exact Or.inr hnone

variable {α ρ π : Type} [DecidableEq α] [DecidableEq ρ] [DecidableEq π]
  {env : String → HostEnv α ρ π} {hosts hosts' : String → DaemonHost α ρ π}
  {es quiet : List MeshEvent} {a : NodeModel}

/-- What a command of `a` connects to, when nothing but quiet events have come after whatever came
before, and the daemon of `a` has synced among these: the target itself if no node has this name,
and otherwise the address of a node that has it. `pymesh forward` opens every connection to this
one too. When it is another node and no route is in the way,
what is sent to it is encrypted for its key; and every name that this node alone has is answered
with the same address by the Magic DNS server of `a`. -/
theorem target_path (h : Run (MeshStep env) ⟨.empty, hosts⟩ (es ++ quiet) ⟨db, hosts'⟩)
    (hq : ∀ e ∈ quiet, Quiet e) (ha : a ∈ db.nodes.rows) (hsa : .synced a.id ∈ quiet)
    (hurl : truthy identity.controllerUrl = some url) :
    ∃ ip, handlePing identity target (nodesListing order db) = ["ping", "-c", "4", ip] ∧
      handleSsh identity target (nodesListing order db) = ["ssh", ip] ∧
      (∀ startServer ports f, handleForward startServer identity target ports
        (nodesListing order db) = some f → f.targetIp = ip) ∧
      ((∀ n ∈ db.nodes.rows, n.hostname ≠ target) ∧ ip = target ∨
        ∃ b ∈ db.nodes.rows, b.hostname = target ∧ ip = IPv4Address.str b.meshIpv4 ∧
          (b.id ≠ a.id → Unshadowed (env a.id) db a b →
            (hosts' a.id).device.holder ((env a.id).prefixes.host4 b.meshIpv4) =
              some b.wireguardPublicKey) ∧
          (b.id ≠ a.id → ∀ name, Names (env a.id) db a b name →
            (hosts' a.id).records name = some ip)) := by
  refine ⟨_, rfl, rfl, fun _ _ _ => targetIp_of_handleForward, ?_⟩
  rcases targetIp_cases db order target hurl with ⟨b, hb, hname, hip⟩ | hnone
  · have hleads := (settledAll_run h hq a ha hsa).2 b hb
    refine Or.inr ⟨b, hb, hname, hip, fun hne hun => ?_, fun hne name hnames => ?_⟩
    · exact (hleads hne).held _ (Or.inl rfl) (hun.host4 hb)
    · rw [hip]
      exact (hleads hne).name name hnames
  · exact Or.inl hnone

/-- A node named `edge`, and another one. -/
def edgeAndPeer : List Request :=
  [.registerNode none { hostname := "edge", publicKey := ownKey } 0, registerKey peerKey]

/-- The two nodes are registered, the second one syncs, and `pymesh ping edge` is run there, and
`pymesh forward edge 8080:80` while the port 8080 is taken. -/
theorem target_path_edge : ∃ hosts, Run (MeshStep fun _ => textEnv) ⟨.empty, fun _ => bareHost⟩
    (edgeAndPeer.map .request ++ [.synced (idOf peerKey)]) ⟨serveAll .empty edgeAndPeer, hosts⟩ ∧
    handlePing operator "edge" (nodesListing .stored (serveAll .empty edgeAndPeer)) =
      ["ping", "-c", "4", "100.64.0.2"] ∧
    handleForward (fun port => if port = 8080 then .osError else .bound) operator "edge" "8080:80"
      (nodesListing .stored (serveAll .empty edgeAndPeer)) = some ⟨8081, "100.64.0.2", 80⟩ ∧
    (hosts (idOf peerKey)).device.holder "100.64.0.2/32" = some ownKey := by
  have hsync : ∃ c, ((buildNetworkConfig .stored .stored (idOf peerKey)).run
        (serveAll .empty edgeAndPeer)).1 = .ok c ∧
      (sync c Holdings.empty).1 = true ∧ ∃ d ∈ readdressAs (idOf peerKey) c, True := by
    decide +kernel
  have hrows : ∃ a ∈ (serveAll .empty edgeAndPeer).nodes.rows, a.id = idOf peerKey ∧
      (∃ n ∈ (serveAll .empty edgeAndPeer).nodes.rows, n.hostname = "edge") ∧
      ∀ b ∈ (serveAll .empty edgeAndPeer).nodes.rows, b.hostname = "edge" →
        b.id ≠ a.id ∧ b.wireguardPublicKey = ownKey ∧
          IPv4Address.str b.meshIpv4 = "100.64.0.2" ∧
          ∀ n ∈ (serveAll .empty edgeAndPeer).nodes.rows, n.id = a.id ∨ n.id = b.id := by
    decide +kernel
  obtain ⟨c, hc, hdone, hd⟩ := hsync
  obtain ⟨a, ha, hida, ⟨n, hn, hnamed⟩, hedge⟩ := hrows
  obtain ⟨host, happ⟩ := exists_applies hdone hd
  have hsynced : Run (MeshStep fun _ => textEnv) ⟨serveAll .empty edgeAndPeer, fun _ => bareHost⟩
      [.synced (idOf peerKey)] ⟨serveAll .empty edgeAndPeer, _⟩ := run_synced hc happ
  have hrun := (run_requests edgeAndPeer .empty).append hsynced
  obtain ⟨f, hforward, hports⟩ : ∃ f, handleForward
      (fun port => if port = 8080 then .osError else .bound) operator "edge" "8080:80"
      (nodesListing .stored (serveAll .empty edgeAndPeer)) = some f ∧
      f.boundPort = 8081 ∧ f.remotePort = 80 := ⟨_, rfl, by decide +kernel⟩
  obtain ⟨ip, hping, -, hto, ⟨hnone, -⟩ | ⟨b, hb, hname, rfl, hheld, -⟩⟩ := target_path hrun
    (by simp [Quiet]) ha (by simp [hida]) (show truthy operator.controllerUrl = some _ from rfl)
  · exact (hnone n hn hnamed).elim
  obtain ⟨hne, hkey, hip, hall⟩ := hedge b hb hname
  have hun : Unshadowed textEnv (serveAll .empty edgeAndPeer) a b :=
    fun n hn hna hnb => ((hall n hn).elim hna hnb).elim
  have hholder := hheld hne hun
  have haddr : textEnv.prefixes.host4 b.meshIpv4 = "100.64.0.2/32" := by
    change IPv4Address.str b.meshIpv4 ++ "/32" = "100.64.0.2/32"
    rw [hip]
    decide +kernel
  rw [haddr, hkey, hida] at hholder
  have htarget := hto _ _ f hforward
  rw [hip] at hping htarget
  have hf : f = ⟨8081, "100.64.0.2", 80⟩ := by
    rw [← hports.1, ← hports.2, ← htarget]
  rw [hf] at hforward
  exact ⟨_, hrun, hping, hforward, hholder⟩

end PyMesh
