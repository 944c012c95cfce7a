import PyMesh.Controller.Closure
import PyMesh.Networking.Wireguard

/-! What the syncs of a daemon leave on its WireGuard interface. -/
namespace PyMesh

open LTS Text PeerManager

namespace DaemonLifecycle

variable {π : Type} [DecidableEq π]

/-- The entry of `peer_dicts` for a peer of the config. -/
def peerDict (p : PeerConfig) : PeerDict where
  publicKey := p.publicKey
  allowedIps := p.allowedIps
  endpoint := p.endpoints.head?
  persistentKeepalive := p.persistentKeepalive

def peerDicts (config : NetworkConfigResponse) : List PeerDict := config.peers.map peerDict

/-- A sync that has fetched `config`, found the `wg` tool, and none of whose commands has
failed. -/
def Syncs (sys : System π) (m : WireGuardManager) (d : Device π) (config : NetworkConfigResponse)
    (d' : Device π) : Prop :=
  m.dryRun = false ∧ sys.which = true ∧
    WireGuardManager.runCommands sys ((peerDicts config).map m.command) d = (true, d')

/-- The allowed IPs of a peer of the config, each entry as `wg` reads it. -/
def allowed (sys : System π) (p : PeerConfig) : List π :=
  p.allowedIps.flatMap fun s => (split s ',').filterMap sys.readIp

/-- The peers of the config with their allowed IPs. -/
def entries (sys : System π) (config : NetworkConfigResponse) : List (String × List π) :=
  config.peers.map fun p => (p.publicKey, allowed sys p)

variable {sys : System π} {m : WireGuardManager} {d d' : Device π}
  {config c : NetworkConfigResponse} {cs : List NetworkConfigResponse} {p : PeerConfig}
  {db : Database} {nodeOrder : RowOrder NodeModel} {routeOrder : RowOrder SubnetRoute}
  {nodeId k : String}

theorem syncPeers_of_syncs (h : Syncs sys m d config d') :
    WireGuardManager.syncPeers sys m (peerDicts config) d = (true, d') :=
  WireGuardManager.syncPeers_of_runCommands h.1 h.2.1 h.2.2

theorem eq_of_syncs (h : Syncs sys m d config d') : d' = d.assignAll
    ((peerDicts config).map fun p => (p.publicKey, WireGuardManager.requested sys p)) :=
  WireGuardManager.runCommands_eq h.2.2

/-- A sync makes peers and never removes one. -/
theorem member_of_syncs (h : Syncs sys m d config d') : d'.member k = true ↔
    k ∈ config.peers.map PeerConfig.publicKey ∨ d.member k = true := by
  rw [eq_of_syncs h, Holdings.member_assignAll]
  simp [peerDicts, peerDict, Function.comp_def]

/-- After any syncs the peers are those of all the configs together. -/
theorem member_of_run (h : Run (Syncs sys m) Holdings.empty cs d) : d.member k = true ↔
    ∃ e ∈ cs, k ∈ e.peers.map PeerConfig.publicKey := by
  induction h with
  | refl => simp [Holdings.empty]
  | tail _ hs ih =>
    rw [member_of_syncs hs, ih]
    constructor
    · rintro (hk | ⟨e, he, hk⟩)
      · exact ⟨_, by simp, hk⟩
      · exact ⟨e, List.mem_append_left _ he, hk⟩
    · rintro ⟨e, he, hk⟩
      rcases List.mem_append.mp he with he | he
      · exact Or.inr ⟨e, he, hk⟩
      · rw [List.mem_singleton.mp he] at hk
        exact Or.inl hk

omit [DecidableEq π] in
/-- A peer that the controller has built has a mesh address, so the default of the command is
not used. -/
theorem requested_peerConfig (routes : List SubnetRoute) (n : NodeModel) :
    WireGuardManager.requested sys (peerDict (peerConfig routes n)) =
      allowed sys (peerConfig routes n) := by
  have hne : (peerConfig routes n).allowedIps ≠ [] := by simp [peerConfig, allowedIps]
  have hjoin : join ',' (peerConfig routes n).allowedIps ≠ "" := by
    intro h
    have hl := congrArg String.toList h
    rw [toList_join] at hl
    simp [peerConfig, allowedIps, List.intercalate_cons_cons] at hl
  have htext : WireGuardManager.ipsText (peerDict (peerConfig routes n)) =
      join ',' (peerConfig routes n).allowedIps := by
    rw [WireGuardManager.ipsText, peerDict, truthy_some hjoin, Option.getD_some]
  rw [WireGuardManager.requested, htext, split_join_eq_flatMap hne, allowed,
    List.filterMap_flatMap]

omit [DecidableEq π] in
theorem requested_eq (hc : (buildNetworkConfig nodeOrder routeOrder nodeId).run db = (.ok c, db)) :
    ((peerDicts c).map fun p => (p.publicKey, WireGuardManager.requested sys p)) =
      entries sys c := by
  obtain ⟨targetNode, -, -, rfl⟩ := exists_target hc
  simp only [peerDicts, entries, networkConfig, List.map_map]
  refine List.map_congr_left fun n _ => ?_
  simp only [Function.comp, requested_peerConfig]
  rfl

/-- Whatever configs came before, a sync leaves exactly the peers of its config if and only if
it has a peer for every key that came before, and no two of its peers compete for a prefix. -/
theorem synced_peers_iff
    (hc : (buildNetworkConfig nodeOrder routeOrder nodeId).run db = (.ok c, db))
    (h : Run (Syncs sys m) Holdings.empty cs d) (hs : Syncs sys m d c d') :
    d'.view = Holdings.stated (entries sys c) ↔
      (∀ e ∈ cs, ∀ p ∈ e.peers, p.publicKey ∈ c.peers.map PeerConfig.publicKey) ∧
        Holdings.Consistent (entries sys c) := by
  have hkeys : (entries sys c).map Prod.fst = c.peers.map PeerConfig.publicKey := by
    simp [entries, Function.comp_def]
  rw [eq_of_syncs hs, requested_eq hc, Holdings.view_assignAll_iff, hkeys]
  refine and_congr_left fun _ => ?_
  constructor
  · intro hold e he p hp
    exact hold p.publicKey ((member_of_run h).mpr ⟨e, he, List.mem_map_of_mem hp⟩)
  · intro hall k hk
    obtain ⟨e, he, hke⟩ := (member_of_run h).mp hk
    obtain ⟨p, hp, rfl⟩ := List.mem_map.mp hke
    exact hall e he p hp

/-- A host on which every command succeeds and an allowed IP is known by its text. -/
def host : System String where
  which := true
  readIp := some
  accepts _ := true
  netlink _ _ _ := none

def wgManager : WireGuardManager := ⟨"pymesh0", false⟩

def ownKey : String := "AQAAAAAAAAAAAAAAAAAAAAAAAAAAAAAAAAAAAAAAAAA="

def peerKey : String := "AgAAAAAAAAAAAAAAAAAAAAAAAAAAAAAAAAAAAAAAAAA="

def thirdKey : String := "AwAAAAAAAAAAAAAAAAAAAAAAAAAAAAAAAAAAAAAAAAA="

def idOf (publicKey : String) : String := (deriveNodeId publicKey).toOption.getD ""

/-- What the daemon of `ownKey` fetches after the requests. -/
def fetched (rs : List Request) : Except Exc NetworkConfigResponse :=
  ((buildNetworkConfig .stored .stored (idOf ownKey)).run (serveAll .empty rs)).1

/-- The sync on `host`. -/
def sync (c : NetworkConfigResponse) (d : Device String) : Bool × Device String :=
  WireGuardManager.runCommands host ((peerDicts c).map wgManager.command) d

theorem syncs_of_sync {c : NetworkConfigResponse} {d : Device String} (h : (sync c d).1 = true) :
    Syncs host wgManager d c (sync c d).2 :=
  ⟨rfl, rfl, Prod.ext h rfl⟩

/-- A third node is added between two syncs. -/
theorem synced_peers_iff_added : ∃ c₁ c d d',
    fetched [registerKey ownKey, registerKey peerKey] = .ok c₁ ∧
    fetched [registerKey ownKey, registerKey peerKey, registerKey thirdKey] = .ok c ∧
    Run (Syncs host wgManager) Holdings.empty [c₁] d ∧ Syncs host wgManager d c d' ∧
    d'.view = Holdings.stated (entries host c) := by
  have h : ∃ c₁, fetched [registerKey ownKey, registerKey peerKey] = .ok c₁ ∧
      (sync c₁ Holdings.empty).1 = true ∧
      ∃ c, fetched [registerKey ownKey, registerKey peerKey, registerKey thirdKey] = .ok c ∧
        (sync c (sync c₁ Holdings.empty).2).1 = true ∧
        (∀ e ∈ [c₁], ∀ p ∈ e.peers, p.publicKey ∈ c.peers.map PeerConfig.publicKey) ∧
        Holdings.Consistent (entries host c) := by
    decide +kernel
  obtain ⟨c₁, hc₁, hs₁, c, hc, hs, hcond⟩ := h
  have hrun := Run.single (syncs_of_sync hs₁)
  have hlast := syncs_of_sync hs
  exact ⟨c₁, c, _, _, hc₁, hc, hrun, hlast,
    (synced_peers_iff (run_eq_of_fst hc) hrun hlast).mpr hcond⟩

/-- The other node is deleted between two syncs, and its key stays a peer. -/
theorem synced_peers_fails : ∃ c₁ c d d',
    fetched [registerKey ownKey, registerKey peerKey] = .ok c₁ ∧
    fetched [registerKey ownKey, registerKey peerKey, .deleteNode (idOf peerKey)] = .ok c ∧
    Run (Syncs host wgManager) Holdings.empty [c₁] d ∧ Syncs host wgManager d c d' ∧
    c.peers = [] ∧ d'.member peerKey = true ∧ d'.view ≠ Holdings.stated (entries host c) := by
  have h : ∃ c₁, fetched [registerKey ownKey, registerKey peerKey] = .ok c₁ ∧
      (sync c₁ Holdings.empty).1 = true ∧
      ∃ c, fetched [registerKey ownKey, registerKey peerKey, .deleteNode (idOf peerKey)] = .ok c ∧
        (sync c (sync c₁ Holdings.empty).2).1 = true ∧ c.peers = [] ∧
        (sync c (sync c₁ Holdings.empty).2).2.member peerKey = true := by
    decide +kernel
  obtain ⟨c₁, hc₁, hs₁, c, hc, hs, hnil, hmem⟩ := h
  refine ⟨c₁, c, _, _, hc₁, hc, .single (syncs_of_sync hs₁), syncs_of_sync hs, hnil, hmem, ?_⟩
  intro hv
  have hstated : (peerKey, {a | (sync c (sync c₁ Holdings.empty).2).2.holder a = some peerKey}) ∈
      Holdings.stated (entries host c) := by
    rw [← hv]
    exact ⟨hmem, rfl⟩
  obtain ⟨y, hy, -⟩ := hstated
  simp [entries, hnil] at hy

end DaemonLifecycle

end PyMesh
