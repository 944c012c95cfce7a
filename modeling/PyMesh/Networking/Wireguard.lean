import PyMesh.Library.FailStop
import PyMesh.Library.Holdings
import PyMesh.Library.Text
import PyMesh.Protocol.Messages

/-! `WireGuardManager.sync_peers`: the commands it builds, and what they do to an interface. -/
namespace PyMesh

open Text

/-- A peer as `sync_peers` is given it. -/
structure PeerDict where
  publicKey : String
  allowedIps : List String := []
  endpoint : Option String := none
  persistentKeepalive : Int := 25

/-- A peer as it is handed to pyroute2. -/
structure NetlinkPeer where
  publicKey : String
  allowedIps : List String
  persistentKeepalive : Int
  endpoint : Option (String × Int)

/-- The peers of an interface by their public keys, and which peer each allowed IP leads to. -/
abbrev Device (π : Type) := Holdings String π

/-- What the code finds on the host. -/
structure System (π : Type) where
  /-- `shutil.which("wg")` -/
  which : Bool
  /-- How `wg` reads an entry of `allowed-ips`. -/
  readIp : String → Option π
  /-- Whether `wg` takes the key, the endpoint and the keepalive of a command. -/
  accepts : List String → Bool
  /-- `WireGuard().set(interface_name, peer=…)`; `none` when it raises. -/
  netlink : String → List NetlinkPeer → Device π → Option (Device π)

structure WireGuardManager where
  interfaceName : String
  dryRun : Bool

namespace WireGuardManager

variable {π : Type} [DecidableEq π]

/-- `",".join(p.get("allowed_ips", [])) or "0.0.0.0/0"`. -/
def ipsText (p : PeerDict) : String :=
  (truthy (some (join ',' p.allowedIps))).getD "0.0.0.0/0"

/-- `cmd` -/
def command (m : WireGuardManager) (p : PeerDict) : List String :=
  ["wg", "set", m.interfaceName, "peer", p.publicKey, "allowed-ips", ipsText p] ++
    (match truthy p.endpoint with
      | some endpoint => ["endpoint", endpoint]
      | none => []) ++
    ["persistent-keepalive", toString p.persistentKeepalive]

/-- `wg set <interface> peer K allowed-ips L …`: `K` becomes a peer if it is none yet, and the
prefixes of `L` lead to it and no others. -/
def wgSet (sys : System π) (cmd : List String) (d : Device π) : Option (Device π) :=
  match cmd with
  | "wg" :: "set" :: _ :: "peer" :: key :: "allowed-ips" :: ips :: _ =>
    if sys.accepts cmd then ((split ips ',').mapM sys.readIp).map fun l => d.assign key l
    else none
  | _ => none

/-- `subprocess.run(cmd, check=True)` for one command after the other, until one fails. -/
def runCommands (sys : System π) : List (List String) → Device π → Bool × Device π
  | [], d => (true, d)
  | cmd :: cmds, d => match wgSet sys cmd d with
    | none => (false, d)
    | some d => runCommands sys cmds d

/-- `peer_dict`; `none` when the port of the endpoint is no number. -/
def netlinkPeer (p : PeerDict) : Option NetlinkPeer := do
  let endpoint ← match truthy p.endpoint with
    | none => some none
    | some ep =>
      if ':' ∈ ep.toList then (readInt (rsplit ep ':').2).map fun port => some ((rsplit ep ':').1, port)
      else some none
  return ⟨p.publicKey, p.allowedIps, p.persistentKeepalive, endpoint⟩

/-- The answer, and the interface after the commands. -/
def syncPeers (sys : System π) (m : WireGuardManager) (peers : List PeerDict) (d : Device π) :
    Bool × Device π :=
  if m.dryRun then (true, d)
  else
    let (done, d) := if sys.which then runCommands sys (peers.map m.command) d else (false, d)
    if done then (true, d)
    else match peers.mapM netlinkPeer with
      | none => (false, d)
      | some wgPeers => match sys.netlink m.interfaceName wgPeers d with
        | none => (false, d)
        | some d => (true, d)

variable {sys : System π} {m : WireGuardManager} {p : PeerDict} {peers : List PeerDict}
  {d d' : Device π}

/-- The prefixes that `wg` reads out of the command for a peer. -/
def requested (sys : System π) (p : PeerDict) : List π :=
  (split (ipsText p) ',').filterMap sys.readIp

/-- `mapM` fails as a whole when one application does. -/
theorem mapM_eq_filterMap {α β : Type} (f : α → Option β) (l : List α) :
    l.mapM f = if l.all fun a => (f a).isSome then some (l.filterMap f) else none := by
  induction l with
  | nil => rfl
  | cons a l ih =>
    rw [List.mapM_cons, ih]
    cases ha : f a with
    | none => simp [ha]
    | some b =>
      by_cases hl : (l.all fun a => (f a).isSome) = true
      · simp [ha, hl]
      · simp [ha, hl]

/-- Whether `wg` fails on the command for a peer. -/
def rejects (sys : System π) (m : WireGuardManager) (p : PeerDict) : Bool :=
  !sys.accepts (m.command p) || (split (ipsText p) ',').any fun s => (sys.readIp s).isNone

theorem wgSet_command_eq : wgSet sys (m.command p) d =
    if rejects sys m p then none else some (d.assign p.publicKey (requested sys p)) := by
  have hset : wgSet sys (m.command p) d = if sys.accepts (m.command p) then
      ((split (ipsText p) ',').mapM sys.readIp).map fun l => d.assign p.publicKey l else none := rfl
  rw [hset, mapM_eq_filterMap]
  by_cases ha : sys.accepts (m.command p) = true
  · by_cases hr : (split (ipsText p) ',').all (fun s => (sys.readIp s).isSome) = true
    · have hnone : ((split (ipsText p) ',').any fun s => (sys.readIp s).isNone) = false := by
        simpa [List.any_eq_false, Option.isSome_iff_ne_none] using hr
      simp [rejects, ha, hr, hnone, requested]
    · have hsome : ((split (ipsText p) ',').any fun s => (sys.readIp s).isNone) = true := by
        simpa using hr
      simp [rejects, ha, hr, hsome]
  · simp [rejects, ha]

theorem runCommands_eq_run (sys : System π) (cmds : List (List String)) (d : Device π) :
    runCommands sys cmds d = FailStop.run (fun d cmd => wgSet sys cmd d) cmds d := by
  induction cmds generalizing d with
  | nil => rfl
  | cons cmd cmds ih =>
    rw [runCommands, FailStop.run]
    cases wgSet sys cmd d with
    | none => rfl
    | some d => exact ih d

/-- The commands set up the peers before the first that is rejected. -/
theorem runCommands_peers : runCommands sys (peers.map m.command) d =
    (peers.all fun p => !rejects sys m p, d.assignAll
      ((peers.takeWhile fun p => !rejects sys m p).map fun p => (p.publicKey, requested sys p))) := by
  rw [runCommands_eq_run, FailStop.run_map,
    FailStop.run_of_static fun d p _ => wgSet_command_eq, Holdings.assignAll, List.foldl_map]

/-- The interface after commands that all succeed. -/
theorem runCommands_eq (h : runCommands sys (peers.map m.command) d = (true, d')) :
    d' = d.assignAll (peers.map fun p => (p.publicKey, requested sys p)) := by
  rw [runCommands_peers] at h
  obtain ⟨hall, rfl⟩ := Prod.mk.inj h
  rw [List.takeWhile_eq_self_iff.mpr (List.all_eq_true.mp hall)]

/-- When the commands all succeed, nothing else is tried. -/
theorem syncPeers_of_runCommands (hd : m.dryRun = false) (hw : sys.which = true)
    (h : runCommands sys (peers.map m.command) d = (true, d')) :
    syncPeers sys m peers d = (true, d') := by
  simp [syncPeers, hd, hw, h]

/-- The manager of the default interface. -/
def pymesh0 : WireGuardManager := ⟨"pymesh0", false⟩

end WireGuardManager

end PyMesh
