import PyMesh.Networking.Wireguard

/-! What `WireGuardManager.sync_peers` leaves on the interface when some peers are rejected. -/
namespace PyMesh

open Text

namespace WireGuardManager

variable {π : Type} [DecidableEq π]

/-- The peers that are set up: with the tool, those before the first that is rejected; with
pyroute2, all of them if none is rejected and each port is a number. -/
def reached (sys : System π) (m : WireGuardManager) (peers : List PeerDict) : List PeerDict :=
  if m.dryRun then []
  else if sys.which then peers.takeWhile fun p => !rejects sys m p
  else if peers.all fun p => !rejects sys m p && (netlinkPeer p).isSome then peers
  else []

/-- The request for `peers` fails as a whole if one of them is rejected; otherwise, where there is
no tool, it makes them peers of the interface and leaves the other peers. -/
def WholeRequest (sys : System π) (m : WireGuardManager) (peers : List PeerDict) : Prop :=
  ∀ wgPeers, peers.mapM netlinkPeer = some wgPeers → ∀ d,
    ((∃ p ∈ peers, rejects sys m p = true) → sys.netlink m.interfaceName wgPeers d = none) ∧
    (sys.which = false → (∀ p ∈ peers, rejects sys m p = false) → ∃ d',
      sys.netlink m.interfaceName wgPeers d = some d' ∧
      ∀ k, d'.member k = true ↔ k ∈ peers.map PeerDict.publicKey ∨ d.member k = true)

variable {sys : System π} {m : WireGuardManager} {p : PeerDict} {peers : List PeerDict}
  {d d' : Device π} {k : String}

/-- With the tool, what is set up is what the commands have set up: the request is made only
after one of them has failed, and fails then too. -/
theorem syncPeers_tool (hdry : m.dryRun = false) (hwhich : sys.which = true)
    (hnet : WholeRequest sys m peers) : (syncPeers sys m peers d).2 = d.assignAll
      ((peers.takeWhile fun p => !rejects sys m p).map fun p => (p.publicKey, requested sys p)) := by
  simp only [syncPeers, hdry, hwhich, if_true, runCommands_peers, Bool.false_eq_true, if_false]
  by_cases hall : (peers.all fun p => !rejects sys m p) = true
  · simp only [hall, if_true]
  · have hbad : ∃ p ∈ peers, rejects sys m p = true := by simpa using hall
    rw [Bool.not_eq_true] at hall
    simp only [hall, Bool.false_eq_true, if_false]
    cases hp : peers.mapM netlinkPeer with
    | none => rfl
    | some wgPeers => simp only [(hnet wgPeers hp _).1 hbad]

theorem member_syncPeers (hnet : WholeRequest sys m peers) :
    (syncPeers sys m peers d).2.member k = true ↔
      k ∈ (reached sys m peers).map PeerDict.publicKey ∨ d.member k = true := by
  by_cases hdry : m.dryRun = true
  · simp [syncPeers, reached, hdry]
  rw [Bool.not_eq_true] at hdry
  by_cases hwhich : sys.which = true
  · rw [syncPeers_tool hdry hwhich hnet, Holdings.member_assignAll]
    simp [reached, hdry, hwhich]
  simp only [syncPeers, reached, hdry, hwhich, if_false, Bool.false_eq_true]
  by_cases hall : (peers.all fun p => !rejects sys m p && (netlinkPeer p).isSome) = true
  · obtain ⟨hgood, hports⟩ : (∀ p ∈ peers, rejects sys m p = false) ∧
        (peers.all fun p => (netlinkPeer p).isSome) = true := by
      simp only [List.all_eq_true, Bool.and_eq_true, Bool.not_eq_true'] at hall ⊢
      exact ⟨fun p hp => (hall p hp).1, fun p hp => (hall p hp).2⟩
    have hp := mapM_eq_filterMap netlinkPeer peers
    rw [if_pos hports] at hp
    obtain ⟨d', hd', hmem⟩ := (hnet _ hp d).2 (Bool.eq_false_iff.mpr hwhich) hgood
    simp only [hp, hd', hmem, hall, if_true]
  · rw [if_neg hall]
    simp only [List.map_nil, List.not_mem_nil, false_or]
    cases hp : peers.mapM netlinkPeer with
    | none => exact Iff.rfl
    | some wgPeers =>
      have hbad : ∃ p ∈ peers, rejects sys m p = true := by
        by_contra hnone
        apply hall
        rw [mapM_eq_filterMap] at hp
        split at hp
        · rename_i hports
          simp only [List.all_eq_true, Bool.and_eq_true, Bool.not_eq_true'] at hports ⊢
          refine fun p hmem => ⟨?_, hports p hmem⟩
          exact Bool.eq_false_iff.mpr fun hr => hnone ⟨p, hmem, hr⟩
        · cases hp
      simp only [(hnet wgPeers hp d).1 hbad]

/-- The accepted peers are all on the interface if and only if each of them was there before, or
is reached before the first rejected one. -/
theorem accepted_configured_iff (hnet : WholeRequest sys m peers) :
    (∀ p ∈ peers, rejects sys m p = false →
      (syncPeers sys m peers d).2.member p.publicKey = true) ↔
    ∀ p ∈ peers, rejects sys m p = false →
      d.member p.publicKey = true ∨ p.publicKey ∈ (reached sys m peers).map PeerDict.publicKey := by
  refine forall_congr' fun p => forall_congr' fun _ => forall_congr' fun _ => ?_
  rw [member_syncPeers hnet, or_comm]

/-- A host with the `wg` tool, which takes the keys that have the length of a key. pyroute2 takes
one peer at a time, and raises for a list of them. -/
def keyCheck : System String where
  which := true
  readIp := some
  accepts cmd := cmd[4]?.any fun key => key.length = 44
  netlink _ _ _ := none

def peerOf (key ip : String) : PeerDict := { publicKey := key, allowedIps := [ip] }

def goodPeer : PeerDict := peerOf "AQAAAAAAAAAAAAAAAAAAAAAAAAAAAAAAAAAAAAAAAAA=" "100.80.0.2/32"

def otherPeer : PeerDict := peerOf "AgAAAAAAAAAAAAAAAAAAAAAAAAAAAAAAAAAAAAAAAAA=" "100.80.0.4/32"

/-- Its key is base64, but of three bytes. -/
def badPeer : PeerDict := peerOf "AAAA" "100.80.0.3/32"

theorem wholeRequest_keyCheck (peers : List PeerDict) : WholeRequest keyCheck pymesh0 peers := by
  intro wgPeers _ d
  refine ⟨fun _ => rfl, fun hno => ?_⟩
  cases hno

/-- A rejected peer after the others does not keep them off the interface. -/
theorem accepted_configured_iff_last : rejects keyCheck pymesh0 badPeer = true ∧
    (syncPeers keyCheck pymesh0 [goodPeer, badPeer] Holdings.empty).2.member
      goodPeer.publicKey = true := by
  have hconfigured := (accepted_configured_iff (d := Holdings.empty)
    (wholeRequest_keyCheck [goodPeer, badPeer])).mpr (by decide)
  exact ⟨by decide, hconfigured goodPeer (by simp) (by decide)⟩

/-- A rejected peer before the others keeps them off. -/
theorem accepted_configured_fails : WholeRequest keyCheck pymesh0 [badPeer, goodPeer] ∧
    rejects keyCheck pymesh0 goodPeer = false ∧
    (syncPeers keyCheck pymesh0 [badPeer, goodPeer] Holdings.empty).2.member
      goodPeer.publicKey = false :=
  ⟨wholeRequest_keyCheck _, by decide, by decide⟩

end WireGuardManager

end PyMesh
