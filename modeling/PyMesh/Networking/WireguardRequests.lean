import PyMesh.Library.Lines
import PyMesh.Networking.Wireguard

/-! What `WireGuardManager.sync_peers` asks for with the `wg` tool, and what with pyroute2. -/
namespace PyMesh

open Text

/-- How `wg` reads an endpoint: a host and a port with a colon between them, and the host in
brackets if there are colons in it. `port` is how it reads a port. -/
structure EndpointSyntax (read : String → Option (String × Int)) (port : String → Option Int) :
    Prop where
  portless : ∀ s, ':' ∉ s.toList → read s = none
  plain : ∀ s, startsWith s "[" = false → ':' ∈ s.toList →
    read s = (port (rsplit s ':').2).map fun n => ((rsplit s ':').1, n)
  brackets : ∀ s host p, ']' ∉ host.toList → s.toList = '[' :: host.toList ++ ']' :: ':' :: p.toList →
    read s = (port p).map fun n => (host, n)
  unclosed : ∀ s, startsWith s "[" = true →
    (∀ host p : String, ']' ∉ host.toList → s.toList ≠ '[' :: host.toList ++ ']' :: ':' :: p.toList) →
    read s = none

namespace NetlinkPeer

/-- Two requests for the same peer, with the allowed IPs in any order. -/
def Same (q r : NetlinkPeer) : Prop :=
  q.publicKey = r.publicKey ∧ (∀ s, s ∈ q.allowedIps ↔ s ∈ r.allowedIps) ∧
    q.persistentKeepalive = r.persistentKeepalive ∧ q.endpoint = r.endpoint

end NetlinkPeer

namespace WireGuardManager

/-- What a `wg set` command asks for; `none` when `wg` cannot read it. -/
def readCommand (read : String → Option (String × Int)) : List String → Option NetlinkPeer
  | ["wg", "set", _, "peer", key, "allowed-ips", ips, "persistent-keepalive", keepalive] =>
    (readInt keepalive).map fun k => ⟨key, split ips ',', k, none⟩
  | ["wg", "set", _, "peer", key, "allowed-ips", ips, "endpoint", endpoint,
      "persistent-keepalive", keepalive] => do
    let ep ← read endpoint
    let k ← readInt keepalive
    return ⟨key, split ips ',', k, some ep⟩
  | _ => none

/-- The commands and the request of pyroute2 ask for the same, peer by peer. -/
def SameRequests (read : String → Option (String × Int)) (m : WireGuardManager)
    (peers : List PeerDict) : Prop :=
  ∃ wgPeers, peers.mapM netlinkPeer = some wgPeers ∧
    List.Forall₂ (fun cmd r => ∃ q, readCommand read cmd = some q ∧ q.Same r)
      (peers.map m.command) wgPeers

/-- There is an allowed IP, and none of them has a comma in it. -/
def PlainIps (p : PeerDict) : Prop :=
  p.allowedIps ≠ [] ∧ p.allowedIps ≠ [""] ∧ ∀ s ∈ p.allowedIps, ',' ∉ s.toList

/-- The endpoint, if there is one, has a port and is not in brackets, and `wg` and `int` read
the port as the same number. -/
def PlainEndpoint (port : String → Option Int) (p : PeerDict) : Prop :=
  ∀ endpoint, truthy p.endpoint = some endpoint →
    startsWith endpoint "[" = false ∧ ':' ∈ endpoint.toList ∧
      ∃ n, port (rsplit endpoint ':').2 = some n ∧ readInt (rsplit endpoint ':').2 = some n

variable {read : String → Option (String × Int)} {port : String → Option Int}
  {m : WireGuardManager} {p : PeerDict} {peers : List PeerDict}

theorem exists_mapM_forall₂_iff {α β : Type} {f : α → Option β} {R : α → β → Prop} {l : List α} :
    (∃ l', l.mapM f = some l' ∧ List.Forall₂ R l l') ↔ ∀ a ∈ l, ∃ b, f a = some b ∧ R a b := by
  induction l with
  | nil => simp
  | cons a l ih =>
    rw [List.forall_mem_cons, ← ih]
    constructor
    · rintro ⟨l', hl', hr⟩
      cases hr with
      | cons hab hr =>
        rename_i b bs
        cases ha : f a with
        | none => simp [List.mapM_cons, ha] at hl'
        | some b' =>
          cases hl : l.mapM f with
          | none => simp [List.mapM_cons, ha, hl] at hl'
          | some bs' =>
            obtain ⟨rfl, rfl⟩ : b' = b ∧ bs' = bs := by simpa [List.mapM_cons, ha, hl] using hl'
            exact ⟨⟨b', rfl, hab⟩, bs', rfl, hr⟩
    · rintro ⟨⟨b, ha, hab⟩, bs, hl, hr⟩
      exact ⟨b :: bs, by simp [List.mapM_cons, ha, hl], .cons hab hr⟩

theorem sameRequests_iff_forall : SameRequests read m peers ↔ ∀ p ∈ peers, ∃ q r,
    readCommand read (m.command p) = some q ∧ netlinkPeer p = some r ∧ q.Same r := by
  simp only [SameRequests, List.forall₂_map_left_iff, exists_mapM_forall₂_iff]
  refine forall₂_congr fun p _ => ?_
  constructor
  · rintro ⟨r, hr, q, hq, hs⟩
    exact ⟨q, r, hq, hr, hs⟩
  · rintro ⟨q, r, hq, hr, hs⟩
    exact ⟨r, hr, q, hq, hs⟩

theorem join_eq_empty_iff {ws : List String} : join ',' ws = "" ↔ ws = [] ∨ ws = [""] := by
  rw [← String.toList_inj, toList_join]
  cases ws with
  | nil => simp
  | cons w ws =>
    cases ws with
    | nil => simp
    | cons w' ws => simp [List.intercalate_cons_cons]

/-- The list that the command asks for has the entries that pyroute2 is given. -/
theorem mem_split_ipsText_iff :
    (∀ s, s ∈ split (ipsText p) ',' ↔ s ∈ p.allowedIps) ↔ PlainIps p := by
  by_cases hempty : join ',' p.allowedIps = ""
  · have htext : ipsText p = "0.0.0.0/0" := by
      rw [ipsText, hempty]
      rfl
    have hsplit : split (ipsText p) ',' = ["0.0.0.0/0"] := by
      rw [htext]
      exact split_of_notMem (by decide)
    constructor
    · intro h
      have hmem := (h "0.0.0.0/0").mp (by simp [hsplit])
      rcases join_eq_empty_iff.mp hempty with hl | hl
      · simp [hl] at hmem
      · simp [hl] at hmem
    · rintro ⟨hne, hne', -⟩
      rcases join_eq_empty_iff.mp hempty with hl | hl
      · exact (hne hl).elim
      · exact (hne' hl).elim
  · have htext : ipsText p = join ',' p.allowedIps := by
      rw [ipsText, truthy_some hempty, Option.getD_some]
    obtain ⟨hne, hne'⟩ := not_or.mp (mt join_eq_empty_iff.mpr hempty)
    rw [htext]
    constructor
    · intro h
      refine ⟨hne, hne', fun s hs hcomma => ?_⟩
      have hmem := (h s).mpr hs
      rw [split_join_eq_flatMap hne] at hmem
      obtain ⟨w, -, hsw⟩ := List.mem_flatMap.mp hmem
      obtain ⟨cs, hcs, rfl⟩ := List.mem_map.mp hsw
      rw [String.toList_ofList] at hcomma
      exact Lines.notMem_of_mem_splitOn hcs hcomma
    · rintro ⟨-, -, hcomma⟩ s
      rw [split_join hcomma hne]

/-- The endpoint of the command. -/
def cliEndpoint (read : String → Option (String × Int)) (p : PeerDict) :
    Option (Option (String × Int)) :=
  match truthy p.endpoint with
  | none => some none
  | some endpoint => (read endpoint).map some

/-- The endpoint of the request. -/
def netlinkEndpoint (p : PeerDict) : Option (Option (String × Int)) :=
  match truthy p.endpoint with
  | none => some none
  | some ep =>
    if ':' ∈ ep.toList then (readInt (rsplit ep ':').2).map fun port => some ((rsplit ep ':').1, port)
    else some none

theorem netlinkPeer_eq : netlinkPeer p = (netlinkEndpoint p).map
    fun endpoint => ⟨p.publicKey, p.allowedIps, p.persistentKeepalive, endpoint⟩ := by
  unfold netlinkPeer netlinkEndpoint
  cases truthy p.endpoint with
  | none => rfl
  | some ep =>
    by_cases hc : ':' ∈ ep.toList
    · simp only [hc, if_true]
      cases readInt (rsplit ep ':').2 with
      | none => rfl
      | some n => rfl
    · simp only [hc, if_false]
      rfl

theorem readCommand_command : readCommand read (m.command p) = (cliEndpoint read p).map
    fun endpoint => ⟨p.publicKey, split (ipsText p) ',', p.persistentKeepalive, endpoint⟩ := by
  have hk : readInt p.persistentKeepalive.repr = some p.persistentKeepalive := readInt_toString _
  unfold command cliEndpoint
  cases truthy p.endpoint with
  | none => simp [readCommand, hk]
  | some endpoint =>
    cases hr : read endpoint with
    | none => simp [readCommand, hr]
    | some e => simp [readCommand, hk, hr]

theorem not_bracketed {s host : String} {n : Int} (h : EndpointSyntax read port)
    (hb : startsWith s "[" = true) (hc : ':' ∈ s.toList) (hr : read s = some (host, n)) :
    (rsplit s ':').1 ≠ host := by
  by_cases hshape : ∃ host' p : String, ']' ∉ host'.toList ∧
      s.toList = '[' :: host'.toList ++ ']' :: ':' :: p.toList
  · obtain ⟨host', p, hhost, hs⟩ := hshape
    rw [h.brackets s host' p hhost hs] at hr
    obtain ⟨n', -, he⟩ := Option.map_eq_some_iff.mp hr
    obtain rfl : host' = host := (Prod.mk.inj he).1
    obtain ⟨hsplit, hlast⟩ := toList_rsplit hc
    intro heq
    -- What follows the last colon would be longer than what follows the bracket and its colon.
    rw [heq, hs] at hsplit
    have htail : (rsplit s ':').2.toList = ']' :: ':' :: p.toList := by
      have hdrop := congrArg (List.drop (host'.toList.length + 1)) hsplit
      have hnil : host'.toList.drop (host'.toList.length + 1) = [] :=
        List.drop_eq_nil_of_le (Nat.le_succ _)
      simpa [List.drop_append, hnil] using hdrop.symm
    rw [htail] at hlast
    simp at hlast
  · rw [h.unclosed s hb fun host' p hhost hs => hshape ⟨host', p, hhost, hs⟩] at hr
    cases hr

theorem same_endpoint_iff (h : EndpointSyntax read port) :
    (∃ e, cliEndpoint read p = some e ∧ netlinkEndpoint p = some e) ↔ PlainEndpoint port p := by
  unfold cliEndpoint netlinkEndpoint PlainEndpoint
  cases truthy p.endpoint with
  | none => simp
  | some ep =>
    simp only [Option.some.injEq, forall_eq']
    by_cases hc : ':' ∈ ep.toList
    · simp only [hc, if_true, true_and]
      by_cases hb : startsWith ep "[" = true
      · simp only [hb, Bool.true_eq_false, false_and, iff_false]
        rintro ⟨e, he, he'⟩
        obtain ⟨⟨host, n⟩, hr, rfl⟩ := Option.map_eq_some_iff.mp he
        obtain ⟨n', -, heq⟩ := Option.map_eq_some_iff.mp he'
        exact not_bracketed h hb hc hr (Prod.mk.inj (Option.some.inj heq)).1
      · rw [Bool.not_eq_true] at hb
        rw [h.plain ep hb hc]
        simp only [hb, true_and]
        constructor
        · rintro ⟨e, he, he'⟩
          obtain ⟨e', hr, rfl⟩ := Option.map_eq_some_iff.mp he
          obtain ⟨n, hn, rfl⟩ := Option.map_eq_some_iff.mp hr
          obtain ⟨n', hn', heq⟩ := Option.map_eq_some_iff.mp he'
          obtain rfl : n' = n := (Prod.mk.inj (Option.some.inj heq)).2
          exact ⟨n', hn, hn'⟩
        · rintro ⟨n, hn, hn'⟩
          exact ⟨some ((rsplit ep ':').1, n), by rw [hn]; rfl, by rw [hn']; rfl⟩
    · simp only [hc, h.portless ep hc]
      simp

theorem same_iff (h : EndpointSyntax read port) : (∃ q r, readCommand read (m.command p) = some q ∧
    netlinkPeer p = some r ∧ q.Same r) ↔ PlainIps p ∧ PlainEndpoint port p := by
  have hsame : (∃ q r, readCommand read (m.command p) = some q ∧ netlinkPeer p = some r ∧
      q.Same r) ↔ (∀ s, s ∈ split (ipsText p) ',' ↔ s ∈ p.allowedIps) ∧
        ∃ e, cliEndpoint read p = some e ∧ netlinkEndpoint p = some e := by
    rw [readCommand_command, netlinkPeer_eq]
    constructor
    · rintro ⟨q, r, hq, hr, -, hips, -, hends⟩
      obtain ⟨e, he, rfl⟩ := Option.map_eq_some_iff.mp hq
      obtain ⟨e', he', rfl⟩ := Option.map_eq_some_iff.mp hr
      obtain rfl : e = e' := hends
      exact ⟨hips, e, he, he'⟩
    · rintro ⟨hips, e, he, he'⟩
      rw [he, he']
      exact ⟨_, _, rfl, rfl, rfl, hips, rfl, rfl⟩
  rw [hsame, mem_split_ipsText_iff, same_endpoint_iff h]

/-- The tool and pyroute2 are asked for the same if and only if every peer has an allowed IP,
none of them has a comma in it, and the endpoints have ports and are not in brackets. -/
theorem same_requests_iff (h : EndpointSyntax read port) (m : WireGuardManager)
    (peers : List PeerDict) :
    SameRequests read m peers ↔ ∀ p ∈ peers, PlainIps p ∧ PlainEndpoint port p := by
  rw [sameRequests_iff_forall]
  exact forall₂_congr fun p _ => same_iff h

/-- A port in decimal digits. -/
def decimalPort (s : String) : Option Int :=
  if s.toList.all Char.isDigit then ((readNat 10 s.toList).filter (· ≤ 65535)).map Int.ofNat
  else none

/-- A reader for endpoints whose ports are in decimal digits. -/
def readEndpoint (s : String) : Option (String × Int) :=
  match s.toList with
  | '[' :: cs => match cs.dropWhile (· ≠ ']') with
    | ']' :: ':' :: p => (decimalPort (String.ofList p)).map fun n =>
      (String.ofList (cs.takeWhile (· ≠ ']')), n)
    | _ => none
  | _ => if ':' ∈ s.toList then (decimalPort (rsplit s ':').2).map fun n => ((rsplit s ':').1, n)
    else none

theorem startsWith_bracket {s : String} (h : startsWith s "[" = true) :
    ∃ cs, s.toList = '[' :: cs := by
  obtain ⟨cs, hcs⟩ := List.isPrefixOf_iff_prefix.mp h
  exact ⟨cs, hcs.symm⟩

theorem endpointSyntax_readEndpoint : EndpointSyntax readEndpoint decimalPort where
  portless s hc := by
    unfold readEndpoint
    split
    · rename_i cs hs
      split
      · rename_i p hp
        have hmem : ':' ∈ cs := (List.dropWhile_sublist _).subset (by rw [hp]; simp)
        exact (hc (by rw [hs]; exact List.mem_cons_of_mem _ hmem)).elim
      · rfl
    · exact if_neg hc
  plain s hb hc := by
    unfold readEndpoint
    split
    · rename_i cs hs
      simp [startsWith, hs] at hb
    · exact if_pos hc
  brackets s host p hhost hs := by
    have hne : ∀ c ∈ host.toList, decide (c ≠ ']') = true := by
      intro c hc
      exact decide_eq_true fun he => hhost (he ▸ hc)
    have hdrop : (host.toList ++ ']' :: ':' :: p.toList).dropWhile (· ≠ ']') =
        ']' :: ':' :: p.toList := by
      rw [List.dropWhile_append_of_pos hne]
      simp
    have htake : (host.toList ++ ']' :: ':' :: p.toList).takeWhile (· ≠ ']') = host.toList := by
      rw [List.takeWhile_append_of_pos hne]
      simp
    simp only [readEndpoint, hs, List.cons_append, hdrop, htake, String.ofList_toList]
  unclosed s hb hshape := by
    obtain ⟨cs, hs⟩ := startsWith_bracket hb
    simp only [readEndpoint, hs]
    split
    · rename_i p hp
      have hcs : cs = cs.takeWhile (· ≠ ']') ++ ']' :: ':' :: p := by
        rw [← hp, List.takeWhile_append_dropWhile]
      refine (hshape (String.ofList (cs.takeWhile (· ≠ ']'))) (String.ofList p) ?_ ?_).elim
      · intro hmem
        rw [String.toList_ofList] at hmem
        exact absurd (List.mem_takeWhile_imp hmem) (by decide)
      · simpa [hs] using hcs
    · rfl

def meshPeer (ips : List String) (endpoint : Option String) : PeerDict :=
  { publicKey := "AQAAAAAAAAAAAAAAAAAAAAAAAAAAAAAAAAAAAAAAAAA=", allowedIps := ips, endpoint }

/-- A peer with two allowed IPs and an IPv4 endpoint. -/
theorem same_requests_iff_ipv4 : SameRequests readEndpoint pymesh0
    [meshPeer ["100.80.0.2/32", "fd00::2/128"] (some "203.0.113.7:51820")] :=
  (same_requests_iff endpointSyntax_readEndpoint pymesh0 _).mpr (by
    intro p hp
    obtain rfl := List.mem_singleton.mp hp
    refine ⟨⟨by decide, by decide, by decide⟩, ?_⟩
    rintro _ ⟨⟩
    exact ⟨by decide, by decide, 51820, by decide +kernel, by decide +kernel⟩)

/-- Without allowed IPs the command asks for the default route; an endpoint in brackets is kept
with them by pyroute2, and one without a port is left out. -/
theorem same_requests_fails :
    (readCommand readEndpoint (pymesh0.command (meshPeer [] none))).map NetlinkPeer.allowedIps =
      some ["0.0.0.0/0"] ∧ (netlinkPeer (meshPeer [] none)).map NetlinkPeer.allowedIps = some [] ∧
    ¬ SameRequests readEndpoint pymesh0 [meshPeer [] none] ∧
    ¬ SameRequests readEndpoint pymesh0 [meshPeer ["100.80.0.2/32"] (some "[2001:db8::1]:51820")] ∧
    ¬ SameRequests readEndpoint pymesh0 [meshPeer ["100.80.0.2/32"] (some "relay.example.org")] := by
  have hpeer : ∀ p, SameRequests readEndpoint pymesh0 [p] → PlainIps p ∧ PlainEndpoint decimalPort p :=
    fun p h => (same_iff endpointSyntax_readEndpoint).mp (sameRequests_iff_forall.mp h p (by simp))
  refine ⟨by decide +kernel, by decide +kernel, ?_, ?_, ?_⟩
  · intro h
    exact (hpeer _ h).1.1 rfl
  · intro h
    exact absurd ((hpeer _ h).2 _ rfl).1 (by decide)
  · intro h
    exact absurd ((hpeer _ h).2 _ rfl).2.1 (by decide)

end WireGuardManager

end PyMesh
