import PyMesh.Controller.Numbering

/-! `EndpointHarvester.get_candidate_endpoints`: which addresses of the local interfaces are
announced, beside the addresses that the controller assigns. -/
namespace PyMesh

open LTS Text

namespace EndpointHarvester

/-- `f"{ip}:{port}"` -/
def endpoint (ip : String) (port : Int) : String := ip ++ ":" ++ toString port

/-- The addresses that the loop takes. -/
def announced (ip : String) : Bool :=
  !startsWith ip "127." && !startsWith ip "100.64." && !decide (':' ∈ ip.toList)

/-- `if ep not in candidates: candidates.append(ep)` -/
def appendNew (candidates : List String) (ep : String) : List String :=
  if ep ∈ candidates then candidates else candidates ++ [ep]

/-- The first part, over the addresses that `getaddrinfo` returns for the own hostname. -/
def localCandidates (listenPort : Int) (addrs : List String) : List String :=
  addrs.foldl (fun candidates ip =>
    if announced ip then appendNew candidates (endpoint ip listenPort) else candidates) []

/-- There are no `addrs` when the lookup raises, and no `stunRes` without an answer. -/
def getCandidateEndpoints (listenPort : Int) (addrs : Option (List String))
    (stunRes : Option (String × Nat)) : List String :=
  let candidates := match addrs with
    | none => []
    | some addrs => localCandidates listenPort addrs
  match stunRes with
  | none => candidates
  | some (pubIp, pubPort) => appendNew candidates (endpoint pubIp pubPort)

/-- The blocks 127.0.0.0/8 and 100.64.0.0/16, which the two prefixes leave out. -/
def LeftOut (mesh : IPv4Address) : Prop :=
  mesh.toNat / 2 ^ 24 = 127 ∨ mesh.toNat / 2 ^ 16 = 100 * 2 ^ 8 + 64

instance (mesh : IPv4Address) : Decidable (LeftOut mesh) := inferInstanceAs (Decidable (_ ∨ _))

/-- A config gives the endpoint for the node. -/
def tells (response : Response) (node : NodeModel) (ep : String) : Bool :=
  match response with
  | .networkConfig config => config.peers.any fun p => p.nodeId = node.id ∧ ep ∈ p.endpoints
  | _ => false

variable {ip ep : String} {listenPort : Int} {addrs candidates : List String} {mesh : IPv4Address}

theorem mem_appendNew {x : String} : x ∈ appendNew candidates ep ↔ x ∈ candidates ∨ x = ep := by
  unfold appendNew
  split
  · rename_i h
    constructor
    · exact Or.inl
    · rintro (hx | rfl)
      · exact hx
      · exact h
  · simp

theorem mem_localCandidates : ep ∈ localCandidates listenPort addrs ↔
    ∃ ip ∈ addrs, announced ip = true ∧ ep = endpoint ip listenPort := by
  unfold localCandidates
  induction addrs using List.reverseRecOn with
  | nil => simp
  | append_singleton addrs ip ih =>
    rw [List.foldl_append, List.foldl_cons, List.foldl_nil]
    split
    · rename_i ha
      rw [mem_appendNew, ih]
      constructor
      · rintro (⟨ip', hip, h⟩ | rfl)
        · exact ⟨ip', List.mem_append_left _ hip, h⟩
        · exact ⟨ip, by simp, ha, rfl⟩
      · rintro ⟨ip', hip, ha', rfl⟩
        rcases List.mem_append.mp hip with hm | hm
        · exact Or.inl ⟨ip', hm, ha', rfl⟩
        · exact Or.inr (by rw [List.mem_singleton.mp hm])
    · rename_i ha
      rw [ih]
      constructor
      · rintro ⟨ip', hip, h⟩
        exact ⟨ip', List.mem_append_left _ hip, h⟩
      · rintro ⟨ip', hip, ha', rfl⟩
        rcases List.mem_append.mp hip with hm | hm
        · exact ⟨ip', hm, ha', rfl⟩
        · rw [List.mem_singleton.mp hm] at ha'
          exact (ha ha').elim

/-- What is announced comes from the interfaces, or is the address that a STUN server has seen. -/
theorem mem_getCandidateEndpoints {addrs : Option (List String)}
    {stunRes : Option (String × Nat)} : ep ∈ getCandidateEndpoints listenPort addrs stunRes ↔
      (∃ l, addrs = some l ∧ ep ∈ localCandidates listenPort l) ∨
        ∃ r, stunRes = some r ∧ ep = endpoint r.1 r.2 := by
  cases addrs <;> cases stunRes <;> simp [getCandidateEndpoints, mem_appendNew]

theorem endpoint_injective (port : Int) : Function.Injective fun ip => endpoint ip port := by
  intro a b h
  have hlist := congrArg String.toList h
  simp only [endpoint, String.toList_append, List.append_assoc] at hlist
  exact String.toList_inj.mp (List.append_cancel_right hlist)

/-- The text of an address is announced unless the address is in one of the two blocks. -/
theorem announced_str (mesh : IPv4Address) :
    announced (IPv4Address.str mesh) = true ↔ ¬ LeftOut mesh := by
  have hloop : startsWith (IPv4Address.str mesh) "127." = true ↔ mesh.toNat / 2 ^ 24 = 127 :=
    IPv4Address.startsWith_octet mesh 127
  have hmesh : startsWith (IPv4Address.str mesh) "100.64." = true ↔
      mesh.toNat / 2 ^ 24 = 100 ∧ mesh.toNat / 2 ^ 16 % 256 = 64 :=
    IPv4Address.startsWith_octets mesh 100 64
  have hblock : (mesh.toNat / 2 ^ 24 = 100 ∧ mesh.toNat / 2 ^ 16 % 256 = 64) ↔
      mesh.toNat / 2 ^ 16 = 100 * 2 ^ 8 + 64 := by omega
  have hcolon : decide (':' ∈ (IPv4Address.str mesh).toList) = false :=
    decide_eq_false (IPv4Address.str_noColon mesh)
  rw [announced, hcolon, LeftOut, ← hloop, ← hblock, ← hmesh]
  simp

/-- No local candidate is the node's own address in the mesh, if and only if the address is on
none of the interfaces, or is in one of the blocks that are left out. -/
theorem own_address_iff (mesh : IPv4Address) (addrs : List String) (listenPort : Int) :
    (∀ ep ∈ localCandidates listenPort addrs, ep ≠ endpoint (IPv4Address.str mesh) listenPort) ↔
      IPv4Address.str mesh ∉ addrs ∨ LeftOut mesh := by
  constructor
  · intro h
    by_cases hleft : LeftOut mesh
    · exact Or.inr hleft
    · refine Or.inl fun hm => ?_
      exact h _ (mem_localCandidates.mpr ⟨_, hm, (announced_str mesh).mpr hleft, rfl⟩) rfl
  · rintro h ep hep rfl
    obtain ⟨ip, hip, ha, he⟩ := mem_localCandidates.mp hep
    obtain rfl := endpoint_injective listenPort he
    rcases h with hnot | hleft
    · exact hnot hip
    · exact (announced_str mesh).mp ha hleft

/-- While the recorded prefix is inside the blocks, no node announces its own address. -/
theorem own_address_of_pool {db : Database} {rs : List Request} {al : IPAllocator}
    (h : Run Serves Database.empty rs db) (hal : recordedPool db = .ok al)
    (hp : ∀ a ∈ al.ipv4Net, LeftOut a) {node : NodeModel} (hm : node ∈ db.nodes.rows) :
    ∀ ep ∈ localCandidates listenPort addrs,
      ep ≠ endpoint (IPv4Address.str node.meshIpv4) listenPort := by
  have hin := (numbered_iff (wellformed_run h)).mp (ipv4_inside h) al hal node hm
  exact (own_address_iff node.meshIpv4 addrs listenPort).mpr (Or.inr (hp _ hin))

/-- A node that has been renumbered out of the default prefix announces its own address, and the
controller passes it on to the other node. -/
theorem own_address_fails : ∃ db, Run Serves Database.empty
    [registerKey "YQ==", registerKey "Yg==", putSubnet "10.0.0.0/24" "fd00::/64"] db ∧
      ∃ node ∈ db.nodes.rows, ∃ other ∈ db.nodes.rows, node ≠ other ∧
        let candidates := localCandidates 51820 ["127.0.1.1", "192.168.1.5", "10.0.0.2"]
        endpoint (IPv4Address.str node.meshIpv4) 51820 ∈ candidates ∧
          ∃ response, (serve
            (serve db (.heartbeat node.id { nodeId := node.id, endpoints := candidates } 0)).2
            (.networkConfig .stored .stored other.id)).1 = .ok response ∧
              tells response node (endpoint (IPv4Address.str node.meshIpv4) 51820) = true :=
  ⟨_, run_serves_iff.mpr rfl, by decide +kernel⟩

end EndpointHarvester

end PyMesh
