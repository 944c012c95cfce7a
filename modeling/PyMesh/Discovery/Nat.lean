import PyMesh.Discovery.StunAttributes
import PyMesh.Ipaddress.Str

/-! `STUNClient.get_mapped_address`, which makes a socket of its own for every query, and
`NATDetector.detect_nat_type`, which compares what two of the queries return. -/
namespace PyMesh

open Bytes

namespace STUNClient

/-- An address and a port. -/
@[ext]
structure Endpoint where
  ip : IPv4Address
  port : Nat
  port_lt : port < 65536
deriving DecidableEq

def defaultStunServers : List (String × Nat) :=
  [("stun.l.google.com", 19302), ("stun1.l.google.com", 19302), ("stun2.l.google.com", 19302)]

/-- What one call of `get_mapped_address` meets: the random transaction id, the port that the
system gives to the socket of this call, the resolver (which may raise), and the first datagram
that answers a request (there is none when sending raises or the time is over). -/
structure Environment where
  transId : List UInt8
  length_transId : transId.length = 12
  localPort : Nat
  getaddrinfo : String → Nat → Option (List Endpoint)
  exchange : Endpoint → List UInt8 → Option (List UInt8)

/-- The header of a Binding Request. -/
def bindingRequest (transId : List UInt8) : List UInt8 :=
  pack16 0x0001 ++ pack16 0 ++ pack32 magicCookie ++ transId

/-- All that raises is caught, and gives `None`. -/
def getMappedAddress (host : String) (port : Nat) (env : Environment) : Option (String × Nat) :=
  match env.getaddrinfo host port with
  | none => none
  | some [] => none
  | some (targetAddr :: _) =>
    match env.exchange targetAddr (bindingRequest env.transId) with
    | none => none
    | some data =>
      match tryParseStunResponse data env.transId with
      | .error _ => none
      | .ok res => res

/-- The query to a server gets an answer. -/
def Answered (host : String) (port : Nat) (env : Environment) : Prop :=
  ∃ target others data, env.getaddrinfo host port = some (target :: others) ∧
    env.exchange target (bindingRequest env.transId) = some data

/-- The answer of a server to which the request comes from the address `seen`. -/
def Reports (data : List UInt8) (seen : Endpoint) : Prop :=
  ∃ (header : List UInt8) (before after : List Tlv.Attribute), header.length = 20 ∧
    (∀ a ∈ before, ¬ Usable a) ∧
      data = header ++ Tlv.encode (before ++ xorMappedAddress seen.ip seen.port :: after)

/-- The servers see the socket behind a NAT that maps its port in one way only, whoever is the
target. -/
def Behind (nat : Nat → Endpoint) (env : Environment) : Prop :=
  ∀ target request data, env.exchange target request = some data →
    Reports data (nat env.localPort)

variable {host : String} {port : Nat} {env : Environment} {nat : Nat → Endpoint}
  {data transId : List UInt8} {seen : Endpoint}

theorem parse_of_reports (h : Reports data seen) :
    parseStunResponse data transId = some (seen.ip.str, seen.port) := by
  obtain ⟨header, before, after, hheader, hbefore, rfl⟩ := h
  exact parseStunResponse_xorMapped hheader hbefore seen.port_lt

/-- A query that is answered returns the mapping of the port of its own socket. -/
theorem getMappedAddress_of_answered (ha : Answered host port env) (hn : Behind nat env) :
    getMappedAddress host port env =
      some ((nat env.localPort).ip.str, (nat env.localPort).port) := by
  obtain ⟨target, others, data, htarget, hdata⟩ := ha
  have hparse : parseStunResponse data env.transId = _ :=
    parse_of_reports (hn target _ data hdata)
  simp only [getMappedAddress, htarget, hdata, tryParseStunResponse_eq, hparse]

end STUNClient

/-- `NATType` -/
inductive NATType
  | openInternet
  | fullCone
  | restricted
  | portRestricted
  | symmetric
  | blocked
  | unknown
deriving DecidableEq

namespace NATDetector

open STUNClient

/-- The two queries, each in an environment of its own. -/
def detectNatType (first second : Environment) : NATType :=
  match getMappedAddress defaultStunServers[0].1 defaultStunServers[0].2 first with
  | none => .blocked
  | some (ip1, port1) =>
    match getMappedAddress defaultStunServers[1].1 defaultStunServers[1].2 second with
    | none => .restricted
    | some (ip2, port2) =>
      if ip1 ≠ ip2 ∨ port1 ≠ port2 then .symmetric else .fullCone

/-- Both queries get an answer. -/
def BothAnswered (first second : Environment) : Prop :=
  Answered defaultStunServers[0].1 defaultStunServers[0].2 first ∧
    Answered defaultStunServers[1].1 defaultStunServers[1].2 second

variable {first second : Environment} {nat : Nat → Endpoint}

/-- The verdict compares what the NAT makes of two ports. -/
theorem detectNatType_eq (ha : BothAnswered first second) (h1 : Behind nat first)
    (h2 : Behind nat second) : detectNatType first second =
      if nat first.localPort = nat second.localPort then .fullCone else .symmetric := by
  have hiff : (IPv4Address.str (nat first.localPort).ip ≠
        IPv4Address.str (nat second.localPort).ip ∨
      (nat first.localPort).port ≠ (nat second.localPort).port) ↔
        ¬ nat first.localPort = nat second.localPort := by
    rw [Endpoint.ext_iff, not_and_or, ne_eq, IPv4Address.str_injective.eq_iff]
  simp only [detectNatType, getMappedAddress_of_answered ha.1 h1,
    getMappedAddress_of_answered ha.2 h2, hiff]
  by_cases h : nat first.localPort = nat second.localPort <;> simp [h]

/-- Behind a NAT that looks at the local port only, the verdict is not symmetric, if and only if
the NAT maps the ports of the two sockets alike. -/
theorem not_symmetric_iff (ha : BothAnswered first second) (h1 : Behind nat first)
    (h2 : Behind nat second) :
    detectNatType first second ≠ .symmetric ↔
      nat first.localPort = nat second.localPort := by
  rw [detectNatType_eq ha h1 h2]
  split
  · rename_i h
    exact iff_of_true (by decide) h
  · rename_i h
    exact iff_of_false (fun hne => hne rfl) h

/-- A socket with a port, behind a NAT that keeps ports, and a server that answers. -/
def portPreserving (localPort : Fin 65536) : Environment where
  transId := List.replicate 12 7
  length_transId := rfl
  localPort := localPort
  getaddrinfo := fun _ _ => some [⟨⟨1249734941, by decide⟩, 19302, by decide⟩]
  exchange := fun _ _ => some (successHeader (List.replicate 12 7) 12 ++
    Tlv.encode [xorMappedAddress ⟨3405803783, by decide⟩ localPort])

/-- The mapping of that NAT, which has one external address. -/
def preserved (localPort : Nat) : Endpoint :=
  ⟨⟨3405803783, by decide⟩, localPort % 65536, Nat.mod_lt _ (by decide)⟩

theorem behind_portPreserving (localPort : Fin 65536) :
    Behind preserved (portPreserving localPort) := by
  intro target request data hdata
  obtain rfl := Option.some.inj hdata
  have hmod : (preserved (portPreserving localPort).localPort).port = localPort :=
    Nat.mod_eq_of_lt localPort.isLt
  refine ⟨successHeader (List.replicate 12 7) 12, [], [], rfl, by simp, ?_⟩
  rw [List.nil_append, hmod]
  rfl

theorem answered_portPreserving (first second : Fin 65536) :
    BothAnswered (portPreserving first) (portPreserving second) :=
  ⟨⟨_, [], _, rfl, rfl⟩, ⟨_, [], _, rfl, rfl⟩⟩

/-- The system hands out the same port again when the first socket is closed. -/
theorem not_symmetric_iff_reused :
    detectNatType (portPreserving 50000) (portPreserving 50000) ≠ .symmetric :=
  (not_symmetric_iff (answered_portPreserving 50000 50000) (behind_portPreserving 50000)
    (behind_portPreserving 50000)).mpr rfl

/-- The two sockets have two ports, and the NAT keeps both. -/
theorem not_symmetric_fails :
    BothAnswered (portPreserving 50000) (portPreserving 50001) ∧
      Behind preserved (portPreserving 50000) ∧ Behind preserved (portPreserving 50001) ∧
        detectNatType (portPreserving 50000) (portPreserving 50001) = .symmetric := by
  refine ⟨answered_portPreserving _ _, behind_portPreserving _, behind_portPreserving _, ?_⟩
  rw [detectNatType_eq (answered_portPreserving _ _) (behind_portPreserving _)
    (behind_portPreserving _)]
  decide +kernel

end NATDetector

end PyMesh
