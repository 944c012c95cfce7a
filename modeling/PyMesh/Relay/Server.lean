import PyMesh.Library.Dict
import PyMesh.Relay.Protocol

/-! The relay server: its table of endpoints and the packets it forwards. -/
namespace PyMesh

/-- The host and the port of a sender. -/
abbrev SocketAddr := String × Nat

structure Datagram where
  data : List UInt8
  addr : SocketAddr
deriving DecidableEq

/-- The table of a server, and what it has sent so far. -/
structure RelayServerProtocol where
  nodeEndpoints : Dict String SocketAddr := Dict.empty
  transport : List Datagram := []

namespace RelayServerProtocol

/-- `transport.sendto(data, addr)` -/
def sendto (server : RelayServerProtocol) (data : List UInt8) (addr : SocketAddr) :
    RelayServerProtocol :=
  { server with transport := server.transport ++ [⟨data, addr⟩] }

def datagramReceived (server : RelayServerProtocol) (d : Datagram) : RelayServerProtocol :=
  match RelayProtocol.decodeFrame d.data with
  | none => server
  | some (srcId, dstId, _) =>
    let server := { server with nodeEndpoints := server.nodeEndpoints.set srcId d.addr }
    match server.nodeEndpoints dstId with
    | some dstAddr => server.sendto d.data dstAddr
    | none => server

/-- A new server after these datagrams. -/
def handled (ds : List Datagram) : RelayServerProtocol := ds.foldl datagramReceived {}

/-- The assignment that a datagram makes to the table, if it is a frame. -/
def registration (d : Datagram) : List (String × SocketAddr) :=
  match RelayProtocol.decodeFrame d.data with
  | some (srcId, _, _) => [(srcId, d.addr)]
  | none => []

/-- The id that a datagram names as its source, if it is a frame. -/
def source (d : Datagram) : Option String := (RelayProtocol.decodeFrame d.data).map Prod.fst

/-- The id that a datagram names as its destination, if it is a frame. -/
def destination (d : Datagram) : Option String :=
  (RelayProtocol.decodeFrame d.data).map fun frame => frame.2.1

/-- The latest frame from `id` came from `addr`. -/
def LastSeen (ds : List Datagram) (id : String) (addr : SocketAddr) : Prop :=
  ∃ pre d post, ds = pre ++ d :: post ∧ source d = some id ∧ d.addr = addr ∧
    ∀ e ∈ post, source e ≠ some id

variable {ds : List Datagram} {d : Datagram} {id : String} {addr : SocketAddr}
  {server : RelayServerProtocol}

theorem handled_concat (ds : List Datagram) (d : Datagram) :
    handled (ds ++ [d]) = datagramReceived (handled ds) d := by
  simp [handled]

theorem ofList_registration_eq_some_iff :
    Dict.ofList (registration d) id = some addr ↔ source d = some id ∧ d.addr = addr := by
  unfold registration source
  cases RelayProtocol.decodeFrame d.data with
  | none => simp [Dict.ofList, Dict.setAll, Dict.empty]
  | some frame =>
    by_cases hid : id = frame.1
    · simp [Dict.ofList, Dict.setAll, Dict.set, hid]
    · simp [Dict.ofList, Dict.setAll, Dict.set, Dict.empty, hid, Ne.symm hid]

theorem ofList_registration_eq_none_iff :
    Dict.ofList (registration d) id = none ↔ source d ≠ some id := by
  constructor
  · intro h hs
    have hsome := ofList_registration_eq_some_iff.mpr ⟨hs, rfl⟩
    rw [h] at hsome
    cases hsome
  · intro h
    cases ha : Dict.ofList (registration d) id with
    | none => rfl
    | some addr => exact (h (ofList_registration_eq_some_iff.mp ha).1).elim

theorem nodeEndpoints_datagramReceived (server : RelayServerProtocol) (d : Datagram) :
    (datagramReceived server d).nodeEndpoints =
      server.nodeEndpoints.setAll (registration d) := by
  unfold datagramReceived registration
  cases RelayProtocol.decodeFrame d.data with
  | none => rfl
  | some frame =>
    dsimp only
    split
    · rfl
    · rfl

/-- The table is what the frames have assigned, in their order. -/
theorem nodeEndpoints_handled (ds : List Datagram) :
    (handled ds).nodeEndpoints = Dict.ofList (ds.flatMap registration) := by
  induction ds using List.reverseRecOn with
  | nil => rfl
  | append_singleton ds d ih =>
    rw [handled_concat, nodeEndpoints_datagramReceived, ih, List.flatMap_append, Dict.ofList,
      ← Dict.setAll_append, Dict.ofList]
    simp

/-- The table has the sender of the latest frame from each source, and nothing else. -/
theorem nodeEndpoints_iff :
    (handled ds).nodeEndpoints id = some addr ↔ LastSeen ds id addr := by
  rw [nodeEndpoints_handled, Dict.ofList_flatMap_eq_some_iff]
  simp only [ofList_registration_eq_some_iff, ofList_registration_eq_none_iff, and_assoc,
    LastSeen]

/-- What is sent for a datagram: the datagram itself, if its destination is in the table once
its source has been entered. -/
theorem transport_datagramReceived (server : RelayServerProtocol) (d : Datagram) :
    (datagramReceived server d).transport = server.transport ++
      (((destination d).bind (datagramReceived server d).nodeEndpoints).map
        fun addr => (⟨d.data, addr⟩ : Datagram)).toList := by
  rw [nodeEndpoints_datagramReceived]
  unfold datagramReceived registration destination
  cases RelayProtocol.decodeFrame d.data with
  | none => simp
  | some frame =>
    simp only [Dict.setAll, List.foldl_cons, List.foldl_nil, Option.map_some, Option.bind_some]
    cases (server.nodeEndpoints.set frame.1 d.addr) frame.2.1 with
    | none => simp
    | some dstAddr => rfl

/-- After any datagrams and one more: the table has the latest sender for every source, the
datagram is forwarded to the latest sender for its destination and to no one else, and one
that is no frame leaves the server as it was. -/
theorem relays (ds : List Datagram) (d : Datagram) :
    (∀ id addr, (handled (ds ++ [d])).nodeEndpoints id = some addr ↔
      LastSeen (ds ++ [d]) id addr) ∧
    (∀ id addr, destination d = some id → LastSeen (ds ++ [d]) id addr →
      (handled (ds ++ [d])).transport = (handled ds).transport ++ [⟨d.data, addr⟩]) ∧
    ((∀ id addr, destination d = some id → ¬ LastSeen (ds ++ [d]) id addr) →
      (handled (ds ++ [d])).transport = (handled ds).transport) ∧
    (RelayProtocol.decodeFrame d.data = none → handled (ds ++ [d]) = handled ds) := by
  have htransport := transport_datagramReceived (handled ds) d
  rw [← handled_concat] at htransport
  refine ⟨fun id addr => nodeEndpoints_iff, ?_, ?_, ?_⟩
  · intro id addr hd hl
    have hn := nodeEndpoints_iff.mpr hl
    simpa [hd, hn] using htransport
  · intro hno
    rw [htransport]
    cases hd : destination d with
    | none => simp
    | some id =>
      cases hn : (handled (ds ++ [d])).nodeEndpoints id with
      | none => simp [hn]
      | some addr => exact (hno id addr hd (nodeEndpoints_iff.mp hn)).elim
  · intro hnone
    rw [handled_concat, datagramReceived, hnone]

end RelayServerProtocol

end PyMesh
