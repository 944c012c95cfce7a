import PyMesh.Library.Datagrams
import PyMesh.Relay.Server

/-! Relay clients and the relay server over a network that loses, repeats and reorders
datagrams. -/
namespace PyMesh

open LTS Text Datagrams

structure RelayClient where
  relayEndpoint : String
  selfNodeId : String
deriving DecidableEq

/-- `sock.sendto(frame, (host, port))`: the address that the datagram goes to; `none` when the
call raises. -/
abbrev SendTo := List UInt8 → String → Int → Option SocketAddr

namespace RelayClient

/-- The datagram's contents and where they go when the call returns `True`; `none` when it
returns `False`. -/
def sendRelayedPacket (sendTo : SendTo) (client : RelayClient) (dstNodeId : String)
    (payload : List UInt8) : Option (List UInt8 × SocketAddr) := do
  guard (':' ∈ client.relayEndpoint.toList)
  let (host, portStr) := rsplit client.relayEndpoint ':'
  let port ← readInt portStr
  let frame ← (RelayProtocol.encodeFrame client.selfNodeId dstNodeId payload).toOption
  let addr ← sendTo frame host port
  return (frame, addr)

theorem frame_of_send {sendTo : SendTo} {client : RelayClient} {dstNodeId : String}
    {payload frame : List UInt8} {addr : SocketAddr}
    (h : sendRelayedPacket sendTo client dstNodeId payload = some (frame, addr)) :
    RelayProtocol.encodeFrame client.selfNodeId dstNodeId payload = .ok frame := by
  obtain ⟨-, -, h⟩ := Option.bind_eq_some_iff.mp h
  obtain ⟨port, -, h⟩ := Option.bind_eq_some_iff.mp h
  obtain ⟨frame', hf, h⟩ := Option.bind_eq_some_iff.mp h
  obtain ⟨addr', -, h⟩ := Option.bind_eq_some_iff.mp h
  obtain ⟨rfl, rfl⟩ := Prod.mk.inj (Option.some.inj h)
  cases he : RelayProtocol.encodeFrame client.selfNodeId dstNodeId payload with
  | ok f =>
    rw [he] at hf
    exact congrArg Except.ok (Option.some.inj hf)
  | error e =>
    rw [he] at hf
    cases hf

end RelayClient

/-- A call of `send_relayed_packet`, and the address that the OS gives its new socket. -/
structure RelayedPacket where
  client : RelayClient
  addr : SocketAddr
  dstNodeId : String
  payload : List UInt8

namespace RelayedPacket

/-- What the call sends to the relay. -/
def datagrams (sendTo : SendTo) (relay : SocketAddr) (p : RelayedPacket) : List Datagram :=
  match p.client.sendRelayedPacket sendTo p.dstNodeId p.payload with
  | some (frame, addr) => if addr = relay then [⟨frame, p.addr⟩] else []
  | none => []

theorem mem_datagrams {sendTo : SendTo} {relay : SocketAddr} {p : RelayedPacket} {d : Datagram}
    (h : d ∈ p.datagrams sendTo relay) : d.addr = p.addr ∧
      RelayProtocol.encodeFrame p.client.selfNodeId p.dstNodeId p.payload = .ok d.data := by
  unfold datagrams at h
  split at h
  next frame addr hs =>
    split at h
    · obtain rfl := List.mem_singleton.mp h
      exact ⟨rfl, RelayClient.frame_of_send hs⟩
    · cases h
  next => cases h

end RelayedPacket

namespace RelayServerProtocol

open RelayProtocol

/-- What an id is on the wire. -/
def wireId (nodeId : String) : String := rstrip (· = '\x00') (truncate nodeId 32)

/-- Clients send to the server, and the server handles what arrives. -/
def relaying (sendTo : SendTo) (relay : SocketAddr) (server : RelayServerProtocol) :
    RelayedPacket ⊕ Datagram → RelayServerProtocol × List Datagram
  | .inl p => (server, p.datagrams sendTo relay)
  | .inr d => (server.datagramReceived d, [])

variable {sendTo : SendTo} {relay : SocketAddr} {es : List (RelayedPacket ⊕ Datagram)}
  {n : Net RelayServerProtocol Datagram} {ds : List Datagram} {d out : Datagram} {p q : RelayedPacket}
  {id : String} {addr : SocketAddr}

/-- What the server has handled is what has arrived. -/
theorem stateAfter_relaying (server : RelayServerProtocol) :
    stateAfter (relaying sendTo relay) server es = (arrivals es).foldl datagramReceived server := by
  induction es generalizing server with
  | nil => rfl
  | cons e es ih =>
    cases e with
    | inl p => exact ih server
    | inr d => exact ih (server.datagramReceived d)

theorem server_of_run (h : Run (Step (relaying sendTo relay)) ⟨{}, []⟩ es n) :
    n.state = handled (arrivals es) := by
  rw [state_of_run h, stateAfter_relaying, handled]

/-- Everything that arrives carries the frame of a call. -/
theorem call_of_arrival (h : Run (Step (relaying sendTo relay)) ⟨{}, []⟩ es n)
    (hd : d ∈ arrivals es) : ∃ p, .inl p ∈ es ∧ d ∈ p.datagrams sendTo relay := by
  obtain ⟨k, hk⟩ := List.mem_iff_getElem?.mp (mem_arrivals.mp hd)
  obtain ⟨l, -, e, he, hm⟩ := sent_before h hk
  cases e with
  | inl p => exact ⟨p, List.mem_of_getElem? he, hm⟩
  | inr d' => cases hm

/-- The frame of a call is read as its packet. -/
theorem decodeFrame_of_call (h : d ∈ p.datagrams sendTo relay) : decodeFrame d.data =
    some (wireId p.client.selfNodeId, wireId p.dstNodeId, p.payload) :=
  decodeFrame_encodeFrame (RelayedPacket.mem_datagrams h).2

theorem source_of_call (h : d ∈ p.datagrams sendTo relay) :
    source d = some (wireId p.client.selfNodeId) := by
  rw [source, decodeFrame_of_call h]
  rfl

theorem destination_of_call (h : d ∈ p.datagrams sendTo relay) :
    destination d = some (wireId p.dstNodeId) := by
  rw [destination, decodeFrame_of_call h]
  rfl

/-- The address that is known for an id is that of a call by its node. -/
theorem call_of_lastSeen (h : Run (Step (relaying sendTo relay)) ⟨{}, []⟩ es n)
    (hds : ∀ e ∈ ds, e ∈ arrivals es) (hl : LastSeen ds id addr) :
    ∃ q, .inl q ∈ es ∧ wireId q.client.selfNodeId = id ∧ q.addr = addr := by
  obtain ⟨pre, e, post, rfl, hsrc, rfl, -⟩ := hl
  obtain ⟨q, hq, he⟩ := call_of_arrival h (hds e (by simp))
  rw [source_of_call he] at hsrc
  exact ⟨q, hq, Option.some.inj hsrc, (RelayedPacket.mem_datagrams he).1.symm⟩

/-- What the server has sent is what has arrived, each to the latest sender for its
destination. -/
theorem forwarded_of_mem (h : out ∈ (handled ds).transport) : ∃ pre d post id,
    ds = pre ++ d :: post ∧ out.data = d.data ∧ destination d = some id ∧
      LastSeen (pre ++ [d]) id out.addr := by
  induction ds using List.reverseRecOn with
  | nil => cases h
  | append_singleton ds d ih =>
    rw [handled_concat, transport_datagramReceived, List.mem_append] at h
    rcases h with h | h
    · obtain ⟨pre, e, post, id, rfl, he⟩ := ih h
      exact ⟨pre, e, post ++ [d], id, by simp, he⟩
    · rw [Option.mem_toList, Option.map_eq_some_iff] at h
      obtain ⟨addr, ha, rfl⟩ := h
      obtain ⟨id, hid, hn⟩ := Option.bind_eq_some_iff.mp ha
      rw [← handled_concat] at hn
      exact ⟨ds, d, [], id, rfl, rfl, hid, nodeEndpoints_iff.mp hn⟩

/-- Each arrival is forwarded once at most, and in the order of the arrivals. -/
theorem transport_sublist (ds : List Datagram) :
    ((handled ds).transport.map Datagram.data).Sublist (ds.map Datagram.data) := by
  induction ds using List.reverseRecOn with
  | nil => exact .slnil
  | append_singleton ds d ih =>
    rw [handled_concat, transport_datagramReceived, List.map_append, List.map_append]
    refine ih.append ?_
    cases (destination d).bind (datagramReceived (handled ds) d).nodeEndpoints with
    | none => exact List.nil_sublist _
    | some addr => exact List.Sublist.refl _

/-- Whatever is lost, repeated or reordered, the relay forwards what the clients have sent, byte for
byte, none more often than it arrives, and each to an address from which a client has sent whose id
is the packet's destination on the wire, the latest one that the relay knew. -/
theorem relayed (h : Run (Step (relaying sendTo relay)) ⟨{}, []⟩ es n) :
    (n.state.transport.map Datagram.data).Sublist ((arrivals es).map Datagram.data) ∧
    ∀ out ∈ n.state.transport, ∃ p q, .inl p ∈ es ∧ .inl q ∈ es ∧
      decodeFrame out.data =
        some (wireId p.client.selfNodeId, wireId p.dstNodeId, p.payload) ∧
      wireId q.client.selfNodeId = wireId p.dstNodeId ∧ q.addr = out.addr ∧
      ∃ pre d post, arrivals es = pre ++ d :: post ∧ d ∈ p.datagrams sendTo relay ∧
        d.data = out.data ∧ LastSeen (pre ++ [d]) (wireId p.dstNodeId) out.addr := by
  rw [server_of_run h]
  refine ⟨transport_sublist _, fun out hout => ?_⟩
  obtain ⟨pre, d, post, id, hds, hdata, hid, hl⟩ := forwarded_of_mem hout
  obtain ⟨p, hp, hd⟩ := call_of_arrival h (by simp [hds] : d ∈ arrivals es)
  obtain rfl : wireId p.dstNodeId = id := Option.some.inj ((destination_of_call hd).symm.trans hid)
  have hbefore : ∀ e ∈ pre ++ [d], e ∈ arrivals es := by
    intro e he
    rw [hds]
    simp only [List.mem_append, List.mem_cons] at he ⊢
    tauto
  obtain ⟨q, hq, hwire, haddr⟩ := call_of_lastSeen h hbefore hl
  refine ⟨p, q, hp, hq, ?_, hwire, haddr, pre, d, post, hds, hd, hdata.symm, hl⟩
  rw [hdata, decodeFrame_of_call hd]

/-- Once a frame from a node has arrived, an address is known for it. -/
theorem exists_lastSeen (hd : d ∈ ds) (hs : source d = some id) : ∃ addr, LastSeen ds id addr := by
  cases hn : (handled ds).nodeEndpoints id with
  | some addr => exact ⟨addr, nodeEndpoints_iff.mp hn⟩
  | none =>
    have hreg : Dict.ofList (registration d) id = some d.addr :=
      ofList_registration_eq_some_iff.mpr ⟨hs, rfl⟩
    rw [nodeEndpoints_handled, Dict.ofList_eq_none_iff, List.map_flatMap] at hn
    refine (hn (List.mem_flatMap_of_mem hd ?_)).elim
    exact List.mem_map_of_mem (Dict.mem_of_ofList hreg)

/-- Once a frame from a packet's destination has arrived, every arrival of the packet is forwarded
at once, and to an address from which its destination has sent. -/
theorem served (h : Run (Step (relaying sendTo relay)) ⟨{}, []⟩ es n) (hp : .inl p ∈ es)
    (hd : d ∈ p.datagrams sendTo relay) {e : Datagram} (he : e ∈ q.datagrams sendTo relay)
    (hq : wireId q.client.selfNodeId = wireId p.dstNodeId) (harr : .inr e ∈ es) :
    ∃ n' r, Step (relaying sendTo relay) n (.inr d) n' ∧ .inl r ∈ es ∧
      wireId r.client.selfNodeId = wireId p.dstNodeId ∧
      n'.state.transport = n.state.transport ++ [⟨d.data, r.addr⟩] := by
  have hsent : d ∈ n.sent := by
    obtain ⟨k, hk⟩ := List.mem_iff_getElem?.mp hp
    exact (mem_sent h).mpr ⟨k, .inl p, hk, hd⟩
  have hstep : Step (relaying sendTo relay) n (.inr d) _ := .arrive hsent
  have hknown : source e = some (wireId p.dstNodeId) := by rw [source_of_call he, hq]
  have hmem : e ∈ arrivals es ++ [d] := by simp [mem_arrivals, harr]
  obtain ⟨addr, hl⟩ := exists_lastSeen hmem hknown
  obtain ⟨r, hr, hwire, haddr⟩ := call_of_lastSeen (h.tail hstep) (by simp [arrivals]) hl
  refine ⟨_, r, hstep, by simpa using hr, hwire, ?_⟩
  have htable : (handled (arrivals es ++ [d])).nodeEndpoints (wireId p.dstNodeId) = some r.addr := by
    rw [haddr]
    exact nodeEndpoints_iff.mpr hl
  have hnext := transport_datagramReceived n.state d
  rw [server_of_run h] at hnext ⊢
  rw [handled_concat] at htable
  simpa [relaying, destination_of_call hd, htable] using hnext

/-- A host that reaches the relay under its address. -/
def sendToRelay : SendTo := fun _ host port =>
  if host = "203.0.113.9" ∧ 0 ≤ port ∧ port < 65536 then some (host, port.toNat) else none

def relayAddr : SocketAddr := ("203.0.113.9", 51830)

/-- A call of the node `self`, from a socket with this address. -/
def callOf (self : String) (addr : SocketAddr) (dstNodeId : String) (payload : List UInt8) :
    RelayedPacket :=
  ⟨⟨"203.0.113.9:51830", self⟩, addr, dstNodeId, payload⟩

def hello : RelayedPacket := callOf "b" ("198.51.100.7", 40000) "a" []

def packet : RelayedPacket := callOf "a" ("192.0.2.5", 41000) "b" [4, 0, 0, 0]

/-- The node `b` makes itself known, and then `a` sends it a packet. -/
def exchange : List (RelayedPacket ⊕ Datagram) :=
  [.inl hello, .inl packet] ++ (hello.datagrams sendToRelay relayAddr).map .inr ++
    (packet.datagrams sendToRelay relayAddr).map .inr

theorem exchange_run : ∃ n, Run (Step (relaying sendToRelay relayAddr)) ⟨{}, []⟩ exchange n ∧
    n.state.transport.map Datagram.addr = [("198.51.100.7", 40000)] :=
  exists_run_of_play (by decide +kernel)

/-- What is forwarded in the exchange. -/
theorem relayed_exchange : ∃ n, Run (Step (relaying sendToRelay relayAddr)) ⟨{}, []⟩ exchange n ∧
    n.state.transport.map Datagram.addr = [("198.51.100.7", 40000)] ∧
    ∀ out ∈ n.state.transport, ∃ p q d, .inl p ∈ exchange ∧ .inl q ∈ exchange ∧
      d ∈ p.datagrams sendToRelay relayAddr ∧ d.data = out.data ∧
      decodeFrame out.data =
        some (wireId p.client.selfNodeId, wireId p.dstNodeId, p.payload) ∧
      wireId q.client.selfNodeId = wireId p.dstNodeId ∧ q.addr = out.addr := by
  obtain ⟨n, hn, haddr⟩ := exchange_run
  refine ⟨n, hn, haddr, fun out hout => ?_⟩
  obtain ⟨p, q, hp, hq, hdec, hwire, ha, -, d, -, -, hd, hdata, -⟩ := (relayed hn).2 out hout
  exact ⟨p, q, d, hp, hq, hd, hdata, hdec, hwire, ha⟩

/-- The packet of the exchange arrives once more. -/
theorem served_exchange : ∃ n n' d, Run (Step (relaying sendToRelay relayAddr)) ⟨{}, []⟩ exchange n ∧
    Step (relaying sendToRelay relayAddr) n (.inr d) n' ∧
    ∃ r : RelayedPacket, wireId r.client.selfNodeId = wireId "b" ∧
      n'.state.transport = n.state.transport ++ [⟨d.data, r.addr⟩] := by
  obtain ⟨n, hn, -⟩ := exchange_run
  obtain ⟨d, hd⟩ : ∃ d, d ∈ packet.datagrams sendToRelay relayAddr :=
    List.exists_mem_of_length_pos (by decide +kernel)
  obtain ⟨e, he⟩ : ∃ e, e ∈ hello.datagrams sendToRelay relayAddr :=
    List.exists_mem_of_length_pos (by decide +kernel)
  obtain ⟨n', r, hs, -, hr, ht⟩ := served hn (by simp [exchange]) hd he rfl (by simp [exchange, he])
  exact ⟨n, n', d, hn, hs, r, hr, ht⟩

end RelayServerProtocol

end PyMesh
