import Mathlib.Logic.Function.Basic
import PyMesh.Library.Datagrams
import PyMesh.Library.Text
import PyMesh.Relay.Server

/-! `HolePuncher.punch_hole`: calls on several hosts at once, which send each other probes. -/
namespace PyMesh

open LTS Text Datagrams

/-- Where a call of `punch_hole` stands. -/
inductive PunchPoint where
  | called
  /-- `await asyncio.sleep(0.3)`, with the socket open. -/
  | sleeping
  | returned
deriving DecidableEq

/-- A call of `punch_hole`. -/
structure HolePuncher where
  targetEndpoints : List String
  point : PunchPoint := .called
  reachableEndpoint : Option String := none
  /-- `transport` has been closed. -/
  closed : Bool := false

/-- What `transport.sendto` makes of a host and a port. An `OSError` is reported to the protocol and
changes nothing; whatever else the socket raises, such as the `OverflowError` for a port above
65535, makes the transport close. -/
inductive Sendto where
  | goesTo (addr : SocketAddr)
  | osError
  | closes
deriving DecidableEq

namespace HolePuncher

/-- `b"PYMESH"` -/
def pymesh : List UInt8 := [80, 89, 77, 69, 83, 72]

/-- `b"PYMESH_P2P_PROBE"` -/
def probeMsg : List UInt8 := pymesh ++ [95, 80, 50, 80, 95, 80, 82, 79, 66, 69]

/-- `f"{addr[0]}:{addr[1]}"` -/
def epStr (addr : SocketAddr) : String := addr.1 ++ ":" ++ toString addr.2

/-- The socket is open while the call sleeps, unless the transport has closed it. -/
def datagramReceived (p : HolePuncher) (data : List UInt8) (addr : SocketAddr) : HolePuncher :=
  if p.point = .sleeping ∧ p.closed = false ∧ (data = probeMsg ∨ pymesh.isPrefixOf data) ∧
      p.reachableEndpoint = none
  then { p with reachableEndpoint := some (epStr addr) }
  else p

/-- What a round does with a target; `resolve` is what becomes of a host and a port. -/
def attempted (resolve : String → Int → Sendto) (ep : String) : Option Sendto := do
  guard (':' ∈ ep.toList)
  let (ip, port) := rsplit ep ':'
  return resolve ip (← readInt port)

/-- The addresses to which a round sends a probe. -/
def probed (resolve : String → Int → Sendto) (p : HolePuncher) : List SocketAddr :=
  p.targetEndpoints.filterMap fun ep => match attempted resolve ep with
    | some (.goesTo addr) => some addr
    | _ => none

/-- Whether a target makes the transport close. It does so after the round, so the targets behind
it are tried too. -/
def closesAfter (resolve : String → Int → Sendto) (p : HolePuncher) : Bool :=
  p.targetEndpoints.any fun ep => attempted resolve ep = some .closes

/-- The call goes on to its next await: a round of probes while there is time left and nobody has
been heard. -/
def wake (resolve : String → Int → Sendto) (timeLeft : Bool) (p : HolePuncher) :
    HolePuncher × List SocketAddr :=
  if p.point = .returned then (p, [])
  else if p.targetEndpoints = [] then ({ p with point := .returned }, [])
  else if timeLeft ∧ p.reachableEndpoint = none then
    ({ p with point := .sleeping, closed := p.closed || p.closesAfter resolve },
      if p.closed then [] else p.probed resolve)
  else ({ p with point := .returned }, [])

/-- A datagram on its way. -/
structure Probe where
  data : List UInt8
  src : SocketAddr
  dst : SocketAddr
deriving DecidableEq

/-- The call of a party goes on; `goes` says which of its sends do not raise. -/
structure Wake (ι : Type) where
  party : ι
  timeLeft : Bool
  goes : SocketAddr → Bool

variable {ι : Type} [DecidableEq ι]

/-- One call for each party; `addr` is the address under which the others see its socket. -/
def punching (addr : ι → SocketAddr) (resolve : String → Int → Sendto)
    (s : ι → HolePuncher) : Wake ι ⊕ Probe → (ι → HolePuncher) × List Probe
  | .inl w =>
    let (p, dsts) := (s w.party).wake resolve w.timeLeft
    (Function.update s w.party p, (dsts.filter w.goes).map fun dst => ⟨probeMsg, addr w.party, dst⟩)
  | .inr m => (fun i => if addr i = m.dst then (s i).datagramReceived m.data m.src else s i, [])

/-- The calls before they have done anything. -/
def calls (targets : ι → List String) (i : ι) : HolePuncher := { targetEndpoints := targets i }

variable {addr : ι → SocketAddr} {resolve : String → Int → Sendto}
  {s : ι → HolePuncher} {targets : ι → List String} {e : Wake ι ⊕ Probe} {es : List (Wake ι ⊕ Probe)}
  {n : Net (ι → HolePuncher) Probe} {m : Probe} {i j : ι} {ep : String} {p : HolePuncher}

theorem epStr_injective : Function.Injective epStr := by
  rintro ⟨host, port⟩ ⟨host', port'⟩ h
  have hr : ∀ (a : String) (k : Nat), rsplit (epStr (a, k)) ':' = (a, toString k) := by
    intro a k
    refine rsplit_of_toList ?_ (colon_notMem_toString k)
    simp [epStr]
  have hparts : (host, toString port) = (host', toString port') := by
    rw [← hr, ← hr, h]
  obtain ⟨rfl, hport⟩ := Prod.mk.inj hparts
  have hint : toString (port : Int) = toString (port' : Int) := hport
  have heq := intToString_injective hint
  have hnat : port = port' := by omega
  rw [hnat]

theorem wake_fields (timeLeft : Bool) (p : HolePuncher) :
    (p.wake resolve timeLeft).1.targetEndpoints = p.targetEndpoints ∧
      (p.wake resolve timeLeft).1.reachableEndpoint = p.reachableEndpoint := by
  unfold wake
  split
  · exact ⟨rfl, rfl⟩
  · split
    · exact ⟨rfl, rfl⟩
    · split <;> exact ⟨rfl, rfl⟩

/-- Only a call that has heard nobody sends probes, and only to its targets. -/
theorem silent_of_wake {timeLeft : Bool} {dst : SocketAddr}
    (h : dst ∈ (p.wake resolve timeLeft).2) :
    p.reachableEndpoint = none ∧ dst ∈ p.probed resolve := by
  unfold wake at h
  split at h
  · cases h
  · split at h
    · cases h
    · split at h
      next hgo =>
        dsimp only at h
        split at h
        · cases h
        · exact ⟨hgo.2, h⟩
      next => cases h

theorem received_cases (p : HolePuncher) (data : List UInt8) (a : SocketAddr) :
    p.datagramReceived data a = p ∨ (p.reachableEndpoint = none ∧
      p.datagramReceived data a = { p with reachableEndpoint := some (epStr a) }) := by
  unfold datagramReceived
  split
  next h => exact Or.inr ⟨h.2.2.2, rfl⟩
  next => exact Or.inl rfl

theorem targets_step : ((punching addr resolve s e).1 i).targetEndpoints = (s i).targetEndpoints := by
  cases e with
  | inl w =>
    by_cases hi : i = w.party
    · subst i
      simp [punching, wake_fields]
    · simp [punching, Function.update_of_ne hi]
  | inr m =>
    simp only [punching]
    split
    · rcases received_cases (s i) m.data m.src with h | ⟨-, h⟩ <;> rw [h]
    · rfl

/-- A party hears somebody only when a datagram arrives, and the first one counts. -/
theorem reachable_step (h : ((punching addr resolve s e).1 i).reachableEndpoint = some ep) :
    (s i).reachableEndpoint = some ep ∨ ((s i).reachableEndpoint = none ∧
      ∃ m, e = .inr m ∧ m.dst = addr i ∧ ep = epStr m.src) := by
  cases e with
  | inl w =>
    left
    by_cases hi : i = w.party
    · subst i
      simpa [punching, wake_fields] using h
    · simpa [punching, Function.update_of_ne hi] using h
  | inr m =>
    simp only [punching] at h
    split at h
    next hi =>
      rcases received_cases (s i) m.data m.src with hs | ⟨hn, hs⟩
      · rw [hs] at h
        exact Or.inl h
      · rw [hs] at h
        exact Or.inr ⟨hn, m, rfl, hi.symm, (Option.some.inj h).symm⟩
    next => exact Or.inl h

/-- A probe was sent by a party that had heard nobody, to one of its targets. -/
theorem sender_of_mem (h : m ∈ (punching addr resolve s e).2) : ∃ w, e = .inl w ∧
    m.data = probeMsg ∧ m.src = addr w.party ∧ (s w.party).reachableEndpoint = none ∧
      m.dst ∈ (s w.party).probed resolve := by
  cases e with
  | inl w =>
    obtain ⟨dst, hdst, rfl⟩ := List.mem_map.mp h
    obtain ⟨hsilent, hprobed⟩ := silent_of_wake (List.mem_filter.mp hdst).1
    exact ⟨w, rfl, rfl, rfl, hsilent, hprobed⟩
  | inr m' => cases h

/-- The datagram by which a party has heard somebody: it arrives at an event before which it had
heard nobody. -/
theorem heard (h : (stateAfter (punching addr resolve) s es i).reachableEndpoint = some ep)
    (h0 : (s i).reachableEndpoint = none) : ∃ d m, es[d]? = some (.inr m) ∧ m.dst = addr i ∧
      ep = epStr m.src ∧
      (stateAfter (punching addr resolve) s (es.take d) i).reachableEndpoint = none ∧
      ∀ k, d < k → k ≤ es.length →
        (stateAfter (punching addr resolve) s (es.take k) i).reachableEndpoint = some ep := by
  induction es using List.reverseRecOn with
  | nil =>
    rw [stateAfter, List.foldl_nil, h0] at h
    cases h
  | append_singleton es e ih =>
    have hlast : stateAfter (punching addr resolve) s (es ++ [e]) =
        (punching addr resolve (stateAfter (punching addr resolve) s es) e).1 := by
      rw [stateAfter_append]
      rfl
    have hend : ∀ k, es.length < k → k ≤ (es ++ [e]).length → (es ++ [e]).take k = es ++ [e] := by
      intro k hk _
      exact List.take_of_length_le (by simp; omega)
    rw [hlast] at h
    rcases reachable_step h with h' | ⟨hbefore, m, rfl, hdst, hep⟩
    · obtain ⟨d, m, hd, hdst, hep, hbefore, hafter⟩ := ih h'
      have hlt : d < es.length := (List.getElem?_eq_some_iff.mp hd).1
      refine ⟨d, m, by rw [List.getElem?_append_left hlt, hd], hdst, hep, ?_, fun k hk hle => ?_⟩
      · rw [List.take_append_of_le_length hlt.le]
        exact hbefore
      · by_cases hes : k ≤ es.length
        · rw [List.take_append_of_le_length hes]
          exact hafter k hk hes
        · rw [hend k (by omega) hle, hlast]
          exact h
    · refine ⟨es.length, m, by simp, hdst, hep, ?_, fun k hk hle => ?_⟩
      · rw [List.take_left]
        exact hbefore
      · rw [hend k hk hle, hlast]
        exact h

theorem targets_run (es : List (Wake ι ⊕ Probe)) :
    (stateAfter (punching addr resolve) s es i).targetEndpoints = (s i).targetEndpoints := by
  induction es generalizing s with
  | nil => rfl
  | cons e es ih => exact (ih (s := (punching addr resolve s e).1)).trans targets_step

/-- The event `k` sends the probe `m`. -/
def SentAt (addr : ι → SocketAddr) (resolve : String → Int → Sendto)
    (targets : ι → List String) (es : List (Wake ι ⊕ Probe)) (k : Nat) (m : Probe) : Prop :=
  ∃ e, es[k]? = some e ∧ m ∈
    (punching addr resolve (stateAfter (punching addr resolve) (calls targets) (es.take k)) e).2

/-- At the event `d` the probe `m` arrives, by which `i` hears somebody. -/
structure HeardAt (addr : ι → SocketAddr) (resolve : String → Int → Sendto)
    (targets : ι → List String) (es : List (Wake ι ⊕ Probe)) (d : Nat) (i : ι) (m : Probe) :
    Prop where
  arrives : es[d]? = some (.inr m)
  dst : m.dst = addr i
  before :
    (stateAfter (punching addr resolve) (calls targets) (es.take d) i).reachableEndpoint = none
  after :
    (stateAfter (punching addr resolve) (calls targets) (es.take (d + 1)) i).reachableEndpoint =
      some (epStr m.src)

/-- What a party has heard is the address of a party that has it among its targets. -/
theorem punched_peer (h : Run (Step (punching addr resolve)) ⟨calls targets, []⟩ es n)
    (hf : (n.state i).reachableEndpoint = some ep) :
    ∃ j, ep = epStr (addr j) ∧ addr i ∈ (calls targets j).probed resolve := by
  rw [state_of_run h] at hf
  obtain ⟨d, m, hd, hdst, rfl, -, -⟩ := heard hf rfl
  obtain ⟨k, -, e, -, hm⟩ := sent_before h hd
  obtain ⟨w, -, -, hsrc, -, hprobed⟩ := sender_of_mem hm
  refine ⟨w.party, by rw [hsrc], ?_⟩
  rw [← hdst]
  simpa only [probed, targets_run] using hprobed

/-- The arrival by which `i` has heard `j`: before it `j` has sent the probe that arrives, and
after it `i` sends none. -/
theorem arrival_of_heard (haddr : Function.Injective addr)
    (h : Run (Step (punching addr resolve)) ⟨calls targets, []⟩ es n)
    (hf : (n.state i).reachableEndpoint = some (epStr (addr j))) :
    ∃ d m, HeardAt addr resolve targets es d i m ∧ m.src = addr j ∧
      (∃ b < d, SentAt addr resolve targets es b m) ∧
      ∀ a p, SentAt addr resolve targets es a p → p.src = addr i → a < d := by
  rw [state_of_run h] at hf
  obtain ⟨d, m, hd, hdst, hep, hbefore, hafter⟩ := heard hf rfl
  obtain ⟨b, hb, e, he, hm⟩ := sent_before h hd
  have hlen : d + 1 ≤ es.length := (List.getElem?_eq_some_iff.mp hd).1
  have hheard : HeardAt addr resolve targets es d i m :=
    ⟨hd, hdst, hbefore, hep ▸ hafter (d + 1) (Nat.lt_succ_self d) hlen⟩
  refine ⟨d, m, hheard, (epStr_injective hep).symm, ⟨b, hb, e, he, hm⟩, ?_⟩
  rintro a p ⟨e', he', hp⟩ hsrc
  obtain ⟨w, rfl, -, hw, hsilent, -⟩ := sender_of_mem hp
  obtain rfl : w.party = i := haddr (hw.symm.trans hsrc)
  by_contra hle
  have hne : a ≠ d := by
    rintro rfl
    rw [hd] at he'
    cases he'
  have hlt : a < es.length := (List.getElem?_eq_some_iff.mp he').1
  rw [hafter a (by omega) hlt.le] at hsilent
  cases hsilent

/-- Two parties can hear each other only when their probes cross: each has sent the probe by which
the other hears it before it has heard the other. -/
theorem crossing (haddr : Function.Injective addr)
    (h : Run (Step (punching addr resolve)) ⟨calls targets, []⟩ es n)
    (hi : (n.state i).reachableEndpoint = some (epStr (addr j)))
    (hj : (n.state j).reachableEndpoint = some (epStr (addr i))) :
    ∃ a b c d p q, SentAt addr resolve targets es a p ∧ SentAt addr resolve targets es b q ∧
      HeardAt addr resolve targets es c j p ∧ HeardAt addr resolve targets es d i q ∧
      p.src = addr i ∧ q.src = addr j ∧ a < c ∧ b < d ∧ a < d ∧ b < c := by
  obtain ⟨d, q, hd, hqs, ⟨b, hbd, hb⟩, hsilent⟩ := arrival_of_heard haddr h hi
  obtain ⟨c, p, hc, hps, ⟨a, hac, ha⟩, hsilent'⟩ := arrival_of_heard haddr h hj
  exact ⟨a, b, c, d, p, q, ha, hb, hc, hd, hps, hqs, hac, hbd, hsilent a p ha hps,
    hsilent' b q hb hqs⟩

/-- Two hosts, known by the addresses that their NATs give them. -/
def hosts (i : Bool) : SocketAddr := if i then ("198.51.100.1", 51820) else ("203.0.113.2", 51820)

/-- Each host has the other one among its targets. -/
def others (i : Bool) : List String := if i then ["203.0.113.2:51820"] else ["198.51.100.1:51820"]

/-- A host that is given by its address. -/
def literal (ip : String) (port : Int) : Sendto :=
  if 0 ≤ port ∧ port < 65536 then .goesTo (ip, port.toNat) else .closes

def wakeUp (i : Bool) : Wake Bool ⊕ Probe := .inl ⟨i, true, fun _ => true⟩

def probeFrom (i : Bool) : Probe := ⟨probeMsg, hosts i, hosts !i⟩

theorem hosts_injective : Function.Injective hosts := by
  intro i j h
  cases i <;> cases j <;> simp [hosts] at h ⊢

/-- Both hosts send, and then both probes arrive. -/
def crossed : List (Wake Bool ⊕ Probe) :=
  [wakeUp true, wakeUp false, .inr (probeFrom true), .inr (probeFrom false)]

theorem punched_run : ∃ n, Run (Step (punching hosts literal)) ⟨calls others, []⟩ crossed n ∧
    ((n.state true).reachableEndpoint = some (epStr (hosts false)) ∧
      (n.state false).reachableEndpoint = some (epStr (hosts true))) :=
  exists_run_of_play (by decide +kernel)

/-- A port that is out of range does not keep the round from its end, but after it the call neither
sends nor hears anything. -/
example : let p : HolePuncher := { targetEndpoints := ["203.0.113.2:70000", "203.0.113.2:51820"] }
    let q := (p.wake literal true).1
    (p.wake literal true).2 = [("203.0.113.2", 51820)] ∧ (q.wake literal true).2 = [] ∧
      (q.datagramReceived probeMsg ("203.0.113.2", 51820)).reachableEndpoint = none := by
  decide +kernel

/-- A host that has been heard is a host that was probing. -/
theorem punched_peer_run : ∃ j : Bool, epStr (hosts false) = epStr (hosts j) ∧
    hosts true ∈ (calls others j).probed literal := by
  obtain ⟨n, hn, hi, -⟩ := punched_run
  exact punched_peer hn hi

/-- Both hosts have sent their first probe when the first one arrives. -/
theorem crossing_run : ∃ a b c d p q,
    SentAt hosts literal others crossed a p ∧ SentAt hosts literal others crossed b q ∧
    HeardAt hosts literal others crossed c false p ∧
    HeardAt hosts literal others crossed d true q ∧ a < d ∧ b < c := by
  obtain ⟨n, hn, hi, hj⟩ := punched_run
  obtain ⟨a, b, c, d, p, q, ha, hb, hc, hd, -, -, -, -, had, hbc⟩ :=
    crossing hosts_injective hn hi hj
  exact ⟨a, b, c, d, p, q, ha, hb, hc, hd, had, hbc⟩

/-- Every probe that arrives was sent when a call went on for the last time before. -/
def Prompt (addr : ι → SocketAddr) (resolve : String → Int → Sendto)
    (targets : ι → List String) (es : List (Wake ι ⊕ Probe)) : Prop :=
  ∀ c m, es[c]? = some (.inr m) → ∃ a < c, SentAt addr resolve targets es a m ∧
    ∀ b, a < b → b < c → ∀ w, es[b]? ≠ some (.inl w)

/-- When probes arrive without delay, at most one of two parties hears the other: it stops before
it has answered. -/
theorem one_sided (haddr : Function.Injective addr) (hij : i ≠ j)
    (h : Run (Step (punching addr resolve)) ⟨calls targets, []⟩ es n)
    (hprompt : Prompt addr resolve targets es)
    (hi : (n.state i).reachableEndpoint = some (epStr (addr j))) :
    (n.state j).reachableEndpoint ≠ some (epStr (addr i)) := by
  intro hj
  obtain ⟨d, q, hd, hqs, -, hsilent⟩ := arrival_of_heard haddr h hi
  obtain ⟨c, p, hc, hps, -, hsilent'⟩ := arrival_of_heard haddr h hj
  obtain ⟨a, hac, ha, hbetween⟩ := hprompt c p hc.arrives
  obtain ⟨b, hbd, hb, hbetween'⟩ := hprompt d q hd.arrives
  have had : a < d := hsilent a p ha hps
  have hbc : b < c := hsilent' b q hb hqs
  obtain ⟨e, he, hp⟩ := ha
  obtain ⟨e', he', hq⟩ := hb
  obtain ⟨w, rfl, -, hw, -⟩ := sender_of_mem hp
  obtain ⟨w', rfl, -, hw', -⟩ := sender_of_mem hq
  rcases Nat.lt_trichotomy a b with hab | rfl | hab
  · exact hbetween b hab hbc w' he'
  · obtain rfl : w = w' := by
      rw [he] at he'
      cases he'
      rfl
    exact hij (haddr (hps.symm.trans (hw.trans (hw'.symm.trans hqs))))
  · exact hbetween' a hab had w he

/-- The first host is heard before it has sent a probe that the second one can receive. -/
theorem one_sided_run : ∃ n, Run (Step (punching hosts literal)) ⟨calls others, []⟩
    [wakeUp true, wakeUp false, .inr (probeFrom false)] n ∧
    (n.state true).reachableEndpoint = some (epStr (hosts false)) ∧
    (n.state false).reachableEndpoint ≠ some (epStr (hosts true)) := by
  have hrun : ∃ n, Run (Step (punching hosts literal)) ⟨calls others, []⟩
      [wakeUp true, wakeUp false, .inr (probeFrom false)] n ∧
      (n.state true).reachableEndpoint = some (epStr (hosts false)) :=
    exists_run_of_play (by decide +kernel)
  obtain ⟨n, hn, hi⟩ := hrun
  have hprompt : Prompt hosts literal others [wakeUp true, wakeUp false, .inr (probeFrom false)] := by
    intro c m hc
    match c with
    | 0 => cases hc
    | 1 => cases hc
    | 2 =>
      obtain rfl : probeFrom false = m := by simpa using hc
      refine ⟨1, by decide, ⟨wakeUp false, rfl, by decide +kernel⟩, fun b h1 h2 => by omega⟩
    | c + 3 => cases hc
  exact ⟨n, hn, hi, one_sided hosts_injective (by decide) hn hprompt hi⟩

end HolePuncher

end PyMesh
