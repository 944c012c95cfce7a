import PyMesh.Library.Run
import Mathlib.Data.List.Basic

/-! `forward_stream`: two pipes between the connection to the local client and the connection to
the remote service, with the bytes that are under way. -/
namespace PyMesh.Forward

open LTS

/-- The peer at the other end of a connection: the local client or the remote service. -/
inductive Side where
  | loc
  | remote
deriving DecidableEq

def Side.other : Side → Side
  | .loc => .remote
  | .remote => .loc

/-- A connection: what its peer has sent, and what of that has not arrived yet; what the reader
holds; what has been written to it, and what of that the peer has got. `closed` says that
`writer.close()` has been called. -/
structure Conn where
  sent : List UInt8 := []
  wire : List UInt8 := []
  /-- The peer has closed its sending side. -/
  ended : Bool := false
  /-- The peer takes what is sent to it. -/
  receiving : Bool := true
  buffer : List UInt8 := []
  eof : Bool := false
  outgoing : List UInt8 := []
  delivered : List UInt8 := []
  closed : Bool := false
deriving DecidableEq

abbrev State := Side → Conn

inductive Event where
  | send (x : Side) (bs : List UInt8)
  | shutdown (x : Side)
  | stopReceiving (x : Side)
  /-- The next bytes of a connection arrive at its reader. -/
  | receive (x : Side) (n : Nat)
  | receiveEof (x : Side)
  /-- The next bytes written to a connection arrive at its peer. -/
  | deliver (x : Side) (n : Nat)
  /-- The pipe that reads from `x` reads some bytes and writes them. -/
  | copy (x : Side)
  /-- That pipe reads the end of the file, and closes its writer. -/
  | finish (x : Side)
  /-- That pipe gets an exception from its writer, and closes it. -/
  | fail (x : Side)
deriving DecidableEq

def initial : State := fun _ => {}

/-- The state after an event, if it can happen. The pipe that reads from `x` runs as long as the
connection it writes to is not closed: nothing else closes that one. -/
def step (s : State) : Event → Option State
  | .send x bs =>
    if (s x).ended then none
    else some (Function.update s x
      { s x with sent := (s x).sent ++ bs, wire := (s x).wire ++ bs })
  | .shutdown x => some (Function.update s x { s x with ended := true })
  | .stopReceiving x => some (Function.update s x { s x with receiving := false })
  | .receive x n =>
    -- After `close` no further data is received on a connection.
    if (s x).closed ∨ (s x).wire.take n = [] then none
    else some (Function.update s x
      { s x with buffer := (s x).buffer ++ (s x).wire.take n, wire := (s x).wire.drop n })
  | .receiveEof x =>
    if (s x).closed ∨ ((s x).ended ∧ (s x).wire = []) then
      some (Function.update s x { s x with eof := true })
    else none
  | .deliver x n =>
    if ¬ (s x).receiving ∨ (s x).outgoing.take n = [] then none
    else some (Function.update s x
      { s x with
        delivered := (s x).delivered ++ (s x).outgoing.take n
        outgoing := (s x).outgoing.drop n })
  | .copy x =>
    if (s x.other).closed ∨ (s x).buffer = [] then none
    else some (Function.update
      (Function.update s x { s x with buffer := (s x).buffer.drop 8192 }) x.other
        { s x.other with outgoing := (s x.other).outgoing ++ (s x).buffer.take 8192 })
  | .finish x =>
    if (s x.other).closed ∨ (s x).buffer ≠ [] ∨ ¬ (s x).eof then none
    else some (Function.update s x.other { s x.other with closed := true })
  | .fail x =>
    -- Only a peer that takes no more bytes makes a write raise. What its reader holds is lost.
    if (s x.other).closed ∨ (s x.other).receiving then none
    else some (Function.update s x.other
      { s x.other with closed := true, buffer := [], eof := true })

def Step (s : State) (e : Event) (t : State) : Prop := step s e = some t

/-- A pipe closes a connection when its peer has ended its side and all that it has sent has been
received (and read, when the pipe was stopped by an exception). -/
def Careful (s : State) : Event → Prop
  | .finish x => (s x.other).ended = true ∧ (s x.other).wire = []
  | .fail x => (s x.other).ended = true ∧ (s x.other).wire = [] ∧ (s x.other).buffer = []
  | _ => True

instance (s : State) : (e : Event) → Decidable (Careful s e)
  | .finish _ => inferInstanceAs (Decidable (_ ∧ _))
  | .fail _ => inferInstanceAs (Decidable (_ ∧ _ ∧ _))
  | .send _ _ => .isTrue trivial
  | .shutdown _ => .isTrue trivial
  | .stopReceiving _ => .isTrue trivial
  | .receive _ _ => .isTrue trivial
  | .receiveEof _ => .isTrue trivial
  | .deliver _ _ => .isTrue trivial
  | .copy _ => .isTrue trivial

/-- All that the peer `x` has sent is delivered or on its way, in its order, and nothing of it is
in a place from which it cannot get on. -/
structure Intact (s : State) (x : Side) : Prop where
  whole : (s x).sent =
    (s x.other).delivered ++ (s x.other).outgoing ++ (s x).buffer ++ (s x).wire
  received : (s x).closed = true → (s x).wire = []
  copied : (s x.other).closed = true → (s x.other).receiving = true → (s x).buffer = []

/-- An event that moves bytes on. -/
def Event.moves : Event → Bool
  | .receive _ _ => true
  | .copy _ => true
  | .deliver _ _ => true
  | _ => false

/-- No byte can be moved on. -/
def Quiet (s : State) : Prop := ∀ e, e.moves = true → step s e = none

/-- What careful runs keep of the bytes from a connection `c` to a connection `d`. -/
structure Flow (c d : Conn) : Prop where
  whole : c.sent = d.delivered ++ d.outgoing ++ c.buffer ++ c.wire
  eof : c.eof = true → c.ended = true ∧ c.wire = []
  closed : c.closed = true → c.ended = true ∧ c.wire = []
  finished : d.closed = true → d.receiving = true → c.eof = true ∧ c.buffer = []

def Inv (s : State) : Prop := ∀ x, Flow (s x) (s x.other)

variable {s t : State} {e : Event} {es : List Event} {x y z : Side} {c d : Conn}

@[simp] theorem other_other (x : Side) : x.other.other = x := by cases x <;> rfl

@[simp] theorem other_ne (x : Side) : x.other ≠ x := by cases x <;> decide

theorem eq_or_eq_other (x y : Side) : y = x ∨ y = x.other := by
  cases x <;> cases y <;> simp [Side.other]

theorem Flow.intact (h : Flow (s x) (s x.other)) : Intact s x :=
  ⟨h.whole, fun hc => (h.closed hc).2, fun hc hr => (h.finished hc hr).2⟩

/-- A change of one connection concerns the bytes from it and the bytes to it. -/
theorem inv_update {c' : Conn} (hfrom : Flow c' (s z.other)) (hto : Flow (s z.other) c') :
    Inv (Function.update s z c') := by
  intro x
  rcases eq_or_eq_other z x with rfl | rfl
  · simpa using hfrom
  · simpa using hto

theorem inv_send {bs : List UInt8} (h : Inv s) (hs : Step s (.send z bs) t) : Inv t := by
  have hfrom := h z
  have hto := h z.other
  rw [other_other] at hto
  obtain ⟨hended, hs⟩ := Option.ite_none_left_eq_some.mp hs
  obtain rfl := Option.some.inj hs
  refine inv_update ⟨?_, fun he => ?_, fun hc => ?_, hfrom.finished⟩
    ⟨hto.whole, hto.eof, hto.closed, hto.finished⟩
  · simp [hfrom.whole]
  · exact (hended (hfrom.eof he).1).elim
  · exact (hended (hfrom.closed hc).1).elim

theorem inv_receive {n : Nat} (h : Inv s) (hs : Step s (.receive z n) t) : Inv t := by
  have hfrom := h z
  have hto := h z.other
  rw [other_other] at hto
  obtain ⟨hnot, hs⟩ := Option.ite_none_left_eq_some.mp hs
  obtain rfl := Option.some.inj hs
  rw [not_or] at hnot
  have hwire : (s z).wire ≠ [] := fun hnil => hnot.2 (by rw [hnil, List.take_nil])
  refine inv_update ⟨?_, fun he => ?_, fun hc => ?_, fun hd hr => ?_⟩
    ⟨hto.whole, hto.eof, hto.closed, hto.finished⟩
  · simp [hfrom.whole]
  · exact (hwire (hfrom.eof he).2).elim
  · exact (hnot.1 hc).elim
  · exact (hwire (hfrom.eof (hfrom.finished hd hr).1).2).elim

theorem inv_receiveEof (h : Inv s) (hs : Step s (.receiveEof z) t) : Inv t := by
  have hfrom := h z
  have hto := h z.other
  rw [other_other] at hto
  obtain ⟨hor, hs⟩ := Option.ite_none_right_eq_some.mp hs
  obtain rfl := Option.some.inj hs
  have hended : (s z).ended = true ∧ (s z).wire = [] := by
    rcases hor with hc | he
    · exact hfrom.closed hc
    · exact he
  exact inv_update ⟨hfrom.whole, fun _ => hended, hfrom.closed,
    fun hd hr => ⟨rfl, (hfrom.finished hd hr).2⟩⟩ ⟨hto.whole, hto.eof, hto.closed, hto.finished⟩

theorem inv_deliver {n : Nat} (h : Inv s) (hs : Step s (.deliver z n) t) : Inv t := by
  have hfrom := h z
  have hto := h z.other
  rw [other_other] at hto
  obtain ⟨-, hs⟩ := Option.ite_none_left_eq_some.mp hs
  obtain rfl := Option.some.inj hs
  refine inv_update ⟨hfrom.whole, hfrom.eof, hfrom.closed, hfrom.finished⟩
    ⟨?_, hto.eof, hto.closed, hto.finished⟩
  simp [hto.whole]

theorem inv_copy (h : Inv s) (hs : Step s (.copy z) t) : Inv t := by
  have hfrom := h z
  have hto := h z.other
  rw [other_other] at hto
  obtain ⟨hnot, hs⟩ := Option.ite_none_left_eq_some.mp hs
  obtain rfl := Option.some.inj hs
  rw [not_or] at hnot
  refine inv_update (s := Function.update s z _) ?_ ?_
  · simp only [other_other, Function.update_self]
    exact ⟨hto.whole, hto.eof, hto.closed, fun hd hr => hto.finished hd hr⟩
  · simp only [other_other, Function.update_self]
    refine ⟨?_, hfrom.eof, hfrom.closed, fun hd _ => (hnot.1 hd).elim⟩
    simp [hfrom.whole]

theorem inv_shutdown (h : Inv s) (hs : Step s (.shutdown z) t) : Inv t := by
  have hfrom := h z
  have hto := h z.other
  rw [other_other] at hto
  obtain rfl := Option.some.inj hs
  exact inv_update ⟨hfrom.whole, fun he => ⟨rfl, (hfrom.eof he).2⟩,
    fun hc => ⟨rfl, (hfrom.closed hc).2⟩, hfrom.finished⟩
    ⟨hto.whole, hto.eof, hto.closed, hto.finished⟩

theorem inv_stopReceiving (h : Inv s) (hs : Step s (.stopReceiving z) t) : Inv t := by
  have hfrom := h z
  have hto := h z.other
  rw [other_other] at hto
  obtain rfl := Option.some.inj hs
  exact inv_update ⟨hfrom.whole, hfrom.eof, hfrom.closed, hfrom.finished⟩
    ⟨hto.whole, hto.eof, hto.closed, fun _ hr => nomatch hr⟩

/-- The pipe has read all that came from `z`, and nothing more comes to its other end. -/
theorem inv_finish (h : Inv s) (hg : Careful s (.finish z)) (hs : Step s (.finish z) t) :
    Inv t := by
  have hfrom := h z
  have hto := h z.other
  rw [other_other] at hto
  obtain ⟨hnot, hs⟩ := Option.ite_none_left_eq_some.mp hs
  obtain rfl := Option.some.inj hs
  rw [not_or, not_or, not_not, not_not] at hnot
  refine inv_update ?_ ?_
  · rw [other_other]
    exact ⟨hto.whole, hto.eof, fun _ => hg, hto.finished⟩
  · rw [other_other]
    exact ⟨hfrom.whole, hfrom.eof, hfrom.closed, fun _ _ => ⟨hnot.2.2, hnot.2.1⟩⟩

theorem inv_fail (h : Inv s) (hg : Careful s (.fail z)) (hs : Step s (.fail z) t) : Inv t := by
  have hfrom := h z
  have hto := h z.other
  rw [other_other] at hto
  obtain ⟨hended, hwire, hbuffer⟩ := hg
  obtain ⟨hnot, hs⟩ := Option.ite_none_left_eq_some.mp hs
  obtain rfl := Option.some.inj hs
  rw [not_or] at hnot
  refine inv_update ?_ ?_
  · rw [other_other]
    refine ⟨?_, fun _ => ⟨hended, hwire⟩, fun _ => ⟨hended, hwire⟩, fun _ _ => ⟨rfl, rfl⟩⟩
    have hwhole := hto.whole
    rwa [hbuffer] at hwhole
  · rw [other_other]
    exact ⟨hfrom.whole, hfrom.eof, hfrom.closed, fun _ hr => (hnot.2 hr).elim⟩

theorem inv_step (h : Inv s) (hs : Guarded Step Careful s e t) : Inv t := by
  obtain ⟨hg, hs⟩ := hs
  cases e with
  | send z bs => exact inv_send h hs
  | shutdown z => exact inv_shutdown h hs
  | stopReceiving z => exact inv_stopReceiving h hs
  | receive z n => exact inv_receive h hs
  | receiveEof z => exact inv_receiveEof h hs
  | deliver z n => exact inv_deliver h hs
  | copy z => exact inv_copy h hs
  | finish z => exact inv_finish h hg hs
  | fail z => exact inv_fail h hg hs

theorem inv_initial : Inv initial := fun _ =>
  ⟨rfl, (fun h => nomatch h), (fun h => nomatch h), (fun h => nomatch h)⟩

/-- Where no byte can be moved on, all that was sent to a peer that takes it has been delivered. -/
theorem Intact.delivered (h : Intact s x) (hr : (s x.other).receiving = true) (hq : Quiet s) :
    (s x.other).delivered = (s x).sent := by
  have hout : (s x.other).outgoing = [] := by
    have hnone := hq (.deliver x.other (s x.other).outgoing.length) rfl
    simpa [step, hr] using hnone
  have hbuffer : (s x).buffer = [] := by
    have hnone := hq (.copy x) rfl
    by_contra hne
    have hclosed : (s x.other).closed = true := by
      simpa [step, hne] using hnone
    exact hne (h.copied hclosed hr)
  have hwire : (s x).wire = [] := by
    have hnone := hq (.receive x (s x).wire.length) rfl
    by_contra hne
    have hclosed : (s x).closed = true := by
      simpa [step, hne] using hnone
    exact hne (h.received hclosed)
  have hwhole := h.whole
  rw [hout, hbuffer, hwire] at hwhole
  simpa using hwhole.symm

/-- How many moves the bytes of a connection still have before them at most. -/
def Conn.pending (c : Conn) : Nat := 3 * c.wire.length + 2 * c.buffer.length + c.outgoing.length

def pending (s : State) : Nat := (s .loc).pending + (s .remote).pending

theorem pending_eq (s : State) (z : Side) : pending s = (s z).pending + (s z.other).pending := by
  cases z with
  | loc => rfl
  | remote => exact Nat.add_comm _ _

/-- Every move brings bytes nearer to their end, so that no run of moves goes on forever. -/
theorem pending_step (hm : e.moves = true) (hs : Step s e t) : pending t < pending s := by
  cases e with
  | receive z n =>
    obtain ⟨hnot, hs⟩ := Option.ite_none_left_eq_some.mp hs
    obtain rfl := Option.some.inj hs
    have hpos := List.length_pos_of_ne_nil (not_or.mp hnot).2
    rw [pending_eq _ z, pending_eq s z]
    simp only [Function.update_self, Function.update_of_ne (other_ne z), Conn.pending,
      List.length_append, List.length_drop, List.length_take] at hpos ⊢
    omega
  | deliver z n =>
    obtain ⟨hnot, hs⟩ := Option.ite_none_left_eq_some.mp hs
    obtain rfl := Option.some.inj hs
    have hpos := List.length_pos_of_ne_nil (not_or.mp hnot).2
    rw [pending_eq _ z, pending_eq s z]
    simp only [Function.update_self, Function.update_of_ne (other_ne z), Conn.pending,
      List.length_drop, List.length_take] at hpos ⊢
    omega
  | copy z =>
    obtain ⟨hnot, hs⟩ := Option.ite_none_left_eq_some.mp hs
    obtain rfl := Option.some.inj hs
    have hpos := List.length_pos_of_ne_nil (not_or.mp hnot).2
    rw [pending_eq _ z, pending_eq s z]
    simp only [Function.update_self, Function.update_of_ne (other_ne z).symm, Conn.pending,
      List.length_append, List.length_drop, List.length_take]
    omega
  | _ => cases hm

/-- In a careful run no byte is lost in either direction: all that a peer has sent is delivered to
the other one or on its way to it, as long as that one takes it, and it is delivered when no move
is left. -/
theorem no_byte_lost (h : Run (Guarded Step Careful) initial es s) (x : Side)
    (hr : (s x.other).receiving = true) :
    Intact s x ∧ (Quiet s → (s x.other).delivered = (s x).sent) := by
  have hinv : Inv s := h.invariant inv_initial fun _ _ _ => inv_step
  have hintact := (hinv x).intact
  exact ⟨hintact, hintact.delivered hr⟩

/-- A pipe that closes a connection too early loses what its peer has sent or still sends. -/
theorem loses_of_careless (hs : Step s (.finish x) t) (hg : ¬ Careful s (.finish x)) :
    ¬ Intact t x.other ∨ ∃ u, Step t (.send x.other [0]) u ∧ ¬ Intact u x.other := by
  obtain ⟨-, hs⟩ := Option.ite_none_left_eq_some.mp hs
  obtain rfl := Option.some.inj hs
  by_cases hwire : (s x.other).wire = []
  · have hended : ¬ (s x.other).ended = true := fun he => hg ⟨he, hwire⟩
    refine Or.inr ⟨_, by simp only [Step, step, Function.update_self, hended]; rfl, ?_⟩
    intro hi
    have hnil := hi.received (by simp)
    simp at hnil
  · refine Or.inl fun hi => hwire ?_
    have hnil := hi.received (by simp)
    simpa using hnil

/-- A client sends a request and closes its sending side, and the service answers. -/
def halfClosing : List Event :=
  [.send .loc [1], .shutdown .loc, .receive .loc 1, .receiveEof .loc, .copy .loc,
    .deliver .remote 1, .finish .loc, .send .remote [2], .shutdown .remote, .receiveEof .remote,
    .finish .remote]

/-- The pipe to the service reads the end of the file, and closes the connection from which the
answer would come. -/
theorem no_byte_lost_fails : ∃ s, Run Step initial halfClosing s ∧ Quiet s ∧
    (s .remote).delivered = [1] ∧ (s .remote).sent = [2] ∧ (s .loc).receiving = true ∧
      (s .loc).delivered = [] := by
  refine ⟨_, run_of_foldlM rfl, ?_, rfl, rfl, rfl, rfl⟩
  intro e he
  cases e with
  | receive z n => cases z <;> rfl
  | deliver z n => cases z <;> cases n <;> rfl
  | copy z => cases z <;> rfl
  | _ => cases he

/-- The service answers, and ends its side, before the pipe to it has read the end of the file. -/
def answered : List Event :=
  [.send .loc [1], .shutdown .loc, .receive .loc 1, .receiveEof .loc, .copy .loc,
    .deliver .remote 1, .send .remote [2], .shutdown .remote, .receive .remote 1, .finish .loc,
    .copy .remote, .deliver .loc 1]

theorem no_byte_lost_answered : ∃ s, Run (Guarded Step Careful) initial answered s ∧
    Intact s .remote ∧ (Quiet s → (s .loc).delivered = (s .remote).sent) := by
  have hrun : Run (Guarded Step Careful) initial answered _ :=
    (run_of_foldlM (f := fun s e => if Careful s e then step s e else none) rfl).mono
      fun _ _ _ h => Option.ite_none_right_eq_some.mp h
  exact ⟨_, hrun, no_byte_lost hrun .remote rfl⟩

end PyMesh.Forward
