import PyMesh.Library.Copies

/-! `forward_upstream`: each call has a socket of its own to the upstream server, and awaits for a
limited time the future that what arrives on the socket sets. -/
namespace PyMesh

open LTS

inductive UpstreamFuture where
  | pending
  | result (response : Option (List UInt8))
  | cancelled
deriving DecidableEq

/-- `if not future.done(): future.set_result(response)` -/
def UpstreamFuture.setResult (response : Option (List UInt8)) : UpstreamFuture → UpstreamFuture
  | .pending => .result response
  | future => future

def UpstreamFuture.cancel : UpstreamFuture → UpstreamFuture
  | .pending => .cancelled
  | future => future

inductive UpstreamPhase where
  /-- In `create_datagram_endpoint`. -/
  | opening
  /-- In `wait_for`. -/
  | waiting
  | returned (response : Option (List UInt8))
deriving DecidableEq

structure UpstreamCall where
  phase : UpstreamPhase := .opening
  future : UpstreamFuture := .pending
  /-- The transport is open. -/
  transport : Bool := false
deriving DecidableEq

inductive UpstreamEvent where
  | opened
  | refused
  | datagramReceived (data : List UInt8)
  /-- Also what `sendto` calls when the query cannot be sent. -/
  | errorReceived
  | resumed
  /-- `wait_for` raises, which it may also do when the future has been set in the meantime. -/
  | expired
deriving DecidableEq

namespace UpstreamCall

/-- The protocol hears as long as its transport is open. -/
def hear (c : UpstreamCall) (response : Option (List UInt8)) : Option UpstreamCall :=
  if c.transport then some { c with future := c.future.setResult response } else none

def step (c : UpstreamCall) : UpstreamEvent → Option UpstreamCall
  | .opened =>
    if c.phase = .opening then some { c with phase := .waiting, transport := true } else none
  | .refused => if c.phase = .opening then some { c with phase := .returned none } else none
  | .datagramReceived data => c.hear (some data)
  | .errorReceived => c.hear none
  | .resumed =>
    match c.phase, c.future with
    | .waiting, .result response =>
      some { c with phase := .returned response, transport := false }
    | _, _ => none
  | .expired =>
    -- `transport.close()` is not reached.
    if c.phase = .waiting then some { c with phase := .returned none, future := c.future.cancel }
    else none

def Step (c : UpstreamCall) (e : UpstreamEvent) (c' : UpstreamCall) : Prop := c.step e = some c'

def isReturned (c : UpstreamCall) : Bool :=
  match c.phase with
  | .returned _ => true
  | _ => false

/-- The call has returned, and its socket is still open. -/
def leaked (c : UpstreamCall) : Bool := c.isReturned && c.transport

end UpstreamCall

namespace UpstreamEvent

/-- What the protocol sets the future to. -/
def heard : UpstreamEvent → Option (Option (List UInt8))
  | .datagramReceived data => some (some data)
  | .errorReceived => some none
  | _ => none

def isExpired : UpstreamEvent → Bool
  | .expired => true
  | _ => false

/-- What a call returns: what its socket has heard first, unless the time is up before. -/
def answer (es : List UpstreamEvent) : Option (List UInt8) :=
  if .expired ∈ es then none else (es.findSome? heard).join

end UpstreamEvent

open UpstreamCall UpstreamEvent

variable {c c' : UpstreamCall} {e : UpstreamEvent} {es : List UpstreamEvent}
  {response : Option (List UInt8)} {i : Nat}

/-- What is so of a call after these events. -/
structure UpstreamCall.Inv (es : List UpstreamEvent) (c : UpstreamCall) : Prop where
  opening : c.phase = .opening → c = {} ∧ es = []
  waiting : c.phase = .waiting → c.transport = true ∧ .expired ∉ es
  pending : c.future = .pending → es.findSome? heard = none
  result : ∀ response, c.future = .result response → es.findSome? heard = some response
  returned : ∀ response, c.phase = .returned response →
    response = answer es ∧ (c.transport = true ↔ .expired ∈ es)

theorem inv_new : Inv [] {} where
  opening _ := ⟨rfl, rfl⟩
  waiting h := by cases h
  pending _ := rfl
  result _ h := by cases h
  returned _ h := by cases h

/-- A call that has just returned. -/
theorem inv_returned (hp : c.phase = .returned response)
    (hpending : c.future = .pending → es.findSome? heard = none)
    (hresult : ∀ r, c.future = .result r → es.findSome? heard = some r)
    (hanswer : response = answer es) (ht : c.transport = true ↔ .expired ∈ es) : Inv es c where
  opening h := by
    rw [hp] at h
    cases h
  waiting h := by
    rw [hp] at h
    cases h
  pending := hpending
  result := hresult
  returned r h := by
    rw [hp] at h
    rw [← UpstreamPhase.returned.inj h]
    exact ⟨hanswer, ht⟩

theorem findSome?_concat : (es ++ [e]).findSome? heard = (es.findSome? heard).or e.heard := by
  rw [List.findSome?_append]
  cases he : e.heard with
  | none => simp [he]
  | some r => simp [he]

/-- What is heard after the call has returned is of no consequence. -/
theorem inv_hear (h : Inv es c) (he : e.heard = some response) (hs : c.hear response = some c') :
    Inv (es ++ [e]) c' := by
  have hne : e ≠ .expired := by
    rintro rfl
    cases he
  have hexp : .expired ∈ es ++ [e] ↔ .expired ∈ es := by simp [hne.symm]
  rw [hear] at hs
  split at hs
  next hopen =>
    obtain rfl := Option.some.inj hs
    refine ⟨fun hp => ?_, fun hp => ⟨hopen, ?_⟩, fun hf => ?_, fun r hf => ?_, fun r hp => ?_⟩
    · rw [(h.opening hp).1] at hopen
      cases hopen
    · rw [hexp]
      exact (h.waiting hp).2
    · cases hfut : c.future <;> simp [hfut, UpstreamFuture.setResult] at hf
    · rw [findSome?_concat, he]
      cases hfut : c.future with
      | pending =>
        rw [hfut] at hf
        rw [h.pending hfut, ← UpstreamFuture.result.inj hf]
        rfl
      | result r' =>
        rw [hfut] at hf
        rw [h.result r' hfut, ← UpstreamFuture.result.inj hf]
        rfl
      | cancelled =>
        rw [hfut] at hf
        cases hf
    · obtain ⟨hr, hsocket⟩ := h.returned r hp
      have hin := hsocket.mp hopen
      rw [answer, if_pos hin] at hr
      rw [answer, if_pos (hexp.mpr hin), hexp]
      exact ⟨hr, hsocket⟩
  next => cases hs

theorem inv_step (h : Inv es c) (hs : c.step e = some c') : Inv (es ++ [e]) c' := by
  cases e with
  | opened =>
    simp only [step, Option.ite_none_right_eq_some, Option.some.injEq] at hs
    obtain ⟨hp, rfl⟩ := hs
    obtain ⟨rfl, rfl⟩ := h.opening hp
    exact {
      opening := fun h => by cases h
      waiting := fun _ => ⟨rfl, by simp⟩
      pending := fun _ => rfl
      result := fun _ h => by cases h
      returned := fun _ h => by cases h }
  | refused =>
    simp only [step, Option.ite_none_right_eq_some, Option.some.injEq] at hs
    obtain ⟨hp, rfl⟩ := hs
    obtain ⟨rfl, rfl⟩ := h.opening hp
    refine inv_returned rfl (fun _ => rfl) (fun r hr => ?_) rfl (by simp)
    cases hr
  | datagramReceived data => exact inv_hear h rfl hs
  | errorReceived => exact inv_hear h rfl hs
  | resumed =>
    rw [step] at hs
    split at hs
    next r hp hf =>
      obtain rfl := Option.some.inj hs
      have hres := h.result r hf
      have hexp : UpstreamEvent.expired ∉ es ++ [.resumed] := by simp [(h.waiting hp).2]
      have hfirst : (es ++ [UpstreamEvent.resumed]).findSome? heard = some r := by
        rw [findSome?_concat, hres]
        rfl
      refine inv_returned rfl (fun hpend => ?_) (fun r' hr => ?_) ?_ (by simpa using hexp)
      · rw [hf] at hpend
        cases hpend
      · rw [hf] at hr
        rw [hfirst, UpstreamFuture.result.inj hr]
      · rw [answer, if_neg hexp, hfirst]
        rfl
    next => cases hs
  | expired =>
    simp only [step, Option.ite_none_right_eq_some, Option.some.injEq] at hs
    obtain ⟨hp, rfl⟩ := hs
    have hfirst : (es ++ [UpstreamEvent.expired]).findSome? heard = es.findSome? heard := by
      rw [findSome?_concat]
      exact Option.or_none
    refine inv_returned rfl (fun hf => ?_) (fun r hf => ?_) ?_
      (iff_of_true (h.waiting hp).1 (by simp))
    · cases hfut : c.future <;> simp [hfut, UpstreamFuture.cancel] at hf
    · cases hfut : c.future <;> simp only [hfut, UpstreamFuture.cancel] at hf
      · cases hf
      · rw [hfirst, h.result _ hfut, UpstreamFuture.result.inj hf]
      · cases hf
    · rw [answer, if_pos (by simp)]

theorem inv_run (h : Run Step {} es c) : Inv es c := by
  induction h with
  | refl => exact inv_new
  | tail _ hs ih => exact inv_step ih hs

/-- A socket comes to be left open by a timeout, and stays so. -/
theorem leaked_step (h : Inv es c) (hs : c.step e = some c') :
    c'.leaked.toNat = c.leaked.toNat + e.isExpired.toNat := by
  have hear : ∀ response, c.hear response = some c' → c'.leaked = c.leaked := by
    intro response hs
    rw [UpstreamCall.hear, Option.ite_none_right_eq_some] at hs
    rw [← Option.some.inj hs.2]
    rfl
  cases e with
  | opened =>
    simp only [step, Option.ite_none_right_eq_some, Option.some.injEq] at hs
    obtain ⟨hp, rfl⟩ := hs
    simp [leaked, isReturned, isExpired, hp]
  | refused =>
    simp only [step, Option.ite_none_right_eq_some, Option.some.injEq] at hs
    obtain ⟨hp, rfl⟩ := hs
    rw [(h.opening hp).1]
    rfl
  | datagramReceived data =>
    rw [hear _ hs]
    rfl
  | errorReceived =>
    rw [hear _ hs]
    rfl
  | resumed =>
    rw [step] at hs
    split at hs
    next r hp hf =>
      rw [← Option.some.inj hs]
      simp [leaked, isReturned, isExpired, hp]
    next => cases hs
  | expired =>
    simp only [step, Option.ite_none_right_eq_some, Option.some.injEq] at hs
    obtain ⟨hp, rfl⟩ := hs
    simp [leaked, isReturned, isExpired, hp, (h.waiting hp).1]

variable {calls : List UpstreamCall} {ls : List (CopyLabel UpstreamEvent)}

/-- Whatever the calls, the network and the timeouts do in between: a call returns what its own
socket has heard first, or nothing when the time was up before; and every timeout so far has left
a socket open. -/
theorem forward_upstream_run (h : Run (CopyStep Step {}) [] ls calls) :
    (∀ i c response, calls[i]? = some c → c.phase = .returned response →
      response = answer (labelsOf i ls)) ∧
    calls.countP leaked = ls.countP (CopyLabel.movedBy isExpired) := by
  refine ⟨fun i c response hi hp => ?_, ?_⟩
  · exact ((inv_run (run_copy h hi)).returned response hp).1
  · exact countP_run h rfl fun es c e c' hrun hs => leaked_step (inv_run hrun) hs

/-- Two queries: the time is up for the first one, whose answer comes late, and the answer to the
second one comes twice. -/
def lateReply : List (CopyLabel UpstreamEvent) :=
  [.start, .move 0 .opened, .start, .move 1 .opened, .move 0 .expired,
    .move 0 (.datagramReceived [1]), .move 1 (.datagramReceived [2]),
    .move 1 (.datagramReceived [3]), .move 1 .resumed]

theorem forward_upstream_run_late : ∃ calls, Run (CopyStep Step {}) [] lateReply calls ∧
    calls.map UpstreamCall.phase = [.returned none, .returned (some [2])] ∧
    calls.countP leaked = 1 := by
  have hrun : Run (CopyStep Step {}) [] lateReply
      [⟨.returned none, .cancelled, true⟩, ⟨.returned (some [2]), .result (some [2]), false⟩] := by
    refine .tail (.tail (.tail (.tail (.tail (.tail (.tail (.tail (.tail .refl .start)
      (.move rfl rfl)) .start) (.move rfl rfl)) (.move rfl rfl)) (.move rfl rfl)) (.move rfl rfl))
      (.move rfl rfl)) (.move rfl rfl)
  refine ⟨_, hrun, rfl, ?_⟩
  rw [(forward_upstream_run hrun).2]
  rfl

end PyMesh
