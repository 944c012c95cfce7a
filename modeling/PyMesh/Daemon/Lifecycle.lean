import Mathlib.Data.List.Induction
import PyMesh.Library.Run

/-! `start`, `stop` and `_sync_loop` of a daemon with an identity: what the tasks do between
their await points, in any order. -/
namespace PyMesh.DaemonLifecycle

open LTS

/-- What is done to the host. -/
inductive Action where
  | createInterface
  | configureInterface
  /-- This sets the link up as well. -/
  | assignAddresses
  | syncPeers
  | updateRecords
  | syncHostsFile
  | addSubnetRoutes
  | stopDns
  | removeHostsFile
  | bringDown
deriving DecidableEq

/-- The await points of a call of `start`. -/
inductive StartPoint where
  /-- `await NATDetector.detect_nat_type()` -/
  | detecting
  /-- `await self.dns_server.start()` -/
  | binding
deriving DecidableEq

/-- The await points of a task that runs `_sync_loop`. -/
inductive LoopPoint where
  /-- The task has not been run yet. -/
  | created
  /-- `await EndpointHarvester.get_candidate_endpoints(…)` -/
  | harvesting
  /-- `await client.post(hb_url, …)`, and the beginning of the `async with` before it. -/
  | posting
  /-- `await client.get(cfg_url)` -/
  | fetching
  /-- The end of the `async with`. -/
  | closing
  /-- `await asyncio.sleep(15)` -/
  | sleeping
deriving DecidableEq

/-- How an await ends. -/
inductive Outcome where
  /-- It returns; in `fetching`, a reply with another status than 200. -/
  | ok
  | raised
  /-- The reply is a config, and so many of the steps that apply it are done before one raises;
  all of them if none does. -/
  | config (steps : Nat)
deriving DecidableEq

/-- The flag `_running`, the calls of `start` that are suspended, and the tasks that are live. -/
structure Tasks where
  running : Bool
  starts : List StartPoint
  loops : List LoopPoint
deriving DecidableEq

inductive Event where
  | start
  | stop
  | resumeStart (i : Nat) (outcome : Outcome)
  | resumeLoop (i : Nat) (outcome : Outcome)
deriving DecidableEq

/-- A new daemon. -/
def Tasks.initial : Tasks := ⟨false, [], []⟩

/-- What a sync does with a config, in its order. -/
def applySteps : List Action :=
  [.assignAddresses, .syncPeers, .updateRecords, .syncHostsFile, .addSubnetRoutes]

/-- `while self._running`, and the sync up to its first await; with no controller URL it returns
at once. -/
def checkRunning (joined : Bool) (i : Nat) (s : Tasks) : Tasks :=
  if s.running then
    { s with loops := s.loops.set i (if joined then .harvesting else .sleeping) }
  else { s with loops := s.loops.eraseIdx i }

/-- A call of `start` goes on after an await. -/
def resumeStart (i : Nat) (outcome : Outcome) (s : Tasks) : Option Tasks :=
  match s.starts[i]? with
  | none => none
  | some .detecting =>
    if outcome = .raised then some { s with starts := s.starts.eraseIdx i }
    else some { s with starts := s.starts.set i .binding }
  -- What `dns_server.start` raises is logged, and the loop is started all the same.
  | some .binding =>
    some { s with starts := s.starts.eraseIdx i, loops := s.loops ++ [.created] }

/-- A loop goes on after an await. What a sync raises is logged, and the loop sleeps. -/
def resumeLoop (joined : Bool) (i : Nat) (outcome : Outcome) (s : Tasks) :
    Option (Tasks × List Action) :=
  match s.loops[i]? with
  | none => none
  | some .created => some (checkRunning joined i s, [])
  | some .sleeping => some (checkRunning joined i s, [])
  | some .harvesting =>
    if outcome = .raised then some ({ s with loops := s.loops.set i .sleeping }, [])
    else some ({ s with loops := s.loops.set i .posting }, [])
  | some .posting =>
    if outcome = .raised then some ({ s with loops := s.loops.set i .closing }, [])
    else some ({ s with loops := s.loops.set i .fetching }, [])
  | some .fetching =>
    match outcome with
    | .config steps => some ({ s with loops := s.loops.set i .closing }, applySteps.take steps)
    | _ => some ({ s with loops := s.loops.set i .closing }, [])
  | some .closing => some ({ s with loops := s.loops.set i .sleeping }, [])

/-- The tasks after an event, and what it does to the host; `none` if there is no such task. -/
def step (joined : Bool) (s : Tasks) : Event → Option (Tasks × List Action)
  | .start =>
    some ({ s with running := true, starts := s.starts ++ [.detecting] },
      [.createInterface, .configureInterface])
  | .stop => some ({ s with running := false }, [.stopDns, .removeHostsFile, .bringDown])
  | .resumeStart i outcome => (resumeStart i outcome s).map fun t => (t, [])
  | .resumeLoop i outcome => resumeLoop joined i outcome s

def Step (joined : Bool) (s : Tasks) (e : Event) (t : Tasks) : Prop :=
  ∃ actions, step joined s e = some (t, actions)

/-- Whether a loop is in a sync, past the check of `_running` and before the config is applied. -/
def LoopPoint.inSync : LoopPoint → Bool
  | .harvesting => true
  | .posting => true
  | .fetching => true
  | _ => false

/-- `start` is called when no call of it is suspended and no loop is live, and `stop` when no loop
is in a sync. -/
def Careful (s : Tasks) : Event → Prop
  | .start => s.starts = [] ∧ s.loops = []
  | .stop => ∀ l ∈ s.loops, l.inSync = false
  | _ => True

/-- There is one task at most, and while the flag is down it is not in a sync. -/
def Single (s : Tasks) : Prop :=
  s.starts.length + s.loops.length ≤ 1 ∧ (s.running = false → ∀ l ∈ s.loops, l.inSync = false)

variable {joined : Bool} {s t : Tasks} {e : Event} {es : List Event}

/-- The check ends the loop when the flag is down, and begins a sync only when it is up. -/
theorem checkRunning_cases {i : Nat} :
    (s.running = false ∧ checkRunning joined i s = { s with loops := s.loops.eraseIdx i }) ∨
      ∃ l', checkRunning joined i s = { s with loops := s.loops.set i l' } ∧
        (l'.inSync = true → s.running = true) := by
  by_cases hr : s.running = true
  · exact Or.inr ⟨_, by rw [checkRunning, if_pos hr], fun _ => hr⟩
  · exact Or.inl ⟨by simpa using hr, by rw [checkRunning, if_neg hr]⟩

/-- What a loop can do: end when the flag is down, or go to another await; only after fetching
it does something to the host, and only with the flag up it begins a sync. -/
theorem resumeLoop_cases {i : Nat} {outcome : Outcome} {actions : List Action}
    (h : resumeLoop joined i outcome s = some (t, actions)) :
    ∃ l ∈ s.loops, (l ≠ .fetching → actions = []) ∧
      ((s.running = false ∧ t = { s with loops := s.loops.eraseIdx i }) ∨
        ∃ l', t = { s with loops := s.loops.set i l' } ∧
          (l'.inSync = true → s.running = true ∨ l.inSync = true)) := by
  unfold resumeLoop at h
  cases hl : s.loops[i]? with
  | none => simp [hl] at h
  | some l =>
    refine ⟨l, List.mem_of_getElem? hl, ?_⟩
    rw [hl] at h
    cases l with
    | created =>
      cases h
      exact ⟨fun _ => rfl, checkRunning_cases.imp_right fun ⟨l', he, hr⟩ => ⟨l', he, .inl ∘ hr⟩⟩
    | sleeping =>
      cases h
      exact ⟨fun _ => rfl, checkRunning_cases.imp_right fun ⟨l', he, hr⟩ => ⟨l', he, .inl ∘ hr⟩⟩
    | harvesting =>
      by_cases ho : outcome = .raised
      · simp only [ho, if_true, Option.some.injEq, Prod.mk.injEq] at h
        exact ⟨fun _ => h.2.symm, Or.inr ⟨_, h.1.symm, fun _ => Or.inr rfl⟩⟩
      · simp only [ho, if_false, Option.some.injEq, Prod.mk.injEq] at h
        exact ⟨fun _ => h.2.symm, Or.inr ⟨_, h.1.symm, fun _ => Or.inr rfl⟩⟩
    | posting =>
      by_cases ho : outcome = .raised
      · simp only [ho, if_true, Option.some.injEq, Prod.mk.injEq] at h
        exact ⟨fun _ => h.2.symm, Or.inr ⟨_, h.1.symm, fun _ => Or.inr rfl⟩⟩
      · simp only [ho, if_false, Option.some.injEq, Prod.mk.injEq] at h
        exact ⟨fun _ => h.2.symm, Or.inr ⟨_, h.1.symm, fun _ => Or.inr rfl⟩⟩
    | fetching =>
      refine ⟨fun hne => (hne rfl).elim, Or.inr ⟨.closing, ?_, fun _ => Or.inr rfl⟩⟩
      cases outcome <;> cases h <;> rfl
    | closing =>
      cases h
      exact ⟨fun _ => rfl, Or.inr ⟨_, rfl, fun h => by cases h⟩⟩

theorem single_resumeLoop {i : Nat} {outcome : Outcome} {actions : List Action} (h : Single s)
    (hs : resumeLoop joined i outcome s = some (t, actions)) : Single t := by
  obtain ⟨hlen, hsync⟩ := h
  obtain ⟨l, hl, -, ⟨hr, rfl⟩ | ⟨l', rfl, hl'⟩⟩ := resumeLoop_cases hs
  · refine ⟨?_, fun _ l hl => hsync hr l (List.mem_of_mem_eraseIdx hl)⟩
    have herase := List.length_eraseIdx_le s.loops i
    simp only
    omega
  · refine ⟨by simpa using hlen, fun hr m hm => ?_⟩
    rcases List.mem_or_eq_of_mem_set hm with hm | rfl
    · exact hsync hr m hm
    · by_contra hin
      rcases hl' (by simpa using hin) with hrun | hlin
      · rw [hrun] at hr
        cases hr
      · rw [hsync hr l hl] at hlin
        cases hlin

theorem single_resumeStart {i : Nat} {outcome : Outcome} (h : Single s)
    (hs : resumeStart i outcome s = some t) : Single t := by
  obtain ⟨hlen, hsync⟩ := h
  unfold resumeStart at hs
  cases hp : s.starts[i]? with
  | none => simp [hp] at hs
  | some p =>
    rw [hp] at hs
    have hi : i < s.starts.length := (List.getElem?_eq_some_iff.mp hp).1
    have herase := List.length_eraseIdx_of_lt hi
    cases p with
    | detecting =>
      by_cases ho : outcome = .raised
      · simp only [ho, if_true, Option.some.injEq] at hs
        subst hs
        refine ⟨?_, hsync⟩
        simp only
        omega
      · simp only [ho, if_false, Option.some.injEq] at hs
        subst hs
        exact ⟨by simpa using hlen, hsync⟩
    | binding =>
      cases hs
      refine ⟨?_, fun hr l hl => ?_⟩
      · simp only [List.length_append, List.length_singleton]
        omega
      · rcases List.mem_append.mp hl with hl | hl
        · exact hsync hr l hl
        · rw [List.mem_singleton.mp hl]
          rfl

theorem single_step (h : Single s) (hg : Careful s e) (hs : Step joined s e t) : Single t := by
  obtain ⟨actions, hs⟩ := hs
  cases e with
  | start =>
    cases hs
    obtain ⟨hstarts, hloops⟩ := hg
    refine ⟨by simp [hstarts, hloops], fun hr => ?_⟩
    cases hr
  | stop =>
    cases hs
    exact ⟨h.1, fun _ => hg⟩
  | resumeStart i outcome =>
    obtain ⟨t', ht, he⟩ := Option.map_eq_some_iff.mp hs
    cases he
    exact single_resumeStart h ht
  | resumeLoop i outcome => exact single_resumeLoop h hs

/-- Only a call of `start` puts the flag up. -/
theorem running_step (hs : Step joined s e t) (he : e ≠ .start) (hr : s.running = false) :
    t.running = false := by
  obtain ⟨actions, hs⟩ := hs
  cases e with
  | start => exact (he rfl).elim
  | stop =>
    cases hs
    rfl
  | resumeStart i outcome =>
    obtain ⟨t', ht, he⟩ := Option.map_eq_some_iff.mp hs
    cases he
    unfold resumeStart at ht
    split at ht
    next => cases ht
    next =>
      split at ht
      next => cases ht; exact hr
      next => cases ht; exact hr
    next => cases ht; exact hr
  | resumeLoop i outcome =>
    obtain ⟨-, -, -, ⟨-, rfl⟩ | ⟨-, rfl, -⟩⟩ := resumeLoop_cases hs
    · exact hr
    · exact hr

/-- After `stop`, and until `start` is called again, the flag is down. -/
theorem running_of_stopped {pre post : List Event} {s₀ : Tasks} (hp : .start ∉ post)
    (h : Run (Step joined) s₀ (pre ++ .stop :: post) s) : s.running = false := by
  induction post using List.reverseRecOn generalizing s with
  | nil =>
    obtain ⟨u, -, actions, hs⟩ := run_concat_iff.mp h
    cases hs
    rfl
  | append_singleton post e ih =>
    have hsplit : pre ++ .stop :: (post ++ [e]) = (pre ++ .stop :: post) ++ [e] := by simp
    rw [hsplit] at h
    obtain ⟨u, hu, hs⟩ := run_concat_iff.mp h
    have hne : e ≠ .start := fun he => hp (by simp [he])
    exact running_step hs hne (ih (fun hm => hp (List.mem_append_left _ hm)) hu)

/-- With careful calls there is one loop at most, and after `stop` no loop does anything to the
host until `start` is called again. -/
theorem one_loop (h : Run (Guarded (Step joined) Careful) Tasks.initial es s) :
    s.loops.length ≤ 1 ∧ ∀ pre post, es = pre ++ .stop :: post → .start ∉ post →
      ∀ i outcome t actions, step joined s (.resumeLoop i outcome) = some (t, actions) →
        actions = [] := by
  have hinv : Single s := by
    have hinit : Single Tasks.initial := ⟨by decide, fun _ l hl => by cases hl⟩
    exact h.invariant hinit fun _ _ _ hi hs => single_step hi hs.1 hs.2
  refine ⟨by have hlen := hinv.1; omega, ?_⟩
  rintro pre post rfl hpost i outcome t actions hs
  have hr := running_of_stopped hpost h.of_guarded
  obtain ⟨l, hl, hacts, -⟩ := resumeLoop_cases hs
  apply hacts
  rintro rfl
  have hsync := hinv.2 hr _ hl
  cases hsync

def startUp : List Event := [.start, .resumeStart 0 .ok, .resumeStart 0 .ok]

/-- The loop is run for the first time, and its sync gets a config. -/
def firstSync : List Event :=
  [.resumeLoop 0 .ok, .resumeLoop 0 .ok, .resumeLoop 0 .ok, .resumeLoop 0 (.config 5),
    .resumeLoop 0 .ok]

/-- A sync, and a call of `stop` while the loop sleeps. -/
theorem one_loop_stopped : [LoopPoint.sleeping].length ≤ 1 ∧
    ∀ pre post, startUp ++ firstSync ++ [.stop] = pre ++ .stop :: post → .start ∉ post →
      ∀ i outcome t actions, step true ⟨false, [], [.sleeping]⟩ (.resumeLoop i outcome) =
        some (t, actions) → actions = [] := by
  have hstarted : Run (Guarded (Step true) Careful) Tasks.initial
      startUp ⟨true, [], [.created]⟩ :=
    .tail (.tail (.tail .refl ⟨⟨rfl, rfl⟩, _, rfl⟩) ⟨trivial, _, rfl⟩) ⟨trivial, _, rfl⟩
  have hsynced : Run (Guarded (Step true) Careful) ⟨true, [], [.created]⟩ firstSync
      ⟨true, [], [.sleeping]⟩ :=
    .tail (.tail (.tail (.tail (.tail .refl ⟨trivial, _, rfl⟩) ⟨trivial, _, rfl⟩)
      ⟨trivial, _, rfl⟩) ⟨trivial, _, rfl⟩) ⟨trivial, _, rfl⟩
  have hstop : Guarded (Step true) Careful ⟨true, [], [.sleeping]⟩ .stop
      ⟨false, [], [.sleeping]⟩ := by
    refine ⟨?_, _, rfl⟩
    intro l hl
    rw [List.mem_singleton.mp hl]
    rfl
  exact one_loop (.tail (hstarted.append hsynced) hstop)

/-- The daemon is started again before its loop wakes up, and both loops are live; it is stopped
while a config is fetched, and the config is applied. -/
theorem loops_go_on :
    (∃ es, Run (Step true) Tasks.initial es ⟨true, [], [.sleeping, .created]⟩) ∧
    ∃ es s t, Run (Step true) Tasks.initial (es ++ [.stop]) s ∧
      step true s (.resumeLoop 0 (.config 5)) = some (t, applySteps) := by
  have hstarted : Run (Step true) Tasks.initial (startUp ++ [.resumeLoop 0 .ok])
      ⟨true, [], [.harvesting]⟩ :=
    .tail (.tail (.tail (.tail .refl ⟨_, rfl⟩) ⟨_, rfl⟩) ⟨_, rfl⟩) ⟨_, rfl⟩
  have hagain : Run (Step true) ⟨true, [], [.harvesting]⟩
      [.resumeLoop 0 .raised, .stop, .start, .resumeStart 0 .ok, .resumeStart 0 .ok]
      ⟨true, [], [.sleeping, .created]⟩ :=
    .tail (.tail (.tail (.tail (.tail .refl ⟨_, rfl⟩) ⟨_, rfl⟩) ⟨_, rfl⟩) ⟨_, rfl⟩) ⟨_, rfl⟩
  have hfetching : Run (Step true) ⟨true, [], [.harvesting]⟩
      [.resumeLoop 0 .ok, .resumeLoop 0 .ok] ⟨true, [], [.fetching]⟩ :=
    .tail (.tail .refl ⟨_, rfl⟩) ⟨_, rfl⟩
  exact ⟨⟨_, hstarted.append hagain⟩, _, ⟨false, [], [.fetching]⟩, _,
    .tail (hstarted.append hfetching) ⟨_, rfl⟩, rfl⟩

end PyMesh.DaemonLifecycle
