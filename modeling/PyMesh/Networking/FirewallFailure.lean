import PyMesh.Networking.Firewall

/-! What `FirewallManager.apply_rules` leaves of the chain when a command fails. -/
namespace PyMesh

open Text

namespace FirewallManager

/-- The commands that were appended to the chain, if it exists. -/
abbrev Chain := Option (List (List String))

/-- The chain after the first command, whose failure is not looked at. -/
def created (ipt : Iptables) (chain : Chain) : Chain :=
  if ipt [] newChain then some (chain.getD []) else chain

/-- `apply_rules` on a host on which the chain need not exist. -/
def applyRulesTo (ipt : Iptables) (m : FirewallManager) (rules : List Rule) (chain : Chain) :
    Bool × Chain :=
  match truthy m.iptablesPath with
  | none => (true, chain)
  | some _ =>
    if ipt [newChain] flushChain then
      let (applied, chain) := runCommands ipt (rules.flatMap m.commands) [flushChain, newChain] []
      (applied, some chain)
    else (false, created ipt chain)

/-- `cmd` is the first append that fails, and `pre` are those before it. -/
def FailsAfter (ipt : Iptables) (m : FirewallManager) (rules : List Rule)
    (pre : List (List String)) (cmd : List String) : Prop :=
  pre ++ [cmd] <+: rules.flatMap m.commands ∧
    accepted ipt [flushChain, newChain] pre = true ∧
    ipt (pre.reverse ++ [flushChain, newChain]) cmd = false

/-- The chain cannot be cleared and was not made just now, or it was already what the appends
before the first that fails make of it. -/
def Kept (ipt : Iptables) (m : FirewallManager) (rules : List Rule) (chain : Chain) : Prop :=
  if ipt [newChain] flushChain then
    ∀ pre cmd, FailsAfter ipt m rules pre cmd → chain = some pre
  else chain = none → ipt [] newChain = false

variable {ipt : Iptables} {m : FirewallManager} {rules : List Rule} {chain chain' : Chain}
  {cmds history l pre : List (List String)} {cmd : List String}
  {s : List (List String) × List (List String)}

/-- A chain that does not exist has no rules in it. -/
theorem applyRulesTo_getD : applyRules ipt m rules (chain.getD []) =
    ((applyRulesTo ipt m rules chain).1, (applyRulesTo ipt m rules chain).2.getD []) := by
  unfold applyRules applyRulesTo
  cases truthy m.iptablesPath with
  | none => rfl
  | some path =>
    by_cases hf : ipt [newChain] flushChain = true
    · simp [hf]
    · have hc : (created ipt chain).getD [] = chain.getD [] := by
        unfold created
        split <;> rfl
      simp [hf, hc]

/-- The appends end early exactly where one of them fails, and leave those before it. -/
theorem runCommands_eq_false_iff :
    runCommands ipt (rules.flatMap m.commands) [flushChain, newChain] [] = (false, l) ↔
      ∃ cmd, FailsAfter ipt m rules l cmd := by
  rw [runCommands_eq_run]
  constructor
  · intro h
    obtain ⟨hfalse, hl⟩ := Prod.mk.inj h
    obtain ⟨pre, cmd, post, hcmds, htaken, hfails⟩ := FailStop.run_eq_false_iff.mp
      (Prod.ext hfalse rfl : FailStop.run _ _ _ = (false, _))
    obtain ⟨hacc, hs⟩ := taken_append_iff.mp htaken
    rw [hs] at hfails
    obtain rfl : pre = l := (congrArg Prod.snd hs).symm.trans hl
    refine ⟨cmd, ⟨post, by simp [hcmds]⟩, hacc, ?_⟩
    simpa [append] using hfails
  · rintro ⟨cmd, ⟨post, hcmds⟩, hacc, hfails⟩
    have hrun : FailStop.run (append ipt) (rules.flatMap m.commands) ([flushChain, newChain], []) =
        (false, l.reverse ++ [flushChain, newChain], l) := by
      refine FailStop.run_eq_false_iff.mpr ⟨l, cmd, post, by simp [← hcmds], ?_, ?_⟩
      · exact taken_append_iff.mpr ⟨hacc, rfl⟩
      · simp [append, hfails]
    rw [hrun]

/-- After a failure the chain is as before if and only if it could not be cleared, or it was
already what the appends that succeeded have made. -/
theorem failure_keeps_chain_iff (ipt : Iptables) (m : FirewallManager) (rules : List Rule)
    (chain : Chain) :
    ((applyRulesTo ipt m rules chain).1 = false → (applyRulesTo ipt m rules chain).2 = chain) ↔
      (truthy m.iptablesPath ≠ none → Kept ipt m rules chain) := by
  unfold applyRulesTo Kept
  cases truthy m.iptablesPath with
  | none => simp
  | some path =>
    by_cases hf : ipt [newChain] flushChain = true
    · simp only [hf, if_true, ne_eq, reduceCtorEq, not_false_eq_true, forall_const]
      constructor
      · intro h pre cmd hfails
        have hrun := runCommands_eq_false_iff.mpr ⟨cmd, hfails⟩
        rw [hrun] at h
        exact (h rfl).symm
      · intro h hfalse
        obtain ⟨cmd, hfails⟩ := runCommands_eq_false_iff.mp (Prod.ext hfalse rfl)
        exact (h _ cmd hfails).symm
    · simp only [hf, if_false, ne_eq, reduceCtorEq, not_false_eq_true, forall_const]
      unfold created
      cases chain <;> simp

/-- `iptables` takes no port above 65535. -/
def portRange : Iptables := fun _ cmd => decide ("70000" ∉ cmd)

/-- A policy that lets in ssh is replaced by one with a port that does not exist. -/
theorem failure_keeps_chain_fails :
    let before := some (anyHost.commands { ports := some [22] })
    let rules : List Rule := [{ ports := some [443, 70000] }, { action := some "deny" }]
    (applyRulesTo portRange anyHost rules before).1 = false ∧
      (applyRulesTo portRange anyHost rules before).2 =
        some (anyHost.commands { ports := some [443] }) ∧
      (applyRulesTo portRange anyHost rules before).2 ≠ before := by
  decide +kernel

end FirewallManager

end PyMesh
