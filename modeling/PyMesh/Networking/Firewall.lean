import PyMesh.Controller.Acl
import PyMesh.Library.FailStop
import PyMesh.Protocol.Messages

/-! `FirewallManager.apply_rules`: the iptables chain it builds, and the packets it lets in. -/
namespace PyMesh

open Policy Text

structure FirewallManager where
  interfaceName : String := "pymesh0"
  /-- `shutil.which("iptables")` -/
  iptablesPath : Option String

/-- What an appended rule can look at in a packet. -/
structure Packet where
  inInterface : String
  protocol : String
  dport : Option Int

/-- Whether a command exits with 0, by the commands that were run before it, last first. -/
abbrev Iptables := List (List String) → List String → Bool

namespace FirewallManager

/-- `action.upper()`. No character outside ASCII has one of the letters of `ALLOW` as its upper
case. -/
def upper (action : String) : String := String.ofList (action.toList.map Char.toUpper)

/-- Whether the target of a rule is `ACCEPT`. -/
def permits (rule : Rule) : Bool := upper (rule.action.getD "allow") = "ALLOW"

def target (rule : Rule) : String := if permits rule then "ACCEPT" else "DROP"

/-- The commands for one rule. -/
def commands (m : FirewallManager) (rule : Rule) : List (List String) :=
  let ports := rule.ports.getD []
  if ports ≠ [] then
    ports.map fun port =>
      ["iptables", "-A", "PYMESH_ACL", "-i", m.interfaceName, "-p", "tcp",
        "--dport", toString port, "-j", target rule]
  else [["iptables", "-A", "PYMESH_ACL", "-i", m.interfaceName, "-j", target rule]]

def newChain : List String := ["iptables", "-N", "PYMESH_ACL"]

def flushChain : List String := ["iptables", "-F", "PYMESH_ACL"]

/-- Each command appends its rule, until one fails. -/
def runCommands (ipt : Iptables) : List (List String) → (history chain : List (List String)) →
    Bool × List (List String)
  | [], _, chain => (true, chain)
  | cmd :: cmds, history, chain =>
    if ipt history cmd then runCommands ipt cmds (cmd :: history) (chain ++ [cmd])
    else (false, chain)

/-- The answer, and the chain as the commands that were appended to it. -/
def applyRules (ipt : Iptables) (m : FirewallManager) (rules : List Rule)
    (chain : List (List String)) : Bool × List (List String) :=
  match truthy m.iptablesPath with
  | none => (true, chain)
  | some _ =>
    -- The first command may fail: the chain exists already then.
    if ipt [newChain] flushChain then
      runCommands ipt (rules.flatMap m.commands) [flushChain, newChain] []
    else (false, chain)

/-- Whether a packet meets one match option of a command. -/
def optionMatches (p : Packet) (option value : String) : Bool :=
  if option = "-i" then p.inInterface = value
  else if option = "-p" then p.protocol = value
  else if option = "--dport" then p.dport.map toString = some value
  else true

/-- A rule matches when all the match options of its command do. -/
def optionsMatch (p : Packet) : List String → Bool
  | option :: value :: options => optionMatches p option value && optionsMatch p options
  | _ => true

/-- The options of an appended rule: what follows `iptables -A PYMESH_ACL`. -/
def options (cmd : List String) : List String := cmd.drop 3

def cmdMatches (cmd : List String) (p : Packet) : Bool := optionsMatch p (options cmd)

def accepts (cmd : List String) : Bool := cmd.getLast? = some "ACCEPT"

/-- The first rule of the chain that matches decides; when none does, packets are denied if
there are ACL rules and allowed if there are none. -/
def chainVerdict (rules : List Rule) (chain : List (List String)) (p : Packet) : Bool :=
  verdict cmdMatches accepts (rules = []) chain p

/-- The packet of a connection that arrives on the mesh interface. -/
def packet (m : FirewallManager) (a : Attempt) : Packet := ⟨m.interfaceName, a.protocol, a.port⟩

/-- What the commands of a rule ask of a connection. -/
def covers (rule : Rule) (a : Attempt) : Bool :=
  let ports := rule.ports.getD []
  ports = [] ∨ (a.protocol = "tcp" ∧ a.port.any fun port => port ∈ ports)

/-- What the commands of a rule leave out of it, its source, its destination and its protocols,
selects the connection. -/
def Selects (rule : Rule) (a : Attempt) : Prop :=
  ACLEngine.matchNodeSelector (rule.source.getD "*") a.srcNode = true ∧
    ACLEngine.matchNodeSelector (rule.destination.getD "*") a.dstNode = true ∧
    (rule.protocols.getD [] = [] ∨ a.protocol ∈ rule.protocols.getD [])

/-- The firewall takes an action for `allow` in capitals as well; this one is not spelled so. -/
def SpelledAlike (rule : Rule) : Prop := permits rule = true → rule.action.getD "allow" = "allow"

instance (rule : Rule) (a : Attempt) : Decidable (Selects rule a) :=
  inferInstanceAs (Decidable (_ ∧ _ ∧ _))

instance (rule : Rule) : Decidable (SpelledAlike rule) := inferInstanceAs (Decidable (_ → _))

/-- Whether all the commands succeed after `history`. -/
def accepted (ipt : Iptables) : (history cmds : List (List String)) → Bool
  | _, [] => true
  | history, cmd :: cmds => ipt history cmd && accepted ipt (cmd :: history) cmds

/-- One append, with the commands that were run before it. -/
def append (ipt : Iptables) (s : List (List String) × List (List String)) (cmd : List String) :
    Option (List (List String) × List (List String)) :=
  if ipt s.1 cmd then some (cmd :: s.1, s.2 ++ [cmd]) else none

variable {ipt : Iptables} {m : FirewallManager} {rules : List Rule} {rule : Rule}
  {cmds history l pre chain chain' : List (List String)} {a : Attempt}
  {s : List (List String) × List (List String)}

theorem runCommands_eq_run : runCommands ipt cmds history l =
    ((FailStop.run (append ipt) cmds (history, l)).1,
      (FailStop.run (append ipt) cmds (history, l)).2.2) := by
  induction cmds generalizing history l with
  | nil => rfl
  | cons cmd cmds ih =>
    rw [runCommands]
    by_cases h : ipt history cmd = true
    · have hs : append ipt (history, l) cmd = some (cmd :: history, l ++ [cmd]) := if_pos h
      rw [if_pos h, ih, FailStop.run_cons_of_some hs]
    · have hs : append ipt (history, l) cmd = none := if_neg h
      rw [if_neg h, FailStop.run_cons_of_none hs]

theorem taken_append_iff : FailStop.Taken (append ipt) (history, l) pre s ↔
    accepted ipt history pre = true ∧ s = (pre.reverse ++ history, l ++ pre) := by
  induction pre generalizing history l with
  | nil =>
    constructor
    · rintro ⟨⟩
      simp [accepted]
    · rintro ⟨-, rfl⟩
      simpa using FailStop.Taken.nil
  | cons cmd pre ih =>
    rw [FailStop.taken_cons_iff]
    constructor
    · rintro ⟨t, ht, hpre⟩
      obtain ⟨h, rfl⟩ : ipt history cmd = true ∧ (cmd :: history, l ++ [cmd]) = t := by
        simpa [append] using ht
      obtain ⟨hacc, rfl⟩ := ih.mp hpre
      simp [accepted, h, hacc]
    · rintro ⟨hacc, rfl⟩
      obtain ⟨h, hacc⟩ : ipt history cmd = true ∧ accepted ipt (cmd :: history) pre = true := by
        simpa [accepted] using hacc
      exact ⟨(cmd :: history, l ++ [cmd]), if_pos h, ih.mpr ⟨hacc, by simp⟩⟩

theorem runCommands_ok (h : runCommands ipt cmds history chain = (true, chain')) :
    chain' = chain ++ cmds := by
  rw [runCommands_eq_run] at h
  obtain ⟨htrue, hchain⟩ := Prod.mk.inj h
  have htaken := FailStop.run_eq_true_iff.mp (Prod.ext htrue rfl : FailStop.run _ _ _ = (true, _))
  obtain ⟨-, hs⟩ := taken_append_iff.mp htaken
  exact hchain.symm.trans (congrArg Prod.snd hs)

theorem applyRules_ok (hp : truthy m.iptablesPath ≠ none)
    (h : applyRules ipt m rules chain = (true, chain')) : chain' = rules.flatMap m.commands := by
  obtain ⟨path, hpath⟩ := Option.ne_none_iff_exists'.mp hp
  simp only [applyRules, hpath] at h
  split at h
  · exact runCommands_ok h
  · cases h

theorem accepts_commands : ∀ cmd ∈ m.commands rule, accepts cmd = permits rule := by
  have htarget : (target rule = "ACCEPT") = (permits rule = true) := by
    unfold target
    cases permits rule <;> simp
  intro cmd hcmd
  by_cases hports : rule.ports.getD [] = []
  · simp only [commands, hports, ne_eq, not_true_eq_false, if_false, List.mem_singleton] at hcmd
    rw [hcmd]
    simp [accepts, htarget]
  · simp only [commands, hports, ne_eq, not_false_eq_true, if_true, List.mem_map] at hcmd
    obtain ⟨port, -, rfl⟩ := hcmd
    simp [accepts, htarget]

theorem cmdMatches_port {port : Int} {t : String} : cmdMatches
    ["iptables", "-A", "PYMESH_ACL", "-i", m.interfaceName, "-p", "tcp", "--dport", toString port,
      "-j", t] (m.packet a) = (a.protocol = "tcp" ∧ a.port = some port : Bool) := by
  have hport : a.port.map toString = some (toString port) ↔ a.port = some port :=
    (Option.map_injective intToString_injective).eq_iff (b := some port)
  simp only [cmdMatches, options, List.drop_succ_cons, List.drop_zero, optionsMatch, optionMatches,
    packet, hport]
  simp

theorem cmdMatches_any {t : String} : cmdMatches
    ["iptables", "-A", "PYMESH_ACL", "-i", m.interfaceName, "-j", t] (m.packet a) = true := by
  simp [cmdMatches, options, optionsMatch, optionMatches, packet]

theorem any_commands (rule : Rule) (a : Attempt) :
    ((m.commands rule).any fun cmd => cmdMatches cmd (m.packet a)) = covers rule a := by
  by_cases hports : rule.ports.getD [] = []
  · simp [commands, covers, hports, cmdMatches_any]
  · rw [Bool.eq_iff_iff]
    simp only [commands, hports, ne_eq, not_false_eq_true, if_true, List.any_map, Function.comp_def,
      cmdMatches_port, covers, false_or, List.any_eq_true, decide_eq_true_eq]
    constructor
    · rintro ⟨port, hport, htcp, hq⟩
      exact ⟨htcp, by simpa [hq] using hport⟩
    · rintro ⟨htcp, hq⟩
      obtain ⟨port, hport, hmem⟩ := (Option.any_eq_true _ _).mp hq
      exact ⟨port, of_decide_eq_true hmem, htcp, hport⟩

/-- The chain lets in what the first rule permits whose ports cover the connection. -/
theorem chainVerdict_commands (rules : List Rule) (a : Attempt) :
    chainVerdict rules (rules.flatMap m.commands) (m.packet a) =
      verdict covers permits (rules = []) rules a := by
  rw [chainVerdict, verdict_flatMap fun rule => accepts_commands]
  unfold verdict
  simp only [any_commands]

theorem permits_eq_allows_iff : permits rule = ACLEngine.allows rule ↔ SpelledAlike rule := by
  have hupper : ACLEngine.allows rule = true → permits rule = true := by
    intro h
    have haction : rule.action.getD "allow" = "allow" := by simpa [ACLEngine.allows] using h
    simp [permits, haction, upper]
  rw [Bool.eq_iff_iff]
  unfold SpelledAlike
  constructor
  · intro h hp
    simpa [ACLEngine.allows] using h.mp hp
  · intro h
    exact ⟨fun hp => by simpa [ACLEngine.allows] using h hp, hupper⟩

theorem covers_iff : covers rule a = true ↔ rule.ports.getD [] = [] ∨
    a.protocol = "tcp" ∧ ∃ port, a.port = some port ∧ port ∈ rule.ports.getD [] := by
  simp [covers, Option.any_eq_true]

/-- Where the ports of a rule cover a connection for the firewall they do for the engine, so the
rule matches if the rest of it selects the connection. -/
theorem matchRule_iff_selects (h : covers rule a = true) :
    ACLEngine.matchRule rule a = true ↔ Selects rule a := by
  rw [ACLEngine.matchRule_iff]
  unfold Selects
  have hports : ∀ port, a.port = some port →
      rule.ports.getD [] = [] ∨ port ∈ rule.ports.getD [] := by
    intro port hport
    rcases covers_iff.mp h with hnone | ⟨-, port', hport', hmem⟩
    · exact Or.inl hnone
    · rw [hport] at hport'
      obtain rfl := Option.some.inj hport'
      exact Or.inr hmem
  constructor
  · rintro ⟨hsrc, hdst, -, hproto⟩
    exact ⟨hsrc, hdst, hproto⟩
  · rintro ⟨hsrc, hdst, hproto⟩
    exact ⟨hsrc, hdst, hports, hproto⟩

/-- The engine matches a rule that the firewall does not apply for one reason only: it has ports,
which the firewall looks for in TCP packets. -/
theorem uncovered_iff (h : ACLEngine.matchRule rule a = true) : covers rule a = false ↔
    rule.ports.getD [] ≠ [] ∧ (a.protocol ≠ "tcp" ∨ a.port = none) := by
  obtain ⟨-, -, hports, -⟩ := ACLEngine.matchRule_iff.mp h
  rw [← Bool.not_eq_true, covers_iff, not_or]
  refine and_congr_right fun hne => ?_
  cases hport : a.port with
  | none => simp
  | some port =>
    have hmem : port ∈ rule.ports.getD [] := (hports port hport).resolve_left hne
    simp [hmem]

/-- The chain and the engine agree on a connection if and only if no rule is about it for either
of them, or the first that is about it selects it by all its fields and does not spell `allow` in
capitals, or only one of them applies that rule and the other falls back to its action later. -/
theorem acl_enforced_iff (hp : truthy m.iptablesPath ≠ none)
    (h : applyRules ipt m rules chain = (true, chain')) (a : Attempt) :
    chainVerdict rules chain' (m.packet a) = ACLEngine.isAllowed rules a ↔
      (∀ rule ∈ rules, covers rule a = false ∧ ACLEngine.matchRule rule a = false) ∨
      ∃ rule post, FirstInEither covers ACLEngine.matchRule rules a a rule post ∧
        (covers rule a = true ∧ Selects rule a ∧ SpelledAlike rule ∨
          covers rule a = true ∧ ¬ Selects rule a ∧
            FallsBack ACLEngine.matchRule ACLEngine.allows false post a (permits rule) ∨
          rule.ports.getD [] ≠ [] ∧ (a.protocol ≠ "tcp" ∨ a.port = none) ∧
            FallsBack covers permits false post a (ACLEngine.allows rule)) := by
  rw [applyRules_ok hp h, chainVerdict_commands]
  by_cases hr : rules = []
  · simp [hr, ACLEngine.isAllowed]
  · rw [ACLEngine.isAllowed_of_ne_nil hr, decide_eq_false hr, verdict_eq_verdict_iff]
    refine or_congr_right (exists_congr fun rule => exists_congr fun post => ?_)
    refine and_congr_right fun hfirst => ?_
    have heither : covers rule a = true ∨ ACLEngine.matchRule rule a = true := by
      obtain ⟨pre, -, -, heither⟩ := hfirst
      exact heither
    cases hc : covers rule a with
    | true =>
      have hports : ¬ (rule.ports.getD [] ≠ [] ∧ (a.protocol ≠ "tcp" ∨ a.port = none)) := by
        rintro ⟨hne, hno⟩
        obtain ⟨htcp, port, hport, -⟩ := (covers_iff.mp hc).resolve_left hne
        rcases hno with hno | hno
        · exact hno htcp
        · rw [hport] at hno
          cases hno
      rw [matchRule_iff_selects hc, permits_eq_allows_iff, ← Bool.not_eq_true,
        matchRule_iff_selects hc]
      rw [← and_assoc (a := rule.ports.getD [] ≠ [])]
      simp [hports]
    | false =>
      have hm := heither.resolve_left (by simp [hc])
      have hports := (uncovered_iff hm).mp hc
      simp [hm, hports]

/-- A host on which every command succeeds. -/
def anyHost : FirewallManager := { iptablesPath := some "/usr/sbin/iptables" }

def sshForDevelopers : List Rule :=
  [{ source := some "group:developers", destination := some "node:prod-db", ports := some [22] }]

def prodDb : NodeInfo := { hostname := some "prod-db", tags := some ["database"] }

theorem anyHost_applies : applyRules (fun _ _ => true) anyHost sshForDevelopers [] =
    (true, sshForDevelopers.flatMap anyHost.commands) := rfl

/-- A developer reaches the port that the rule is about. -/
theorem acl_enforced_iff_developer : ∃ chain,
    applyRules (fun _ _ => true) anyHost sshForDevelopers [] = (true, chain) ∧
      let a : Attempt := ⟨{ tags := some ["developers"] }, prodDb, some 22, "tcp"⟩
      chainVerdict sshForDevelopers chain (anyHost.packet a) =
        ACLEngine.isAllowed sshForDevelopers a :=
  ⟨_, anyHost_applies, (acl_enforced_iff (by decide) anyHost_applies _).mpr (Or.inr
    ⟨_, [], ⟨[], rfl, by decide, Or.inl (by decide)⟩, Or.inl (by decide)⟩)⟩

/-- Everybody else reaches it too. -/
theorem acl_enforced_fails : ∃ chain,
    applyRules (fun _ _ => true) anyHost sshForDevelopers [] = (true, chain) ∧
      let a : Attempt := ⟨{ tags := some ["guests"] }, prodDb, some 22, "tcp"⟩
      chainVerdict sshForDevelopers chain (anyHost.packet a) = true ∧
        ACLEngine.isAllowed sshForDevelopers a = false :=
  ⟨_, anyHost_applies, by decide +kernel, by decide +kernel⟩

end FirewallManager

end PyMesh
