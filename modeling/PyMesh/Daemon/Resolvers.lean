import PyMesh.Networking.MagicDns
import PyMesh.Protocol.Messages

/-! The two local resolvers that a sync fills: the hosts file and the Magic DNS server. -/
namespace PyMesh.DaemonLifecycle

open Text HostsManager MagicDNSServer

/-- `dns_records[hostname] = ip` -/
def setRecord (hostname ip : String) : List (String × String) → List (String × String)
  | [] => [(hostname, ip)]
  | (hostname', ip') :: records =>
    if hostname' = hostname then (hostname', ip) :: records
    else (hostname', ip') :: setRecord hostname ip records

def dnsRecords (config : NetworkConfigResponse) : List (String × String) :=
  config.peers.foldl (fun records p => setRecord p.hostname p.meshIpv4 records) []

/-- Every name that the hosts block has for an IP is a key of the records of the DNS server with
that IP, and every key is in the hosts block. -/
def ResolversAgree (rt : HostsRuntime) (records : List (String × String))
    (controllerUrl : Option String) : Prop :=
  (∀ g ∈ ipMap rt records none controllerUrl, ∀ name ∈ uniqueDomains g.2,
    updateRecords rt.toRuntime records none name = some g.1) ∧
  ∀ name, updateRecords rt.toRuntime records none name ≠ none →
    ∃ g ∈ ipMap rt records none controllerUrl, name ∈ uniqueDomains g.2

/-- The TLDs of a sync, which passes none. -/
def defaultTlds : List String := ["cr", "mesh"]

/-- Whether an update assigns the registry's name under `tld` for a record. -/
def NamesRegistry (rt : Runtime) (tld : String) (r : String × String) : Prop :=
  isController rt r = true ∨ qualified "registry" tld ∈ domainsOf rt defaultTlds r.1

variable {rt : HostsRuntime} {records : List (String × String)} {controllerUrl : Option String}
  {name tld ip : String} {r : String × String}

theorem lower_of_all {s : String} (rt : Runtime)
    (h : (s.toList.all fun c => decide (c.toNat < 128)) = true) : rt.lower s = asciiLower s :=
  rt.lower_ascii s fun c hc => of_decide_eq_true (List.all_eq_true.mp h c hc)

theorem tldCleans_none (rt : Runtime) : tldCleans rt none = defaultTlds := by
  have hcr := lower_of_all (s := lstrip (· = '.') "cr") rt (by decide)
  have hmesh := lower_of_all (s := lstrip (· = '.') "mesh") rt (by decide)
  rw [tldCleans, Option.filter_none, Option.getD_none, List.map_cons, List.map_cons, List.map_nil,
    hcr, hmesh]
  decide

theorem mem_tldCleans_iff (rt : Runtime) :
    tld ∈ (tldsOr none).map (fun t => rt.lower (lstrip (· = '.') t)) ↔ tld ∈ defaultTlds := by
  rw [← tldCleans_none rt, tldCleans, tldsOr]
  simp [or_comm]

theorem listed_iff : (∃ g ∈ ipMap rt records none controllerUrl, g.1 = ip ∧
    name ∈ uniqueDomains g.2) ↔
      Expected rt.toRuntime defaultTlds (controllerIp rt controllerUrl) records name ip := by
  have hlisted : Listed (ipMap rt records none controllerUrl) name ip ↔
      Stated rt records none controllerUrl name ip := listed_ipMap
  rw [Stated, tldCleans_none] at hlisted
  rw [← hlisted]
  simp only [Listed, mem_uniqueDomains]

theorem assigned_iff {rt : Runtime} : Assigned rt (tldsOr none) r name ↔
    name ∈ domainsOf rt defaultTlds r.1 ∨
      (isController rt r = true ∧ ∃ tld ∈ defaultTlds, name = qualified "registry" tld) := by
  have hdom : name ∈ domainsOf rt ((tldsOr none).map fun t => rt.lower (lstrip (· = '.') t)) r.1 ↔
      name ∈ domainsOf rt defaultTlds r.1 := by
    simp only [domainsOf, List.mem_cons, List.mem_map (l := defaultTlds), ← mem_tldCleans_iff rt,
      List.mem_map]
  have hreg : (∃ tld ∈ tldsOr none,
      name = qualified "registry" (rt.lower (lstrip (· = '.') tld))) ↔
        ∃ tld ∈ defaultTlds, name = qualified "registry" tld := by
    simp only [← mem_tldCleans_iff rt, List.mem_map, exists_exists_and_eq_and]
  rw [Assigned, hdom, hreg]

theorem assigned_registry_iff {rt : Runtime} (ht : tld ∈ defaultTlds) :
    Assigned rt (tldsOr none) r (qualified "registry" tld) ↔ NamesRegistry rt tld r := by
  rw [assigned_iff, NamesRegistry, or_comm]
  refine or_congr (and_iff_left_of_imp fun _ => ⟨tld, ht, rfl⟩) Iff.rfl

/-- The registry's name is answered with the IP of the last record that it is assigned for. -/
theorem registry_eq_some_iff {rt : Runtime} (ht : tld ∈ defaultTlds) :
    updateRecords rt records none (qualified "registry" tld) = some ip ↔
      ∃ pre r post, records = pre ++ r :: post ∧ ip = r.2 ∧ NamesRegistry rt tld r ∧
        ∀ r' ∈ post, ¬ NamesRegistry rt tld r' := by
  simp only [updateRecords_eq_some_iff, assigned_registry_iff ht]

/-- The agreement of the two in terms of what the hosts block is to hold. -/
theorem resolversAgree_iff : ResolversAgree rt records controllerUrl ↔
    ∀ name ip, Expected rt.toRuntime defaultTlds (controllerIp rt controllerUrl) records name ip →
      updateRecords rt.toRuntime records none name = some ip := by
  constructor
  · rintro ⟨h, -⟩ name ip he
    obtain ⟨g, hg, rfl, hn⟩ := listed_iff.mpr he
    exact h g hg name hn
  · intro h
    refine ⟨fun g hg name hn => h name g.1 (listed_iff.mp ⟨g, hg, rfl, hn⟩), ?_⟩
    -- Every key is a name of a record or of the registry, and these are all in the block.
    have hkeys : ∀ name, updateRecords rt.toRuntime records none name ≠ none → ∃ ip,
        Expected rt.toRuntime defaultTlds (controllerIp rt controllerUrl) records name ip := by
      intro name hne
      obtain ⟨r, hr, ha⟩ := updateRecords_ne_none_iff.mp hne
      rcases assigned_iff.mp ha with hn | ⟨-, tld, ht, rfl⟩
      · exact ⟨r.2, Or.inl ⟨r, hr, rfl, hn⟩⟩
      · exact ⟨_, Or.inr ⟨rfl, tld, ht, rfl⟩⟩
    intro name hne
    obtain ⟨ip, he⟩ := hkeys name hne
    obtain ⟨g, hg, -, hn⟩ := listed_iff.mpr he
    exact ⟨g, hg, hn⟩

/-- A name of a record that is no name of the registry is answered with an IP of such a record. -/
theorem exists_answer {rt : Runtime} (hr : r ∈ records) (hn : name ∈ domainsOf rt defaultTlds r.1)
    (hname : ¬ ∃ tld ∈ defaultTlds, name = qualified "registry" tld) :
    ∃ r' ∈ records, name ∈ domainsOf rt defaultTlds r'.1 ∧
      updateRecords rt records none name = some r'.2 := by
  have hne : updateRecords rt records none name ≠ none :=
    updateRecords_ne_none_iff.mpr ⟨r, hr, assigned_iff.mpr (Or.inl hn)⟩
  obtain ⟨ip, hip⟩ := Option.ne_none_iff_exists'.mp hne
  obtain ⟨pre, r', post, rfl, rfl, ha, -⟩ := updateRecords_eq_some_iff.mp hip
  rcases assigned_iff.mp ha with hn' | ⟨-, hname'⟩
  · exact ⟨r', by simp, hn', hip⟩
  · exact (hname hname').elim

/-- The resolvers agree if and only if records with a name in common have one IP, a record under
the registry's name has that of the controller, and so has the last of the records that the
registry's name is assigned for. -/
theorem resolvers_agree_iff : ResolversAgree rt records controllerUrl ↔
    (∀ r ∈ records, ∀ r' ∈ records, ∀ name ∈ domainsOf rt.toRuntime defaultTlds r.1,
      name ∈ domainsOf rt.toRuntime defaultTlds r'.1 → r.2 = r'.2) ∧
    (∀ r ∈ records, ∀ tld ∈ defaultTlds,
      qualified "registry" tld ∈ domainsOf rt.toRuntime defaultTlds r.1 →
        r.2 = controllerIp rt controllerUrl) ∧
    ∀ tld ∈ defaultTlds, ∃ pre r post, records = pre ++ r :: post ∧
      controllerIp rt controllerUrl = r.2 ∧ NamesRegistry rt.toRuntime tld r ∧
        ∀ r' ∈ post, ¬ NamesRegistry rt.toRuntime tld r' := by
  rw [resolversAgree_iff]
  constructor
  · intro h
    have hrecord : ∀ r ∈ records, ∀ name ∈ domainsOf rt.toRuntime defaultTlds r.1,
        updateRecords rt.toRuntime records none name = some r.2 :=
      fun r hr name hn => h name r.2 (Or.inl ⟨r, hr, rfl, hn⟩)
    have hregistry : ∀ tld ∈ defaultTlds, updateRecords rt.toRuntime records none
        (qualified "registry" tld) = some (controllerIp rt controllerUrl) :=
      fun tld ht => h _ _ (Or.inr ⟨rfl, tld, ht, rfl⟩)
    refine ⟨?_, ?_, fun tld ht => (registry_eq_some_iff ht).mp (hregistry tld ht)⟩
    · intro r hr r' hr' name hn hn'
      exact Option.some.inj ((hrecord r hr name hn).symm.trans (hrecord r' hr' name hn'))
    · intro r hr tld ht hn
      exact Option.some.inj ((hrecord r hr _ hn).symm.trans (hregistry tld ht))
  · rintro ⟨hshared, hunder, hlast⟩
    have hregistry : ∀ tld ∈ defaultTlds, updateRecords rt.toRuntime records none
        (qualified "registry" tld) = some (controllerIp rt controllerUrl) :=
      fun tld ht => (registry_eq_some_iff ht).mpr (hlast tld ht)
    rintro name ip (⟨r, hr, rfl, hn⟩ | ⟨rfl, tld, ht, rfl⟩)
    · by_cases hname : ∃ tld ∈ defaultTlds, name = qualified "registry" tld
      · obtain ⟨tld, ht, rfl⟩ := hname
        rw [hregistry tld ht, hunder r hr tld ht hn]
      · obtain ⟨r', hr', hn', hanswer⟩ := exists_answer hr hn hname
        rw [hanswer, hshared r' hr' r hr name hn' hn]
    · exact hregistry tld ht

/-- A peer whose IP ends in `.1` has the registry's name on the DNS server, and the controller has
it in the hosts file. -/
theorem resolvers_disagree : ¬ ∀ (rt : HostsRuntime) (config : NetworkConfigResponse)
    (controllerUrl : Option String), ResolversAgree rt (dnsRecords config) controllerUrl := by
  intro hall
  let peer : PeerConfig :=
    { nodeId := "", hostname := "web", publicKey := "", meshIpv4 := "100.64.1.1",
      meshIpv6 := "fd00::2", allowedIps := [], endpoints := [] }
  have h := (hall HostsRuntime.ascii
    { nodeId := "", meshIpv4 := "100.64.0.2", meshIpv6 := "", peers := [peer] }
    (some "http://100.64.0.1:8000")).1
  have hregistry := h ("100.64.0.1", ["registry.cr", "registry.mesh"]) (by decide +kernel)
    "registry.cr" (by decide +kernel)
  revert hregistry
  decide +kernel

end PyMesh.DaemonLifecycle
