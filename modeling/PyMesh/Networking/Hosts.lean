import Mathlib.Data.List.Dedup
import Mathlib.Data.List.Sort
import PyMesh.Library.Run
import PyMesh.Library.Template
import PyMesh.Dns.Tld

/-! `HostsManager`: the section of the hosts file, and the lines that are not in it. -/
namespace PyMesh

open Text

/-- One more function of Python's library: `urlparse(url).netloc`. -/
structure HostsRuntime extends Runtime where
  urlNetloc : String → String

/-- The netloc of `scheme://netloc/…`, for a URL of ASCII characters. -/
def HostsRuntime.netloc (url : String) : String :=
  match url.toList.dropWhile (· ≠ ':') with
  | ':' :: '/' :: '/' :: rest =>
    String.ofList (rest.takeWhile fun c => c ≠ '/' && c ≠ '?' && c ≠ '#')
  | _ => ""

/-- A runtime that does what Python does as long as all texts are ASCII. -/
def HostsRuntime.ascii : HostsRuntime := ⟨Runtime.ascii, netloc⟩

namespace HostsManager

def sectionStart : String := "# BEGIN PYMESH DNS"

def sectionEnd : String := "# END PYMESH DNS"

/-- The pattern `SECTION_START.*?SECTION_END\n?`, where the dot matches every character. -/
def markers : Sections.Markers Char where
  start := sectionStart.toList
  stop := sectionEnd.toList
  nl := '\n'
  start_line := by decide
  stop_line := by decide
  start_stop := by decide
  stop_start := by decide

def tldCleans (rt : Runtime) (activeTlds : Option (List String)) : List String :=
  ((activeTlds.filter (· ≠ [])).getD ["cr", "mesh"]).map fun t => rt.lower (lstrip (· = '.') t)

/-- `f"{name}.{tld}"` -/
def qualified (name tld : String) : String := name ++ "." ++ tld

/-- The names of a record: its hostname, and that under each TLD. -/
def domainsOf (rt : Runtime) (tlds : List String) (hostname : String) : List String :=
  rt.lower hostname :: tlds.map (qualified (rt.lower hostname))

/-- `ip_map[ip]`, made empty if it is not there, with the domains appended. -/
def addDomains (ip : String) (domains : List String) :
    List (String × List String) → List (String × List String)
  | [] => [(ip, domains)]
  | (ip', domains') :: ipMap =>
    if ip' = ip then (ip', domains' ++ domains) :: ipMap
    else (ip', domains') :: addDomains ip domains ipMap

/-- The domains grouped by IP, in the order in which the IPs come up. -/
def groupByIp (rt : Runtime) (tlds : List String) (records : List (String × String)) :
    List (String × List String) :=
  records.foldl (fun ipMap r => addDomains r.2 (domainsOf rt tlds r.1) ipMap) []

/-- The host of the controller URL; the default if there is no URL, no host in it, or an
exception. -/
def controllerIp (rt : HostsRuntime) (controllerUrl : Option String) : String :=
  let default := "100.64.0.1"
  match truthy controllerUrl with
  | none => default
  | some url =>
    match rt.urlHostname url with
    | .error _ => default
    | .ok hostname =>
      (truthy ((truthy hostname).orElse fun _ => (split (rt.urlNetloc url) ':').head?)).getD default

/-- The registry domains added to the group of the controller, unless they are in it. -/
def addRegistry (ip : String) (tlds : List String) (ipMap : List (String × List String)) :
    List (String × List String) :=
  tlds.foldl (fun ipMap tld =>
    if qualified "registry" tld ∈ (ipMap.lookup ip).getD [] then ipMap
    else addDomains ip [qualified "registry" tld] ipMap) (addDomains ip [] ipMap)

def ipMap (rt : HostsRuntime) (records : List (String × String))
    (activeTlds : Option (List String)) (controllerUrl : Option String) :
    List (String × List String) :=
  let tlds := tldCleans rt.toRuntime activeTlds
  addRegistry (controllerIp rt controllerUrl) tlds (groupByIp rt.toRuntime tlds records)

/-- `sorted(list(set(domains)))` -/
def uniqueDomains (domains : List String) : List String := domains.dedup.insertionSort (· ≤ ·)

/-- The lines of the groups that are not empty. -/
def entryLines (ipMap : List (String × List String)) : List String :=
  (ipMap.filter fun g => uniqueDomains g.2 ≠ []).map fun g =>
    g.1 ++ "\t" ++ join ' ' (uniqueDomains g.2)

def pymeshLines (ipMap : List (String × List String)) : List String :=
  sectionStart :: (entryLines ipMap ++ [sectionEnd])

def newBlock (ipMap : List (String × List String)) : String :=
  join '\n' (pymeshLines ipMap) ++ "\n"

/-- What reading a text file makes of the ends of its lines. -/
def universalNewlines : List Char → List Char
  | [] => []
  | '\r' :: '\n' :: cs => '\n' :: universalNewlines cs
  | '\r' :: cs => '\n' :: universalNewlines cs
  | c :: cs => c :: universalNewlines cs

/-- `HOSTS_PATH.read_text()` -/
def readText (raw : String) : String := String.ofList (universalNewlines raw.toList)

/-- Whether a text has both markers somewhere. -/
def hasSection (content : String) : Bool :=
  markers.start <:+: content.toList && markers.stop <:+: content.toList

/-- The new text of the file; `none` if the block is no replacement template. -/
def updatedContent (block content : String) : Option String :=
  if hasSection content then
    (Template.parse block.toList).map fun pieces =>
      String.ofList (markers.sub (Template.expand pieces) content.toList)
  else some (rstrip isSpace content ++ "\n\n" ++ block)

/-- What becomes of `HOSTS_PATH.write_text`: the file cannot be opened, or it is opened, which
empties it, and the write fails after so many characters, or all is written. -/
inductive WriteOutcome
  | refused
  | cutOff (written : Nat)
  | complete
deriving DecidableEq

/-- Whether the file can be read and decoded, and what becomes of a write. -/
structure Access where
  readable : Bool
  write : WriteOutcome

/-- What a call answers that writes `updated` over `raw`, and the file after it. -/
def writeText (write : WriteOutcome) (raw updated : String) : Bool × Option String :=
  match write with
  | .refused => (false, some raw)
  | .cutOff written => (false, some (String.ofList (updated.toList.take written)))
  | .complete => (true, some updated)

/-- The result of the call, and the file after it; there may be none. -/
def syncHostsFile (rt : HostsRuntime) (access : Access) (records : List (String × String))
    (activeTlds : Option (List String)) (controllerUrl : Option String) :
    Option String → Bool × Option String
  | none => (false, none)
  | some raw =>
    if !access.readable then (false, some raw)
    else
      match updatedContent (newBlock (ipMap rt records activeTlds controllerUrl)) (readText raw) with
      | none => (false, some raw)
      | some updated => writeText access.write raw updated

def removeHostsFile (access : Access) : Option String → Bool × Option String
  | none => (false, none)
  | some raw =>
    if !access.readable then (false, some raw)
    else if hasSection (readText raw) then
      writeText access.write raw
        (String.ofList (markers.sub (fun _ => []) (readText raw).toList))
    else (true, some raw)

section Groups

variable {rt : Runtime} {tlds : List String} {m : List (String × List String)}
  {records : List (String × String)} {ip ip' name : String} {domains : List String}

/-- A name in the group of an IP. -/
def Listed (m : List (String × List String)) (name ip : String) : Prop :=
  ∃ g ∈ m, g.1 = ip ∧ name ∈ g.2

/-- What the groups hold: the names of the records, and those of the registry. -/
def Expected (rt : Runtime) (tlds : List String) (ctrlIp : String)
    (records : List (String × String)) (name ip : String) : Prop :=
  (∃ r ∈ records, r.2 = ip ∧ name ∈ domainsOf rt tlds r.1) ∨
    (ip = ctrlIp ∧ ∃ tld ∈ tlds, name = qualified "registry" tld)

theorem mem_uniqueDomains : name ∈ uniqueDomains domains ↔ name ∈ domains := by
  simp [uniqueDomains]

theorem listed_addDomains : Listed (addDomains ip domains m) name ip' ↔
    Listed m name ip' ∨ (ip' = ip ∧ name ∈ domains) := by
  induction m with
  | nil => simp [addDomains, Listed, eq_comm]
  | cons g m ih =>
    obtain ⟨ip₀, domains₀⟩ := g
    have hcons : ∀ m' : List (String × List String), ∀ ds, Listed ((ip₀, ds) :: m') name ip' ↔
        (ip₀ = ip' ∧ name ∈ ds) ∨ Listed m' name ip' := by
      simp [Listed]
    by_cases he : ip₀ = ip
    · rw [addDomains, if_pos he, hcons, hcons, List.mem_append]
      constructor
      · rintro (⟨rfl, hn | hn⟩ | hn)
        · exact Or.inl (Or.inl ⟨rfl, hn⟩)
        · exact Or.inr ⟨he, hn⟩
        · exact Or.inl (Or.inr hn)
      · rintro ((⟨rfl, hn⟩ | hn) | ⟨rfl, hn⟩)
        · exact Or.inl ⟨rfl, Or.inl hn⟩
        · exact Or.inr hn
        · exact Or.inl ⟨he, Or.inr hn⟩
    · rw [addDomains, if_neg he, hcons, hcons, ih, or_assoc]

/-- The IPs stay in their order, and a new one comes last. -/
theorem fst_addDomains : (addDomains ip domains m).map Prod.fst =
    if ip ∈ m.map Prod.fst then m.map Prod.fst else m.map Prod.fst ++ [ip] := by
  induction m with
  | nil => rfl
  | cons g m ih =>
    by_cases he : g.1 = ip
    · simp [addDomains, he]
    · have he' : ip ≠ g.1 := Ne.symm he
      rw [addDomains, if_neg he, List.map_cons, ih]
      simp only [List.map_cons, List.mem_cons, he', false_or]
      split
      next => rfl
      next => rfl

theorem nodup_addDomains (h : (m.map Prod.fst).Nodup) :
    ((addDomains ip domains m).map Prod.fst).Nodup := by
  rw [fst_addDomains]
  split
  next => exact h
  next hno =>
    refine List.Nodup.append h (List.nodup_singleton ip) ?_
    intro x hx hip
    exact hno (List.mem_singleton.mp hip ▸ hx)

theorem listed_groupByIp : Listed (groupByIp rt tlds records) name ip ↔
    ∃ r ∈ records, r.2 = ip ∧ name ∈ domainsOf rt tlds r.1 := by
  induction records using List.reverseRecOn with
  | nil => simp [groupByIp, Listed]
  | append_singleton records r ih =>
    rw [groupByIp] at ih ⊢
    rw [List.foldl_concat, listed_addDomains, ih]
    constructor
    · rintro (⟨r', hr', h⟩ | ⟨rfl, h⟩)
      · exact ⟨r', List.mem_append_left _ hr', h⟩
      · exact ⟨r, by simp, rfl, h⟩
    · rintro ⟨r', hr', rfl, h⟩
      rcases List.mem_append.mp hr' with hr' | hr'
      · exact Or.inl ⟨r', hr', rfl, h⟩
      · rw [List.mem_singleton.mp hr'] at h ⊢
        exact Or.inr ⟨rfl, h⟩

theorem nodup_groupByIp : ((groupByIp rt tlds records).map Prod.fst).Nodup := by
  induction records using List.reverseRecOn with
  | nil => exact List.nodup_nil
  | append_singleton records r ih =>
    rw [groupByIp] at ih ⊢
    rw [List.foldl_concat]
    exact nodup_addDomains ih

theorem listed_of_lookup (h : name ∈ (m.lookup ip).getD []) : Listed m name ip := by
  cases hl : m.lookup ip with
  | none => simp [hl] at h
  | some domains =>
    rw [hl] at h
    obtain ⟨pre, post, rfl, -⟩ := List.lookup_eq_some_iff.mp hl
    exact ⟨(ip, domains), by simp, rfl, h⟩

theorem addRegistry_spec : (∀ name ip', Listed (addRegistry ip tlds m) name ip' ↔
    Listed m name ip' ∨ (ip' = ip ∧ ∃ tld ∈ tlds, name = qualified "registry" tld)) ∧
      ((m.map Prod.fst).Nodup → ((addRegistry ip tlds m).map Prod.fst).Nodup) := by
  induction tlds using List.reverseRecOn with
  | nil =>
    refine ⟨fun name ip' => ?_, nodup_addDomains⟩
    rw [addRegistry, List.foldl_nil, listed_addDomains]
    simp
  | append_singleton tlds tld ih =>
    obtain ⟨hl, hn⟩ := ih
    rw [addRegistry] at hl hn ⊢
    rw [List.foldl_concat]
    split
    next hin =>
      refine ⟨fun name ip' => ?_, hn⟩
      rw [hl]
      constructor
      · rintro (h | ⟨rfl, t, ht, rfl⟩)
        · exact Or.inl h
        · exact Or.inr ⟨rfl, t, List.mem_append_left _ ht, rfl⟩
      · rintro (h | ⟨rfl, t, ht, rfl⟩)
        · exact Or.inl h
        · rcases List.mem_append.mp ht with ht | ht
          · exact Or.inr ⟨rfl, t, ht, rfl⟩
          · rw [List.mem_singleton.mp ht]
            exact (hl _ _).mp (listed_of_lookup hin)
    next =>
      refine ⟨fun name ip' => ?_, fun h => nodup_addDomains (hn h)⟩
      rw [listed_addDomains, hl, or_assoc]
      refine or_congr Iff.rfl ?_
      simp only [List.mem_append, List.mem_singleton, ← and_or_left, or_and_right, exists_or,
        exists_eq_left]

/-- The bindings that a sync is to write. -/
def Stated (rt : HostsRuntime) (records : List (String × String))
    (activeTlds : Option (List String)) (controllerUrl : Option String) :
    String → String → Prop :=
  Expected rt.toRuntime (tldCleans rt.toRuntime activeTlds) (controllerIp rt controllerUrl) records

theorem listed_ipMap {rt : HostsRuntime} {activeTlds : Option (List String)}
    {controllerUrl : Option String} : Listed (ipMap rt records activeTlds controllerUrl) name ip ↔
      Stated rt records activeTlds controllerUrl name ip := by
  rw [ipMap, addRegistry_spec.1, listed_groupByIp, Stated, Expected]

theorem nodup_ipMap {rt : HostsRuntime} {activeTlds : Option (List String)}
    {controllerUrl : Option String} :
    ((ipMap rt records activeTlds controllerUrl).map Prod.fst).Nodup :=
  addRegistry_spec.2 nodup_groupByIp

end Groups

variable {rt : HostsRuntime} {access : Access} {records : List (String × String)}
  {activeTlds : Option (List String)} {controllerUrl : Option String} {raw : String}

/-- A write that is not cut off leaves the old text or the new one. -/
theorem writeText_cases {write : WriteOutcome} (h : ∀ written, write ≠ .cutOff written)
    (updated : String) : writeText write raw updated = (false, some raw) ∨
      writeText write raw updated = (true, some updated) := by
  cases write with
  | refused => exact Or.inl rfl
  | cutOff written => exact (h written rfl).elim
  | complete => exact Or.inr rfl

theorem writeText_eq_true_iff {write : WriteOutcome} {updated updated' : String} :
    writeText write raw updated = (true, some updated') ↔
      write = .complete ∧ updated = updated' := by
  cases write <;> simp [writeText]

/-- A sync whose write is not cut off writes the new text, or it leaves the file. -/
theorem syncHostsFile_cases (h : ∀ written, access.write ≠ .cutOff written) :
    (syncHostsFile rt access records activeTlds controllerUrl (some raw)).2 = some raw ∨
      ∃ updated, updatedContent (newBlock (ipMap rt records activeTlds controllerUrl))
          (readText raw) = some updated ∧
        (syncHostsFile rt access records activeTlds controllerUrl (some raw)).2 =
          some updated := by
  unfold syncHostsFile
  by_cases hr : access.readable
  · cases hu : updatedContent (newBlock (ipMap rt records activeTlds controllerUrl))
        (readText raw) with
    | none => exact Or.inl (by simp [hr, hu])
    | some updated =>
      rcases @writeText_cases raw access.write h updated with hw | hw
      · exact Or.inl (by simp [hr, hu, hw])
      · exact Or.inr ⟨updated, rfl, by simp [hr, hu, hw]⟩
  · exact Or.inl (by simp [hr])

/-- A sync that returns true has written the new text. -/
theorem syncHostsFile_eq_true {updated : String}
    (h : syncHostsFile rt access records activeTlds controllerUrl (some raw) =
      (true, some updated)) :
    updatedContent (newBlock (ipMap rt records activeTlds controllerUrl)) (readText raw) =
      some updated := by
  unfold syncHostsFile at h
  by_cases hr : access.readable
  · cases hu : updatedContent (newBlock (ipMap rt records activeTlds controllerUrl))
        (readText raw) with
    | none => simp [hr, hu] at h
    | some updated' =>
      simp only [hr, hu, Bool.not_true, Bool.false_eq_true, if_false] at h
      rw [(writeText_eq_true_iff.mp h).2]
  · simp [hr] at h

/-- A removal whose write is not cut off writes the text without its sections, or it leaves the
file. -/
theorem removeHostsFile_cases (h : ∀ written, access.write ≠ .cutOff written) :
    (removeHostsFile access (some raw)).2 = some raw ∨
      (removeHostsFile access (some raw)).2 =
        some (String.ofList (markers.sub (fun _ => []) (readText raw).toList)) := by
  unfold removeHostsFile
  by_cases hr : access.readable
  · by_cases hs : hasSection (readText raw)
    · rcases @writeText_cases raw access.write h
        (String.ofList (markers.sub (fun _ => []) (readText raw).toList)) with hw | hw
      · exact Or.inl (by simp [hr, hs, hw])
      · exact Or.inr (by simp [hr, hs, hw])
    · exact Or.inl (by simp [hr, hs])
  · exact Or.inl (by simp [hr])

end HostsManager

end PyMesh
