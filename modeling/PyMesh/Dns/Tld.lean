import PyMesh.Library.Text
import PyMesh.Protocol.Messages

/-! `TLDManager`: which names can be published as a TLD, and what is known of them. -/
namespace PyMesh

open Text

/-- Two functions of Python's library: `str.lower`, of which only the ASCII part is fixed here,
and the host part of a URL, `urlparse(url).hostname`, which may raise. -/
structure Runtime where
  lower : String → String
  lower_ascii : ∀ s : String, (∀ c ∈ s.toList, c.toNat < 128) → lower s = asciiLower s
  urlHostname : String → Except Exc (Option String)

namespace Runtime

/-- The host part of `scheme://netloc/…`, for a netloc of ASCII characters without brackets. -/
def netlocHost (url : String) : Option String :=
  match url.toList.dropWhile (· ≠ ':') with
  | ':' :: '/' :: '/' :: rest =>
    let netloc := rest.takeWhile fun c => c ≠ '/' && c ≠ '?' && c ≠ '#'
    let hostinfo := (netloc.splitOn '@').getLastD []
    truthy (some (asciiLower (String.ofList (hostinfo.takeWhile (· ≠ ':')))))
  | _ => none

/-- A runtime that does what Python does as long as all texts are ASCII. -/
def ascii : Runtime := ⟨asciiLower, fun _ _ => rfl, fun url => .ok (netlocHost url)⟩

end Runtime

namespace TLDManager

/-- Strips leading dots and lowercases the TLD string. -/
def cleanTld (rt : Runtime) (tldInput : String) : String :=
  rt.lower (strip isSpace (lstrip (· = '.') tldInput))

/-- `[a-z0-9]` -/
def isAlnum (c : Char) : Bool := ('a' ≤ c && c ≤ 'z') || ('0' ≤ c && c ≤ '9')

/-- `re.match(r"^[a-z0-9]([a-z0-9-]{0,22}[a-z0-9])?$", clean)`; a `$` also matches before a
newline at the end. -/
def matchesPattern (clean : String) : Bool :=
  let cs := clean.toList
  match if cs.getLast? = some '\n' then cs.dropLast else cs with
  | [] => false
  | [c] => isAlnum c
  | c :: d :: rest =>
    isAlnum c && (d :: rest).dropLast.all (fun c => isAlnum c || c = '-') &&
      (d :: rest).dropLast.length ≤ 22 && isAlnum ((d :: rest).getLast (List.cons_ne_nil _ _))

/-- Reserved / dangerous names to avoid browser collision. -/
def reserved : List String :=
  ["localhost", "invalid", "local", "arpa", "test", "example", "com", "net", "org"]

def validateTldName (rt : Runtime) (tldInput : String) : Bool :=
  let clean := cleanTld rt tldInput
  if clean.length < 2 || 24 < clean.length then false
  else if !matchesPattern clean then false
  else !reserved.contains clean

/-- The names that `publish_tld` stores. -/
def Publishable (rt : Runtime) (name : String) : Prop :=
  ∃ tldInput, validateTldName rt tldInput = true ∧ name = cleanTld rt tldInput

variable {rt : Runtime} {name : String}

/-- The part that the pattern has to match: a newline at the end is not in it. -/
theorem matchesPattern_label {s : String} (h : matchesPattern s = true) :
    ∀ c ∈ (if s.toList.getLast? = some '\n' then s.toList.dropLast else s.toList),
      isAlnum c = true ∨ c = '-' := by
  intro c hc
  unfold matchesPattern at h
  dsimp only at h
  generalize (if s.toList.getLast? = some '\n' then s.toList.dropLast else s.toList) = cs at h hc
  match cs with
  | [] => cases hc
  | [a] =>
    rw [List.mem_singleton] at hc
    exact Or.inl (hc ▸ h)
  | a :: d :: rest =>
    simp only [Bool.and_eq_true, List.all_eq_true, Bool.or_eq_true, decide_eq_true_eq] at h
    obtain ⟨⟨⟨ha, hmid⟩, -⟩, hlast⟩ := h
    rcases List.mem_cons.mp hc with rfl | hc
    · exact Or.inl ha
    · have he := List.dropLast_append_getLast (List.cons_ne_nil d rest)
      rw [← he, List.mem_append, List.mem_singleton] at hc
      rcases hc with hc | rfl
      · exact hmid c hc
      · exact Or.inl hlast

theorem matchesPattern_chars {s : String} (h : matchesPattern s = true) :
    ∀ c ∈ s.toList, isAlnum c = true ∨ c = '-' ∨ c = '\n' := by
  intro c hc
  have hlabel := matchesPattern_label h c
  split at hlabel
  · rename_i hl
    rw [← List.dropLast_append_getLast? '\n' hl, List.mem_append, List.mem_singleton] at hc
    rcases hc with hc | rfl
    · exact (hlabel hc).imp_right Or.inl
    · exact Or.inr (Or.inr rfl)
  · exact (hlabel hc).imp_right Or.inl

theorem isAlnum_iff {c : Char} : isAlnum c = true ↔
    (97 ≤ c.toNat ∧ c.toNat ≤ 122) ∨ (48 ≤ c.toNat ∧ c.toNat ≤ 57) := by
  simp only [isAlnum, Bool.or_eq_true, Bool.and_eq_true, decide_eq_true_eq, char_le_iff]
  exact Iff.rfl

theorem label_char {c : Char} (h : isAlnum c = true ∨ c = '-' ∨ c = '\n') :
    c.toNat < 128 ∧ c ≠ '.' ∧ c.toLower = c := by
  have hcases : ((97 ≤ c.toNat ∧ c.toNat ≤ 122) ∨ (48 ≤ c.toNat ∧ c.toNat ≤ 57)) ∨
      c.toNat = 45 ∨ c.toNat = 10 := by
    rcases h with h | rfl | rfl
    · exact Or.inl (isAlnum_iff.mp h)
    · exact Or.inr (Or.inl rfl)
    · exact Or.inr (Or.inr rfl)
  refine ⟨by omega, ?_, ?_⟩
  · rintro rfl
    have hdot : '.'.toNat = 46 := rfl
    omega
  · unfold Char.toLower
    apply dif_neg
    rintro ⟨hge, hle⟩
    have hge : 65 ≤ c.toNat := hge
    have hle : c.toNat ≤ 90 := hle
    omega

theorem Publishable.chars (h : Publishable rt name) :
    ∀ c ∈ name.toList, c.toNat < 128 ∧ c ≠ '.' ∧ c.toLower = c := by
  obtain ⟨t, ht, rfl⟩ := h
  unfold validateTldName at ht
  dsimp only at ht
  split at ht
  next => cases ht
  next =>
    split at ht
    next => cases ht
    next hm =>
      intro c hc
      exact label_char (matchesPattern_chars (by simpa using hm) c hc)

theorem Publishable.lower (h : Publishable rt name) : rt.lower name = name := by
  rw [rt.lower_ascii name fun c hc => (h.chars c hc).1, asciiLower, ← String.toList_inj,
    String.toList_ofList]
  refine (List.map_congr_left ?_).trans (List.map_id _)
  intro c hc
  exact (h.chars c hc).2.2

/-- The name of a published TLD is one label. -/
theorem Publishable.noDot (h : Publishable rt name) : '.' ∉ name.toList := by
  intro hc
  exact (h.chars '.' hc).2.1 rfl

/-- The resolver reads the name of an entry, which starts with a dot, as it is stored. -/
theorem Publishable.lstrip (h : Publishable rt name) :
    rt.lower (Text.lstrip (· = '.') ("." ++ name)) = name := by
  have hstrip : Text.lstrip (· = '.') ("." ++ name) = name := by
    rw [← String.toList_inj, toList_lstrip, String.toList_append]
    cases hn : name.toList with
    | nil => rfl
    | cons c cs =>
      have hc : c ≠ '.' := (h.chars c (by simp [hn])).2.1
      simp [hc]
  rw [hstrip, h.lower]

end TLDManager

end PyMesh
