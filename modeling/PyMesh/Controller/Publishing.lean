import PyMesh.Controller.Registry

/-! What the publications of TLDs leave in the table, and the registry page of every spelling of a
published name. -/
namespace PyMesh

open Relational Resumption Text

namespace Runtime

/-- `str.lower` makes no text end in a newline that does not. -/
def LowerKeepsEnd (rt : Runtime) : Prop :=
  ∀ s : String, (rt.lower s).toList.getLast? = some '\n' → s.toList.getLast? = some '\n'

end Runtime

namespace TLDManager

variable {rt : Runtime} {name tldInput : String}

theorem validate_matches (h : validateTldName rt tldInput = true) :
    matchesPattern (cleanTld rt tldInput) = true := by
  unfold validateTldName at h
  dsimp only at h
  split at h
  · cases h
  · split at h
    · cases h
    · rename_i hm
      simpa using hm

/-- What `strip` leaves has no blank at the end, and no lower case letter is a newline. -/
theorem getLast?_cleanTld (hlower : rt.LowerKeepsEnd) (tldInput : String) :
    (cleanTld rt tldInput).toList.getLast? ≠ some '\n' := by
  intro h
  have hend := hlower _ h
  have hne : (strip isSpace (lstrip (· = '.') tldInput)).toList ≠ [] := by
    intro hnil
    rw [hnil] at hend
    cases hend
  have hspace := getLast_strip hne
  rw [(List.getLast_eq_iff_getLast?_eq_some hne).mpr hend] at hspace
  exact hspace (by decide)

/-- The letters of a name that is accepted. -/
theorem validate_chars (hlower : rt.LowerKeepsEnd) (h : validateTldName rt tldInput = true) :
    ∀ c ∈ (cleanTld rt tldInput).toList, isAlnum c = true ∨ c = '-' := by
  have hlabel := matchesPattern_label (validate_matches h)
  rwa [if_neg (getLast?_cleanTld hlower tldInput)] at hlabel

theorem isSpace_of_label {c : Char} (h : isAlnum c = true ∨ c = '-') : isSpace c = false := by
  have hcases : ((97 ≤ c.toNat ∧ c.toNat ≤ 122) ∨ (48 ≤ c.toNat ∧ c.toNat ≤ 57)) ∨
      c.toNat = 45 := by
    rcases h with h | rfl
    · exact Or.inl (isAlnum_iff.mp h)
    · exact Or.inr rfl
  simp only [isSpace, Bool.or_eq_false_iff, Bool.and_eq_false_iff, decide_eq_false_iff_not]
  omega

/-- What is accepted is left as it is when it is cleaned again. -/
theorem cleanTld_cleanTld (hlower : rt.LowerKeepsEnd) (h : validateTldName rt tldInput = true) :
    cleanTld rt (cleanTld rt tldInput) = cleanTld rt tldInput := by
  have hpub : Publishable rt (cleanTld rt tldInput) := ⟨tldInput, h, rfl⟩
  have hdot : ∀ c ∈ (cleanTld rt tldInput).toList, decide (c = '.') = false := fun c hc =>
    decide_eq_false (hpub.chars c hc).2.1
  have hspace : ∀ c ∈ (cleanTld rt tldInput).toList, isSpace c = false := fun c hc =>
    isSpace_of_label (validate_chars hlower h c hc)
  have hl : lstrip (· = '.') (cleanTld rt tldInput) = cleanTld rt tldInput := by
    rw [← String.toList_inj, toList_lstrip, dropWhile_of_forall hdot]
  have hs : strip isSpace (cleanTld rt tldInput) = cleanTld rt tldInput := by
    rw [← String.toList_inj, toList_strip, rdropWhile_of_forall hspace, dropWhile_of_forall hspace]
  have hc : cleanTld rt (cleanTld rt tldInput) =
      rt.lower (strip isSpace (lstrip (· = '.') (cleanTld rt tldInput))) := rfl
  rw [hc, hl, hs, hpub.lower]

theorem validate_cleanTld (hlower : rt.LowerKeepsEnd) (h : validateTldName rt tldInput = true) :
    validateTldName rt (cleanTld rt tldInput) = true := by
  have hclean := cleanTld_cleanTld hlower h
  unfold validateTldName at h ⊢
  rwa [hclean]

end TLDManager

/-- A request to `POST /tld/publish`. -/
structure Publication where
  name : String
  description : String
  publisherInfo : String
deriving DecidableEq

namespace Publication

/-- The table after a publication. -/
def publish (rt : Runtime) (t : Table TLDRegistry) (p : Publication) : Table TLDRegistry :=
  ((Api.publishTld rt p.name p.description p.publisherInfo).run t).2

/-- The table after publications into an empty one. -/
def publishAll (rt : Runtime) (ps : List Publication) : Table TLDRegistry :=
  ps.foldl (publish rt) .empty

/-- The publication is accepted, and is about the TLD `name`. -/
def Names (rt : Runtime) (p : Publication) (name : String) : Prop :=
  TLDManager.validateTldName rt p.name = true ∧ TLDManager.cleanTld rt p.name = name

instance (rt : Runtime) (p : Publication) (name : String) : Decidable (Names rt p name) :=
  instDecidableAnd

/-- The latest publication about the TLD `name`. -/
def latest (rt : Runtime) (ps : List Publication) (name : String) : Option Publication :=
  ps.reverse.find? fun p => Names rt p name

/-- What a publication writes into the row of its TLD. -/
def written (p : Publication) (name : String) : Option TLDRegistry → TLDRegistry
  | none => Api.tldEntry name p.description p.publisherInfo
  | some row => { row with description := p.description, publisherInfo := p.publisherInfo }

variable {rt : Runtime} {t : Table TLDRegistry} {p : Publication} {ps : List Publication}
  {name : String}

theorem updateTld_ok {row : TLDRegistry} {f : TLDRegistry → TLDRegistry}
    (h : t.find name = some row) (hf : ∀ r, (f r).name = r.name) :
    ∃ t' : Table TLDRegistry, (t'.rows = t.rows.map fun r => if r.name = name then f r else r) ∧
      Api.updateTld name f t = .ok t' := by
  have hc : ∀ a b : TLDRegistry, Row.Clash (f a) b → Row.Clash a b :=
    fun a b h => (hf a).symm.trans h
  obtain ⟨t', ht'⟩ := Option.isSome_iff_exists.mp (Table.update_isSome (t := t) (k := name) hc)
  exact ⟨t', Table.update_eq_some_iff.mp ht', by simp [Api.updateTld, h, ht']⟩

/-- The UPDATE of the row that was read sets both columns, changed or not. -/
theorem describe_self (row : TLDRegistry) (description publisherInfo : String) :
    Api.describe row description publisherInfo row =
      { row with description := description, publisherInfo := publisherInfo } := by
  have hif : ∀ a b : String, (if a = b then b else a) = a := by
    intro a b
    split
    · rename_i h; exact h.symm
    · rfl
  simp only [Api.describe, hif]

/-- A publication whose name is valid is accepted, and writes the row of its TLD and no other. -/
theorem run_publishTld (hv : TLDManager.validateTldName rt p.name = true) : ∃ res t',
    (Api.publishTld rt p.name p.description p.publisherInfo).run t = (.ok res, t') ∧
      ∀ name, t'.find name = if TLDManager.cleanTld rt p.name = name then
        some (p.written name (t.find name)) else t.find name := by
  unfold Api.publishTld
  simp only [hv, Bool.not_true, Bool.false_eq_true, if_false, Prog.pure_eq, Prog.run_read_bind]
  cases hf : t.find (TLDManager.cleanTld rt p.name) with
  | none =>
    have hkey : Row.key (Api.tldEntry (TLDManager.cleanTld rt p.name) p.description
      p.publisherInfo) = TLDManager.cleanTld rt p.name := rfl
    rcases Database.checked_insert_cases t (Api.tldEntry (TLDManager.cleanTld rt p.name)
      p.description p.publisherInfo) with ⟨-, t', hrows, hok⟩ | ⟨⟨a, ha, hc⟩, -⟩
    · refine ⟨_, t', by rw [Prog.run_commit_ok hok, Prog.run_ret], fun name => ?_⟩
      rw [Table.find_append hrows, hkey]
      by_cases hn : TLDManager.cleanTld rt p.name = name
      · subst hn
        rw [hf, if_pos rfl, if_pos rfl]
        rfl
      · rw [if_neg hn, if_neg hn, Option.or_none]
    · exact (Table.find_eq_none_iff.mp hf a ha hc).elim
  | some row =>
    obtain ⟨t', hrows, hok⟩ := updateTld_ok
      (f := Api.describe row p.description p.publisherInfo) hf fun _ => rfl
    refine ⟨_, t', by rw [Prog.run_commit_ok hok, Prog.run_ret], fun name => ?_⟩
    rw [Table.find_rewritten hrows fun _ => rfl]
    by_cases hn : TLDManager.cleanTld rt p.name = name
    · subst hn
      rw [if_pos rfl, if_pos rfl, hf, Option.map_some, describe_self]
      rfl
    · rw [if_neg hn, if_neg hn]

theorem find_publish : (publish rt t p).find name =
    if Names rt p name then some (p.written name (t.find name)) else t.find name := by
  by_cases hv : TLDManager.validateTldName rt p.name = true
  · obtain ⟨res, t', hrun, hfind⟩ := run_publishTld (t := t) hv
    have hnames : Names rt p name ↔ TLDManager.cleanTld rt p.name = name := and_iff_right hv
    rw [publish, hrun]
    simp only [hnames, hfind]
  · have hnames : ¬ Names rt p name := fun h => hv h.1
    rw [Bool.not_eq_true] at hv
    rw [if_neg hnames, publish]
    unfold Api.publishTld
    simp only [hv, Bool.not_false, if_true]
    rfl

/-- A publication is accepted exactly when its name is valid. -/
theorem accepted_iff_valid :
    (∃ res, ((Api.publishTld rt p.name p.description p.publisherInfo).run t).1 = .ok res) ↔
      TLDManager.validateTldName rt p.name = true := by
  constructor
  · rintro ⟨res, h⟩
    by_contra hv
    rw [Bool.not_eq_true] at hv
    unfold Api.publishTld at h
    simp only [hv, Bool.not_false, if_true] at h
    cases h
  · intro hv
    obtain ⟨res, t', hrun, -⟩ := run_publishTld (t := t) hv
    exact ⟨res, by rw [hrun]⟩

theorem latest_concat : latest rt (ps ++ [p]) name =
    if Names rt p name then some p else latest rt ps name := by
  unfold latest
  rw [List.reverse_append, List.reverse_singleton, List.singleton_append, List.find?_cons]
  by_cases h : Names rt p name <;> simp [h]

/-- The row of a TLD is that of the latest publication about it. -/
theorem find_publishAll (rt : Runtime) (ps : List Publication) (name : String) :
    (publishAll rt ps).find name = (latest rt ps name).map fun p =>
      Api.tldEntry name p.description p.publisherInfo := by
  induction ps using List.reverseRecOn with
  | nil => rfl
  | append_singleton ps p ih =>
    have hstep : publishAll rt (ps ++ [p]) = publish rt (publishAll rt ps) p := by
      simp [publishAll]
    rw [hstep, find_publish, latest_concat, ih]
    by_cases h : Names rt p name
    · rw [if_pos h, if_pos h]
      cases latest rt ps name <;> rfl
    · rw [if_neg h, if_neg h]

theorem latest_isSome_iff : (latest rt ps name).isSome ↔ ∃ p ∈ ps, Names rt p name := by
  simp [latest]

theorem mem_published_iff (rt : Runtime) (ps : List Publication) (name : String) :
    name ∈ published (publishAll rt ps) ↔ ∃ p ∈ ps, Names rt p name := by
  have hmem : ∀ t : Table TLDRegistry, name ∈ published t ↔ (t.find name).isSome := by
    intro t
    simp only [published, List.mem_map, Option.isSome_iff_exists, Table.find_eq_some_iff]
    rfl
  rw [hmem, find_publishAll, Option.isSome_map, latest_isSome_iff]

/-- The page of a TLD, by what its row says. -/
theorem run_registryTldPage (rt : Runtime) (order : RowOrder NodeModel) (tldName : String)
    (w : Controller) : (registryTldPage rt order tldName).run w =
      (.ok (TLDManager.renderRegistryHtml rt (TLDManager.cleanTld rt tldName)
        (((w.tlds.find (TLDManager.cleanTld rt tldName)).map TLDRegistry.publisherInfo).getD
          ("Official ." ++ TLDManager.cleanTld rt tldName ++ " TLD Registry"))
        (order.arrange w.db.nodes.rows)), w) := by
  simp only [registryTldPage, Prog.run_read_bind]
  cases w.tlds.find (TLDManager.cleanTld rt tldName) <;> rfl

/-- After any publications there is one row for each TLD whose name was accepted, under a name that
is valid and clean itself; and the page of every valid spelling shows the row of the latest
publication about that TLD, if there was one. -/
theorem published_tlds (hlower : rt.LowerKeepsEnd) (ps : List Publication) :
    (published (publishAll rt ps)).Nodup ∧
    (∀ name, name ∈ published (publishAll rt ps) ↔ ∃ p ∈ ps, Names rt p name) ∧
    (∀ name ∈ published (publishAll rt ps),
      TLDManager.validateTldName rt name = true ∧ TLDManager.cleanTld rt name = name) ∧
    ∀ x, TLDManager.validateTldName rt x = true →
      (((publishAll rt ps).find (TLDManager.cleanTld rt x)).isSome ↔
        ∃ p ∈ ps, Names rt p (TLDManager.cleanTld rt x)) ∧
      ((publishAll rt ps).find (TLDManager.cleanTld rt x) =
        (latest rt ps (TLDManager.cleanTld rt x)).map fun p =>
          Api.tldEntry (TLDManager.cleanTld rt x) p.description p.publisherInfo) ∧
      ∀ order db, ∃ page,
        (registryTldPage rt order x).run ⟨db, publishAll rt ps⟩ = (.ok page, ⟨db, publishAll rt ps⟩) ∧
        page.clean = TLDManager.cleanTld rt x ∧
        page.publisherDetails = ((latest rt ps (TLDManager.cleanTld rt x)).map
          Publication.publisherInfo).getD
            ("Official ." ++ TLDManager.cleanTld rt x ++ " TLD Registry") := by
  refine ⟨(publishAll rt ps).keys_nodup, mem_published_iff rt ps, ?_, fun x hx => ⟨?_, ?_, ?_⟩⟩
  · intro name hname
    obtain ⟨p, -, hv, rfl⟩ := (mem_published_iff rt ps name).mp hname
    exact ⟨TLDManager.validate_cleanTld hlower hv, TLDManager.cleanTld_cleanTld hlower hv⟩
  · rw [find_publishAll, Option.isSome_map, latest_isSome_iff]
  · exact find_publishAll rt ps _
  · intro order db
    refine ⟨_, run_registryTldPage rt order x _, TLDManager.cleanTld_cleanTld hlower hx, ?_⟩
    simp only [find_publishAll, TLDManager.renderRegistryHtml]
    cases latest rt ps (TLDManager.cleanTld rt x) <;> rfl

theorem lowerKeepsEnd_ascii : Runtime.ascii.LowerKeepsEnd := by
  have hnl : ∀ c : Char, c.toLower = '\n' → c = '\n' := by
    intro c h
    unfold Char.toLower at h
    split at h
    · rename_i hc
      have hval : (c.val + 32).toNat = 10 := congrArg (fun d : Char => d.val.toNat) h
      have hge : 65 ≤ c.val.toNat := hc.1
      have hle : c.val.toNat ≤ 90 := hc.2
      rw [UInt32.toNat_add] at hval
      have h32 : (32 : UInt32).toNat = 32 := rfl
      omega
    · exact h
  intro s h
  have hlast : (s.toList.map Char.toLower).getLast? = some '\n' := by
    simpa [Runtime.ascii, asciiLower] using h
  rw [List.getLast?_map, Option.map_eq_some_iff] at hlast
  obtain ⟨c, hc, hcl⟩ := hlast
  rw [hc, hnl c hcl]

/-- Two spellings of one name; the second publication is the one that a third spelling finds. -/
theorem published_tlds_mesh :
    let ps : List Publication := [⟨"..Mesh ", "first", "A"⟩, ⟨" MESH", "second", "B"⟩,
      ⟨"com", "third", "C"⟩]
    published (publishAll Runtime.ascii ps) = ["mesh"] ∧
    (publishAll Runtime.ascii ps).find (TLDManager.cleanTld Runtime.ascii "mesh\n") =
      some (Api.tldEntry "mesh" "second" "B") := by
  refine ⟨by decide +kernel, ?_⟩
  rw [((published_tlds lowerKeepsEnd_ascii _).2.2.2 "mesh\n" (by decide +kernel)).2.1]
  decide +kernel

end Publication

end PyMesh
