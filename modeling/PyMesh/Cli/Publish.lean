import PyMesh.Library.UrlQuery
import PyMesh.Controller.Publishing

/-! `pymesh tld publish`: the URL that it posts to, and the row that the controller writes then. -/
namespace PyMesh

open Relational Text UrlQuery

/-- `str.lower` keeps the characters that mean something in a query: none of them is a letter. -/
def Runtime.LowerKeepsDelimiters (rt : Runtime) : Prop :=
  ∀ s : String, ∀ c ∈ ['&', '#', '+', '%'], c ∈ s.toList → c ∈ (rt.lower s).toList

/-- The URL that a node has joined a controller at. Requests to paths below it were answered, so
it has neither a query nor a fragment. -/
structure ControllerUrl where
  url : String
  base : ∀ c ∈ ['?', '#'], c ∉ url.toList

namespace Api

/-- The arguments that FastAPI reads from a query for `publish_tld`; `none` when `name`, which has
no default, is missing. -/
def publication (queryString : List Char) : Option Publication :=
  let params := parseQsl queryString
  (lookup params "name").map fun name =>
    { name := name
      description := (lookup params "description").getD "Official TLD"
      publisherInfo := (lookup params "publisher_info").getD "Primary CR Server" }

/-- The table after a request to `POST /tld/publish`. -/
def postPublish (rt : Runtime) (queryString : List Char) (t : Table TLDRegistry) :
    Table TLDRegistry :=
  match publication queryString with
  | none => t
  | some p => p.publish rt t

end Api

/-- The URL that `handle_tld_publish` posts to. -/
def publishUrl (controller : ControllerUrl) (name description info : String) : String :=
  rstrip (· = '/') controller.url ++ "/api/v1/tld/publish?name=" ++ name ++ "&description=" ++
    description ++ "&publisher_info=" ++ info

/-- The table of the controller after `handle_tld_publish`. -/
def handleTldPublish (rt : Runtime) (client : Client) (controllerUrl : Option ControllerUrl)
    (name description info : String) (t : Table TLDRegistry) : Table TLDRegistry :=
  match controllerUrl with
  | none => t
  | some controller =>
    Api.postPublish rt (query client (publishUrl controller name description info)) t

/-- What the row of a TLD says of it. -/
def described (t : Table TLDRegistry) (name : String) : Option (String × String) :=
  (t.find name).map fun row => (row.description, row.publisherInfo)

variable {rt : Runtime} {client : Client} {controller : ControllerUrl}
  {name description info : String} {t : Table TLDRegistry}

/-- An accepted name has none of the characters that mean something in a query. -/
theorem accepted_chars (hlower : rt.LowerKeepsDelimiters)
    (hname : TLDManager.validateTldName rt name = true) :
    ∀ c ∈ ['&', '#', '+', '%'], c ∉ name.toList := by
  intro c hc hmem
  have hspecial : c ≠ '.' ∧ isSpace c = false ∧
      ¬(TLDManager.isAlnum c = true ∨ c = '-' ∨ c = '\n') := by
    simp only [List.mem_cons, List.not_mem_nil, or_false] at hc
    rcases hc with rfl | rfl | rfl | rfl <;> decide
  obtain ⟨hdot, hspace, hlabel⟩ := hspecial
  have hstrip : c ∈ (strip isSpace (lstrip (· = '.') name)).toList :=
    mem_strip hspace (mem_lstrip (decide_eq_false hdot) hmem)
  exact hlabel (TLDManager.matchesPattern_chars (TLDManager.validate_matches hname) c
    (hlower _ c hc hstrip))

theorem accepted_verbatim (hlower : rt.LowerKeepsDelimiters)
    (hname : TLDManager.validateTldName rt name = true) : Verbatim name.toList := by
  have hchars := accepted_chars hlower hname
  refine ⟨hchars '&' (by simp), hchars '#' (by simp), hchars '+' (by simp), ?_⟩
  rintro ⟨x, y, -, -, h⟩
  exact hchars '%' (by simp) (h.subset List.mem_cons_self)

theorem key_name : Key "name" := by decide

theorem key_description : Key "description" := by decide

theorem key_publisherInfo : Key "publisher_info" := by decide

/-- The fields of the form, as they stand in the URL. -/
def publishForm (name description info : List Char) : List Char :=
  ("name".toList ++ '=' :: name) ++ '&' ::
    (("description".toList ++ '=' :: description) ++ '&' ::
      ("publisher_info".toList ++ '=' :: info))

theorem toList_publishUrl (controller : ControllerUrl) (name description info : String) :
    (publishUrl controller name description info).toList =
      (rstrip (· = '/') controller.url ++ "/api/v1/tld/publish").toList ++
        '?' :: publishForm name.toList description.toList info.toList := by
  simp [publishUrl, publishForm]

/-- What the server reads of the request: the three fields, as far as no fragment cuts them off. -/
theorem parseQsl_publishUrl (client : Client) (controller : ControllerUrl)
    (name description info : String) :
    parseQsl (query client (publishUrl controller name description info)) =
      parseQsl ((publishForm name.toList description.toList info.toList).takeWhile (· ≠ '#')) := by
  have hbase : ∀ c ∈ ['?', '#'],
      c ∉ (rstrip (· = '/') controller.url ++ "/api/v1/tld/publish").toList := by
    intro c hc h
    rw [String.toList_append, List.mem_append, toList_rstrip] at h
    rcases h with h | h
    · exact controller.base c hc ((List.rdropWhile_prefix _ _).subset h)
    · simp only [List.mem_cons, List.not_mem_nil, or_false] at hc
      rcases hc with rfl | rfl <;> exact absurd h (by decide)
  rw [query, parseQsl_quote, toList_publishUrl, takeWhile_ne_append (hbase '#' (by simp)),
    List.takeWhile_cons_of_pos (p := fun c => decide (c ≠ '#')) rfl,
    dropWhile_ne (hbase '?' (by simp))]
  rfl

variable {n d i : List Char}

theorem parseQsl_form (n d i : List Char) : parseQsl (publishForm n d i) =
    parseQsl ("name".toList ++ '=' :: n) ++ (parseQsl ("description".toList ++ '=' :: d) ++
      parseQsl ("publisher_info".toList ++ '=' :: i)) := by
  rw [publishForm, parseQsl_append, parseQsl_append]

/-- A fragment in the last field cuts off that one only. -/
theorem takeWhile_form (hn : '#' ∉ n) (hd : '#' ∉ d) :
    (publishForm n d i).takeWhile (· ≠ '#') = publishForm n d (i.takeWhile (· ≠ '#')) := by
  have hn' := key_name.notMem_field (by decide : '#' ∈ ['&', '#']) hn
  have hd' := key_description.notMem_field (by decide : '#' ∈ ['&', '#']) hd
  rw [publishForm, takeWhile_ne_append hn',
    List.takeWhile_cons_of_pos (p := fun c => decide (c ≠ '#')) rfl, takeWhile_ne_append hd',
    List.takeWhile_cons_of_pos (p := fun c => decide (c ≠ '#')) rfl,
    key_publisherInfo.takeWhile_field]
  rfl

/-- A fragment in the description cuts off the field that comes after it, too. -/
theorem takeWhile_form_description (hn : '#' ∉ n) (hd : '#' ∈ d) :
    (publishForm n d i).takeWhile (· ≠ '#') = ("name".toList ++ '=' :: n) ++ '&' ::
      ("description".toList ++ '=' :: d.takeWhile (· ≠ '#')) := by
  obtain ⟨a, b, rfl, ha⟩ := List.eq_append_cons_of_mem hd
  have hn' := key_name.notMem_field (by decide : '#' ∈ ['&', '#']) hn
  have ha' := key_description.notMem_field (by decide : '#' ∈ ['&', '#']) ha
  have hform : ∀ x : List Char, "description".toList ++ '=' :: (a ++ '#' :: b) ++ x =
      ("description".toList ++ '=' :: a) ++ '#' :: (b ++ x) := by simp
  rw [publishForm, takeWhile_ne_append hn',
    List.takeWhile_cons_of_pos (p := fun c => decide (c ≠ '#')) rfl, hform, takeWhile_ne ha',
    takeWhile_ne ha]

/-- The request carries the three texts to the server when they are verbatim. -/
theorem publication_of_verbatim (hn : Verbatim name.toList) (hd : Verbatim description.toList)
    (hi : Verbatim info.toList) :
    Api.publication (query client (publishUrl controller name description info)) =
      some ⟨name, description, info⟩ := by
  have hother : ∀ {key key' : String} {s : List Char}, Key key → Verbatim s → key ≠ key' →
      lookup (parseQsl (key.toList ++ '=' :: s)) key' = none := fun hk hs hne =>
    lookup_other hk hs.1 hne
  unfold Api.publication
  rw [parseQsl_publishUrl, takeWhile_form hn.2.1 hd.2.1, takeWhile_ne_of_notMem hi.2.1,
    parseQsl_form]
  simp only [lookup_append, lookup_verbatim key_name hn, lookup_verbatim key_description hd,
    lookup_verbatim key_publisherInfo hi, hother key_name hn (by decide : "name" ≠ "description"),
    hother key_name hn (by decide : "name" ≠ "publisher_info"),
    hother key_description hd (by decide : "description" ≠ "name"),
    hother key_description hd (by decide : "description" ≠ "publisher_info"),
    hother key_publisherInfo hi (by decide : "publisher_info" ≠ "name"),
    hother key_publisherInfo hi (by decide : "publisher_info" ≠ "description"),
    Option.or_none, Option.none_or, Option.map_some, Option.getD_some, String.ofList_toList]

/-- Nothing else comes out of the request as it was put into it. -/
theorem verbatim_of_publication {p : Publication} (hn : Verbatim name.toList)
    (hp : Api.publication (query client (publishUrl controller name description info)) = some p)
    (hd : p.description = description) (hi : p.publisherInfo = info) :
    Verbatim description.toList ∧ Verbatim info.toList := by
  unfold Api.publication at hp
  rw [parseQsl_publishUrl, Option.map_eq_some_iff] at hp
  obtain ⟨name', -, rfl⟩ := hp
  dsimp only at hd hi
  obtain ⟨v, hv, hverbatim⟩ := lookup_cut key_description description.toList
  by_cases hfragment : '#' ∈ description.toList
  · -- The description is cut off at the fragment.
    rw [takeWhile_form_description hn.2.1 hfragment, parseQsl_append, lookup_append, hv,
      Option.some_or, Option.getD_some] at hd
    exact ((hverbatim (congrArg String.toList hd)).2.1 hfragment).elim
  · rw [takeWhile_form hn.2.1 hfragment, parseQsl_form] at hd hi
    obtain ⟨w, hw, hverbatim'⟩ := lookup_cut key_publisherInfo info.toList
    rw [lookup_append, lookup_append, hw, Option.some_or, Option.some_or, Option.getD_some] at hi
    have hinfo : Verbatim info.toList := hverbatim' (congrArg String.toList hi)
    -- The field of the publisher says nothing of the description then.
    have hnone : lookup (parseQsl ("publisher_info".toList ++ '=' :: info.toList))
        "description" = none := lookup_other key_publisherInfo hinfo.1 (by decide)
    rw [takeWhile_ne_of_notMem hfragment] at hv
    rw [takeWhile_ne_of_notMem hinfo.2.1, lookup_append, lookup_append, hnone, Option.none_or, hv,
      Option.some_or, Option.getD_some] at hd
    exact ⟨hverbatim (congrArg String.toList hd), hinfo⟩

theorem described_publish (p : Publication) : described (p.publish rt t) name =
    if p.Names rt name then some (p.description, p.publisherInfo) else described t name := by
  rw [described, Publication.find_publish]
  by_cases hp : p.Names rt name
  · rw [if_pos hp, if_pos hp]
    cases t.find name <;> rfl
  · rw [if_neg hp, if_neg hp]
    rfl

theorem described_of_verbatim (hlower : rt.LowerKeepsDelimiters)
    (hname : TLDManager.validateTldName rt name = true) (hd : Verbatim description.toList)
    (hi : Verbatim info.toList) :
    described (handleTldPublish rt client (some controller) name description info t)
      (TLDManager.cleanTld rt name) = some (description, info) := by
  have hpost : handleTldPublish rt client (some controller) name description info t =
      Publication.publish rt t ⟨name, description, info⟩ := by
    rw [handleTldPublish, Api.postPublish,
      publication_of_verbatim (accepted_verbatim hlower hname) hd hi]
  have hnames : Publication.Names rt ⟨name, description, info⟩ (TLDManager.cleanTld rt name) :=
    ⟨hname, rfl⟩
  rw [hpost, described_publish, if_pos hnames]

/-- A row that does not say so already is only made to by a request that carries the texts. -/
theorem verbatim_of_described (hn : Verbatim name.toList) {tld : String}
    (ht : described t tld ≠ some (description, info))
    (h : described (handleTldPublish rt client (some controller) name description info t) tld =
      some (description, info)) :
    Verbatim description.toList ∧ Verbatim info.toList := by
  rw [handleTldPublish, Api.postPublish] at h
  cases hp : Api.publication (query client (publishUrl controller name description info)) with
  | none =>
    rw [hp] at h
    exact (ht h).elim
  | some p =>
    rw [hp] at h
    dsimp only at h
    rw [described_publish] at h
    split at h
    · obtain ⟨hd, hi⟩ := Prod.mk.inj (Option.some.inj h)
      exact verbatim_of_publication hn hp hd hi
    · exact (ht h).elim

/-- The server parses the request for an accepted name back into the texts that it was made from,
and the row of the TLD ends up with them in every table, exactly when neither the description nor
the publisher's details have a character in them that means something in a query. -/
theorem published_texts_iff (hlower : rt.LowerKeepsDelimiters) (client : Client)
    (controller : ControllerUrl) (name description info : String)
    (hname : TLDManager.validateTldName rt name = true) :
    (Api.publication (query client (publishUrl controller name description info)) =
      some ⟨name, description, info⟩ ↔ Verbatim description.toList ∧ Verbatim info.toList) ∧
    ((∀ t, described (handleTldPublish rt client (some controller) name description info t)
        (TLDManager.cleanTld rt name) = some (description, info)) ↔
      Verbatim description.toList ∧ Verbatim info.toList) ∧
    ∀ t, described t (TLDManager.cleanTld rt name) ≠ some (description, info) →
      (described (handleTldPublish rt client (some controller) name description info t)
          (TLDManager.cleanTld rt name) = some (description, info) ↔
        Verbatim description.toList ∧ Verbatim info.toList) := by
  have hn := accepted_verbatim hlower hname
  refine ⟨⟨?_, ?_⟩, ⟨?_, ?_⟩, ?_⟩
  · intro h
    exact verbatim_of_publication hn h rfl rfl
  · rintro ⟨hd, hi⟩
    exact publication_of_verbatim hn hd hi
  · intro h
    have hempty : described .empty (TLDManager.cleanTld rt name) ≠ some (description, info) := by
      intro he
      cases he
    exact verbatim_of_described hn hempty (h .empty)
  · rintro ⟨hd, hi⟩ t
    exact described_of_verbatim hlower hname hd hi
  · intro t ht
    exact ⟨verbatim_of_described hn ht, fun h => described_of_verbatim hlower hname h.1 h.2⟩

/-- A client that leaves what may stand in a query as it is: the printable ASCII characters, less
some. -/
def standardClient : Client where
  safe c := 0x20 < c.toNat && c.toNat < 0x7f && decide (c ∉ ['"', '#', '%', '<', '>'])
  delimiters := by
    intro c hc
    simp only [List.mem_cons, List.not_mem_nil, or_false] at hc
    rcases hc with rfl | rfl | rfl <;> rfl
  ascii := by
    intro c hc
    simp only [Bool.and_eq_true, decide_eq_true_eq] at hc
    omega

theorem lowerKeepsDelimiters_ascii : Runtime.ascii.LowerKeepsDelimiters := by
  intro s c hc h
  have hc' : c.toLower = c := by
    simp only [List.mem_cons, List.not_mem_nil, or_false] at hc
    rcases hc with rfl | rfl | rfl | rfl <;> decide
  have hmem := List.mem_map_of_mem (f := Char.toLower) h
  rw [hc', ← toList_asciiLower] at hmem
  exact hmem

/-- The controller at an address of its own. -/
def exampleController : ControllerUrl where
  url := "http://10.0.0.1:8000/"
  base := by
    intro c hc
    simp only [List.mem_cons, List.not_mem_nil, or_false] at hc
    rcases hc with rfl | rfl <;> decide

/-- A space, a percent sign and a letter beyond ASCII arrive as they are. -/
theorem published_texts_iff_mesh :
    described (handleTldPublish .ascii standardClient (some exampleController) ".Mesh"
      "Official TLD" "Primary CR Server, 100% caf\u00e9" .empty) "mesh" =
        some ("Official TLD", "Primary CR Server, 100% caf\u00e9") :=
  ((published_texts_iff lowerKeepsDelimiters_ascii standardClient exampleController ".Mesh"
    "Official TLD" "Primary CR Server, 100% caf\u00e9" (by decide +kernel)).2.1.mpr
      ⟨by decide +kernel, by decide +kernel⟩) .empty

/-- A TLD that is published as `R&D (C++)` is described as `R` in its row. -/
theorem published_texts_fail :
    TLDManager.validateTldName .ascii "mesh" = true ∧
    described (handleTldPublish .ascii standardClient (some exampleController) "mesh"
      "R&D (C++)" "Primary CR Server" .empty) "mesh" = some ("R", "Primary CR Server") :=
  ⟨by decide +kernel, by decide +kernel⟩

end PyMesh
