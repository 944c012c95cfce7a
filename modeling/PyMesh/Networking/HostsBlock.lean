import PyMesh.Ipaddress.Parse
import PyMesh.Library.Words
import PyMesh.Networking.HostsLines

/-! What the block that a sync has written means to those who read the hosts file. -/
namespace PyMesh.HostsManager

open Text

/-- What is between the fields of a line. -/
def isSeparator (c : Char) : Bool := c = ' ' || (9 ≤ c.toNat && c.toNat ≤ 13)

/-- The fields of a line of a hosts file, where a `#` begins a comment. -/
def fields (l : List Char) : List (List Char) :=
  Words.words isSeparator (l.takeWhile (· ≠ '#'))

/-- The names of a line, each with the address in front of them. -/
def bindings (l : List Char) : List (List Char × List Char) :=
  match fields l with
  | [] => []
  | ip :: names => names.map fun name => (name, ip)

def isAddressChar (c : Char) : Bool :=
  ('0' ≤ c && c ≤ '9') || ('a' ≤ c && c ≤ 'f') || ('A' ≤ c && c ≤ 'F') || c = ':' || c = '.'

/-- A literal IP address. -/
def IsAddress (s : List Char) : Prop :=
  (∀ c ∈ s, isAddressChar c = true) ∧
    ((IPv4Address.parse (String.ofList s)).isSome ∨ (IPv6Address.parse (String.ofList s)).isSome)

instance (s : List Char) : Decidable (IsAddress s) :=
  haveI : Decidable (∀ c ∈ s, isAddressChar c = true) := List.decidableBAll _ s
  instDecidableAnd

/-- A name that is one field. -/
def IsName (s : List Char) : Prop := s ≠ [] ∧ ∀ c ∈ s, isSeparator c = false ∧ c ≠ '#'

instance (s : List Char) : Decidable (IsName s) :=
  haveI : Decidable (∀ c ∈ s, isSeparator c = false ∧ c ≠ '#') := List.decidableBAll _ s
  instDecidableAnd

/-- The lines bind the names as stated, each name to one address, and every first field is a
literal address. -/
structure Reads (E : String → String → Prop) (ls : List (List Char)) : Prop where
  bound : ∀ name ip, (name.toList, ip.toList) ∈ ls.flatMap bindings ↔ E name ip
  one : ∀ name ip ip', (name, ip) ∈ ls.flatMap bindings → (name, ip') ∈ ls.flatMap bindings →
    ip = ip'
  address : ∀ l ∈ ls, ∀ ip ∈ (fields l).head?, IsAddress ip

/-- Neither marker occurs. -/
def Unmarked (s : List Char) : Prop := ¬ markers.start <:+: s ∧ ¬ markers.stop <:+: s

instance (s : List Char) : Decidable (Unmarked s) := inferInstanceAs (Decidable (_ ∧ _))

/-- The file has one block, without a marker anywhere else, and it is read as stated. -/
def Faithful (E : String → String → Prop) (raw : String) : Prop :=
  ∃ pre inner post,
    raw.toList.splitOn '\n' = pre ++ markers.start :: (inner ++ markers.stop :: post) ∧
    (∀ l ∈ pre, Unmarked l) ∧ (∀ l ∈ inner, Unmarked l) ∧ (∀ l ∈ post, Unmarked l) ∧ Reads E inner

/-- The bindings can be stated in a hosts file. -/
structure Bindable (E : String → String → Prop) : Prop where
  name : ∀ name ip, E name ip → IsName name.toList
  address : ∀ name ip, E name ip → IsAddress ip.toList
  one : ∀ name ip ip', E name ip → E name ip' → ip = ip'

/-- The whole text is unmarked, or it has a start marker at the beginning of a line, a stop marker
after it, and no marker before that or after the first stop marker that follows. -/
def Slot (content : List Char) : Prop :=
  Unmarked content ∨ ∃ x t u y, Sections.cut markers.start content = some (x, t) ∧
    Sections.cut markers.stop t = some (u, y) ∧ (x = [] ∨ x.getLast? = some '\n') ∧
      Unmarked x ∧ Unmarked y

variable {E : String → String → Prop} {ls bs : List (List Char)} {x y s l : List Char}
  {raw : String}

section Reading

theorem Reads.exists_line (h : Reads E ls) {name ip : String} (he : E name ip) :
    ∃ l ∈ ls, ∃ names, fields l = ip.toList :: names ∧ name.toList ∈ names := by
  obtain ⟨l, hl, hb⟩ := List.mem_flatMap.mp ((h.bound name ip).mpr he)
  unfold bindings at hb
  split at hb
  next => cases hb
  next ip' names hf =>
    obtain ⟨name', hn, hp⟩ := List.mem_map.mp hb
    obtain ⟨rfl, rfl⟩ := Prod.mk.inj hp
    exact ⟨l, hl, names, hf, hn⟩

/-- What can be read out of a hosts file can be stated in one. -/
theorem Reads.bindable (h : Reads E ls) : Bindable E := by
  refine ⟨?_, ?_, ?_⟩
  · intro name ip he
    obtain ⟨l, -, names, hf, hn⟩ := h.exists_line he
    have hw : name.toList ∈ fields l := hf ▸ List.mem_cons_of_mem _ hn
    obtain ⟨hne, hsep⟩ := Words.of_mem_words hw
    refine ⟨hne, fun c hc => ⟨hsep c hc, ?_⟩⟩
    have hmem : c ∈ l.takeWhile (· ≠ '#') := Words.mem_of_mem_words hw hc
    simpa using List.mem_takeWhile_imp hmem
  · intro name ip he
    obtain ⟨l, hl, names, hf, -⟩ := h.exists_line he
    exact h.address l hl ip.toList (by rw [hf]; rfl)
  · intro name ip ip' he he'
    have hip := h.one _ _ _ ((h.bound name ip).mpr he) ((h.bound name ip').mpr he')
    exact String.toList_inj.mp hip

theorem isSeparator_le {c : Char} (h : isSeparator c = true) : c.toNat ≤ 32 := by
  simp only [isSeparator, Bool.or_eq_true, Bool.and_eq_true, decide_eq_true_eq] at h
  rcases h with rfl | h
  · decide
  · omega

theorem le_of_isAddressChar {c : Char} (h : isAddressChar c = true) : 46 ≤ c.toNat := by
  have hle : ∀ a : Char, a ≤ c → a.toNat ≤ c.toNat := fun a h => h
  simp only [isAddressChar, Bool.or_eq_true, Bool.and_eq_true, decide_eq_true_eq] at h
  rcases h with (((⟨h, -⟩ | ⟨h, -⟩) | ⟨h, -⟩) | rfl) | rfl
  · exact Nat.le_trans (by decide) (hle '0' h)
  · exact Nat.le_trans (by decide) (hle 'a' h)
  · exact Nat.le_trans (by decide) (hle 'A' h)
  · decide
  · decide

/-- An address is one field. -/
theorem IsAddress.isName (h : IsAddress s) : IsName s := by
  obtain ⟨hchars, hparse⟩ := h
  refine ⟨?_, fun c hc => ?_⟩
  · rintro rfl
    revert hparse
    decide
  · have hle := le_of_isAddressChar (hchars c hc)
    constructor
    · by_contra hsep
      have hsep' := isSeparator_le (by simpa using hsep)
      omega
    · rintro rfl
      revert hle
      decide

end Reading

section Entries

variable {m : List (String × List String)} {ip : List Char} {names : List (List Char)}

/-- The line of a group. -/
def entry (ip : List Char) (names : List (List Char)) : List Char :=
  ip ++ '\t' :: [' '].intercalate names

/-- The groups that get a line, as texts. -/
def groups (m : List (String × List String)) : List (List Char × List (List Char)) :=
  (m.filter fun g => uniqueDomains g.2 ≠ []).map fun g =>
    (g.1.toList, (uniqueDomains g.2).map String.toList)

def entries (m : List (String × List String)) : List (List Char) :=
  (groups m).map fun g => entry g.1 g.2

theorem map_pymeshLines (m : List (String × List String)) :
    (pymeshLines m).map String.toList = markers.start :: (entries m ++ [markers.stop]) := by
  have hentries : (entryLines m).map String.toList = entries m := by
    simp only [entryLines, entries, groups, List.map_map]
    refine List.map_congr_left fun g _ => ?_
    simp only [Function.comp, entry, String.toList_append, toList_join]
    rw [List.append_assoc]
    rfl
  rw [pymeshLines, List.map_cons, List.map_append, hentries]
  rfl

theorem mem_entry {c : Char} (h : c ∈ entry ip names) :
    c ∈ ip ∨ c = '\t' ∨ c = ' ' ∨ ∃ name ∈ names, c ∈ name := by
  rcases List.mem_append.mp h with h | h
  · exact Or.inl h
  · rcases List.mem_cons.mp h with h | h
    · exact Or.inr (Or.inl h)
    · exact Or.inr (Or.inr (Words.mem_intercalate h))

theorem notMem_entry (hip : IsName ip) (hnames : ∀ name ∈ names, IsName name) :
    '#' ∉ entry ip names ∧ '\n' ∉ entry ip names := by
  constructor
  · intro h
    rcases mem_entry h with h | h | h | ⟨name, hn, h⟩
    · exact (hip.2 _ h).2 rfl
    · exact absurd h (by decide)
    · exact absurd h (by decide)
    · exact ((hnames name hn).2 _ h).2 rfl
  · intro h
    rcases mem_entry h with h | h | h | ⟨name, hn, h⟩
    · exact absurd (hip.2 _ h).1 (by decide)
    · exact absurd h (by decide)
    · exact absurd h (by decide)
    · exact absurd ((hnames name hn).2 _ h).1 (by decide)

theorem fields_entry (hip : IsName ip) (hnames : ∀ name ∈ names, IsName name) :
    fields (entry ip names) = ip :: names := by
  have hcomment : (entry ip names).takeWhile (· ≠ '#') = entry ip names := by
    rw [List.takeWhile_eq_self_iff]
    intro c hc
    apply decide_eq_true
    rintro rfl
    exact (notMem_entry hip hnames).1 hc
  have hword : Words.words isSeparator ip = [ip] :=
    Words.words_word (fun c hc => (hip.2 c hc).1) hip.1
  rw [fields, hcomment, entry, Words.words_append (by decide), hword,
    Words.words_intercalate (by decide)
      fun name hn => ⟨(hnames name hn).1, fun c hc => ((hnames name hn).2 c hc).1⟩]
  rfl

theorem length_entry (hne : names ≠ []) :
    (entry ip names).length + 1 = Words.width (ip :: names) := by
  have hlen := Words.length_intercalate ' ' hne
  rw [Words.width_cons, entry]
  simp only [List.length_append, List.length_cons]
  omega

theorem mem_groups {g : List Char × List (List Char)} : g ∈ groups m ↔
    g.2 ≠ [] ∧ ∃ g' ∈ m, g = (g'.1.toList, (uniqueDomains g'.2).map String.toList) := by
  simp only [groups, List.mem_map, List.mem_filter, decide_eq_true_eq]
  constructor
  · rintro ⟨g', ⟨hg', hne⟩, rfl⟩
    exact ⟨by simpa using hne, g', hg', rfl⟩
  · rintro ⟨hne, g', hg', rfl⟩
    exact ⟨g', ⟨hg', by simpa using hne⟩, rfl⟩

/-- The names in the groups. -/
theorem mem_pairs_iff (hm : ∀ name ip, Listed m name ip ↔ E name ip) {name ip : List Char} :
    (∃ g ∈ groups m, g.1 = ip ∧ name ∈ g.2) ↔ E (String.ofList name) (String.ofList ip) := by
  rw [← hm, Listed]
  constructor
  · rintro ⟨g, hg, rfl, hn⟩
    obtain ⟨-, g', hg', rfl⟩ := mem_groups.mp hg
    obtain ⟨d, hd, rfl⟩ := List.mem_map.mp hn
    exact ⟨g', hg', by simp, by simpa using mem_uniqueDomains.mp hd⟩
  · rintro ⟨g', hg', hip, hn⟩
    have hmem : name ∈ (uniqueDomains g'.2).map String.toList :=
      List.mem_map.mpr ⟨String.ofList name, mem_uniqueDomains.mpr hn, by simp⟩
    refine ⟨_, mem_groups.mpr ⟨List.ne_nil_of_mem hmem, g', hg', rfl⟩, ?_, hmem⟩
    rw [hip, String.toList_ofList]

/-- What can be stated is one field each. -/
theorem isName_groups (hm : ∀ name ip, Listed m name ip ↔ E name ip) (hb : Bindable E) :
    ∀ g ∈ groups m, IsAddress g.1 ∧ ∀ name ∈ g.2, IsName name := by
  intro g hg
  have hall : ∀ name ∈ g.2, E (String.ofList name) (String.ofList g.1) :=
    fun name hn => (mem_pairs_iff hm).mp ⟨g, hg, rfl, hn⟩
  constructor
  · obtain ⟨name, hn⟩ := List.exists_mem_of_ne_nil _ (mem_groups.mp hg).1
    simpa using hb.address _ _ (hall name hn)
  · intro name hn
    simpa using hb.name _ _ (hall name hn)

theorem fields_of_mem_groups (hm : ∀ name ip, Listed m name ip ↔ E name ip) (hb : Bindable E) :
    ∀ g ∈ groups m, fields (entry g.1 g.2) = g.1 :: g.2 := by
  intro g hg
  obtain ⟨haddr, hnames⟩ := isName_groups hm hb g hg
  exact fields_entry haddr.isName hnames

/-- The bindings of the lines are the pairs of the groups. -/
theorem bindings_entries (hm : ∀ name ip, Listed m name ip ↔ E name ip) (hb : Bindable E) :
    (entries m).flatMap bindings = (groups m).flatMap fun g => g.2.map fun name => (name, g.1) := by
  rw [entries, List.flatMap_map]
  refine List.flatMap_congr fun g hg => ?_
  rw [bindings, fields_of_mem_groups hm hb g hg]

theorem mem_bindings_entries (hm : ∀ name ip, Listed m name ip ↔ E name ip) (hb : Bindable E)
    {name ip : List Char} : (name, ip) ∈ (entries m).flatMap bindings ↔
      E (String.ofList name) (String.ofList ip) := by
  rw [← mem_pairs_iff hm, bindings_entries hm hb, List.mem_flatMap]
  refine exists_congr fun g => and_congr_right fun _ => ?_
  rw [List.mem_map]
  constructor
  · rintro ⟨_, hn, hp⟩
    obtain ⟨rfl, hip⟩ := Prod.mk.inj hp
    exact ⟨hip, hn⟩
  · rintro ⟨rfl, hn⟩
    exact ⟨name, hn, rfl⟩

/-- The lines of the groups are read as stated if that can be. -/
theorem reads_entries (hm : ∀ name ip, Listed m name ip ↔ E name ip) (hb : Bindable E) :
    Reads E (entries m) := by
  refine ⟨?_, ?_, ?_⟩
  · intro name ip
    rw [mem_bindings_entries hm hb, String.ofList_toList, String.ofList_toList]
  · intro name ip ip' h h'
    rw [mem_bindings_entries hm hb] at h h'
    exact String.ofList_injective (hb.one _ _ _ h h')
  · intro l hl ip hip
    obtain ⟨g, hg, rfl⟩ := List.mem_map.mp hl
    rw [fields_of_mem_groups hm hb g hg] at hip
    obtain rfl := Option.mem_some_iff.mp hip
    exact (isName_groups hm hb g hg).1

/-- The first fields of the lines. -/
def heads (ls : List (List Char)) : List (List Char) := ls.flatMap fun l => (fields l).head?.toList

/-- The fields of the lines are their first fields and the names. -/
theorem width_fields (ls : List (List Char)) : (ls.map fun l => Words.width (fields l)).sum =
    Words.width (heads ls) + Words.width ((ls.flatMap bindings).map Prod.fst) := by
  induction ls with
  | nil => rfl
  | cons l ls ih =>
    have hsplit : Words.width (fields l) = Words.width (fields l).head?.toList +
        Words.width ((bindings l).map Prod.fst) := by
      unfold bindings
      cases hf : fields l with
      | nil => rfl
      | cons ip names => simp [Words.width, Function.comp_def]
    have hheads : heads (l :: ls) = (fields l).head?.toList ++ heads ls := List.flatMap_cons
    rw [List.map_cons, List.sum_cons, ih, hsplit, hheads, List.flatMap_cons, List.map_append,
      Words.width_append, Words.width_append]
    omega

/-- The fields of a line fit into it. -/
theorem width_fields_le (l : List Char) : Words.width (fields l) ≤ l.length + 1 := by
  have hwords := Words.width_words_le isSeparator (l.takeWhile (· ≠ '#'))
  have hlen := (List.takeWhile_prefix (l := l) (fun c => decide (c ≠ '#'))).length_le
  unfold fields
  omega

theorem length_text (ls : List (List Char)) : (Lines.text '\n' ls).length = Words.width ls := by
  induction ls with
  | nil => rfl
  | cons l ls ih =>
    rw [Lines.text_cons, Words.width_cons, List.length_append, List.length_cons, ih]
    omega

theorem nodup_uniqueDomains (domains : List String) : (uniqueDomains domains).Nodup :=
  (List.perm_insertionSort _ _).nodup_iff.mpr (List.nodup_dedup domains)

theorem toList_injective : Function.Injective String.toList := fun _ _ h => String.toList_inj.mp h

theorem nodup_groups (hk : (m.map Prod.fst).Nodup) : ((groups m).map Prod.fst).Nodup := by
  have hall : ((m.map Prod.fst).map String.toList).Nodup := hk.map toList_injective
  have hsub : ((groups m).map Prod.fst).Sublist ((m.map Prod.fst).map String.toList) := by
    rw [groups, List.map_map, List.map_map]
    exact List.filter_sublist.map _
  exact hall.sublist hsub

/-- Every name is in the line of an address once. -/
theorem nodup_pairs (hk : (m.map Prod.fst).Nodup) :
    ((groups m).flatMap fun g => g.2.map fun name => (name, g.1)).Nodup := by
  rw [List.nodup_flatMap]
  constructor
  · intro g hg
    obtain ⟨-, g', -, rfl⟩ := mem_groups.mp hg
    have hnames : ((uniqueDomains g'.2).map String.toList).Nodup :=
      (nodup_uniqueDomains g'.2).map toList_injective
    exact hnames.map fun _ _ h => (Prod.mk.inj h).1
  · have hne : (groups m).Pairwise fun g g' => g.1 ≠ g'.1 := List.pairwise_map.mp (nodup_groups hk)
    refine hne.imp fun {g g'} h x hx hx' => ?_
    obtain ⟨_, -, rfl⟩ := List.mem_map.mp hx
    obtain ⟨_, -, he⟩ := List.mem_map.mp hx'
    exact h (Prod.mk.inj he).2.symm

/-- The first fields of the lines of the groups are different, and all are first fields of lines
that are read as stated. -/
theorem width_heads_le (hm : ∀ name ip, Listed m name ip ↔ E name ip)
    (hk : (m.map Prod.fst).Nodup) (hr : Reads E bs) :
    Words.width (heads (entries m)) ≤ Words.width (heads bs) := by
  have heq : heads (entries m) = (groups m).map Prod.fst := by
    rw [heads, entries, List.flatMap_map, List.map_eq_flatMap]
    exact List.flatMap_congr fun g hg => by rw [fields_of_mem_groups hm hr.bindable g hg]; rfl
  have hsub : (groups m).map Prod.fst ⊆ heads bs := by
    intro ip hip
    obtain ⟨g, hg, rfl⟩ := List.mem_map.mp hip
    obtain ⟨name, hn⟩ := List.exists_mem_of_ne_nil _ (mem_groups.mp hg).1
    have he := (mem_pairs_iff hm).mp ⟨g, hg, rfl, hn⟩
    obtain ⟨l, hl, names, hf, -⟩ := hr.exists_line he
    refine List.mem_flatMap.mpr ⟨l, hl, ?_⟩
    rw [hf, String.toList_ofList]
    exact List.mem_singleton_self g.1
  rw [heq, ← List.map_id ((groups m).map Prod.fst), ← List.map_id (heads bs)]
  exact Words.width_le_of_subset (nodup_groups hk) hsub

/-- So for the bindings. -/
theorem width_names_le (hm : ∀ name ip, Listed m name ip ↔ E name ip)
    (hk : (m.map Prod.fst).Nodup) (hr : Reads E bs) :
    Words.width (((entries m).flatMap bindings).map Prod.fst) ≤
      Words.width ((bs.flatMap bindings).map Prod.fst) := by
  refine Words.width_le_of_subset (bindings_entries hm hr.bindable ▸ nodup_pairs hk) ?_
  rintro ⟨name, ip⟩ hp
  have he := (hr.bound _ _).mpr ((mem_bindings_entries hm hr.bindable).mp hp)
  rwa [String.toList_ofList, String.toList_ofList] at he

/-- No lines that are read as stated are shorter than those of the groups. -/
theorem length_entries_le (hm : ∀ name ip, Listed m name ip ↔ E name ip)
    (hk : (m.map Prod.fst).Nodup) (hr : Reads E bs) :
    (Lines.text '\n' (entries m)).length ≤ (Lines.text '\n' bs).length := by
  -- The lines of the groups have no room besides their fields.
  have hexact : (Lines.text '\n' (entries m)).length =
      ((entries m).map fun l => Words.width (fields l)).sum := by
    rw [length_text, Words.width, entries, List.map_map, List.map_map]
    congr 1
    refine List.map_congr_left fun g hg => ?_
    simp only [Function.comp, fields_of_mem_groups hm hr.bindable g hg]
    exact length_entry (mem_groups.mp hg).1
  have hroom : (bs.map fun l => Words.width (fields l)).sum ≤ (Lines.text '\n' bs).length := by
    rw [length_text, Words.width]
    exact List.sum_le_sum fun l _ => width_fields_le l
  have hheads := width_heads_le hm hk hr
  have hnames := width_names_le hm hk hr
  rw [hexact, width_fields]
  rw [width_fields] at hroom
  omega

end Entries

section Placed

theorem Unmarked.of_part (h : Unmarked y) (hx : x <:+: y) : Unmarked x :=
  ⟨fun hm => h.1 (hm.trans hx), fun hm => h.2 (hm.trans hx)⟩

theorem unmarked_text (h : ∀ l ∈ ls, Unmarked l) : Unmarked (Lines.text '\n' ls) := by
  constructor
  · intro hm
    obtain ⟨l, hl, hm⟩ :=
      Sections.Markers.exists_line_of_infix markers.start_line markers.start_ne_nil hm
    exact (h l hl).1 hm
  · intro hm
    obtain ⟨l, hl, hm⟩ :=
      Sections.Markers.exists_line_of_infix markers.stop_line markers.stop_ne_nil hm
    exact (h l hl).2 hm

/-- A text is unmarked if its lines are. -/
theorem unmarked_iff : Unmarked y ↔ ∀ l ∈ y.splitOn '\n', Unmarked l := by
  have hy := Lines.join_splitOn '\n' y
  constructor
  · intro h l hl
    exact h.of_part (hy ▸ Lines.infix_join hl)
  · intro h
    refine (unmarked_text h).of_part ?_
    rw [Lines.text_eq_join (List.splitOn_ne_nil _ _), hy]
    exact (List.prefix_append y _).isInfix

/-- A text that a block can be put after. -/
theorem exists_lines_iff : (x = [] ∨ x.getLast? = some '\n') ↔
    ∃ ls, (∀ l ∈ ls, '\n' ∉ l) ∧ x = Lines.text '\n' ls := by
  constructor
  · rintro (rfl | h)
    · exact ⟨[], by simp, rfl⟩
    · obtain ⟨ls, hls, rfl⟩ := Lines.exists_text h
      exact ⟨ls, fun l hl => (hls l hl).1, rfl⟩
  · rintro ⟨ls, -, rfl⟩
    by_cases hne : ls = []
    · exact Or.inl (by rw [hne]; rfl)
    · exact Or.inr (Lines.getLast?_text hne)

/-- The lines of a text with a block in it. -/
theorem splitOn_placed {xs : List (List Char)} {x' : List Char} (hxs : ∀ l ∈ xs, '\n' ∉ l)
    (hx' : '\n' ∉ x') (hbs : ∀ l ∈ bs, '\n' ∉ l) : (Lines.text '\n' xs ++ x' ++
      (Lines.text '\n' (markers.start :: (bs ++ [markers.stop])) ++ y)).splitOn '\n' =
        xs ++ (x' ++ markers.start) :: (bs ++ markers.stop :: y.splitOn '\n') := by
  have htext : Lines.text '\n' xs ++ x' ++
      (Lines.text '\n' (markers.start :: (bs ++ [markers.stop])) ++ y) =
        Lines.text '\n' (xs ++ (x' ++ markers.start) :: (bs ++ [markers.stop])) ++ y := by
    rw [Lines.text_append, Lines.text_cons, Lines.text_cons]
    simp
  have hfree : ∀ l ∈ xs ++ (x' ++ markers.start) :: (bs ++ [markers.stop]), '\n' ∉ l := by
    intro l hl
    rcases List.mem_append.mp hl with hl | hl
    · exact hxs l hl
    · rcases List.mem_cons.mp hl with rfl | hl
      · exact fun hm => (List.mem_append.mp hm).elim hx' markers.start_line
      · rcases List.mem_append.mp hl with hl | hl
        · exact hbs l hl
        · exact List.mem_singleton.mp hl ▸ markers.stop_line
  rw [htext, Lines.splitOn_text_append hfree]
  simp

/-- A block is the only one, and is read as stated, if it begins in a line of its own, its lines
are read so, and there is no marker in or around it. -/
theorem faithful_placed_iff (hbs : ∀ l ∈ bs, '\n' ∉ l) (hraw : raw.toList =
    x ++ (Lines.text '\n' (markers.start :: (bs ++ [markers.stop])) ++ y)) :
    Faithful E raw ↔ (x = [] ∨ x.getLast? = some '\n') ∧ Unmarked x ∧ Unmarked y ∧
      (∀ l ∈ bs, Unmarked l) ∧ Reads E bs := by
  constructor
  · rintro ⟨pre, inner, post, hsplit, hpre, hinner, hpost, hreads⟩
    obtain ⟨xs, x', hxs, hx', hx⟩ := Lines.exists_text_append '\n' x
    rw [hraw, hx, splitOn_placed hxs hx' hbs] at hsplit
    -- The start marker is in one line only, so that is the line of the block, and so for the stop.
    have hno : ∀ l ∈ inner ++ markers.stop :: post, ¬ markers.start <:+: l := by
      intro l hl
      rcases List.mem_append.mp hl with hl | hl
      · exact (hinner l hl).1
      · rcases List.mem_cons.mp hl with rfl | hl
        · exact markers.start_stop
        · exact (hpost l hl).1
    obtain ⟨rfl, hstart, hrest⟩ := Lines.eq_of_unique (P := (markers.start <:+: ·)) hsplit.symm
      (List.suffix_append x' _).isInfix (fun l hl => (hpre l hl).1) hno
    obtain ⟨rfl, -, rfl⟩ := Lines.eq_of_unique (P := (markers.stop <:+: ·)) hrest
      List.infix_rfl (fun l hl => (hinner l hl).2) (fun l hl => (hpost l hl).2)
    obtain rfl : x' = [] := by
      have hlen := congrArg List.length hstart
      rw [List.length_append] at hlen
      exact List.eq_nil_of_length_eq_zero (by omega)
    rw [List.append_nil] at hx
    subst hx
    exact ⟨exists_lines_iff.mpr ⟨_, hxs, rfl⟩, unmarked_text hpre, unmarked_iff.mpr hpost, hinner,
      hreads⟩
  · rintro ⟨halign, hux, huy, hub, hreads⟩
    obtain ⟨xs, hxs, rfl⟩ := exists_lines_iff.mp halign
    refine ⟨xs, bs, y.splitOn '\n', ?_, ?_, hub, unmarked_iff.mp huy, hreads⟩
    · rw [hraw, ← List.append_nil (Lines.text '\n' xs), splitOn_placed hxs (by simp) hbs]
      rfl
    · exact fun l hl => hux.of_part (Lines.infix_text hl)

end Placed

section Templates

variable {m : List (String × List String)} {pieces : List Template.Piece}

/-- A text whose first line is the start marker and whose last line is the stop marker. -/
theorem exists_block_lines (hs : ∃ q, s = markers.start ++ '\n' :: q)
    (he : ∃ p, s = p ++ '\n' :: (markers.stop ++ ['\n'])) : ∃ bs, (∀ l ∈ bs, '\n' ∉ l) ∧
      s = Lines.text '\n' (markers.start :: (bs ++ [markers.stop])) := by
  obtain ⟨q, rfl⟩ := hs
  obtain ⟨p, he⟩ := he
  have hnil : q = markers.stop ++ ['\n'] → ∃ bs, (∀ l ∈ bs, '\n' ∉ l) ∧
      markers.start ++ '\n' :: q =
        Lines.text '\n' (markers.start :: (bs ++ [markers.stop])) := by
    rintro rfl
    exact ⟨[], by simp, by simp [Lines.text]⟩
  rcases List.append_eq_append_iff.mp he with ⟨t, rfl, ht⟩ | ⟨t, hst, ht⟩
  · cases t with
    | nil => exact hnil (List.cons.inj ht).2
    | cons c t =>
      obtain ⟨rfl, rfl⟩ := List.cons.inj ht
      have hlast : (t ++ ['\n']).getLast? = some '\n' := List.getLast?_concat
      obtain ⟨bs, hbs, htext⟩ := Lines.exists_text hlast
      refine ⟨bs, fun l hl => (hbs l hl).1, ?_⟩
      rw [Lines.text_cons, Lines.text_concat, ← htext]
      simp
  · cases t with
    | nil => exact hnil (List.cons.inj ht).2.symm
    | cons c t =>
      obtain ⟨rfl, -⟩ := List.cons.inj ht
      exact (markers.start_line (hst ▸ by simp [markers])).elim

theorem newBlock_eq (m : List (String × List String)) : (newBlock m).toList =
    Lines.text '\n' (markers.start :: (entries m ++ [markers.stop])) := by
  rw [toList_newBlock, map_pymeshLines]

/-- The parsed block has the two markers at its ends. -/
theorem pieces_of_parse (hp : Template.parse (newBlock m).toList = some pieces) :
    (∃ ps, pieces = (markers.start ++ ['\n']).map .char ++ ps) ∧
      ∃ ps, pieces = ps ++ ('\n' :: (markers.stop ++ ['\n'])).map .char := by
  obtain ⟨cs, hcs⟩ := exists_newBlock m
  have hlast := hp
  rw [hcs] at hlast
  refine ⟨?_, Template.parseFrom_last_line (by decide) hlast⟩
  have hfirst := hp
  have hsplit : (newBlock m).toList =
      (markers.start ++ ['\n']) ++ Lines.text '\n' (entries m ++ [markers.stop]) := by
    rw [newBlock_eq, Lines.text_cons]
    simp
  rw [hsplit] at hfirst
  exact Template.parseFrom_append (by decide) hfirst

/-- What is put in for a match is a block, and the rest of it comes from the pieces after the
start marker. -/
theorem exists_expanded (hp : Template.parse (newBlock m).toList = some pieces) (z : List Char) :
    ∃ bs, (∀ l ∈ bs, '\n' ∉ l) ∧
      Template.expand pieces z = Lines.text '\n' (markers.start :: (bs ++ [markers.stop])) ∧
      (.whole ∈ pieces → z <:+: Lines.text '\n' (bs ++ [markers.stop])) := by
  obtain ⟨⟨ps, hps⟩, ⟨qs, hqs⟩⟩ := pieces_of_parse hp
  have hstart : Template.expand pieces z = markers.start ++ '\n' :: Template.expand ps z := by
    rw [hps, Template.expand_append, Template.expand_chars]
    simp
  have hstop : Template.expand pieces z =
      Template.expand qs z ++ '\n' :: (markers.stop ++ ['\n']) := by
    rw [hqs, Template.expand_append, Template.expand_chars]
  obtain ⟨bs, hbs, htext⟩ := exists_block_lines ⟨_, hstart⟩ ⟨_, hstop⟩
  refine ⟨bs, hbs, htext, fun hw => ?_⟩
  have hrest : Template.expand ps z = Lines.text '\n' (bs ++ [markers.stop]) := by
    rw [htext, Lines.text_cons] at hstart
    exact (List.cons.inj (List.append_cancel_left hstart)).2.symm
  rw [← hrest]
  refine Template.infix_expand ?_ z
  rw [hps] at hw
  simpa using hw

/-- Lines without backslash sequences. -/
theorem verbatim_text (h : ∀ l ∈ ls, Template.Verbatim l) :
    Template.Verbatim (Lines.text '\n' ls) := by
  induction ls with
  | nil => exact Template.verbatim_of_notMem (by simp [Lines.text])
  | cons l ls ih =>
    rw [Lines.text_cons]
    exact (h l List.mem_cons_self).append (ih fun l' hl' => h l' (List.mem_cons_of_mem l hl'))
      (by decide)

theorem verbatim_entry {ip : List Char} {names : List (List Char)} (hip : IsAddress ip)
    (h : ∀ name ∈ names, Template.Verbatim name) : Template.Verbatim (entry ip names) := by
  have hjoin : Template.Verbatim ([' '].intercalate names) := by
    induction names with
    | nil => exact Template.verbatim_of_notMem (by simp)
    | cons name names ih =>
      cases names with
      | nil =>
        rw [List.intercalate_singleton]
        exact h name List.mem_cons_self
      | cons name' names =>
        rw [List.intercalate_cons_cons, List.append_assoc, List.singleton_append]
        exact (h name List.mem_cons_self).append
          (ih fun n hn => h n (List.mem_cons_of_mem name hn)) (by decide)
  have hplain : Template.Verbatim ip := by
    refine Template.verbatim_of_notMem fun hc => ?_
    exact absurd (hip.1 _ hc) (by decide)
  exact hplain.append hjoin (by decide)

/-- The block has no backslash sequence if and only if no name has one. -/
theorem verbatim_newBlock_iff (hm : ∀ name ip, Listed m name ip ↔ E name ip) (hb : Bindable E) :
    Template.Verbatim (newBlock m).toList ↔
      ∀ name ip, E name ip → Template.Verbatim name.toList := by
  rw [newBlock_eq]
  constructor
  · intro hv name ip he
    rw [← String.ofList_toList (s := name), ← String.ofList_toList (s := ip),
      ← mem_pairs_iff hm] at he
    obtain ⟨g, hg, -, hn⟩ := he
    have hline : entry g.1 g.2 ∈ markers.start :: (entries m ++ [markers.stop]) :=
      List.mem_cons_of_mem _ (List.mem_append_left _ (List.mem_map_of_mem hg))
    have hname : name.toList <:+: entry g.1 g.2 := by
      have hin : name.toList <:+: [' '].intercalate g.2 := Lines.infix_join hn
      exact hin.trans ⟨g.1 ++ ['\t'], [], by simp [entry]⟩
    exact hv.of_part (hname.trans (Lines.infix_text hline))
  · intro hnames
    refine verbatim_text fun l hl => ?_
    rcases List.mem_cons.mp hl with rfl | hl
    · exact Template.verbatim_of_notMem (by decide)
    · rcases List.mem_append.mp hl with hl | hl
      · obtain ⟨g, hg, rfl⟩ := List.mem_map.mp hl
        refine verbatim_entry (isName_groups hm hb g hg).1 fun name hn => ?_
        have he := (mem_pairs_iff hm).mp ⟨g, hg, rfl, hn⟩
        simpa using hnames _ _ he
      · rw [List.mem_singleton.mp hl]
        exact Template.verbatim_of_notMem (by decide)

end Templates

section Sync

variable {m : List (String × List String)} {pieces : List Template.Piece} {content : String}

theorem unmarked_cons_iff : Unmarked ('\n' :: s) ↔ Unmarked s := by
  have hstart : '\n' ∉ markers.start := markers.start_line
  have hstop : '\n' ∉ markers.stop := markers.stop_line
  rw [Unmarked, Unmarked, Sections.infix_newline_iff hstart markers.start_ne_nil,
    Sections.infix_newline_iff hstop markers.stop_ne_nil]

theorem unmarked_append_iff : Unmarked (x ++ '\n' :: y) ↔ Unmarked x ∧ Unmarked y := by
  rw [unmarked_iff, List.splitOn_append_cons_self, List.forall_mem_append, ← unmarked_iff,
    ← unmarked_iff]

theorem hasSection_iff : hasSection content = true ↔
    markers.start <:+: content.toList ∧ markers.stop <:+: content.toList := by
  simp [hasSection]

/-- A space at the end is no part of a marker. -/
theorem unmarked_rstrip_iff : Unmarked (s.rdropWhile isSpace) ↔ Unmarked s := by
  constructor
  · intro h
    constructor
    · exact fun hm => h.1 (Lines.infix_rdropWhile (c := 'S') hm (by decide) (by decide))
    · exact fun hm => h.2 (Lines.infix_rdropWhile (c := 'S') hm (by decide) (by decide))
  · exact fun h => h.of_part (List.rdropWhile_prefix isSpace s).isInfix

/-- The lines of the groups are lines, without markers in them. -/
theorem lines_entries (hm : ∀ name ip, Listed m name ip ↔ E name ip) (hb : Bindable E) :
    (∀ l ∈ entries m, '\n' ∉ l) ∧ ∀ l ∈ entries m, Unmarked l := by
  have hfree : ∀ l ∈ entries m, '#' ∉ l ∧ '\n' ∉ l := by
    intro l hl
    obtain ⟨g, hg, rfl⟩ := List.mem_map.mp hl
    obtain ⟨haddr, hnames⟩ := isName_groups hm hb g hg
    exact notMem_entry haddr.isName hnames
  refine ⟨fun l hl => (hfree l hl).2, fun l hl => ⟨fun hi => ?_, fun hi => ?_⟩⟩
  · exact (hfree l hl).1 (hi.subset (by decide))
  · exact (hfree l hl).1 (hi.subset (by decide))

/-- A block that is appended. -/
theorem faithful_append_iff (hm : ∀ name ip, Listed m name ip ↔ E name ip)
    (hraw : raw = rstrip isSpace content ++ "\n\n" ++ newBlock m) :
    Faithful E raw ↔ Bindable E ∧ Unmarked content.toList := by
  have htext : ∀ bs, (newBlock m).toList =
      Lines.text '\n' (markers.start :: (bs ++ [markers.stop])) → raw.toList =
        (content.toList.rdropWhile isSpace ++ ['\n', '\n']) ++
          (Lines.text '\n' (markers.start :: (bs ++ [markers.stop])) ++ []) := by
    intro bs hbs
    rw [hraw, String.toList_append, String.toList_append, toList_rstrip, hbs, List.append_nil]
    rfl
  have halign : (content.toList.rdropWhile isSpace ++ ['\n', '\n']).getLast? = some '\n' := by
    rw [List.getLast?_append_of_ne_nil _ (by simp)]
    rfl
  have hunmarked : Unmarked (content.toList.rdropWhile isSpace ++ ['\n', '\n']) ↔
      Unmarked content.toList := by
    rw [unmarked_append_iff, unmarked_rstrip_iff]
    exact and_iff_left (by decide)
  constructor
  · intro hf
    have hstart : ∃ q, (newBlock m).toList = markers.start ++ '\n' :: q :=
      ⟨_, (newBlock_eq m).trans (Lines.text_cons _ _)⟩
    obtain ⟨bs, hbs, hblock⟩ := exists_block_lines hstart (exists_newBlock m)
    obtain ⟨-, hx, -, -, hr⟩ := (faithful_placed_iff hbs (htext bs hblock)).mp hf
    exact ⟨hr.bindable, hunmarked.mp hx⟩
  · rintro ⟨hb, hu⟩
    obtain ⟨hfree, hub⟩ := lines_entries hm hb
    refine (faithful_placed_iff hfree (htext _ (newBlock_eq m))).mpr ?_
    exact ⟨Or.inr halign, hunmarked.mpr hu, by decide, hub, reads_entries hm hb⟩

/-- A file with a block has a match. -/
theorem Faithful.exists_next (h : Faithful E raw) :
    ∃ x z rest, markers.next raw.toList = some (x, z, rest) := by
  obtain ⟨pre, inner, post, hsplit, hpre, -⟩ := h
  have htext : raw.toList = Lines.text '\n' pre ++ (markers.start ++
      '\n' :: Lines.join '\n' (inner ++ markers.stop :: post)) := by
    rw [← Lines.join_splitOn '\n' raw.toList, hsplit, Lines.join_append (by simp),
      Lines.join_cons (by simp)]
  have hcut : Sections.cut markers.start raw.toList = some (Lines.text '\n' pre,
      '\n' :: Lines.join '\n' (inner ++ markers.stop :: post)) := by
    have hpre' : ∀ l ∈ pre, ¬ markers.start <:+: l := fun l hl => (hpre l hl).1
    have hall := Sections.Markers.cut_text (k := markers) markers.start_line hpre' (markers.start ++
      '\n' :: Lines.join '\n' (inner ++ markers.stop :: post))
    rw [Sections.cut_append_self] at hall
    rw [htext]
    simpa [markers] using hall
  cases hstop : Sections.cut markers.stop
      ('\n' :: Lines.join '\n' (inner ++ markers.stop :: post)) with
  | none =>
    have hin : markers.stop <:+: Lines.join '\n' (inner ++ markers.stop :: post) :=
      Lines.infix_join (by simp)
    exact (Sections.cut_eq_none_iff.mp hstop (hin.trans (List.suffix_cons _ _).isInfix)).elim
  | some w =>
    obtain ⟨u, v⟩ := w
    by_cases hv : v.head? = some '\n'
    · obtain ⟨v, rfl⟩ : ∃ v', v = '\n' :: v' := ⟨v.tail, List.eq_cons_of_mem_head? hv⟩
      exact ⟨_, _, _, Sections.Markers.next_of_cuts_line hcut hstop⟩
    · exact ⟨_, _, _, Sections.Markers.next_of_cuts hcut hstop hv⟩

/-- A text with a start marker has a slot if its first match is one. -/
theorem slot_iff (hs : markers.start <:+: s) : Slot s ↔ ∃ x z rest,
    markers.next s = some (x, z, rest) ∧ (x = [] ∨ x.getLast? = some '\n') ∧ Unmarked x ∧
      Unmarked rest := by
  constructor
  · rintro (hu | ⟨x, t, u, y, hstart, hstop, halign, hux, huy⟩)
    · exact (hu.1 hs).elim
    · by_cases hy : y.head? = some '\n'
      · obtain ⟨y, rfl⟩ : ∃ y', y = '\n' :: y' := ⟨y.tail, List.eq_cons_of_mem_head? hy⟩
        exact ⟨x, _, y, Sections.Markers.next_of_cuts_line hstart hstop, halign, hux,
          unmarked_cons_iff.mp huy⟩
      · exact ⟨x, _, y, Sections.Markers.next_of_cuts hstart hstop hy, halign, hux, huy⟩
  · rintro ⟨x, z, rest, hnext, halign, hux, hur⟩
    obtain ⟨inner, u, hstart, hstop, -, ⟨-, rfl⟩ | ⟨-, rfl, -⟩⟩ := Sections.Markers.next_some hnext
    · exact Or.inr ⟨x, _, inner, _, hstart, hstop, halign, hux, unmarked_cons_iff.mpr hur⟩
    · exact Or.inr ⟨x, _, inner, u, hstart, hstop, halign, hux, hur⟩

/-- A text without both markers has a slot only if it has neither. -/
theorem slot_iff_unmarked (h : ¬ hasSection content = true) :
    Slot content.toList ↔ Unmarked content.toList := by
  constructor
  · rintro (hu | ⟨x, t, u, y, hstart, hstop, -⟩)
    · exact hu
    · have hs := Sections.eq_of_cut hstart
      have ht := Sections.eq_of_cut hstop
      refine (h (hasSection_iff.mpr ⟨?_, ?_⟩)).elim
      · exact ⟨x, t, by rw [hs, List.append_assoc]⟩
      · exact ⟨x ++ (markers.start ++ u), y, by rw [hs, ht]; simp⟩
  · exact Or.inl

/-- The text that is put in for the match is as long as the template only if the template has no
backslash sequence. -/
theorem verbatim_of_reads (hm : ∀ name ip, Listed m name ip ↔ E name ip)
    (hk : (m.map Prod.fst).Nodup) (hp : Template.parse (newBlock m).toList = some pieces)
    (hr : Reads E bs) (hw : .whole ∉ pieces)
    (htext : Template.expand pieces x =
      Lines.text '\n' (markers.start :: (bs ++ [markers.stop]))) :
    Template.Verbatim (newBlock m).toList := by
  rcases Template.parseFrom_cases hp with ⟨hv, -⟩ | ⟨-, hlt⟩
  · exact hv
  · have hlen := Template.length_expand hw x
    have hle := length_entries_le hm hk hr
    rw [newBlock_eq] at hlt
    rw [htext] at hlen
    simp only [Lines.text_cons, Lines.text_append, List.length_append, List.length_cons]
      at hlen hlt
    omega

/-- A second match would leave a second block. -/
theorem sub_eq_self (hp : Template.parse (newBlock m).toList = some pieces)
    (h : ¬ markers.start <:+: markers.sub (Template.expand pieces) s) :
    markers.sub (Template.expand pieces) s = s := by
  cases hnext : markers.next s with
  | none => exact Sections.Markers.sub_of_none hnext
  | some w =>
    obtain ⟨x, z, rest⟩ := w
    obtain ⟨bs, -, htext, -⟩ := exists_expanded hp z
    rw [Sections.Markers.sub_of_some hnext, htext] at h
    refine (h ?_).elim
    rw [Lines.text_cons, List.append_assoc]
    exact List.infix_append' _ _ _

/-- A match has the start marker in it. -/
theorem start_inside_match {z rest : List Char} (h : markers.next s = some (x, z, rest)) :
    markers.start <:+: z := by
  obtain ⟨inner, u, -, -, -, hz⟩ := Sections.Markers.next_some h
  rcases hz with ⟨rfl, -⟩ | ⟨rfl, -⟩
  · exact (List.prefix_append _ _).isInfix
  · exact (List.prefix_append _ _).isInfix

theorem start_not_inside (h : ∀ l ∈ bs, Unmarked l) :
    ¬ markers.start <:+: Lines.text '\n' (bs ++ [markers.stop]) := by
  intro hi
  obtain ⟨l, hl, hi⟩ := Sections.Markers.exists_line_of_infix markers.start_line
    markers.start_ne_nil hi
  rcases List.mem_append.mp hl with hl | hl
  · exact (h l hl).1 hi
  · exact markers.start_stop (List.mem_singleton.mp hl ▸ hi)

/-- A block that is put in for the matches. -/
theorem faithful_sub_iff (hm : ∀ name ip, Listed m name ip ↔ E name ip)
    (hk : (m.map Prod.fst).Nodup) (hp : Template.parse (newBlock m).toList = some pieces)
    (hs : markers.start <:+: s) (hraw : raw.toList = markers.sub (Template.expand pieces) s) :
    Faithful E raw ↔ Bindable E ∧ Slot s ∧
      ∀ name ip, E name ip → Template.Verbatim name.toList := by
  rw [slot_iff hs]
  constructor
  · intro hf
    cases hnext : markers.next s with
    | none =>
      rw [Sections.Markers.sub_of_none hnext] at hraw
      obtain ⟨x, z, rest, hsome⟩ := hf.exists_next
      rw [hraw, hnext] at hsome
      cases hsome
    | some w =>
      obtain ⟨x, z, rest⟩ := w
      obtain ⟨bs, hbs, htext, hwhole⟩ := exists_expanded hp z
      rw [Sections.Markers.sub_of_some hnext, htext] at hraw
      obtain ⟨halign, hux, huy, hub, hr⟩ := (faithful_placed_iff hbs hraw).mp hf
      rw [sub_eq_self hp huy.1] at huy
      have hw : .whole ∉ pieces :=
        fun hw => start_not_inside hub ((start_inside_match hnext).trans (hwhole hw))
      have hb := hr.bindable
      refine ⟨hb, ⟨x, z, rest, rfl, halign, hux, huy⟩, ?_⟩
      exact (verbatim_newBlock_iff hm hb).mp (verbatim_of_reads hm hk hp hr hw htext)
  · rintro ⟨hb, ⟨x, z, rest, hnext, halign, hux, hur⟩, hnames⟩
    obtain ⟨hfree, hub⟩ := lines_entries hm hb
    have htext := Template.expand_of_verbatim ((verbatim_newBlock_iff hm hb).mpr hnames) hp z
    rw [Sections.Markers.sub_of_some hnext, Sections.Markers.sub_of_not_infix hur.1, htext,
      newBlock_eq] at hraw
    exact (faithful_placed_iff hfree hraw).mpr ⟨halign, hux, hur, hub, reads_entries hm hb⟩

end Sync

variable {rt : HostsRuntime} {access : Access} {records : List (String × String)}
  {activeTlds : Option (List String)} {controllerUrl : Option String} {updated : String}

/-- After a sync that returns true the file has exactly one block, read exactly as it is to be, if
and only if the bindings can be stated in a hosts file, the text before has a place for the block,
and no name has a backslash sequence where the block is put in for a match. -/
theorem faithful_iff (h : syncHostsFile rt access records activeTlds controllerUrl (some raw) =
    (true, some updated)) :
    Faithful (Stated rt records activeTlds controllerUrl) updated ↔
      Bindable (Stated rt records activeTlds controllerUrl) ∧ Slot (readText raw).toList ∧
        (hasSection (readText raw) = true →
          ∀ name ip, Stated rt records activeTlds controllerUrl name ip →
            Template.Verbatim name.toList) := by
  have hm : ∀ name ip, Listed (ipMap rt records activeTlds controllerUrl) name ip ↔
      Stated rt records activeTlds controllerUrl name ip := fun name ip => listed_ipMap
  have hu := syncHostsFile_eq_true h
  unfold updatedContent at hu
  split at hu
  next hsec =>
    obtain ⟨pieces, hp, rfl⟩ := Option.map_eq_some_iff.mp hu
    have hs := (hasSection_iff.mp hsec).1
    rw [faithful_sub_iff hm nodup_ipMap hp hs String.toList_ofList]
    simp [hsec]
  next hsec =>
    rw [faithful_append_iff hm (Option.some.inj hu).symm, slot_iff_unmarked hsec]
    refine and_congr_right fun _ => ?_
    exact (and_iff_left fun hsec' => (hsec hsec').elim).symm

/-- What holds of the names in the groups holds of all the bindings. -/
theorem stated_of_groups {P : String → String → Prop}
    (h : ∀ g ∈ ipMap rt records activeTlds controllerUrl, ∀ name ∈ g.2, P name g.1) :
    ∀ name ip, Stated rt records activeTlds controllerUrl name ip → P name ip := by
  intro name ip hs
  obtain ⟨g, hg, rfl, hn⟩ := listed_ipMap.mpr hs
  exact h g hg name hn

/-- A host in mixed case, in the place of an earlier block. -/
theorem faithful_iff_replaced :
    Faithful (Stated .ascii [("Web", "100.64.0.2")] (some [".mesh"]) none)
      ("127.0.0.1 localhost\n# BEGIN PYMESH DNS\n100.64.0.2\tweb web.mesh\n" ++
        "100.64.0.1\tregistry.mesh\n# END PYMESH DNS\n") := by
  have hsync : syncHostsFile .ascii ⟨true, .complete⟩ [("Web", "100.64.0.2")] (some [".mesh"]) none
      (some "127.0.0.1 localhost\n# BEGIN PYMESH DNS\n# END PYMESH DNS\n") = (true, some
        ("127.0.0.1 localhost\n# BEGIN PYMESH DNS\n100.64.0.2\tweb web.mesh\n" ++
          "100.64.0.1\tregistry.mesh\n# END PYMESH DNS\n")) := by
    decide +kernel
  have hgroups : ipMap .ascii [("Web", "100.64.0.2")] (some [".mesh"]) none =
      [("100.64.0.2", ["web", "web.mesh"]), ("100.64.0.1", ["registry.mesh"])] := by
    decide +kernel
  refine (faithful_iff hsync).mpr ⟨⟨?_, ?_, ?_⟩, Or.inr ?_, fun _ => ?_⟩
  · apply stated_of_groups
    rw [hgroups]
    decide
  · apply stated_of_groups
    rw [hgroups]
    decide +kernel
  · intro name ip ip' hs hs'
    obtain ⟨g, hg, rfl, hn⟩ := listed_ipMap.mpr hs
    obtain ⟨g', hg', rfl, hn'⟩ := listed_ipMap.mpr hs'
    have hone : ∀ g ∈ [("100.64.0.2", ["web", "web.mesh"]), ("100.64.0.1", ["registry.mesh"])],
        ∀ g' ∈ [("100.64.0.2", ["web", "web.mesh"]), ("100.64.0.1", ["registry.mesh"])],
          ∀ name ∈ g.2, name ∈ g'.2 → g.1 = g'.1 := by
      decide
    exact hone g (hgroups ▸ hg) g' (hgroups ▸ hg') name hn hn'
  · exact ⟨"127.0.0.1 localhost\n".toList, "\n# END PYMESH DNS\n".toList, ['\n'], ['\n'],
      by decide +kernel, by decide +kernel, Or.inr (by decide +kernel), by decide +kernel,
      by decide +kernel⟩
  · apply stated_of_groups
    rw [hgroups]
    intro g hg name hn
    refine Template.verbatim_of_notMem ?_
    revert g name
    decide

/-- The host of the controller URL is a name. -/
theorem faithful_fails : ¬ ∀ (rt : HostsRuntime) (access : Access)
    (records : List (String × String)) (activeTlds : Option (List String))
    (controllerUrl : Option String) (raw updated : String),
    syncHostsFile rt access records activeTlds controllerUrl (some raw) = (true, some updated) →
      Faithful (Stated rt records activeTlds controllerUrl) updated := by
  intro hall
  have hsync : syncHostsFile .ascii ⟨true, .complete⟩ [] none (some "http://ctl.example.com:8000")
      (some "127.0.0.1 localhost\n") = (true, some
        ("127.0.0.1 localhost\n\n# BEGIN PYMESH DNS\n" ++
          "ctl.example.com\tregistry.cr registry.mesh\n# END PYMESH DNS\n")) := by
    decide +kernel
  obtain ⟨pre, inner, post, -, -, -, -, hreads⟩ := hall _ _ _ _ _ _ _ hsync
  have hlisted : Listed (ipMap .ascii [] none (some "http://ctl.example.com:8000")) "registry.cr"
      "ctl.example.com" :=
    ⟨("ctl.example.com", ["registry.cr", "registry.mesh"]), by decide +kernel, rfl, by decide⟩
  exact absurd (hreads.bindable.address _ _ (listed_ipMap.mp hlisted)) (by decide +kernel)

end PyMesh.HostsManager
