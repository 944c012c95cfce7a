import PyMesh.Networking.Hosts

/-! The lines of the hosts file that the calls of `HostsManager` keep. -/
namespace PyMesh.HostsManager

open LTS Text

/-- The lines of the file. -/
def lines (raw : String) : List (List Char) := (universalNewlines raw.toList).splitOn '\n'

/-- The lines that are not inside a complete block. -/
def outside (raw : String) : List (List Char) := markers.outside (lines raw)

/-- The lines of `kept` are among the others, in their order, up to the space at the end. -/
def Present (kept ls : List (List Char)) : Prop :=
  ∃ kept', kept'.Sublist ls ∧
    Lines.SameUpToEnd isSpace (Lines.text '\n' kept') (Lines.text '\n' kept)

inductive Call where
  | syncHostsFile (records : List (String × String)) (activeTlds : Option (List String))
      (controllerUrl : Option String)
  | removeHostsFile

/-- The file after a call. -/
def Call.run (rt : HostsRuntime) (access : Access) : Call → Option String → Option String
  | .syncHostsFile records activeTlds controllerUrl, file =>
    (HostsManager.syncHostsFile rt access records activeTlds controllerUrl file).2
  | .removeHostsFile, file => (HostsManager.removeHostsFile access file).2

/-- A call, with what the system lets it do. -/
def Step (rt : HostsRuntime) (file : Option String) (c : Call × Access) (file' : Option String) :
    Prop :=
  file' = c.1.run rt c.2 file

/-- No write fails after the file has been opened, no line outside of the blocks has the start
marker with a stop marker somewhere after it, and a sync does not find the start marker in a text
without the stop marker. -/
def Orderly (file : Option String) (c : Call × Access) : Prop :=
  (∀ written, c.2.write ≠ .cutOff written) ∧
    ∀ raw, file = some raw → markers.Tidy (lines raw) ∧
      (c.1 ≠ .removeHostsFile → markers.start <:+: (readText raw).toList →
        hasSection (readText raw) = true)

variable {rt : HostsRuntime} {cs ds : List Char} {raw raw' block : String}
  {ls ls' kept : List (List Char)}

section Newlines

theorem return_notMem (cs : List Char) : '\r' ∉ universalNewlines cs := by
  fun_induction universalNewlines cs with
  | case1 => simp
  | case2 cs ih => simpa using ih
  | case3 cs _ ih => simpa using ih
  | case4 c cs _ hc ih =>
    intro hm
    rcases List.mem_cons.mp hm with rfl | hm
    · exact hc rfl
    · exact ih hm

theorem universalNewlines_of_notMem (h : '\r' ∉ cs) : universalNewlines cs = cs := by
  fun_induction universalNewlines cs with
  | case1 => rfl
  | case2 cs _ => simp at h
  | case3 cs _ _ => simp at h
  | case4 c cs _ _ ih => rw [ih fun hm => h (List.mem_cons_of_mem c hm)]

/-- The ends of lines can be read piece by piece, unless a piece ends in the middle of one. -/
theorem universalNewlines_append (h : cs.getLast? ≠ some '\r') :
    universalNewlines (cs ++ ds) = universalNewlines cs ++ universalNewlines ds := by
  have htail : ∀ (c : Char) cs, (c :: cs).getLast? ≠ some '\r' → cs.getLast? ≠ some '\r' := by
    intro c cs h
    by_cases hnil : cs = []
    · simp [hnil]
    · rwa [List.getLast?_cons_of_ne_nil hnil] at h
  fun_induction universalNewlines cs with
  | case1 => rfl
  | case2 cs ih =>
    have hrest := ih (htail _ _ (htail _ _ h))
    simpa [universalNewlines] using hrest
  | case3 cs hne ih =>
    cases cs with
    | nil => exact (h rfl).elim
    | cons d cs =>
      have hd : d ≠ '\n' := fun hd => hne cs (by rw [hd])
      have hrest := ih (htail _ _ h)
      have hread : ∀ rest, universalNewlines ('\r' :: d :: rest) =
          '\n' :: universalNewlines (d :: rest) := by
        intro rest
        rw [universalNewlines]
        intro _ he
        exact hd (List.cons.inj he).1
      rw [List.cons_append, List.cons_append, hread, ← List.cons_append, hrest, List.cons_append]
  | case4 c cs h' hc ih =>
    have hrest := ih (htail _ _ h)
    have hread : ∀ rest, universalNewlines (c :: rest) = c :: universalNewlines rest := by
      intro rest
      rw [universalNewlines]
      · exact fun _ he _ => hc he
      · exact hc
    rw [List.cons_append, hread, hrest, List.cons_append]

theorem getLast?_universalNewlines (h : cs.getLast? = some '\n') :
    (universalNewlines cs).getLast? = some '\n' := by
  -- The ends of a text and of what it is read as, where a character is before them.
  have hcons : ∀ (c : Char) ds, ds = [] ∨ ds.getLast? = some '\n' → c = '\n' ∨ ds ≠ [] →
      (c :: ds).getLast? = some '\n' := by
    intro c ds hds hc
    by_cases hnil : ds = []
    · rw [hnil, hc.resolve_right fun h => h hnil]
      rfl
    · rw [List.getLast?_cons_of_ne_nil hnil]
      exact hds.resolve_left hnil
  have htail : ∀ (c : Char) ds, (c :: ds).getLast? = some '\n' → ds ≠ [] →
      ds.getLast? = some '\n' := by
    intro c ds h hnil
    rwa [List.getLast?_cons_of_ne_nil hnil] at h
  fun_induction universalNewlines cs with
  | case1 => exact h
  | case2 cs ih =>
    by_cases hnil : cs = []
    · rw [hnil]
      rfl
    · exact hcons '\n' _ (Or.inr (ih (htail _ _ (htail _ _ h (by simp)) hnil))) (Or.inl rfl)
  | case3 cs _ ih =>
    by_cases hnil : cs = []
    · rw [hnil] at h
      cases h
    · exact hcons '\n' _ (Or.inr (ih (htail _ _ h hnil))) (Or.inl rfl)
  | case4 c cs _ _ ih =>
    by_cases hnil : cs = []
    · rw [hnil] at h ⊢
      exact h
    · have hlast := ih (htail _ _ h hnil)
      refine hcons c _ (Or.inr hlast) (Or.inr ?_)
      rintro hno
      rw [hno] at hlast
      cases hlast

/-- What a text with the stop marker as its last line is read as. -/
theorem closed_universalNewlines (cs : List Char) :
    markers.Closed (universalNewlines (cs ++ '\n' :: (markers.stop ++ ['\n']))) := by
  have hsplit : cs ++ '\n' :: (markers.stop ++ ['\n']) =
      (cs ++ ['\n']) ++ (markers.stop ++ ['\n']) := by simp
  have hlast : (cs ++ ['\n']).getLast? = some '\n' := List.getLast?_concat
  have hnot : (cs ++ ['\n']).getLast? ≠ some '\r' := by
    rw [hlast]
    decide
  have hstop : universalNewlines (markers.stop ++ ['\n']) = markers.stop ++ ['\n'] :=
    universalNewlines_of_notMem (by decide)
  obtain ⟨ls, hls, htext⟩ := Lines.exists_text (getLast?_universalNewlines hlast)
  refine Or.inr ⟨ls, fun l hl => (hls l hl).1, ?_⟩
  rw [hsplit, universalNewlines_append hnot, htext, hstop, Lines.text_concat]
  rfl

/-- The substitution can be made in the text as it is read, and what it puts in read as well. -/
theorem universalNewlines_sub {repl : List Char → List Char}
    (hr : ∀ m, (repl m).getLast? ≠ some '\r') (hs : '\r' ∉ cs) :
    universalNewlines (markers.sub repl cs) =
      markers.sub (fun m => universalNewlines (repl m)) cs := by
  induction hn : cs.length using Nat.strongRecOn generalizing cs with
  | _ n ih =>
    cases hnext : markers.next cs with
    | none =>
      rw [Sections.Markers.sub_of_none hnext, Sections.Markers.sub_of_none hnext,
        universalNewlines_of_notMem hs]
    | some z =>
      obtain ⟨x, m, rest⟩ := z
      obtain ⟨-, -, -, -, he, -⟩ := Sections.Markers.next_some hnext
      have hx : '\r' ∉ x := fun hm => hs (by simp [he, hm])
      have hrest : '\r' ∉ rest := fun hm => hs (by simp [he, hm])
      have hlt := Sections.Markers.length_rest_lt hnext
      have hxlast : x.getLast? ≠ some '\r' := fun hl => hx (List.mem_of_getLast? hl)
      rw [Sections.Markers.sub_of_some hnext, Sections.Markers.sub_of_some hnext,
        universalNewlines_append hxlast, universalNewlines_of_notMem hx,
        universalNewlines_append (hr m), ih rest.length (hn ▸ hlt) hrest rfl]

end Newlines

section Present

theorem Present.refl (ls : List (List Char)) : Present ls ls := ⟨ls, .refl ls, rfl⟩

theorem Present.mono (h : Present kept ls) (hs : ls.Sublist ls') : Present kept ls' := by
  obtain ⟨kept', hk, hsame⟩ := h
  exact ⟨kept', hk.trans hs, hsame⟩

/-- A character that is no space stays if the lines stay. -/
theorem Present.mem (h : Present kept ls) {c : Char}
    (hc : c ∈ (Lines.text '\n' kept).rdropWhile isSpace) : c = '\n' ∨ ∃ l ∈ ls, c ∈ l := by
  obtain ⟨kept', hk, hsame⟩ := h
  rw [← hsame] at hc
  have hmem : c ∈ Lines.text '\n' kept' := (List.rdropWhile_prefix isSpace _).subset hc
  obtain ⟨l, hl, hcl⟩ := List.mem_flatMap.mp hmem
  rcases List.mem_append.mp hcl with hcl | hcl
  · exact Or.inr ⟨l, hk.subset hl, hcl⟩
  · exact Or.inl (List.mem_singleton.mp hcl)

end Present

theorem join_lines (raw : String) :
    Lines.join markers.nl (lines raw) = (readText raw).toList := by
  rw [readText, String.toList_ofList]
  exact Lines.join_splitOn '\n' _

theorem toList_newBlock (m : List (String × List String)) :
    (newBlock m).toList = Lines.text '\n' ((pymeshLines m).map String.toList) := by
  rw [newBlock, String.toList_append, toList_join, Lines.text_eq_join (by simp [pymeshLines])]
  rfl

/-- The block ends in a line that is the stop marker. -/
theorem exists_newBlock (m : List (String × List String)) :
    ∃ cs, (newBlock m).toList = cs ++ '\n' :: (markers.stop ++ ['\n']) := by
  refine ⟨Lines.join '\n' ((sectionStart :: entryLines m).map String.toList), ?_⟩
  have hlines : (pymeshLines m).map String.toList =
      (sectionStart :: entryLines m).map String.toList ++ [markers.stop] := by
    simp [pymeshLines, markers]
  rw [toList_newBlock, hlines, Lines.text_concat, Lines.text_eq_join (by simp)]
  simp

/-- The replaced text as the next call reads it. -/
theorem outside_sub {repl : List Char → List Char}
    (hr : ∀ m, repl m = [] ∨ ∃ cs, repl m = cs ++ '\n' :: (markers.stop ++ ['\n']))
    (ht : markers.Tidy (lines raw)) (hraw : raw'.toList = markers.sub repl (readText raw).toList) :
    (outside raw).Sublist (outside raw') := by
  have hclosed : ∀ m, markers.Closed (universalNewlines (repl m)) := by
    intro m
    rcases hr m with he | ⟨cs, he⟩
    · exact Or.inl (by rw [he]; rfl)
    · rw [he]
      exact closed_universalNewlines cs
  have hlast : ∀ m, (repl m).getLast? ≠ some '\r' := by
    intro m
    rcases hr m with he | ⟨cs, he⟩
    · simp [he]
    · rw [he, ← List.cons_append, ← List.append_assoc, List.getLast?_concat]
      decide
  have hnl : ∀ l ∈ lines raw, markers.nl ∉ l := fun l hl => Lines.notMem_of_mem_splitOn hl
  have hread : '\r' ∉ (readText raw).toList := by
    rw [readText, String.toList_ofList]
    exact return_notMem _
  obtain ⟨ls', hne, hls', hsub, hout⟩ := ht.keeps hnl hclosed
  have hlines : lines raw' = ls' := by
    rw [lines, hraw, universalNewlines_sub hlast hread, ← join_lines, hsub]
    exact Lines.splitOn_join (hne (List.splitOn_ne_nil _ _)) hls'
  rw [outside, outside, hlines]
  exact hout

/-- The file as the next call reads it when the block has been appended. -/
theorem lines_append (hb : ∃ cs, block.toList = cs ++ '\n' :: (markers.stop ++ ['\n']))
    (hraw : raw'.toList = Lines.join '\n' ls ++ ['\n', '\n'] ++ block.toList) (hne : ls ≠ [])
    (hr : '\r' ∉ Lines.join '\n' ls) (hn : ∀ l ∈ ls, '\n' ∉ l) :
    ∃ bs, lines raw' = ls ++ bs := by
  obtain ⟨cs, hcs⟩ := hb
  obtain ⟨bs, hbs, htext⟩ : ∃ bs : List (List Char), (∀ l ∈ bs, '\n' ∉ l) ∧
      universalNewlines block.toList = Lines.text '\n' bs := by
    rw [hcs]
    rcases closed_universalNewlines cs with he | ⟨bs, hbs, he⟩
    · exact ⟨[], by simp, he⟩
    · refine ⟨bs ++ [markers.stop], ?_, he⟩
      intro l hl
      rcases List.mem_append.mp hl with hl | hl
      · exact hbs l hl
      · rw [List.mem_singleton.mp hl]
        exact markers.stop_line
  have hlast : (Lines.join '\n' ls ++ ['\n', '\n']).getLast? ≠ some '\r' := by
    rw [List.getLast?_append_of_ne_nil _ (by simp)]
    decide
  have hplain : '\r' ∉ Lines.join '\n' ls ++ ['\n', '\n'] := by simp [hr]
  refine ⟨[] :: (bs ++ [[]]), ?_⟩
  have hjoin : universalNewlines raw'.toList =
      Lines.join '\n' (ls ++ [] :: (bs ++ [[]])) := by
    have hsplit : ls ++ [] :: (bs ++ [[]]) = (ls ++ [] :: bs) ++ [[]] := by simp
    rw [hraw, universalNewlines_append hlast, universalNewlines_of_notMem hplain, htext, hsplit,
      Lines.join_concat_nil, Lines.text_append, Lines.text_cons, Lines.text_eq_join hne]
    simp
  rw [lines, hjoin]
  refine Lines.splitOn_join (by simp) ?_
  intro l hl
  rcases List.mem_append.mp hl with hl | hl
  · exact hn l hl
  · rcases List.mem_cons.mp hl with rfl | hl
    · simp
    · rcases List.mem_append.mp hl with hl | hl
      · exact hbs l hl
      · rw [List.mem_singleton.mp hl]
        simp

/-- The block appended to a text without a start marker. -/
theorem present_append (hno : ¬ markers.start <:+: (readText raw).toList)
    (hb : ∃ cs, block.toList = cs ++ '\n' :: (markers.stop ++ ['\n']))
    (hraw : raw' = rstrip isSpace (readText raw) ++ "\n\n" ++ block)
    (hk : Present kept (lines raw)) : Present kept (outside raw') := by
  obtain ⟨kept₁, hk₁, hsame₁⟩ := hk
  have hspace : isSpace '\n' = true := by decide
  obtain ⟨ls', hne, hjoin, hpre, hkept⟩ := Lines.exists_rstrip_lines hspace (lines raw)
  obtain ⟨kept₂, hk₂, hsame₂⟩ := hkept kept₁ hk₁
  refine ⟨kept₂, ?_, hsame₂.trans hsame₁⟩
  have hjoinl : Lines.join '\n' (lines raw) = (readText raw).toList := join_lines raw
  rw [hjoinl] at hjoin
  have hline : ∀ l ∈ ls', '\n' ∉ l ∧ ¬ markers.start <:+: l := by
    intro l hl
    rcases hpre l hl with rfl | ⟨l₀, hl₀, hp⟩
    · exact ⟨by simp, fun h => markers.start_ne_nil (List.infix_nil.mp h)⟩
    · have hnl : '\n' ∉ l₀ := Lines.notMem_of_mem_splitOn hl₀
      refine ⟨fun h => hnl (hp.subset h), fun h => hno ?_⟩
      rw [← hjoinl]
      exact (h.trans hp.isInfix).trans (Lines.infix_join hl₀)
  have hr : '\r' ∉ Lines.join '\n' ls' := by
    intro hm
    rw [hjoin, readText, String.toList_ofList] at hm
    exact return_notMem _ ((List.rdropWhile_prefix isSpace _).subset hm)
  have htext : raw'.toList = Lines.join '\n' ls' ++ ['\n', '\n'] ++ block.toList := by
    rw [hraw, String.toList_append, String.toList_append, toList_rstrip, ← hjoin]
    rfl
  obtain ⟨bs, hbs⟩ := lines_append hb htext hne hr fun l hl => (hline l hl).1
  rw [outside, hbs, Sections.Markers.outside_lines fun l hl => (hline l hl).2]
  exact hk₂.trans (List.sublist_append_left ls' _)

/-- A written sync keeps the lines that are outside of the blocks. -/
theorem present_updatedContent {m : List (String × List String)}
    (hu : updatedContent (newBlock m) (readText raw) = some raw') (ht : markers.Tidy (lines raw))
    (hstart : markers.start <:+: (readText raw).toList → hasSection (readText raw) = true)
    (hk : Present kept (outside raw)) : Present kept (outside raw') := by
  obtain ⟨cs, hcs⟩ := exists_newBlock m
  unfold updatedContent at hu
  split at hu
  next hsec =>
    obtain ⟨pieces, hp, rfl⟩ := Option.map_eq_some_iff.mp hu
    rw [hcs] at hp
    obtain ⟨ps, rfl⟩ := Template.parseFrom_last_line (by decide) hp
    refine hk.mono (outside_sub ?_ ht String.toList_ofList)
    intro x
    refine Or.inr ⟨Template.expand ps x, ?_⟩
    rw [Template.expand_append, Template.expand_chars]
  next hsec =>
    have hno : ¬ markers.start <:+: (readText raw).toList := fun h => hsec (hstart h)
    refine present_append hno ⟨cs, hcs⟩ (Option.some.inj hu).symm (hk.mono ?_)
    exact Sections.Markers.outside_sublist markers (lines raw)

/-- A step keeps the lines that are outside of the blocks. -/
theorem present_step {file : Option String} {c : Call × Access}
    (hk : Present kept (outside raw)) (hg : Orderly (some raw) c) (hs : Step rt (some raw) c file) :
    ∃ raw', file = some raw' ∧ Present kept (outside raw') := by
  obtain ⟨hwrite, hmarkers⟩ := hg
  obtain ⟨ht, hstart⟩ := hmarkers raw rfl
  obtain ⟨call, access⟩ := c
  cases call with
  | syncHostsFile records activeTlds controllerUrl =>
    rcases @syncHostsFile_cases rt access records activeTlds controllerUrl raw hwrite with
      h | ⟨_, hu, h⟩
    · exact ⟨raw, hs.trans h, hk⟩
    · refine ⟨_, hs.trans h, ?_⟩
      exact present_updatedContent hu ht (hstart (by simp)) hk
  | removeHostsFile =>
    rcases @removeHostsFile_cases access raw hwrite with h | h
    · exact ⟨raw, hs.trans h, hk⟩
    · refine ⟨_, hs.trans h, hk.mono ?_⟩
      exact outside_sub (fun _ => Or.inl rfl) ht String.toList_ofList

/-- As long as the markers are in order and no write is cut off, the lines outside of the blocks
stay. -/
theorem lines_kept {calls : List (Call × Access)} {file : Option String}
    (h : Run (Guarded (Step rt) Orderly) (some raw) calls file) :
    ∃ raw', file = some raw' ∧ Present (outside raw) (lines raw') := by
  have hinv : ∃ raw', file = some raw' ∧ Present (outside raw) (outside raw') := by
    induction h with
    | refl => exact ⟨raw, rfl, .refl _⟩
    | tail _ hs ih =>
      obtain ⟨raw', rfl, hk⟩ := ih
      exact present_step hk hs.1 hs.2
  obtain ⟨raw', rfl, hk⟩ := hinv
  exact ⟨raw', rfl, hk.mono (Sections.Markers.outside_sublist markers (lines raw'))⟩

/-- A host's own entry, a sync that puts a block after it, and the removal of the block. -/
theorem lines_kept_removed : ∃ raw', some "10.0.0.5 db\n\n" = some raw' ∧
    Present (outside "10.0.0.5 db\n") (lines raw') := by
  have hsync : Step HostsRuntime.ascii (some "10.0.0.5 db\n")
      (.syncHostsFile [("Web", "100.64.0.2")] (some [".mesh"]) none, ⟨true, .complete⟩)
      (some ("10.0.0.5 db\n\n# BEGIN PYMESH DNS\n100.64.0.2\tweb web.mesh\n" ++
        "100.64.0.1\tregistry.mesh\n# END PYMESH DNS\n")) := by
    unfold Step
    decide +kernel
  have hremove : Step HostsRuntime.ascii
      (some ("10.0.0.5 db\n\n# BEGIN PYMESH DNS\n100.64.0.2\tweb web.mesh\n" ++
        "100.64.0.1\tregistry.mesh\n# END PYMESH DNS\n"))
      (.removeHostsFile, ⟨true, .complete⟩) (some "10.0.0.5 db\n\n") := by
    unfold Step
    decide +kernel
  refine lines_kept (.tail (.tail .refl ⟨⟨by simp, ?_⟩, hsync⟩) ⟨⟨by simp, ?_⟩, hremove⟩)
  · rintro _ ⟨⟩
    have hno : ¬ markers.start <:+: (readText "10.0.0.5 db\n").toList := by decide +kernel
    exact ⟨Sections.Markers.tidy_of_not_infix (join_lines _ ▸ hno), fun _ h => (hno h).elim⟩
  · rintro _ ⟨⟩
    refine ⟨?_, fun h => (h rfl).elim⟩
    have hlines : lines ("10.0.0.5 db\n\n# BEGIN PYMESH DNS\n100.64.0.2\tweb web.mesh\n" ++
        "100.64.0.1\tregistry.mesh\n# END PYMESH DNS\n") =
          "10.0.0.5 db".toList :: [] :: markers.start ::
            (["100.64.0.2\tweb web.mesh".toList, "100.64.0.1\tregistry.mesh".toList] ++
              markers.stop :: [[]]) := by
      decide +kernel
    rw [hlines]
    have hend : markers.Tidy [[]] := Sections.Markers.tidy_of_not_infix (by decide)
    exact .line (by decide) (.line (by decide)
      (.block (by decide) (Sections.cut_append_self markers.stop []) (by decide) (Or.inl rfl) hend))

/-- A start marker without a stop marker: a sync adds a block, the next one replaces everything
from that marker to the end of the block. -/
theorem lines_lost : ¬ ∀ (rt : HostsRuntime) (raw : String) (calls : List (Call × Access))
    (file : Option String), Run (Step rt) (some raw) calls file →
      ∃ raw', file = some raw' ∧ Present (outside raw) (lines raw') := by
  intro hall
  have hfirst : Step HostsRuntime.ascii (some "# BEGIN PYMESH DNS\n10.0.0.5 db\n")
      (.syncHostsFile [] none none, ⟨true, .complete⟩)
      (some ("# BEGIN PYMESH DNS\n10.0.0.5 db\n\n# BEGIN PYMESH DNS\n" ++
        "100.64.0.1\tregistry.cr registry.mesh\n# END PYMESH DNS\n")) := by
    unfold Step
    decide +kernel
  have hsecond : Step HostsRuntime.ascii
      (some ("# BEGIN PYMESH DNS\n10.0.0.5 db\n\n# BEGIN PYMESH DNS\n" ++
        "100.64.0.1\tregistry.cr registry.mesh\n# END PYMESH DNS\n"))
      (.syncHostsFile [] none none, ⟨true, .complete⟩)
      (some ("# BEGIN PYMESH DNS\n100.64.0.1\tregistry.cr registry.mesh\n" ++
        "# END PYMESH DNS\n")) := by
    unfold Step
    decide +kernel
  obtain ⟨_, ⟨⟩, hk⟩ := hall _ _ _ _ (.tail (.tail .refl hfirst) hsecond)
  have hd : 'd' = '\n' ∨ ∃ l ∈ lines ("# BEGIN PYMESH DNS\n" ++
      "100.64.0.1\tregistry.cr registry.mesh\n# END PYMESH DNS\n"), 'd' ∈ l :=
    hk.mem (by decide +kernel)
  revert hd
  decide +kernel

/-- A removal that cannot write after it has opened the file leaves nothing in it. -/
example : removeHostsFile ⟨true, .cutOff 0⟩
    (some "10.0.0.5 db\n# BEGIN PYMESH DNS\n# END PYMESH DNS\n") = (false, some "") := by
  decide +kernel

end PyMesh.HostsManager
