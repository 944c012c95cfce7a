import Mathlib.Data.List.DropRight
import Mathlib.Data.List.Infix

/-! Texts as lists of lines, and what their ends may be taken away to. -/
namespace Lines

variable {α : Type}

/-- The lines, each with its end. -/
def text (nl : α) (ls : List (List α)) : List α := ls.flatMap fun l => l ++ [nl]

/-- The lines with ends between them. -/
def join (nl : α) (ls : List (List α)) : List α := [nl].intercalate ls

variable {nl : α} {l y : List α} {ls post kept : List (List α)} {p : α → Bool}

theorem text_append (ls ls' : List (List α)) : text nl (ls ++ ls') = text nl ls ++ text nl ls' := by
  simp [text]

theorem text_cons (l : List α) (ls : List (List α)) :
    text nl (l :: ls) = l ++ nl :: text nl ls := by
  simp [text]

theorem join_cons (h : ls ≠ []) : join nl (l :: ls) = l ++ nl :: join nl ls := by
  obtain ⟨l', ls, rfl⟩ := List.exists_cons_of_ne_nil h
  rw [join, List.intercalate_cons_cons, List.append_assoc]
  rfl

theorem join_append (h : post ≠ []) : join nl (ls ++ post) = text nl ls ++ join nl post := by
  induction ls with
  | nil => rfl
  | cons l ls ih =>
    rw [List.cons_append, join_cons (by simp [h]), ih, text_cons, List.append_assoc]
    rfl

theorem infix_text (h : l ∈ ls) : l <:+: text nl ls := by
  obtain ⟨pre, post, rfl⟩ := List.append_of_mem h
  exact ⟨text nl pre, nl :: text nl post, by simp [text_append, text_cons]⟩

theorem infix_join (h : l ∈ ls) : l <:+: join nl ls := by
  obtain ⟨pre, post, rfl⟩ := List.append_of_mem h
  rw [join_append (by simp)]
  by_cases hp : post = []
  · rw [hp, join, List.intercalate_singleton]
    exact (List.suffix_append _ l).isInfix
  · rw [join_cons hp]
    exact ⟨text nl pre, nl :: join nl post, by simp⟩

theorem getLast?_text (h : ls ≠ []) : (text nl ls).getLast? = some nl := by
  rcases List.eq_nil_or_concat ls with hnil | ⟨ls', l, rfl⟩
  · exact (h hnil).elim
  · simp [text]

/-- A text whose last character is the end of a line is a text of whole lines. -/
theorem exists_text (hy : y.getLast? = some nl) :
    ∃ ls, (∀ l ∈ ls, nl ∉ l ∧ l <:+: y) ∧ y = text nl ls := by
  induction y with
  | nil => cases hy
  | cons c y ih =>
    by_cases hnil : y = []
    · rw [hnil, List.getLast?_singleton] at hy
      obtain rfl := Option.some.inj hy
      exact ⟨[[]], by simp, by simp [hnil, text]⟩
    · have hlast : y.getLast? = some nl := by
        rwa [List.getLast?_cons_of_ne_nil hnil] at hy
      obtain ⟨ls, hls, rfl⟩ := ih hlast
      have hinf : ∀ l : List α, l <:+: text nl ls → l <:+: c :: text nl ls :=
        fun l h => h.trans (List.suffix_cons c _).isInfix
      by_cases hc : c = nl
      · refine ⟨[] :: ls, ?_, by rw [text_cons, hc]; rfl⟩
        intro l hl
        rcases List.mem_cons.mp hl with rfl | hl
        · exact ⟨by simp, List.nil_infix⟩
        · exact ⟨(hls l hl).1, hinf l (hls l hl).2⟩
      · obtain ⟨l, ls, rfl⟩ := List.exists_cons_of_ne_nil fun h : ls = [] => hnil (by rw [h]; rfl)
        refine ⟨(c :: l) :: ls, ?_, by rw [text_cons, text_cons]; rfl⟩
        intro l' hl'
        rcases List.mem_cons.mp hl' with rfl | hl'
        · refine ⟨?_, ?_⟩
          · simp [Ne.symm hc, (hls l List.mem_cons_self).1]
          · rw [text_cons]
            exact (List.prefix_append (c :: l) _).isInfix
        · have hmem := hls l' (List.mem_cons_of_mem l hl')
          exact ⟨hmem.1, hinf l' hmem.2⟩

theorem text_eq_join (h : ls ≠ []) : text nl ls = join nl ls ++ [nl] := by
  rcases List.eq_nil_or_concat ls with hnil | ⟨ls', l, rfl⟩
  · exact (h hnil).elim
  · rw [List.concat_eq_append, join_append (by simp), text_append, join,
      List.intercalate_singleton]
    simp [text]

theorem join_concat_nil (ls : List (List α)) : join nl (ls ++ [[]]) = text nl ls := by
  rw [join_append (by simp), join, List.intercalate_singleton, List.append_nil]

theorem join_splitOn [BEq α] [LawfulBEq α] (nl : α) (y : List α) : join nl (y.splitOn nl) = y :=
  List.intercalate_splitOn nl

theorem splitOn_join [BEq α] [LawfulBEq α] (h : ls ≠ []) (hn : ∀ l ∈ ls, nl ∉ l) :
    (join nl ls).splitOn nl = ls :=
  List.splitOn_intercalate nl hn h

/-- No line has an end inside. -/
theorem notMem_of_mem_splitOn [BEq α] [LawfulBEq α] (hl : l ∈ y.splitOn nl) : nl ∉ l := by
  have hlast : (y ++ [nl]).getLast? = some nl := List.getLast?_concat
  obtain ⟨ls, hls, htext⟩ := exists_text hlast
  have hne : ls ≠ [] := by
    rintro rfl
    simp [text] at htext
  rw [text_eq_join hne] at htext
  have hy : y = join nl ls := List.append_cancel_right htext
  rw [hy, splitOn_join hne fun l hl => (hls l hl).1] at hl
  exact (hls l hl).1

theorem splitOn_text_append [BEq α] [LawfulBEq α] (hn : ∀ l ∈ ls, nl ∉ l) (y : List α) :
    (text nl ls ++ y).splitOn nl = ls ++ y.splitOn nl := by
  induction ls with
  | nil => rfl
  | cons l ls ih =>
    rw [text_cons, List.append_assoc, List.cons_append,
      List.splitOn_append_cons_self_of_not_mem (hn l List.mem_cons_self),
      ih fun l' hl' => hn l' (List.mem_cons_of_mem l hl'), List.cons_append]

/-- Whole lines, and a line that goes on. -/
theorem exists_text_append [BEq α] [LawfulBEq α] (nl : α) (y : List α) :
    ∃ ls l, (∀ l' ∈ ls, nl ∉ l') ∧ nl ∉ l ∧ y = text nl ls ++ l := by
  have hfree : ∀ l ∈ y.splitOn nl, nl ∉ l := fun l hl => notMem_of_mem_splitOn hl
  rcases List.eq_nil_or_concat (y.splitOn nl) with hnil | ⟨ls, l, he⟩
  · exact (List.splitOn_ne_nil nl y hnil).elim
  · rw [List.concat_eq_append] at he
    rw [he] at hfree
    refine ⟨ls, l, fun l' hl' => hfree l' (by simp [hl']), hfree l (by simp), ?_⟩
    have hy := join_splitOn nl y
    rw [he, join_append (by simp), join, List.intercalate_singleton] at hy
    exact hy.symm

/-- If one line only has a property, it is found in one place only. -/
theorem eq_of_unique {P : List α → Prop} {pre pre' post' : List (List α)} {l l' : List α}
    (he : pre ++ l :: post = pre' ++ l' :: post') (hl' : P l')
    (hpre : ∀ k ∈ pre, ¬ P k) (hpost : ∀ k ∈ post, ¬ P k) :
    pre = pre' ∧ l = l' ∧ post = post' := by
  induction pre generalizing pre' with
  | nil =>
    cases pre' with
    | nil =>
      cases he
      exact ⟨rfl, rfl, rfl⟩
    | cons k pre' =>
      cases he
      exact (hpost l' (by simp) hl').elim
  | cons k pre ih =>
    cases pre' with
    | nil =>
      cases he
      exact (hpre l' List.mem_cons_self hl').elim
    | cons k' pre' =>
      rw [List.cons_append, List.cons_append] at he
      obtain ⟨rfl, htail⟩ := List.cons.inj he
      obtain ⟨hfront, hrest⟩ := ih htail fun k' hk' => hpre k' (List.mem_cons_of_mem _ hk')
      exact ⟨by rw [hfront], hrest⟩

theorem rdropWhile_append (x y : List α) : (x ++ y).rdropWhile p =
    if y.rdropWhile p = [] then x.rdropWhile p else x ++ y.rdropWhile p := by
  simp only [List.rdropWhile, List.reverse_append, List.dropWhile_append, List.isEmpty_iff,
    List.reverse_eq_nil_iff]
  split
  · rfl
  · simp

/-- What is in a text and does not end in what is taken away stays in it. -/
theorem infix_rdropWhile {m : List α} {c : α} (hm : m <:+: y) (hc : m.getLast? = some c)
    (hp : p c = false) : m <:+: y.rdropWhile p := by
  obtain ⟨a, b, rfl⟩ := hm
  have hne : m ≠ [] := by
    rintro rfl
    cases hc
  have hself : (a ++ m).rdropWhile p = a ++ m := by
    rw [List.rdropWhile_eq_self_iff]
    intro hne'
    have hlast : (a ++ m).getLast hne' = c := by
      rw [List.getLast_append_of_ne_nil hne' hne]
      rw [List.getLast?_eq_some_getLast hne] at hc
      exact Option.some.inj hc
    rw [hlast, hp]
    exact Bool.false_ne_true
  rw [rdropWhile_append]
  split
  next =>
    rw [hself]
    exact (List.suffix_append a m).isInfix
  next => exact List.infix_append a m _

/-- Texts that are the same up to what `p` holds of at their ends. -/
def SameUpToEnd (p : α → Bool) (x y : List α) : Prop := x.rdropWhile p = y.rdropWhile p

theorem text_concat (ls : List (List α)) (l : List α) :
    text nl (ls ++ [l]) = text nl ls ++ (l ++ [nl]) := by
  simp [text]

theorem sublist_concat (h : kept.Sublist (ls ++ [l])) :
    kept.Sublist ls ∨ ∃ kept', kept'.Sublist ls ∧ kept = kept' ++ [l] := by
  obtain ⟨k₁, k₂, rfl, h₁, h₂⟩ := List.sublist_append_iff.mp h
  rcases List.sublist_singleton.mp h₂ with rfl | rfl
  · exact Or.inl (by simpa using h₁)
  · exact Or.inr ⟨k₁, h₁, rfl⟩

theorem rdropWhile_line (hp : p nl = true) (x l : List α) : (x ++ (l ++ [nl])).rdropWhile p =
    if l.rdropWhile p = [] then x.rdropWhile p else x ++ l.rdropWhile p := by
  have hend : ([nl] : List α).rdropWhile p = [] := by simp [hp]
  rw [rdropWhile_append, rdropWhile_append l, if_pos hend]

/-- A last line that is taken away whole takes the separator before it with it. -/
theorem rdropWhile_join_concat (hp : p nl = true) (hl : l.rdropWhile p = []) :
    (join nl (ls ++ [l])).rdropWhile p = (join nl ls).rdropWhile p := by
  have hend : ([nl] : List α).rdropWhile p = [] := by simp [hp]
  rw [join_append (by simp), join, List.intercalate_singleton, rdropWhile_append, if_pos hl]
  rcases List.eq_nil_or_concat ls with rfl | ⟨ls, l', rfl⟩
  · rfl
  · rw [List.concat_eq_append, text_concat, join_append (by simp), ← List.append_assoc,
      rdropWhile_append, if_pos hend, join, List.intercalate_singleton]

/-- Taking away the end of a text takes it away from the lines that are kept of it. -/
theorem exists_rstrip_lines (hp : p nl = true) (ls : List (List α)) :
    ∃ ls', ls' ≠ [] ∧ join nl ls' = (join nl ls).rdropWhile p ∧
      (∀ l' ∈ ls', l' = [] ∨ ∃ l ∈ ls, l' <+: l) ∧
      ∀ kept, kept.Sublist ls → ∃ kept', kept'.Sublist ls' ∧
        SameUpToEnd p (text nl kept') (text nl kept) := by
  induction ls using List.reverseRecOn with
  | nil =>
    refine ⟨[[]], by simp, by simp [join], by simp, fun kept hk => ⟨[], by simp, ?_⟩⟩
    rw [List.sublist_nil.mp hk]
    exact rfl
  | append_singleton ls l ih =>
    by_cases hl : l.rdropWhile p = []
    · obtain ⟨ls', hne, hj, hpre, hkept⟩ := ih
      refine ⟨ls', hne, hj.trans (rdropWhile_join_concat hp hl).symm, ?_, ?_⟩
      · intro l' hl'
        rcases hpre l' hl' with h | ⟨l₀, hl₀, h⟩
        · exact Or.inl h
        · exact Or.inr ⟨l₀, List.mem_append_left _ hl₀, h⟩
      · intro kept hk
        rcases sublist_concat hk with hk | ⟨kept₀, hk₀, rfl⟩
        · exact hkept kept hk
        · obtain ⟨kept', hk', hsame⟩ := hkept kept₀ hk₀
          refine ⟨kept', hk', ?_⟩
          rw [SameUpToEnd, text_concat, rdropWhile_line hp, if_pos hl]
          exact hsame
    · have hidem : (l.rdropWhile p).rdropWhile p = l.rdropWhile p :=
        List.rdropWhile_idempotent p l
      refine ⟨ls ++ [l.rdropWhile p], by simp, ?_, ?_, ?_⟩
      · rw [join_append (by simp), join_append (by simp), join, join, List.intercalate_singleton,
          List.intercalate_singleton, rdropWhile_append, if_neg hl]
      · intro l' hl'
        rcases List.mem_append.mp hl' with hl' | hl'
        · exact Or.inr ⟨l', List.mem_append_left _ hl', List.prefix_rfl⟩
        · rw [List.mem_singleton.mp hl']
          exact Or.inr ⟨l, by simp, List.rdropWhile_prefix p l⟩
      · intro kept hk
        rcases sublist_concat hk with hk | ⟨kept₀, hk₀, rfl⟩
        · exact ⟨kept, hk.trans (List.sublist_append_left _ _), rfl⟩
        · refine ⟨kept₀ ++ [l.rdropWhile p], hk₀.append (.refl _), ?_⟩
          rw [SameUpToEnd, text_concat, text_concat, rdropWhile_line hp, rdropWhile_line hp, hidem]

end Lines
