import PyMesh.Library.Lines

/-! Texts with sections between a start and a stop marker: the substitution of the pattern
`start.*?stop\n?`, and the sections as blocks of lines. -/
namespace Sections

open Lines

variable {α : Type}

/-- A marker without a newline that does not occur in a line does not begin in it either. -/
theorem no_prefix_of_line {m l s : List α} {nl : α} (hm : nl ∉ m) (hl : ¬ m <:+: l)
    {t : List α} (ht : t <:+ l ++ [nl]) (hne : t ≠ []) : ¬ m <+: t ++ s := by
  intro hp
  obtain ⟨t', rfl⟩ : ∃ t', t = t' ++ [nl] := by
    obtain ⟨w, hw⟩ := ht
    have hlast := congrArg List.getLast? hw
    rw [List.getLast?_append_of_ne_nil _ hne, List.getLast?_concat] at hlast
    exact ⟨t.dropLast, (List.dropLast_append_getLast? nl hlast).symm⟩
  have hsuf : t' <:+ l := by
    obtain ⟨w, hw⟩ := ht
    rw [← List.append_assoc] at hw
    exact ⟨w, List.append_cancel_right hw⟩
  by_cases hlen : m.length ≤ t'.length
  · have hp' : m <+: t' := by
      refine List.prefix_of_prefix_length_le hp ?_ hlen
      rw [List.append_assoc]
      exact List.prefix_append t' _
    exact hl (hp'.isInfix.trans hsuf.isInfix)
  · have hp' : t' ++ [nl] <+: m := by
      refine List.prefix_of_prefix_length_le (List.prefix_append (t' ++ [nl]) s) hp ?_
      rw [List.length_append, List.length_singleton]
      omega
    exact hm (hp'.subset (by simp))

/-- Two markers that are lines, and the character that ends a line. -/
structure Markers (α : Type) where
  start : List α
  stop : List α
  nl : α
  start_line : nl ∉ start
  stop_line : nl ∉ stop
  start_stop : ¬ start <:+: stop
  stop_start : ¬ stop <:+: start

namespace Markers

variable {k : Markers α}

theorem start_ne_nil (k : Markers α) : k.start ≠ [] := by
  intro h
  apply k.start_stop
  rw [h]
  exact List.nil_infix

theorem stop_ne_nil (k : Markers α) : k.stop ≠ [] := by
  intro h
  apply k.stop_start
  rw [h]
  exact List.nil_infix

end Markers

variable [DecidableEq α]

/-- The first occurrence of `m`: what is before it and what is after it. -/
def cut (m : List α) : List α → Option (List α × List α)
  | [] => if m = [] then some ([], []) else none
  | c :: cs =>
    if m.isPrefixOf (c :: cs) then some ([], (c :: cs).drop m.length)
    else (cut m cs).map fun x => (c :: x.1, x.2)

section Cut

variable {m s x y l : List α} {nl : α}

theorem cut_append_self (m y : List α) : cut m (m ++ y) = some ([], y) := by
  unfold cut
  split
  next he =>
    obtain ⟨rfl, rfl⟩ := List.append_eq_nil_iff.mp he
    rfl
  next c cs he =>
    have hp : m.isPrefixOf (c :: cs) = true := by
      rw [← he, List.isPrefixOf_iff_prefix]
      exact List.prefix_append m y
    rw [if_pos hp, ← he, List.drop_left]

theorem eq_of_cut (h : cut m s = some (x, y)) : s = x ++ (m ++ y) := by
  induction s generalizing x with
  | nil =>
    unfold cut at h
    split at h
    next hm =>
      cases h
      rw [hm]
      rfl
    next => cases h
  | cons c cs ih =>
    unfold cut at h
    split at h
    next hp =>
      cases h
      obtain ⟨t, ht⟩ := List.isPrefixOf_iff_prefix.mp hp
      rw [← ht, List.drop_left]
      rfl
    next =>
      obtain ⟨⟨x', y'⟩, hc, he⟩ := Option.map_eq_some_iff.mp h
      cases he
      rw [ih hc]
      rfl

/-- No character of `x` is the first of an occurrence. -/
theorem cut_append (h : ∀ t, t <:+ x → t ≠ [] → ¬ m <+: t ++ s) :
    cut m (x ++ s) = (cut m s).map fun z => (x ++ z.1, z.2) := by
  induction x with
  | nil => simp
  | cons c x ih =>
    have hno : ¬ m.isPrefixOf (c :: (x ++ s)) = true := by
      rw [List.isPrefixOf_iff_prefix]
      exact h (c :: x) List.suffix_rfl (by simp)
    rw [List.cons_append, cut, if_neg hno, ih fun t ht => h t (ht.trans (List.suffix_cons c x))]
    cases cut m s with
    | none => rfl
    | some z => rfl

theorem cut_eq_none_iff : cut m s = none ↔ ¬ m <:+: s := by
  constructor
  · rintro h ⟨x, y, rfl⟩
    induction x with
    | nil =>
      rw [List.nil_append, cut_append_self] at h
      cases h
    | cons c x ih =>
      rw [List.cons_append, List.cons_append, cut] at h
      split at h
      next => cases h
      next => exact ih (Option.map_eq_none_iff.mp h)
  · intro h
    cases hc : cut m s with
    | none => rfl
    | some z => exact (h ⟨z.1, z.2, by rw [eq_of_cut hc, List.append_assoc]⟩).elim

/-- The first occurrence stays the first when the text goes on. -/
theorem cut_append_right (h : cut m s = some (x, y)) (t : List α) :
    cut m (s ++ t) = some (x, y ++ t) := by
  induction s generalizing x with
  | nil =>
    obtain ⟨rfl, he⟩ := List.append_eq_nil_iff.mp (eq_of_cut h).symm
    obtain ⟨rfl, rfl⟩ := List.append_eq_nil_iff.mp he
    exact cut_append_self [] t
  | cons c s ih =>
    rw [cut] at h
    split at h
    next hp =>
      cases h
      obtain ⟨u, hu⟩ := List.isPrefixOf_iff_prefix.mp hp
      rw [← hu, List.append_assoc, cut_append_self, List.drop_left]
    next hp =>
      obtain ⟨⟨x', y'⟩, hc, he⟩ := Option.map_eq_some_iff.mp h
      cases he
      have hno : ¬ m.isPrefixOf (c :: (s ++ t)) = true := by
        intro hp'
        have hlen : m.length ≤ (c :: s).length := by
          have hl := congrArg List.length (eq_of_cut hc)
          simp only [List.length_append] at hl
          rw [List.length_cons]
          omega
        rw [List.isPrefixOf_iff_prefix] at hp hp'
        exact hp (List.prefix_of_prefix_length_le hp' (List.prefix_append (c :: s) t) hlen)
      rw [List.cons_append, cut, if_neg hno, ih hc]
      rfl

theorem cut_line (hm : nl ∉ m) (hl : ¬ m <:+: l) (s : List α) :
    cut m (l ++ nl :: s) = (cut m s).map fun z => (l ++ nl :: z.1, z.2) := by
  have h := cut_append (x := l ++ [nl]) (s := s) fun t ht hne => no_prefix_of_line hm hl ht hne
  simpa using h

omit [DecidableEq α] in
theorem infix_newline_iff (hm : nl ∉ m) (hne : m ≠ []) : m <:+: nl :: s ↔ m <:+: s := by
  rw [List.infix_cons_iff]
  refine or_iff_right fun hp => ?_
  obtain ⟨c, m, rfl⟩ := List.exists_cons_of_ne_nil hne
  obtain ⟨t, ht⟩ := hp
  obtain ⟨rfl, -⟩ := List.cons.inj ht
  exact hm List.mem_cons_self

end Cut

namespace Markers

variable (k : Markers α)

/-- The first match of `start.*?stop\n?`: what is before it, the match, and what is after it. -/
def next (s : List α) : Option (List α × List α × List α) :=
  match cut k.start s with
  | none => none
  | some (x, t) =>
    match cut k.stop t with
    | none => none
    | some (inner, u) =>
      if u.head? = some k.nl then some (x, k.start ++ (inner ++ (k.stop ++ [k.nl])), u.tail)
      else some (x, k.start ++ (inner ++ k.stop), u)

/-- The first matches replaced, `n` of them at most. -/
def subFrom (repl : List α → List α) : Nat → List α → List α
  | 0, s => s
  | n + 1, s =>
    match k.next s with
    | none => s
    | some (x, m, rest) => x ++ (repl m ++ subFrom repl n rest)

/-- `re.sub` of the pattern. -/
def sub (repl : List α → List α) (s : List α) : List α := k.subFrom repl s.length s

variable {k} {s x m rest t u inner : List α} {repl : List α → List α}

theorem next_none_of_start (h : cut k.start s = none) : k.next s = none := by
  rw [next, h]

theorem next_of_cuts_line (h : cut k.start s = some (x, t))
    (h' : cut k.stop t = some (inner, k.nl :: rest)) :
    k.next s = some (x, k.start ++ (inner ++ (k.stop ++ [k.nl])), rest) := by
  simp [next, h, h']

theorem next_of_cuts (h : cut k.start s = some (x, t)) (h' : cut k.stop t = some (inner, rest))
    (hrest : rest.head? ≠ some k.nl) :
    k.next s = some (x, k.start ++ (inner ++ k.stop), rest) := by
  simp only [next, h, h', if_neg hrest]

/-- What a match is made of. -/
theorem next_some (h : k.next s = some (x, m, rest)) : ∃ inner u,
    cut k.start s = some (x, inner ++ (k.stop ++ u)) ∧ cut k.stop (inner ++ (k.stop ++ u)) =
      some (inner, u) ∧ s = x ++ (m ++ rest) ∧
    ((m = k.start ++ (inner ++ (k.stop ++ [k.nl])) ∧ u = k.nl :: rest) ∨
      (m = k.start ++ (inner ++ k.stop) ∧ u = rest ∧ u.head? ≠ some k.nl)) := by
  unfold next at h
  split at h
  next => cases h
  next x' t hc =>
    split at h
    next => cases h
    next inner u hc' =>
      have ht := eq_of_cut hc'
      have hs := eq_of_cut hc
      rw [ht] at hs hc
      split at h
      next hu =>
        cases h
        have hcons : u = k.nl :: u.tail := List.eq_cons_of_mem_head? hu
        refine ⟨inner, u, hc, ht ▸ hc', ?_, Or.inl ⟨rfl, hcons⟩⟩
        rw [hs, hcons]
        simp
      next hu =>
        cases h
        refine ⟨inner, rest, hc, ht ▸ hc', ?_, Or.inr ⟨rfl, rfl, hu⟩⟩
        rw [hs]
        simp

theorem length_rest_lt (h : k.next s = some (x, m, rest)) : rest.length < s.length := by
  obtain ⟨inner, u, -, -, hs, hm⟩ := next_some h
  have hpos : 0 < m.length := by
    have hstart := List.length_pos_iff.mpr k.start_ne_nil
    rcases hm with ⟨rfl, -⟩ | ⟨rfl, -, -⟩
    · rw [List.length_append]
      omega
    · rw [List.length_append]
      omega
  rw [hs, List.length_append, List.length_append]
  omega

/-- No text has more matches than characters. -/
theorem subFrom_of_le {n : Nat} (h : s.length ≤ n) : k.subFrom repl n s = k.sub repl s := by
  have hall : ∀ j n : Nat, ∀ s : List α, s.length ≤ j → s.length ≤ n →
      k.subFrom repl n s = k.subFrom repl s.length s := by
    intro j
    induction j with
    | zero =>
      intro n s hj hn
      have hs : s = [] := List.eq_nil_of_length_eq_zero (by omega)
      subst hs
      have hnone : k.next [] = none := by
        apply next_none_of_start
        rw [cut, if_neg k.start_ne_nil]
      cases n with
      | zero => rfl
      | succ n => simp [subFrom, hnone]
    | succ j ih =>
      intro n s hj hn
      cases hs : k.next s with
      | none =>
        cases n with
        | zero =>
          obtain rfl : s = [] := List.eq_nil_of_length_eq_zero (by omega)
          rfl
        | succ n =>
          cases hl : s.length with
          | zero => simp [subFrom, hs]
          | succ l => simp [subFrom, hs]
      | some z =>
        obtain ⟨x, m, rest⟩ := z
        have hlt := length_rest_lt hs
        obtain ⟨n, rfl⟩ : ∃ n', n = n' + 1 := ⟨n - 1, by omega⟩
        obtain ⟨l, hl⟩ : ∃ l, s.length = l + 1 := ⟨s.length - 1, by omega⟩
        rw [hl]
        simp only [subFrom, hs]
        rw [ih n rest (by omega) (by omega), ih l rest (by omega) (by omega)]
  exact hall s.length n s le_rfl h

theorem sub_of_none (h : k.next s = none) : k.sub repl s = s := by
  unfold sub
  cases s.length with
  | zero => rfl
  | succ n => simp [subFrom, h]

theorem sub_of_some (h : k.next s = some (x, m, rest)) :
    k.sub repl s = x ++ (repl m ++ k.sub repl rest) := by
  have hlt := length_rest_lt h
  obtain ⟨n, hn⟩ : ∃ n, s.length = n + 1 := ⟨s.length - 1, by omega⟩
  rw [sub, hn]
  simp only [subFrom, h]
  rw [subFrom_of_le (by omega)]

/-- A line without the start marker is before the first match. -/
theorem next_line {l : List α} (hl : ¬ k.start <:+: l) (s : List α) :
    k.next (l ++ k.nl :: s) = (k.next s).map fun z => (l ++ k.nl :: z.1, z.2) := by
  rw [next, next, cut_line k.start_line hl s]
  cases cut k.start s with
  | none => rfl
  | some z =>
    simp only [Option.map_some]
    cases cut k.stop z.2 with
    | none => rfl
    | some w =>
      simp only
      split
      next => rfl
      next => rfl

/-- A line without the start marker is left alone. -/
theorem sub_line {l : List α} (hl : ¬ k.start <:+: l) (s : List α) :
    k.sub repl (l ++ k.nl :: s) = l ++ k.nl :: k.sub repl s := by
  have hline := next_line hl s
  cases hs : k.next s with
  | none =>
    rw [hs, Option.map_none] at hline
    rw [sub_of_none hline, sub_of_none hs]
  | some z =>
    obtain ⟨x, m, rest⟩ := z
    rw [hs, Option.map_some] at hline
    rw [sub_of_some hline, sub_of_some hs, List.append_assoc]
    rfl

end Markers

/-- A piece of a text: a line, or the lines of a block without those of its markers. -/
inductive Item (α : Type) where
  | line (l : List α)
  | block (inner : List (List α))

namespace Item

def line? : Item α → Option (List α)
  | line l => some l
  | block _ => none

def block? : Item α → Option (List (List α))
  | line _ => none
  | block inner => some inner

end Item

namespace Markers

variable (k : Markers α)

/-- The lines of a text in pieces: a line that is the start marker opens a block if a line that
is the stop marker follows. The lines of a block that has been opened are collected. -/
def parse : Option (List (List α)) → List (List α) → List (Item α)
  | _, [] => []
  | none, l :: ls =>
    if l = k.start ∧ k.stop ∈ ls then parse (some []) ls else .line l :: parse none ls
  | some inner, l :: ls =>
    if l = k.stop then .block inner :: parse none ls else parse (some (inner ++ [l])) ls

/-- The lines that are not inside a complete block. -/
def outside (ls : List (List α)) : List (List α) := (k.parse none ls).filterMap Item.line?

/-- The complete blocks. -/
def blocks (ls : List (List α)) : List (List (List α)) :=
  (k.parse none ls).filterMap Item.block?

/-- A text of lines without the start marker and of blocks, and after them a rest in which no
stop marker follows a start marker. In a block no start marker comes after the first stop marker
and in the same line, and if that is not a line by itself, a stop marker that is one follows. -/
inductive Tidy : List (List α) → Prop
  | rest {ls : List (List α)}
      (h : ∀ x y, cut k.start (join k.nl ls) = some (x, y) → ¬ k.stop <:+: y) : Tidy ls
  | line {l : List α} {ls : List (List α)} (hl : ¬ k.start <:+: l) (h : Tidy ls) : Tidy (l :: ls)
  | block {inner : List (List α)} {l x y : List α} {post : List (List α)}
      (hi : ∀ l ∈ inner, ¬ k.stop <:+: l) (hl : cut k.stop l = some (x, y))
      (hy : ¬ k.start <:+: y) (hs : l = k.stop ∨ k.stop ∈ post) (h : Tidy post) :
      Tidy (k.start :: (inner ++ l :: post))

/-- Nothing, or lines of which the last one is the stop marker. -/
def Closed (y : List α) : Prop :=
  y = [] ∨ ∃ ls, (∀ l ∈ ls, k.nl ∉ l) ∧ y = text k.nl (ls ++ [k.stop])

variable {k} {l : List α} {ls ls' inner post : List (List α)} {repl : List α → List α}

theorem tidy_of_not_infix (h : ¬ k.start <:+: join k.nl ls) : k.Tidy ls := by
  apply Tidy.rest
  intro x y hc
  rw [cut_eq_none_iff.mpr h] at hc
  cases hc

theorem parse_line (h : l = k.start → k.stop ∉ ls) :
    k.parse none (l :: ls) = .line l :: k.parse none ls := by
  have hno : ¬ (l = k.start ∧ k.stop ∈ ls) := fun hl => h hl.1 hl.2
  rw [parse, if_neg hno]

theorem parse_block (h : k.stop ∉ inner) :
    k.parse none (k.start :: (inner ++ k.stop :: post)) = .block inner :: k.parse none post := by
  have hopen : ∀ acc, k.parse (some acc) (inner ++ k.stop :: post) =
      .block (acc ++ inner) :: k.parse none post := by
    induction inner with
    | nil => simp [parse]
    | cons l inner ih =>
      intro acc
      have hl : l ≠ k.stop := fun hl => h (hl ▸ List.mem_cons_self)
      rw [List.cons_append, parse, if_neg hl, ih fun hm => h (List.mem_cons_of_mem l hm)]
      simp
  rw [parse, if_pos (by simp), hopen, List.nil_append]

theorem outside_line (hl : ¬ k.start <:+: l) : k.outside (l :: ls) = l :: k.outside ls := by
  have hne : l = k.start → k.stop ∉ ls := fun h => (hl (h ▸ List.infix_rfl)).elim
  rw [outside, parse_line hne, outside]
  rfl

theorem outside_lines (h : ∀ l ∈ ls, ¬ k.start <:+: l) (post : List (List α)) :
    k.outside (ls ++ post) = ls ++ k.outside post := by
  induction ls with
  | nil => rfl
  | cons l ls ih =>
    rw [List.cons_append, outside_line (h l List.mem_cons_self),
      ih fun l' hl' => h l' (List.mem_cons_of_mem l hl'), List.cons_append]

theorem outside_block (h : k.stop ∉ inner) :
    k.outside (k.start :: (inner ++ k.stop :: post)) = k.outside post := by
  rw [outside, parse_block h, outside]
  rfl

/-- After a line that is the stop marker no block is open. -/
theorem exists_parse_closed (ls post : List (List α)) (acc : Option (List (List α))) :
    ∃ pieces, k.parse acc (ls ++ k.stop :: post) = pieces ++ k.parse none post := by
  induction ls generalizing acc with
  | nil =>
    cases acc with
    | none =>
      have hne : k.stop ≠ k.start := fun h => k.start_stop (h ▸ List.infix_rfl)
      exact ⟨[.line k.stop], by rw [List.nil_append, parse_line fun h => (hne h).elim]; rfl⟩
    | some inner => exact ⟨[.block inner], by simp [parse]⟩
  | cons l ls ih =>
    cases acc with
    | none =>
      by_cases hl : l = k.start ∧ k.stop ∈ ls ++ k.stop :: post
      · obtain ⟨pieces, hp⟩ := ih (some [])
        exact ⟨pieces, by rw [List.cons_append, parse, if_pos hl, hp]⟩
      · obtain ⟨pieces, hp⟩ := ih none
        exact ⟨.line l :: pieces, by rw [List.cons_append, parse, if_neg hl, hp]; rfl⟩
    | some inner =>
      by_cases hl : l = k.stop
      · obtain ⟨pieces, hp⟩ := ih none
        exact ⟨.block inner :: pieces, by rw [List.cons_append, parse, if_pos hl, hp]; rfl⟩
      · obtain ⟨pieces, hp⟩ := ih (some (inner ++ [l]))
        exact ⟨pieces, by rw [List.cons_append, parse, if_neg hl, hp]⟩

theorem outside_closed (ls post : List (List α)) :
    (k.outside post).Sublist (k.outside (ls ++ k.stop :: post)) := by
  obtain ⟨pieces, hp⟩ := exists_parse_closed (k := k) ls post none
  rw [outside, outside, hp, List.filterMap_append]
  exact List.sublist_append_right _ _

/-- The lines that are not inside of a block are lines of the text, in their order. -/
theorem outside_sublist (k : Markers α) (ls : List (List α)) : (k.outside ls).Sublist ls := by
  have hall : ∀ ls acc, ((k.parse acc ls).filterMap Item.line?).Sublist ls := by
    intro ls
    induction ls with
    | nil =>
      intro acc
      cases acc <;> exact List.nil_sublist _
    | cons l ls ih =>
      intro acc
      cases acc with
      | none =>
        rw [parse]
        split
        next => exact (ih (some [])).trans (List.sublist_cons_self _ _)
        next => exact (ih none).cons_cons l
      | some inner =>
        rw [parse]
        split
        next => exact (ih none).trans (List.sublist_cons_self _ _)
        next => exact (ih _).trans (List.sublist_cons_self _ _)
  exact hall ls none

theorem cut_text {m : List α} (hm : k.nl ∉ m) (h : ∀ l ∈ ls, ¬ m <:+: l) (s : List α) :
    cut m (text k.nl ls ++ s) = (cut m s).map fun z => (text k.nl ls ++ z.1, z.2) := by
  induction ls with
  | nil => simp [text]
  | cons l ls ih =>
    rw [text_cons, List.append_assoc, List.cons_append, cut_line hm (h l List.mem_cons_self),
      ih fun l' hl' => h l' (List.mem_cons_of_mem l hl')]
    cases cut m s with
    | none => rfl
    | some z => simp

/-- A text without newlines that is somewhere in the lines is in one of them. -/
theorem exists_line_of_infix {m : List α} (hm : k.nl ∉ m) (hne : m ≠ [])
    (h : m <:+: text k.nl ls) : ∃ l ∈ ls, m <:+: l := by
  by_contra hno
  have hfree : ∀ l ∈ ls, ¬ m <:+: l := fun l hl hml => hno ⟨l, hl, hml⟩
  have hcut := cut_text hm hfree []
  have hnil : cut m [] = none := by rw [cut, if_neg hne]
  rw [List.append_nil, hnil] at hcut
  exact cut_eq_none_iff.mp hcut h

section Frame

variable {x y s : List α}

/-- The substitution turns the lines into others, without touching those outside of blocks. -/
def Keeps (k : Markers α) (repl : List α → List α) (ls : List (List α)) : Prop :=
  ∃ ls', (ls ≠ [] → ls' ≠ []) ∧ (∀ l ∈ ls', k.nl ∉ l) ∧ k.sub repl (join k.nl ls) = join k.nl ls' ∧
    (k.outside ls).Sublist (k.outside ls')

theorem sub_of_not_infix (h : ¬ k.start <:+: s) : k.sub repl s = s :=
  sub_of_none (next_none_of_start (cut_eq_none_iff.mpr h))

theorem Keeps.line (h : k.Keeps repl ls) (hl : ¬ k.start <:+: l) (hn : k.nl ∉ l) :
    k.Keeps repl (l :: ls) := by
  obtain ⟨ls', hne, hls', hsub, hout⟩ := h
  by_cases hnil : ls = []
  · subst hnil
    refine ⟨[l], by simp, by simpa using hn, ?_, .refl _⟩
    rw [join, List.intercalate_singleton]
    exact sub_of_not_infix hl
  · refine ⟨l :: ls', by simp, ?_, ?_, ?_⟩
    · intro l' hl'
      rcases List.mem_cons.mp hl' with rfl | hl'
      · exact hn
      · exact hls' l' hl'
    · rw [join_cons hnil, join_cons (hne hnil), sub_line hl, hsub]
    · rw [outside_line hl, outside_line hl]
      exact hout.cons_cons l

/-- A match in front of a text that is kept. -/
theorem Keeps.closed (h : k.Keeps repl post) (hy : k.Closed y) :
    ∃ ls', ls' ≠ [] ∧ (∀ l ∈ ls', k.nl ∉ l) ∧ y ++ k.sub repl (join k.nl post) = join k.nl ls' ∧
      (k.outside post).Sublist (k.outside ls') := by
  obtain ⟨ls', -, hls', hsub, hout⟩ := h
  obtain ⟨rest, hrest, hlines, hjoin, hsl⟩ : ∃ rest : List (List α), rest ≠ [] ∧
      (∀ l ∈ rest, k.nl ∉ l) ∧ join k.nl rest = join k.nl ls' ∧
        (k.outside post).Sublist (k.outside rest) := by
    by_cases hnil : ls' = []
    · refine ⟨[[]], by simp, by simp, by rw [hnil]; rfl, ?_⟩
      rw [hnil] at hout
      exact hout.trans (List.nil_sublist _)
    · exact ⟨ls', hnil, hls', rfl, hout⟩
  rw [hsub, ← hjoin]
  rcases hy with rfl | ⟨ls, hls, rfl⟩
  · exact ⟨rest, hrest, hlines, rfl, hsl⟩
  · refine ⟨ls ++ k.stop :: rest, by simp, ?_, ?_, hsl.trans (outside_closed ls rest)⟩
    · intro l hl
      rcases List.mem_append.mp hl with hl | hl
      · exact hls l hl
      · rcases List.mem_cons.mp hl with rfl | hl
        · exact k.stop_line
        · exact hlines l hl
    · have hsplit : ls ++ k.stop :: rest = (ls ++ [k.stop]) ++ rest := by simp
      rw [hsplit, join_append hrest]

/-- The text of a block, up to the stop marker. -/
theorem cut_stop_block (hi : ∀ l ∈ inner, ¬ k.stop <:+: l) (hl : cut k.stop l = some (x, y))
    (t : List α) : cut k.stop (k.nl :: (text k.nl inner ++ (l ++ t))) =
      some (k.nl :: (text k.nl inner ++ x), y ++ t) := by
  have hfree : ∀ l ∈ [] :: inner, ¬ k.stop <:+: l := by
    intro l hl
    rcases List.mem_cons.mp hl with rfl | hl
    · exact fun h => k.stop_ne_nil (List.infix_nil.mp h)
    · exact hi l hl
  have hall := cut_text k.stop_line hfree (l ++ t)
  rw [cut_append_right hl, text_cons] at hall
  exact hall

/-- What follows the match of a block: the rest of the line with the stop marker, if there is
one, and the lines after it. -/
theorem exists_next_block (hi : ∀ l ∈ inner, ¬ k.stop <:+: l) (hl : cut k.stop l = some (x, y))
    (hn : k.nl ∉ l) (post : List (List α)) :
    ∃ ls, (ls = post ∨ ls = y :: post) ∧ ∃ m,
      k.next (join k.nl (k.start :: (inner ++ l :: post))) = some ([], m, join k.nl ls) := by
  have hy : k.nl ∉ y := fun h => hn (eq_of_cut hl ▸ by simp [h])
  have hcut := cut_stop_block hi hl
  by_cases hp : post = []
  · have htext : join k.nl (k.start :: (inner ++ l :: post)) =
        k.start ++ (k.nl :: (text k.nl inner ++ (l ++ []))) := by
      rw [join_cons (by simp), join_append (by simp), hp, join, List.intercalate_singleton,
        List.append_nil]
    have hstart := cut_append_self k.start (k.nl :: (text k.nl inner ++ (l ++ [])))
    rw [htext]
    have hhead : (y ++ []).head? ≠ some k.nl := by
      intro h
      rw [List.append_nil] at h
      exact hy (List.mem_of_head? h)
    have hlast : join k.nl (y :: post) = y ++ [] := by
      rw [hp, join, List.intercalate_singleton, List.append_nil]
    have hnext := next_of_cuts hstart (hcut []) hhead
    rw [← hlast] at hnext
    exact ⟨y :: post, Or.inr rfl, _, hnext⟩
  · have htext : join k.nl (k.start :: (inner ++ l :: post)) =
        k.start ++ (k.nl :: (text k.nl inner ++ (l ++ k.nl :: join k.nl post))) := by
      rw [join_cons (by simp), join_append (by simp), join_cons hp]
    have hstart :=
      cut_append_self k.start (k.nl :: (text k.nl inner ++ (l ++ k.nl :: join k.nl post)))
    rw [htext]
    by_cases hnil : y = []
    · subst hnil
      exact ⟨post, Or.inl rfl, _, next_of_cuts_line hstart (hcut _)⟩
    · obtain ⟨c, y, rfl⟩ := List.exists_cons_of_ne_nil hnil
      have hhead : (c :: y ++ k.nl :: join k.nl post).head? ≠ some k.nl := by
        intro h
        exact hy (Option.some.inj h ▸ List.mem_cons_self)
      have hnext := next_of_cuts hstart (hcut _) hhead
      have hjoin : join k.nl ((c :: y) :: post) = c :: y ++ k.nl :: join k.nl post := join_cons hp
      rw [← hjoin] at hnext
      exact ⟨(c :: y) :: post, Or.inr rfl, _, hnext⟩

/-- What is outside of the blocks is after the first stop marker of a block. -/
theorem outside_block_sublist (hi : ∀ l ∈ inner, ¬ k.stop <:+: l)
    (hs : l = k.stop ∨ k.stop ∈ post) :
    (k.outside (k.start :: (inner ++ l :: post))).Sublist (k.outside post) := by
  have hinner : k.stop ∉ inner := fun h => hi k.stop h List.infix_rfl
  by_cases hl : l = k.stop
  · rw [hl, outside_block hinner]
  · obtain ⟨ls, rest, rfl, hls⟩ := List.eq_append_cons_of_mem (hs.resolve_left hl)
    have hno : k.stop ∉ inner ++ l :: ls := by
      simp [hinner, Ne.symm hl, hls]
    have hsplit : inner ++ l :: (ls ++ k.stop :: rest) = (inner ++ l :: ls) ++ k.stop :: rest := by
      simp
    rw [hsplit, outside_block hno]
    exact outside_closed ls rest

/-- The substitution keeps the lines outside of the blocks of a tidy text. -/
theorem Tidy.keeps (h : k.Tidy ls) (hn : ∀ l ∈ ls, k.nl ∉ l) (hr : ∀ m, k.Closed (repl m)) :
    k.Keeps repl ls := by
  induction h with
  | @rest ls h =>
    refine ⟨ls, fun hne => hne, hn, ?_, .refl _⟩
    apply sub_of_none
    unfold next
    split
    next => rfl
    next x t hc => rw [cut_eq_none_iff.mpr (h x t hc)]
  | @line l ls hl _ ih =>
    exact (ih fun l' hl' => hn l' (List.mem_cons_of_mem l hl')).line hl (hn l List.mem_cons_self)
  | @block inner l x y post hi hl hy hs _ ih =>
    have hline : k.nl ∉ l := hn l (by simp)
    have hpost := ih fun l hl => hn l (by simp [hl])
    have hrest := hpost.line hy fun h => hline (eq_of_cut hl ▸ by simp [h])
    obtain ⟨ls, hls, m, hnext⟩ := exists_next_block hi hl hline post
    have hkeeps : k.Keeps repl ls ∧ (k.outside post).Sublist (k.outside ls) := by
      rcases hls with rfl | rfl
      · exact ⟨hpost, .refl _⟩
      · exact ⟨hrest, outside_line hy ▸ List.sublist_cons_self _ _⟩
    obtain ⟨ls', hne, hls', hsub, hout⟩ := hkeeps.1.closed (hr m)
    refine ⟨ls', fun _ => hne, hls', ?_, ?_⟩
    · rw [sub_of_some hnext, ← hsub]
      rfl
    · exact ((outside_block_sublist hi hs).trans hkeeps.2).trans hout

end Frame

end Markers

end Sections
