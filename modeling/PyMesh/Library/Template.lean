import PyMesh.Library.Sections

/-! The replacement templates of `re.sub` for a pattern without groups. -/
namespace Template

open Sections

/-- A piece of a parsed template: a character, or the whole match. -/
inductive Piece where
  | char (c : Char)
  | whole
deriving DecidableEq

def isOctal (c : Char) : Bool := '0' ≤ c && c ≤ '7'

def isDigit (c : Char) : Bool := '0' ≤ c && c ≤ '9'

def isLetter (c : Char) : Bool := ('a' ≤ c && c ≤ 'z') || ('A' ≤ c && c ≤ 'Z')

def octal (digits : List Char) : Nat :=
  digits.foldl (fun n d => 8 * n + (d.toNat - '0'.toNat)) 0

/-- The escapes that stand for another character. -/
def escapes : List (Char × Char) :=
  [('a', '\x07'), ('b', '\x08'), ('f', '\x0c'), ('n', '\n'), ('r', '\r'), ('t', '\t'),
    ('v', '\x0b'), ('\\', '\\')]

/-- A reference to a group: there is only the whole match, the group of number zero. -/
def escapeGroup : List Char → Option (List Piece × List Char)
  | '<' :: cs => do
    let (name, rest) ← cut ['>'] cs
    if name ≠ [] ∧ name.all (· = '0') then some ([.whole], rest) else none
  | _ => none

/-- Three octal digits; with anything else it is a reference to a group that is not there. -/
def escapeDigits (c : Char) : List Char → Option (List Piece × List Char)
  | d :: d' :: rest =>
    if isOctal c && isOctal d && isOctal d' && octal [c, d, d'] ≤ 255 then
      some ([.char (Char.ofNat (octal [c, d, d']))], rest)
    else none
  | _ => none

def escapeZero (cs : List Char) : List Piece × List Char :=
  let digits := (cs.take 2).takeWhile isOctal
  ([.char (Char.ofNat (octal digits))], cs.drop digits.length)

def escapeOther (c : Char) (cs : List Char) : Option (List Piece × List Char) :=
  match escapes.lookup c with
  | some e => some ([.char e], cs)
  | none => if isLetter c then none else some ([.char '\\', .char c], cs)

/-- What comes after a backslash: the pieces that it stands for, and the rest. -/
def escape : List Char → Option (List Piece × List Char)
  | [] => none
  | c :: cs =>
    if c = 'g' then escapeGroup cs
    else if c = '0' then some (escapeZero cs)
    else if isDigit c then escapeDigits c cs
    else escapeOther c cs

/-- The pieces of a template of at most `n` characters; `none` where it is malformed. -/
def parseFrom : Nat → List Char → Option (List Piece)
  | _, [] => some []
  | 0, _ :: _ => none
  | n + 1, c :: cs =>
    if c = '\\' then
      match escape cs with
      | none => none
      | some (pieces, rest) => (parseFrom n rest).map (pieces ++ ·)
    else (parseFrom n cs).map (.char c :: ·)

def parse (cs : List Char) : Option (List Piece) := parseFrom cs.length cs

/-- The replacement of a match. -/
def expand (pieces : List Piece) (m : List Char) : List Char :=
  pieces.flatMap fun
    | .char c => [c]
    | .whole => m

/-- A character that makes an escape with a backslash before it. -/
def special (c : Char) : Bool := isLetter c || isDigit c || c = '\\'

/-- No backslash of the text makes an escape. -/
def Verbatim (cs : List Char) : Prop :=
  ∀ x c y, cs = x ++ '\\' :: c :: y → special c = false

variable {cs rest : List Char} {pieces : List Piece} {n : Nat}

theorem expand_append (ps ps' : List Piece) (m : List Char) :
    expand (ps ++ ps') m = expand ps m ++ expand ps' m := by
  simp [expand]

theorem expand_chars (cs m : List Char) : expand (cs.map .char) m = cs := by
  induction cs with
  | nil => rfl
  | cons c cs ih =>
    rw [List.map_cons, expand, List.flatMap_cons, ← expand, ih]
    rfl

theorem isDigit_special {c : Char} (h : isDigit c = true) : special c = true := by
  simp [special, h]

theorem isOctal_ne_newline {c : Char} (h : isOctal c = true) : c ≠ '\n' := by
  rintro rfl
  revert h
  decide

theorem lookup_special {c e : Char} (h : escapes.lookup c = some e) :
    special c = true ∧ c ≠ '\n' := by
  have hall : ∀ x ∈ escapes, special x.1 = true ∧ x.1 ≠ '\n' := by decide
  obtain ⟨l₁, l₂, he, -⟩ := List.lookup_eq_some_iff.mp h
  exact hall (c, e) (by rw [he]; simp)

/-- An escape of one line that takes up more characters than it stands for. -/
def Shortens (taken : List Char) (pieces : List Piece) : Prop :=
  pieces.length ≤ taken.length ∧ '\n' ∉ taken ∧ ∃ c y, taken = c :: y ∧ special c = true

theorem escapeGroup_shortens (h : escapeGroup cs = some (pieces, rest)) :
    ∃ taken, 'g' :: cs = taken ++ rest ∧ Shortens taken pieces := by
  unfold escapeGroup at h
  split at h
  next cs' =>
    rw [Option.bind_eq_bind, Option.bind_eq_some_iff] at h
    obtain ⟨⟨name, rest'⟩, hc, h⟩ := h
    simp only at h
    split_ifs at h with hname
    · cases h
      refine ⟨'g' :: '<' :: (name ++ ['>']), ?_, by simp, ?_, 'g', _, rfl, by decide⟩
      · rw [eq_of_cut hc]
        simp
      · have hzero : '\n' ∉ name := fun hn =>
          absurd (of_decide_eq_true (List.all_eq_true.mp hname.2 _ hn)) (by decide)
        simp [hzero]
  next => cases h

theorem escapeZero_shortens (h : escapeZero cs = (pieces, rest)) :
    ∃ taken, '0' :: cs = taken ++ rest ∧ Shortens taken pieces := by
  cases h
  have hoct : ∀ d ∈ (cs.take 2).takeWhile isOctal, isOctal d = true :=
    fun d hd => List.mem_takeWhile_imp hd
  refine ⟨'0' :: (cs.take 2).takeWhile isOctal, ?_, by simp, ?_, '0', _, rfl, by decide⟩
  · have hpre : (cs.take 2).takeWhile isOctal <+: cs :=
      (List.takeWhile_prefix _).trans (List.take_prefix 2 cs)
    rw [List.cons_append, List.prefix_iff_eq_append.mp hpre]
  · intro hn
    rcases List.mem_cons.mp hn with hn | hn
    · cases hn
    · exact isOctal_ne_newline (hoct _ hn) rfl

theorem escapeDigits_shortens {c : Char} (hd : isDigit c = true)
    (h : escapeDigits c cs = some (pieces, rest)) :
    ∃ taken, c :: cs = taken ++ rest ∧ Shortens taken pieces := by
  unfold escapeDigits at h
  split at h
  next d d' rest' =>
    split at h
    next ho =>
      cases h
      simp only [Bool.and_eq_true, decide_eq_true_eq] at ho
      refine ⟨[c, d, d'], rfl, by simp, ?_, c, _, rfl, isDigit_special hd⟩
      intro hn
      simp only [List.mem_cons, List.not_mem_nil, or_false] at hn
      rcases hn with hn | hn | hn
      · exact isOctal_ne_newline ho.1.1.1 hn.symm
      · exact isOctal_ne_newline ho.1.1.2 hn.symm
      · exact isOctal_ne_newline ho.1.2 hn.symm
    next => cases h
  next => cases h

theorem escapeOther_cases {c : Char} (hd : ¬ isDigit c = true)
    (h : escapeOther c cs = some (pieces, rest)) :
    rest = cs ∧ (Shortens [c] pieces ∨ (special c = false ∧ pieces = [.char '\\', .char c])) := by
  unfold escapeOther at h
  split at h
  next e he =>
    cases h
    obtain ⟨hs, hn⟩ := lookup_special he
    exact ⟨rfl, Or.inl ⟨by simp, by simpa using Ne.symm hn, c, [], rfl, hs⟩⟩
  next he =>
    split at h
    next => cases h
    next hl =>
      cases h
      have hb : c ≠ '\\' := by
        rintro rfl
        revert he
        decide
      exact ⟨rfl, Or.inr ⟨by simp [special, hl, hd, hb], rfl⟩⟩

/-- An escape stands for something shorter, or for itself. -/
theorem escape_cases (h : escape cs = some (pieces, rest)) : ∃ taken, cs = taken ++ rest ∧
    (Shortens taken pieces ∨
      ∃ c, taken = [c] ∧ special c = false ∧ pieces = [.char '\\', .char c]) := by
  cases cs with
  | nil => cases h
  | cons c cs =>
    rw [escape] at h
    split at h
    next hg =>
      subst hg
      obtain ⟨taken, hcs, hs⟩ := escapeGroup_shortens h
      exact ⟨taken, hcs, Or.inl hs⟩
    next =>
      split at h
      next h0 =>
        subst h0
        obtain ⟨taken, hcs, hs⟩ := escapeZero_shortens (Option.some.inj h)
        exact ⟨taken, hcs, Or.inl hs⟩
      next =>
        split at h
        next hd =>
          obtain ⟨taken, hcs, hs⟩ := escapeDigits_shortens hd h
          exact ⟨taken, hcs, Or.inl hs⟩
        next hd =>
          obtain ⟨rfl, hs | ⟨hs, hp⟩⟩ := escapeOther_cases hd h
          · exact ⟨[c], rfl, Or.inl hs⟩
          · exact ⟨[c], rfl, Or.inr ⟨c, rfl, hs, hp⟩⟩

theorem verbatim_of_notMem (h : '\\' ∉ cs) : Verbatim cs := by
  rintro x c y rfl
  exact (h (by simp)).elim

theorem verbatim_cons {c : Char} (hc : c ≠ '\\') : Verbatim (c :: cs) ↔ Verbatim cs := by
  constructor
  · rintro h x d y rfl
    exact h (c :: x) d y rfl
  · intro h x d y he
    cases x with
    | nil =>
      cases he
      exact (hc rfl).elim
    | cons c' x =>
      cases he
      exact h x d y rfl

theorem verbatim_escape {c : Char} (hc : special c = false) :
    Verbatim ('\\' :: c :: cs) ↔ Verbatim cs := by
  have hne : c ≠ '\\' := by
    rintro rfl
    revert hc
    decide
  constructor
  · rintro h x d y rfl
    exact h ('\\' :: c :: x) d y rfl
  · intro h x d y he
    cases x with
    | nil =>
      cases he
      exact hc
    | cons c' x =>
      exact (verbatim_cons hne).mpr h x d y (List.cons.inj he).2

/-- A parse takes up a character that stands for itself, or a backslash and what it makes an escape
with. -/
theorem parseFrom_step {c : Char} (h : parseFrom (n + 1) (c :: cs) = some pieces) :
    (c ≠ '\\' ∧ ∃ qs, parseFrom n cs = some qs ∧ pieces = .char c :: qs) ∨
      (c = '\\' ∧ ∃ taken rest ps qs, cs = taken ++ rest ∧ parseFrom n rest = some qs ∧
        pieces = ps ++ qs ∧ (Shortens taken ps ∨
          ∃ d, taken = [d] ∧ special d = false ∧ ps = [.char '\\', .char d])) := by
  rw [parseFrom] at h
  split at h
  next hc =>
    split at h
    next => cases h
    next ps rest he =>
      obtain ⟨qs, hq, rfl⟩ := Option.map_eq_some_iff.mp h
      obtain ⟨taken, hcs, hcase⟩ := escape_cases he
      exact Or.inr ⟨hc, taken, rest, ps, qs, hcs, hq, rfl, hcase⟩
  next hc =>
    obtain ⟨qs, hq, rfl⟩ := Option.map_eq_some_iff.mp h
    exact Or.inl ⟨hc, qs, hq, rfl⟩

theorem Shortens.not_verbatim {taken : List Char} (h : Shortens taken pieces) (rest : List Char) :
    ¬ Verbatim ('\\' :: (taken ++ rest)) := by
  obtain ⟨-, -, d, y, rfl, hs⟩ := h
  intro hv
  have hfalse := hv [] d (y ++ rest) rfl
  rw [hs] at hfalse
  cases hfalse

/-- A template whose escapes all stand for themselves is its own text; any other has fewer
pieces than characters. -/
theorem parseFrom_cases (h : parseFrom n cs = some pieces) :
    (Verbatim cs ∧ pieces = cs.map .char) ∨ (¬ Verbatim cs ∧ pieces.length < cs.length) := by
  induction n generalizing cs pieces with
  | zero =>
    cases cs with
    | nil =>
      cases h
      exact Or.inl ⟨fun x c y he => by simp at he, rfl⟩
    | cons c cs => cases h
  | succ n ih =>
    cases cs with
    | nil =>
      cases h
      exact Or.inl ⟨fun x c y he => by simp at he, rfl⟩
    | cons c cs =>
      rcases parseFrom_step h with ⟨hc, qs, hq, rfl⟩ |
        ⟨rfl, taken, rest, ps, qs, rfl, hq, rfl, hsh | ⟨d, rfl, hs, rfl⟩⟩
      · rcases ih hq with ⟨hv, rfl⟩ | ⟨hv, hlt⟩
        · exact Or.inl ⟨(verbatim_cons hc).mpr hv, rfl⟩
        · refine Or.inr ⟨fun hv' => hv ((verbatim_cons hc).mp hv'), ?_⟩
          simp only [List.length_cons]
          omega
      · refine Or.inr ⟨hsh.not_verbatim rest, ?_⟩
        have hlen := hsh.1
        have hle : qs.length ≤ rest.length := by
          rcases ih hq with ⟨-, rfl⟩ | ⟨-, hlt⟩
          · simp
          · omega
        simp only [List.length_append, List.length_cons]
        omega
      · rcases ih hq with ⟨hv, rfl⟩ | ⟨hv, hlt⟩
        · exact Or.inl ⟨(verbatim_escape hs).mpr hv, rfl⟩
        · refine Or.inr ⟨fun hv' => hv ((verbatim_escape hs).mp hv'), ?_⟩
          simp only [List.length_append, List.length_cons, List.length_nil]
          omega

theorem parseFrom_verbatim (hv : Verbatim cs) (h : parseFrom n cs = some pieces) :
    pieces = cs.map .char := by
  rcases parseFrom_cases h with ⟨-, he⟩ | ⟨hno, -⟩
  · exact he
  · exact (hno hv).elim

/-- The last line of a template stands for itself if it has no backslash. -/
theorem parseFrom_last_line {y suf : List Char} (hb : '\\' ∉ suf)
    (h : parseFrom n (y ++ '\n' :: suf) = some pieces) :
    ∃ ps, pieces = ps ++ ('\n' :: suf).map .char := by
  have hv : Verbatim suf := verbatim_of_notMem hb
  induction n generalizing y pieces with
  | zero => cases y <;> cases h
  | succ n ih =>
    cases y with
    | nil =>
      have hv' : Verbatim ('\n' :: suf) := (verbatim_cons (by decide)).mpr hv
      exact ⟨[], parseFrom_verbatim hv' h⟩
    | cons c y =>
      rcases parseFrom_step h with ⟨-, qs, hq, rfl⟩ |
        ⟨rfl, taken, rest, ps, qs, hcs, hq, rfl, hcase⟩
      · obtain ⟨ps', rfl⟩ := ih hq
        exact ⟨.char c :: ps', rfl⟩
      -- What is taken up ends before the newline, or it is the newline.
      · rcases List.append_eq_append_iff.mp hcs with ⟨t, rfl, hrest⟩ | ⟨t, rfl, hrest⟩
        · cases t with
          | nil =>
            rw [List.nil_append] at hrest
            subst hrest
            obtain ⟨ps', rfl⟩ := ih (y := []) hq
            exact ⟨ps ++ ps', by rw [List.append_assoc]⟩
          | cons d t =>
            cases hrest
            rcases hcase with ⟨-, hn, -⟩ | ⟨d, hd, -, rfl⟩
            · exact (hn (by simp)).elim
            · have hlen := congrArg List.length hd
              simp only [List.length_append, List.length_cons, List.length_nil] at hlen
              obtain rfl : y = [] := List.eq_nil_of_length_eq_zero (by omega)
              obtain rfl : t = [] := List.eq_nil_of_length_eq_zero (by omega)
              cases hd
              exact ⟨[.char '\\'], by rw [parseFrom_verbatim hv hq]; rfl⟩
        · subst hrest
          obtain ⟨ps', rfl⟩ := ih (y := t) hq
          exact ⟨ps ++ ps', by rw [List.append_assoc]⟩

/-- The pieces of a text without backslashes at the front of a template. -/
theorem parseFrom_append {x y : List Char} (hx : '\\' ∉ x)
    (h : parseFrom n (x ++ y) = some pieces) : ∃ ps, pieces = x.map .char ++ ps := by
  induction x generalizing n pieces with
  | nil => exact ⟨pieces, rfl⟩
  | cons c x ih =>
    have hc : c ≠ '\\' := fun hc => hx (hc ▸ List.mem_cons_self)
    cases n with
    | zero => cases h
    | succ n =>
      rw [List.cons_append, parseFrom, if_neg hc] at h
      obtain ⟨qs, hq, rfl⟩ := Option.map_eq_some_iff.mp h
      obtain ⟨ps, rfl⟩ := ih (fun hm => hx (List.mem_cons_of_mem c hm)) hq
      exact ⟨ps, rfl⟩

/-- A template that is its own text. -/
theorem expand_of_verbatim (hv : Verbatim cs) (h : parse cs = some pieces) (m : List Char) :
    expand pieces m = cs := by
  rw [parseFrom_verbatim hv h]
  exact expand_chars cs m

/-- Without references to the match there is one character for each piece. -/
theorem length_expand (h : .whole ∉ pieces) (m : List Char) :
    (expand pieces m).length = pieces.length := by
  induction pieces with
  | nil => rfl
  | cons p pieces ih =>
    have hrest := ih fun hm => h (List.mem_cons_of_mem p hm)
    cases p with
    | char c =>
      have hcons : expand (.char c :: pieces) m = c :: expand pieces m := rfl
      rw [hcons, List.length_cons, hrest, List.length_cons]
    | whole => exact (h List.mem_cons_self).elim

theorem infix_expand (h : .whole ∈ pieces) (m : List Char) : m <:+: expand pieces m := by
  obtain ⟨ps, qs, rfl⟩ := List.append_of_mem h
  rw [expand_append]
  exact ⟨expand ps m, expand qs m, by simp [expand]⟩

theorem Verbatim.of_part {x : List Char} (h : Verbatim cs) (hx : x <:+: cs) : Verbatim x := by
  obtain ⟨a, b, rfl⟩ := hx
  rintro y c z rfl
  exact h (a ++ y) c (z ++ b) (by simp)

/-- A character that makes no escape separates the texts before and after it. -/
theorem Verbatim.append {x y : List Char} {c : Char} (hx : Verbatim x) (hy : Verbatim y)
    (hc : special c = false) : Verbatim (x ++ c :: y) := by
  have hne : c ≠ '\\' := by
    rintro rfl
    revert hc
    decide
  intro a d b he
  rcases List.append_eq_append_iff.mp he with ⟨t, rfl, ht⟩ | ⟨t, rfl, ht⟩
  · cases t with
    | nil =>
      cases ht
      exact (hne rfl).elim
    | cons c' t =>
      cases ht
      exact hy t d b rfl
  · cases t with
    | nil =>
      cases ht
      exact (hne rfl).elim
    | cons c' t =>
      obtain ⟨rfl, ht⟩ := List.cons.inj ht
      cases t with
      | nil =>
        cases ht
        exact hc
      | cons d' t =>
        cases ht
        exact hx a d t rfl

end Template
