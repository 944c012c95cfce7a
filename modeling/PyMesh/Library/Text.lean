import Mathlib.Data.List.DropRight
import Mathlib.Data.List.Nodup
import Mathlib.Data.Nat.Digits.Defs

/-! Splitting and joining of strings at a character, and numerals. -/
namespace Text

/-- `s.split(c)`. -/
def split (s : String) (c : Char) : List String :=
  (s.toList.splitOn c).map String.ofList

/-- `c.join(ws)`. -/
def join (c : Char) (ws : List String) : String :=
  String.ofList ([c].intercalate (ws.map String.toList))

/-- `s.startswith(p)`. -/
def startsWith (s p : String) : Bool := p.toList.isPrefixOf s.toList

/-- `s.endswith(p)`. -/
def endsWith (s p : String) : Bool := p.toList.isSuffixOf s.toList

theorem toList_join (c : Char) (ws : List String) :
    (join c ws).toList = [c].intercalate (ws.map String.toList) := by
  simp [join]

/-- A character of a joined text is the separator or stands in a word. -/
theorem mem_join {c d : Char} {ws : List String} (h : d ∈ (join c ws).toList) :
    d = c ∨ ∃ w ∈ ws, d ∈ w.toList := by
  rw [toList_join] at h
  induction ws with
  | nil => cases h
  | cons w ws ih =>
    cases ws with
    | nil => exact Or.inr ⟨w, by simp, by simpa using h⟩
    | cons w' ws =>
      rw [List.map_cons, List.map_cons, List.intercalate_cons_cons] at h
      rcases List.mem_append.mp h with h | h
      · rcases List.mem_append.mp h with h | h
        · exact Or.inr ⟨w, by simp, h⟩
        · exact Or.inl (List.mem_singleton.mp h)
      · rcases ih h with h | ⟨v, hv, hd⟩
        · exact Or.inl h
        · exact Or.inr ⟨v, List.mem_cons_of_mem w hv, hd⟩

theorem map_ofList_toList (ws : List String) : (ws.map String.toList).map String.ofList = ws := by
  simp [Function.comp_def]

theorem split_join {c : Char} {ws : List String} (h : ∀ w ∈ ws, c ∉ w.toList) (hne : ws ≠ []) :
    split (join c ws) c = ws := by
  rw [split, toList_join, List.splitOn_intercalate c _ (by simpa using hne), map_ofList_toList]
  simpa using h

/-- A separator inside a word splits the word. -/
theorem split_join_eq_flatMap {c : Char} {ws : List String} (hne : ws ≠ []) :
    split (join c ws) c = ws.flatMap fun w => split w c := by
  have key : ∀ (l : List Char) (ls : List (List Char)),
      ([c].intercalate (l :: ls)).splitOn c = (l :: ls).flatMap fun l => l.splitOn c := by
    intro l ls
    induction ls generalizing l with
    | nil => simp
    | cons l' ls ih =>
      rw [List.intercalate_cons_cons, List.append_assoc, List.singleton_append,
        List.splitOn_append_cons_self, ih, List.flatMap_cons, List.flatMap_cons, List.flatMap_cons]
  obtain ⟨w, ws, rfl⟩ := List.exists_cons_of_ne_nil hne
  rw [split, toList_join, List.map_cons, key, List.map_flatMap, ← List.map_cons, List.flatMap_map]
  rfl

theorem split_ne_nil (s : String) (c : Char) : split s c ≠ [] := by
  simp [split]

/-- A separator splits the text before it and the text after it. -/
theorem split_of_toList {s t u : String} {c : Char} (h : u.toList = s.toList ++ c :: t.toList) :
    split u c = split s c ++ split t c := by
  rw [split, h, List.splitOn_append_cons_self, List.map_append]
  rfl

theorem split_of_notMem {s : String} {c : Char} (h : c ∉ s.toList) : split s c = [s] := by
  have hs : split (join c [s]) c = [s] := split_join (by simpa using h) (by simp)
  simpa [join] using hs

/-- The words between the separators determine the text. -/
theorem split_injective (c : Char) : Function.Injective fun s => split s c := by
  intro s t h
  have hlist : s.toList.splitOn c = t.toList.splitOn c := by
    have hinj : Function.Injective String.ofList := fun a b => String.ofList_injective
    exact List.map_injective_iff.mpr hinj h
  have hs : List.intercalate [c] (s.toList.splitOn c) = s.toList := List.intercalate_splitOn c
  rw [hlist, List.intercalate_splitOn] at hs
  exact String.toList_inj.mp hs.symm

/-- `s.rsplit(c, 1)` of a text that contains `c`. -/
def rsplit (s : String) (c : Char) : String × String :=
  (join c (split s c).dropLast, (split s c).getLastD "")

/-- The text is what stands before its last separator and what stands after it. -/
theorem toList_rsplit {s : String} {c : Char} (h : c ∈ s.toList) :
    s.toList = (rsplit s c).1.toList ++ c :: (rsplit s c).2.toList ∧
      c ∉ (rsplit s c).2.toList := by
  obtain ⟨post, pre, hsplit, hpost⟩ := List.eq_append_cons_of_mem (List.mem_reverse.mpr h)
  have hs : s.toList = pre.reverse ++ c :: post.reverse := by
    simpa using congrArg List.reverse hsplit
  have hwords : split s c = (pre.reverse.splitOn c).map String.ofList ++
      [String.ofList post.reverse] := by
    have hlast : post.reverse.splitOn c = [post.reverse] :=
      List.splitOn_eq_singleton (by simpa using hpost)
    rw [split, hs, List.splitOn_append_cons_self, List.map_append, hlast, List.map_singleton]
  have hfst : (rsplit s c).1.toList = pre.reverse := by
    rw [rsplit, hwords, List.dropLast_concat, toList_join, List.map_map]
    simp [Function.comp_def, List.intercalate_splitOn]
  have hsnd : (rsplit s c).2.toList = post.reverse := by
    simp [rsplit, hwords]
  rw [hfst, hsnd]
  exact ⟨hs, by simpa using hpost⟩

/-- What stands after the separator has none, so the separator is the last one. -/
theorem rsplit_of_toList {s t u : String} {c : Char} (h : u.toList = s.toList ++ c :: t.toList)
    (ht : c ∉ t.toList) : rsplit u c = (s, t) := by
  have hsplit : split u c = split s c ++ [t] := by
    rw [split_of_toList h, split_of_notMem ht]
  have hjoin : join c (split s c) = s := by
    rw [← String.toList_inj, toList_join, split, List.map_map]
    simp [Function.comp_def, List.intercalate_splitOn]
  rw [rsplit, hsplit, List.dropLast_concat, hjoin]
  simp

/-- `s.split(c, 1)[1]` of a text that contains `c`. -/
def afterFirst (s : String) (c : Char) : String :=
  String.ofList ((s.toList.dropWhile (· ≠ c)).drop 1)

/-- `s[:n]`. -/
def truncate (s : String) (n : Nat) : String := String.ofList (s.toList.take n)

/-- `s.ljust(n, c)`. -/
def ljust (s : String) (n : Nat) (c : Char) : String :=
  String.ofList (s.toList ++ List.replicate (n - s.toList.length) c)

/-- `s.rstrip` of the characters that satisfy `p`. -/
def rstrip (p : Char → Bool) (s : String) : String := String.ofList (s.toList.rdropWhile p)

/-- `s.lstrip` of the characters that satisfy `p`. -/
def lstrip (p : Char → Bool) (s : String) : String := String.ofList (s.toList.dropWhile p)

/-- `s.strip` of the characters that satisfy `p`. -/
def strip (p : Char → Bool) (s : String) : String := lstrip p (rstrip p s)

/-- The characters that `str.strip` drops. -/
def isSpace (c : Char) : Bool :=
  (9 ≤ c.toNat && c.toNat ≤ 13) || (28 ≤ c.toNat && c.toNat ≤ 32) || c.toNat = 0x85 ||
    c.toNat = 0xa0 || c.toNat = 0x1680 || (0x2000 ≤ c.toNat && c.toNat ≤ 0x200a) ||
    c.toNat = 0x2028 || c.toNat = 0x2029 || c.toNat = 0x202f || c.toNat = 0x205f || c.toNat = 0x3000

/-- `s.lower()` of a text of ASCII characters. -/
def asciiLower (s : String) : String := String.ofList (s.toList.map Char.toLower)

/-- The value of a digit in a base up to 16. -/
def digitVal (c : Char) : Option Nat :=
  if '0' ≤ c ∧ c ≤ '9' then some (c.toNat - '0'.toNat)
  else if 'a' ≤ c ∧ c ≤ 'f' then some (c.toNat - 'a'.toNat + 10)
  else if 'A' ≤ c ∧ c ≤ 'F' then some (c.toNat - 'A'.toNat + 10)
  else none

/-- The value of a numeral in base `b`; `none` when it is empty or a character is no digit. -/
def readNat (b : Nat) (cs : List Char) : Option Nat :=
  if cs = [] then none else
  cs.foldl (fun acc c => do
    let n ← acc
    let d ← digitVal c
    if d < b then some (b * n + d) else none) (some 0)

/-- The blanks that `int` and `str.strip` drop, among the ASCII characters. -/
def isBlank (c : Char) : Bool := c = ' ' || (9 ≤ c.toNat && c.toNat ≤ 13) ||
  (28 ≤ c.toNat && c.toNat ≤ 31)

/-- Decimal digits, with single underscores between them. -/
def readDigits (cs : List Char) : Option Nat :=
  if (cs.splitOn '_').all (· ≠ []) then readNat 10 (cs.filter (· ≠ '_')) else none

/-- `int(s)`, for a text of ASCII characters. -/
def readInt (s : String) : Option Int :=
  let cs := s.toList.dropWhile isBlank
  match (cs.reverse.dropWhile isBlank).reverse with
  | '-' :: ds => (readDigits ds).map fun n => -(n : Int)
  | '+' :: ds => (readDigits ds).map fun n => (n : Int)
  | ds => (readDigits ds).map fun n => (n : Int)

theorem char_le_iff {a b : Char} : a ≤ b ↔ a.toNat ≤ b.toNat := Iff.rfl

theorem toNat_toLower (c : Char) :
    c.toLower.toNat = if 65 ≤ c.toNat ∧ c.toNat ≤ 90 then c.toNat + 32 else c.toNat := by
  have hiff : (c.val ≥ 'A'.val ∧ c.val ≤ 'Z'.val) ↔ (65 ≤ c.toNat ∧ c.toNat ≤ 90) := by
    rw [ge_iff_le, UInt32.le_iff_toNat_le, UInt32.le_iff_toNat_le]
    rfl
  unfold Char.toLower
  split
  · rename_i h
    have hle : c.val.toNat ≤ 90 := (hiff.mp h).2
    rw [if_pos (hiff.mp h)]
    change (c.val + 32).toNat = c.val.toNat + 32
    rw [UInt32.toNat_add]
    refine Nat.mod_eq_of_lt ?_
    change c.val.toNat + 32 < 2 ^ 32
    omega
  · rename_i h
    rw [if_neg (mt hiff.mpr h)]

theorem toLower_eq_dot {c : Char} : c.toLower = '.' ↔ c = '.' := by
  rw [← Char.toNat_inj, ← Char.toNat_inj, toNat_toLower]
  change _ = 46 ↔ _ = 46
  split <;> omega

theorem toList_asciiLower (s : String) : (asciiLower s).toList = s.toList.map Char.toLower :=
  String.toList_ofList

theorem dot_mem_asciiLower {s : String} : '.' ∈ (asciiLower s).toList ↔ '.' ∈ s.toList := by
  simp [toList_asciiLower, toLower_eq_dot]

theorem asciiLower_join {c : Char} (hc : c.toLower = c) (ws : List String) :
    asciiLower (join c ws) = join c (ws.map asciiLower) := by
  have key : ∀ l : List (List Char), ([c].intercalate l).map Char.toLower =
      [c].intercalate (l.map (List.map Char.toLower)) := by
    intro l
    induction l with
    | nil => rfl
    | cons x l ih =>
      cases l with
      | nil => simp
      | cons y l =>
        rw [List.map_cons, List.map_cons, List.intercalate_cons_cons, List.intercalate_cons_cons,
          List.map_append, List.map_append, ih]
        simp [hc]
  rw [← String.toList_inj, toList_asciiLower, toList_join, toList_join, key, List.map_map,
    List.map_map]
  congr 2
  funext w
  exact (toList_asciiLower w).symm

/-- A prefix that has its first separator where the text has it. -/
theorem append_cons_prefix_iff {c : Char} {p q x y : List Char} (hp : c ∉ p) (hq : c ∉ q) :
    p ++ c :: x <+: q ++ c :: y ↔ p = q ∧ x <+: y := by
  induction p generalizing q with
  | nil =>
    cases q with
    | nil => simp
    | cons b q =>
      have hne : c ≠ b := fun h => hq (by simp [h])
      simp [hne]
  | cons a p ih =>
    have ha : a ≠ c := fun h => hp (by simp [h])
    cases q with
    | nil => simp [ha]
    | cons b q =>
      have hp' : c ∉ p := fun h => hp (List.mem_cons_of_mem a h)
      have hq' : c ∉ q := fun h => hq (List.mem_cons_of_mem b h)
      rw [List.cons_append, List.cons_append, List.cons_prefix_cons, ih hp' hq', List.cons.injEq,
        and_assoc]

theorem toList_truncate (s : String) (n : Nat) : (truncate s n).toList = s.toList.take n := by
  simp [truncate]

theorem toList_ljust (s : String) (n : Nat) (c : Char) :
    (ljust s n c).toList = s.toList ++ List.replicate (n - s.toList.length) c := by
  simp [ljust]

theorem toList_rstrip (p : Char → Bool) (s : String) :
    (rstrip p s).toList = s.toList.rdropWhile p := by
  simp [rstrip]

theorem toList_lstrip (p : Char → Bool) (s : String) :
    (lstrip p s).toList = s.toList.dropWhile p := by
  simp [lstrip]

theorem toList_strip (p : Char → Bool) (s : String) :
    (strip p s).toList = (s.toList.rdropWhile p).dropWhile p := by
  simp [strip, toList_lstrip, toList_rstrip]

theorem dropWhile_of_forall {α : Type} {p : α → Bool} {l : List α} (h : ∀ a ∈ l, p a = false) :
    l.dropWhile p = l := by
  cases l with
  | nil => rfl
  | cons a l => simp [h a List.mem_cons_self]

section Separator

variable {α : Type} [DecidableEq α] {c : α} {l : List α}

theorem takeWhile_ne_of_notMem (h : c ∉ l) : l.takeWhile (· ≠ c) = l := by
  refine List.takeWhile_eq_self_iff.mpr fun d hd => decide_eq_true ?_
  rintro rfl
  exact h hd

theorem dropWhile_ne_of_notMem (h : c ∉ l) : l.dropWhile (· ≠ c) = [] := by
  refine List.dropWhile_eq_nil_iff.mpr fun d hd => decide_eq_true ?_
  rintro rfl
  exact h hd

theorem takeWhile_ne_append (h : c ∉ l) (r : List α) :
    (l ++ r).takeWhile (· ≠ c) = l ++ r.takeWhile (· ≠ c) :=
  List.takeWhile_append_of_pos (List.takeWhile_eq_self_iff.mp (takeWhile_ne_of_notMem h))

/-- What stands before the first separator. -/
theorem takeWhile_ne (h : c ∉ l) (r : List α) : (l ++ c :: r).takeWhile (· ≠ c) = l := by
  rw [takeWhile_ne_append h]
  simp

/-- What stands from the first separator on. -/
theorem dropWhile_ne (h : c ∉ l) (r : List α) : (l ++ c :: r).dropWhile (· ≠ c) = c :: r := by
  have hl := List.takeWhile_eq_self_iff.mp (takeWhile_ne_of_notMem h)
  rw [List.dropWhile_append_of_pos hl]
  simp

end Separator

theorem rdropWhile_of_forall {α : Type} {p : α → Bool} {l : List α} (h : ∀ a ∈ l, p a = false) :
    l.rdropWhile p = l := by
  rw [List.rdropWhile, dropWhile_of_forall fun a ha => h a (List.mem_reverse.mp ha),
    List.reverse_reverse]

theorem mem_dropWhile {α : Type} {p : α → Bool} {a : α} {l : List α} (hp : p a = false)
    (h : a ∈ l) : a ∈ l.dropWhile p := by
  rw [← List.takeWhile_append_dropWhile (p := p) (l := l), List.mem_append] at h
  rcases h with h | h
  · exact Bool.noConfusion (hp.symm.trans (List.mem_takeWhile_imp h))
  · exact h

theorem mem_lstrip {p : Char → Bool} {c : Char} {s : String} (hp : p c = false)
    (h : c ∈ s.toList) : c ∈ (lstrip p s).toList := by
  rw [toList_lstrip]
  exact mem_dropWhile hp h

theorem mem_strip {p : Char → Bool} {c : Char} {s : String} (hp : p c = false)
    (h : c ∈ s.toList) : c ∈ (strip p s).toList := by
  rw [toList_strip]
  refine mem_dropWhile hp (List.mem_reverse.mpr (mem_dropWhile hp ?_))
  exact List.mem_reverse.mpr h

/-- What `strip` leaves does not end in a character that it drops. -/
theorem getLast_strip {p : Char → Bool} {s : String} (hne : (strip p s).toList ≠ []) :
    ¬ p ((strip p s).toList.getLast hne) = true := by
  have hsuf : (strip p s).toList <:+ s.toList.rdropWhile p := by
    rw [toList_strip]
    exact List.dropWhile_suffix p
  have hne' : s.toList.rdropWhile p ≠ [] := by
    intro hnil
    rw [hnil] at hsuf
    exact hne (List.suffix_nil.mp hsuf)
  rw [hsuf.getLast hne]
  exact List.rdropWhile_last_not p s.toList hne'

theorem strip_strip (p : Char → Bool) (s : String) : strip p (strip p s) = strip p s := by
  have hlast : (strip p s).toList.rdropWhile p = (strip p s).toList :=
    List.rdropWhile_eq_self_iff.mpr getLast_strip
  rw [← String.toList_inj, toList_strip p (strip p s), hlast, toList_strip,
    List.dropWhile_idempotent]

theorem truncate_of_length_le {s : String} {n : Nat} (h : s.toList.length ≤ n) :
    truncate s n = s := by
  rw [← String.toList_inj, toList_truncate, List.take_of_length_le h]

/-- Padding that is taken away leaves the text, less what it ended in already. -/
theorem rstrip_ljust (s : String) (n : Nat) (c : Char) :
    rstrip (· = c) (ljust s n c) = rstrip (· = c) s := by
  rw [← String.toList_inj, toList_rstrip, toList_rstrip, toList_ljust]
  induction n - s.toList.length with
  | zero => simp
  | succ k ih =>
    rw [List.replicate_succ', ← List.append_assoc, List.rdropWhile_concat_pos _ _ _ (by simp)]
    exact ih

/-- Padding taken away from a text of the full width comes back. -/
theorem ljust_rstrip {s : String} {n : Nat} {c : Char} (h : s.toList.length = n) :
    ljust (rstrip (· = c) s) n c = s := by
  have hsplit := List.rdropWhile_append_rtakeWhile (p := fun d => decide (d = c)) (l := s.toList)
  have hpad : s.toList.rtakeWhile (fun d => decide (d = c)) =
      List.replicate (n - (s.toList.rdropWhile fun d => decide (d = c)).length) c := by
    rw [List.eq_replicate_iff]
    refine ⟨?_, fun d hd => by simpa using List.mem_rtakeWhile_imp hd⟩
    have hlen := congrArg List.length hsplit
    rw [List.length_append] at hlen
    omega
  rw [← String.toList_inj, toList_ljust, toList_rstrip, ← hpad]
  exact hsplit

theorem digitVal_digitChar : ∀ d < 16, digitVal d.digitChar = some d := by decide

theorem readNat_toDigits {b : Nat} (hb : 1 < b) (hb' : b ≤ 16) (n : Nat) :
    readNat b (Nat.toDigits b n) = some n := by
  rw [readNat, if_neg Nat.toDigits_ne_nil]
  induction n using Nat.strongRecOn with
  | _ n ih =>
    rw [Nat.toDigits_eq_if hb]
    split
    · rename_i h
      simp [digitVal_digitChar n (by omega), h]
    · rename_i h
      rw [List.foldl_append, ih (n / b) (Nat.div_lt_self (by omega) hb)]
      have hm : n % b < b := Nat.mod_lt n (by omega)
      simp [digitVal_digitChar (n % b) (by omega), hm, Nat.div_add_mod]

theorem toDigits_injective {b : Nat} (hb : 1 < b) (hb' : b ≤ 16) :
    Function.Injective (Nat.toDigits b) := by
  intro m n h
  have hm := readNat_toDigits hb hb' m
  rw [h, readNat_toDigits hb hb' n] at hm
  exact (Option.some.inj hm).symm

theorem readDigits_repr (n : Nat) : readDigits (Nat.toDigits 10 n) = some n := by
  have hdigit : ∀ c ∈ Nat.toDigits 10 n, c ≠ '_' := by
    intro c hc he
    subst he
    simpa using Nat.isDigit_of_mem_toDigits (by decide) (by decide) hc
  have hsplit : (Nat.toDigits 10 n).splitOn '_' = [Nat.toDigits 10 n] :=
    List.splitOn_eq_singleton fun hmem => hdigit _ hmem rfl
  have hfilter : (Nat.toDigits 10 n).filter (· ≠ '_') = Nat.toDigits 10 n := by
    simpa using hdigit
  rw [readDigits, hsplit, hfilter, readNat_toDigits (by decide) (by decide)]
  simp [Nat.toDigits_ne_nil]

theorem readInt_of_notBlank {s : String} (h : ∀ c ∈ s.toList, isBlank c = false) :
    readInt s = match s.toList with
      | '-' :: ds => (readDigits ds).map fun n => -(n : Int)
      | '+' :: ds => (readDigits ds).map fun n => (n : Int)
      | ds => (readDigits ds).map fun n => (n : Int) := by
  have hrev : s.toList.reverse.dropWhile isBlank = s.toList.reverse :=
    dropWhile_of_forall fun c hc => h c (List.mem_reverse.mp hc)
  unfold readInt
  simp only [dropWhile_of_forall h, hrev, List.reverse_reverse]

/-- `int` reads what `str` writes. -/
theorem readInt_toString (n : Int) : readInt (toString n) = some n := by
  have hdigit : ∀ k : Nat, ∀ c ∈ Nat.toDigits 10 k, isBlank c = false ∧ c ≠ '-' ∧ c ≠ '+' := by
    intro k c hc
    have hd : c.isDigit = true := Nat.isDigit_of_mem_toDigits (by decide) (by decide) hc
    have hle : 48 ≤ c.toNat := by
      simp only [Char.isDigit, Bool.and_eq_true, decide_eq_true_eq] at hd
      exact hd.1
    refine ⟨?_, ?_, ?_⟩
    · have hne : c ≠ ' ' := by
        rintro rfl
        exact absurd hle (by decide)
      simp only [isBlank, hne, decide_false, Bool.false_or, Bool.or_eq_false_iff,
        Bool.and_eq_false_iff, decide_eq_false_iff_not]
      omega
    · rintro rfl
      exact absurd hle (by decide)
    · rintro rfl
      exact absurd hle (by decide)
  match n with
  | .ofNat k =>
    have hs : (toString (Int.ofNat k)).toList = Nat.toDigits 10 k := Nat.toList_repr
    rw [readInt_of_notBlank (by rw [hs]; exact fun c hc => (hdigit k c hc).1), hs]
    obtain ⟨c, ds, hds⟩ := List.exists_cons_of_ne_nil (Nat.toDigits_ne_nil (b := 10) (n := k))
    have hc := (hdigit k c (by simp [hds])).2
    have hread := readDigits_repr k
    rw [hds] at hread ⊢
    split
    · simp_all
    · simp_all
    · rw [hread]
      rfl
  | .negSucc k =>
    have hs : (toString (Int.negSucc k)).toList = '-' :: Nat.toDigits 10 (k + 1) := by
      have htext : toString (Int.negSucc k) = "-" ++ (k + 1).repr := rfl
      rw [htext, String.toList_append, Nat.toList_repr]
      rfl
    rw [readInt_of_notBlank, hs]
    · simp only [readDigits_repr]
      rfl
    · rw [hs]
      intro c hc
      rcases List.mem_cons.mp hc with rfl | hc
      · decide
      · exact (hdigit (k + 1) c hc).1

theorem colon_notMem_toString (n : Nat) : ':' ∉ (toString n).toList := by
  have hs : (toString n).toList = Nat.toDigits 10 n := Nat.toList_repr
  rw [hs]
  intro hc
  have hd : Char.isDigit ':' = true := Nat.isDigit_of_mem_toDigits (by decide) (by decide) hc
  cases hd

/-- `str` of an integer determines it. -/
theorem intToString_injective : Function.Injective (toString : Int → String) := by
  intro a b h
  have ha := readInt_toString a
  rw [h, readInt_toString] at ha
  exact (Option.some.inj ha).symm

end Text
