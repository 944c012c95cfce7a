import PyMesh.Ipaddress.Parse

/-! The texts of addresses determine the addresses. -/
namespace PyMesh

open Text

namespace IPv4Address

variable {a b : IPv4Address}

theorem repr_noDot (n : Nat) : '.' ∉ n.repr.toList := by
  intro h
  rw [Nat.toList_repr] at h
  simpa using Nat.isDigit_of_mem_toDigits (by decide) (by decide) h

theorem str_noColon (a : IPv4Address) : ':' ∉ (str a).toList := by
  have hdigits : ∀ n, ':' ∉ Nat.toDigits 10 n := by
    intro n h
    simpa using Nat.isDigit_of_mem_toDigits (by decide) (by decide) h
  simp [str, toList_join, octets, List.intercalate_cons_cons, hdigits]

/-- The text of an address has digits and dots. -/
theorem notMem_str {c : Char} (hc : c.isDigit = false) (hdot : c ≠ '.') (a : IPv4Address) :
    c ∉ (str a).toList := by
  intro h
  rcases mem_join h with rfl | ⟨w, hw, hcw⟩
  · exact hdot rfl
  · obtain ⟨n, -, rfl⟩ := List.mem_map.mp hw
    rw [Nat.toList_repr] at hcw
    rw [Nat.isDigit_of_mem_toDigits (by decide) (by decide) hcw] at hc
    cases hc

theorem split_str (a : IPv4Address) : split (str a) '.' = a.octets.map Nat.repr := by
  apply split_join
  · intro w hw
    obtain ⟨n, _, rfl⟩ := List.mem_map.mp hw
    exact repr_noDot n
  · simp [octets]

theorem repr_injective : Function.Injective Nat.repr := by
  intro m n h
  have hd := congrArg String.toList h
  simp only [Nat.toList_repr] at hd
  exact toDigits_injective (by decide) (by decide) hd

theorem eq_of_octets (h : a.octets = b.octets) : a = b := by
  have ha := a.lt
  have hb := b.lt
  simp only [octets, List.cons.injEq, and_true] at h
  apply Address.ext
  omega

theorem str_injective : Function.Injective str := by
  intro a b h
  have hs := congrArg (split · '.') h
  simp only [split_str] at hs
  exact eq_of_octets (repr_injective.list_map hs)

theorem parseOctet_repr : ∀ n < 256, parseOctet n.repr = some n := by decide +kernel

/-- An address is read from its own text. -/
theorem parse_str (a : IPv4Address) : parse (str a) = some a := by
  have ha := a.lt
  have hoctet : ∀ n ∈ a.octets, parseOctet n.repr = some n := by
    intro n hn
    simp only [octets, List.mem_cons, List.not_mem_nil, or_false] at hn
    exact parseOctet_repr n (by omega)
  have hsum : a.toNat / 2 ^ 24 * 2 ^ 24 + a.toNat / 2 ^ 16 % 256 * 2 ^ 16 +
      a.toNat / 2 ^ 8 % 256 * 2 ^ 8 + a.toNat % 256 = a.toNat := by
    omega
  simp only [octets, List.forall_mem_cons] at hoctet
  obtain ⟨h1, h2, h3, h4, -⟩ := hoctet
  simp only [parse, split_str, octets, List.map_cons, List.map_nil, h1, h2, h3, h4,
    Option.bind_eq_bind, Option.bind_some, hsum]
  exact congrArg some (Address.ext (Address.toNat_ofNat ha))

/-- The text up to its first dot is the first octet. -/
theorem startsWith_octet (a : IPv4Address) (n : Nat) :
    startsWith (str a) (n.repr ++ ".") = true ↔ a.toNat / 2 ^ 24 = n := by
  have hstr : (str a).toList = (a.toNat / 2 ^ 24).repr.toList ++ '.' ::
      (join '.' (a.octets.tail.map Nat.repr)).toList := by
    simp [str, toList_join, octets, List.intercalate_cons_cons]
  have hpre : (n.repr ++ ".").toList = n.repr.toList ++ '.' :: [] := String.toList_append
  rw [startsWith, List.isPrefixOf_iff_prefix, hstr, hpre,
    append_cons_prefix_iff (repr_noDot _) (repr_noDot _), String.toList_inj,
    repr_injective.eq_iff]
  exact (and_iff_left (List.nil_prefix)).trans eq_comm

/-- The text up to its second dot are the first two octets. -/
theorem startsWith_octets (a : IPv4Address) (m n : Nat) :
    startsWith (str a) (m.repr ++ "." ++ n.repr ++ ".") = true ↔
      a.toNat / 2 ^ 24 = m ∧ a.toNat / 2 ^ 16 % 256 = n := by
  have hstr : (str a).toList = (a.toNat / 2 ^ 24).repr.toList ++ '.' ::
      ((a.toNat / 2 ^ 16 % 256).repr.toList ++ '.' ::
        (join '.' (a.octets.tail.tail.map Nat.repr)).toList) := by
    simp [str, toList_join, octets, List.intercalate_cons_cons]
  have hpre : (m.repr ++ "." ++ n.repr ++ ".").toList =
      m.repr.toList ++ '.' :: (n.repr.toList ++ '.' :: []) := by
    simp
  rw [startsWith, List.isPrefixOf_iff_prefix, hstr, hpre,
    append_cons_prefix_iff (repr_noDot _) (repr_noDot _),
    append_cons_prefix_iff (repr_noDot _) (repr_noDot _), String.toList_inj, String.toList_inj,
    repr_injective.eq_iff, repr_injective.eq_iff]
  exact and_congr eq_comm ((and_iff_left (List.nil_prefix)).trans eq_comm)

theorem toDigits_eq_one_iff (n : Nat) : (Nat.toDigits 10 n).reverse = ['1'] ↔ n = 1 := by
  rw [List.reverse_eq_iff, show ['1'].reverse = Nat.toDigits 10 1 from rfl]
  exact (toDigits_injective (by decide) (by decide)).eq_iff

/-- The text ends in `".1"` when the last octet is 1, and only then. -/
theorem endsWith_dotOne : endsWith (str a) ".1" = true ↔ a.toNat % 256 = 1 := by
  rw [← toDigits_eq_one_iff]
  obtain ⟨cs, hstr⟩ : ∃ cs, (str a).toList = cs ++ '.' :: Nat.toDigits 10 (a.toNat % 256) := by
    refine ⟨[a.toNat / 2 ^ 24, a.toNat / 2 ^ 16 % 256].flatMap
      (fun n => Nat.toDigits 10 n ++ ['.']) ++ Nat.toDigits 10 (a.toNat / 2 ^ 8 % 256), ?_⟩
    simp [str, toList_join, octets, List.intercalate_cons_cons]
  rw [endsWith, hstr, List.isSuffixOf_iff_suffix, ← List.reverse_prefix, List.reverse_append,
    List.reverse_cons]
  have hnil : (Nat.toDigits 10 (a.toNat % 256)).reverse ≠ [] := by simp
  have hdot : '.' ∉ (Nat.toDigits 10 (a.toNat % 256)).reverse := by
    rw [List.mem_reverse, ← Nat.toList_repr]
    exact repr_noDot _
  generalize (Nat.toDigits 10 (a.toNat % 256)).reverse = ds at hnil hdot ⊢
  -- One digit is followed by the dot; a second digit stands in its place.
  match ds with
  | [d] => simp [eq_comm]
  | d :: e :: ds =>
    have he : '.' ≠ e := by
      rintro rfl
      exact hdot (by simp)
    simp [he]

end IPv4Address

namespace IPv6Address

variable {hs : List String} {a : IPv6Address}

/-- Only digits are written. -/
theorem notMem_hex {c : Char} (hc : digitVal c = none) (n : Nat) : c ∉ (hex n).toList := by
  rw [hex, String.toList_ofList]
  intro h
  have hr := readNat_toDigits (b := 16) (by decide) (by decide) n
  have hnone : ∀ cs : List Char, cs.foldl (fun acc c => do
      let n ← acc
      let d ← digitVal c
      if d < 16 then some (16 * n + d) else none) none = none := by
    intro cs
    induction cs with
    | nil => rfl
    | cons c cs ih => exact ih
  obtain ⟨pre, post, hp⟩ := List.append_of_mem h
  rw [hp, readNat, if_neg (by simp), List.foldl_append, List.foldl_cons, hc] at hr
  simp only [Option.bind_eq_bind, Option.bind_none, Option.bind_fun_none] at hr
  exact absurd ((hnone post).symm.trans hr) (by simp)

theorem hex_noColon (n : Nat) : ':' ∉ (hex n).toList := notMem_hex (by decide) n

theorem hex_ne_empty (n : Nat) : hex n ≠ "" := by
  intro h
  have := congrArg String.toList h
  simp [hex] at this

theorem hex_injective : Function.Injective hex := by
  intro m n h
  have hd := congrArg String.toList h
  simp only [hex, String.toList_ofList] at hd
  exact toDigits_injective (by decide) (by decide) hd

/-- `n` words from `s` on are all `"0"`. -/
def Zeros (hs : List String) (s n : Nat) : Prop :=
  s + n ≤ hs.length ∧ ∀ j, s ≤ j → j < s + n → hs[j]? = some "0"

theorem zeros_zero (hs : List String) : Zeros hs 0 0 :=
  ⟨Nat.zero_le _, fun _ _ hj => absurd hj (by omega)⟩

theorem zeroRun_zeros {l : List String} {i : Nat} {z : ZeroRun} (hl : l = hs.drop i)
    (hbest : Zeros hs z.bestStart z.bestLen) (hopen : Zeros hs z.start z.len)
    (hi : 0 < z.len → z.start + z.len = i) :
    Zeros hs (zeroRun l i z).bestStart (zeroRun l i z).bestLen := by
  induction l generalizing i z with
  | nil => exact hbest
  | cons h l ih =>
    have hget : hs[i]? = some h := by
      rw [← List.head?_drop, ← hl]
      rfl
    have hlt : i < hs.length := (List.getElem?_eq_some_iff.mp hget).1
    have hl' : l = hs.drop (i + 1) := by
      rw [← List.tail_drop, ← hl]
      rfl
    rw [zeroRun]
    split
    · rename_i h0
      have hext : Zeros hs (if z.len = 0 then i else z.start) (z.len + 1) := by
        obtain ⟨hle, hz⟩ := hopen
        split
        · refine ⟨by omega, fun j hj hj' => ?_⟩
          have hji : j = i := by omega
          rw [hji, hget, h0]
        · have := hi (by omega)
          refine ⟨by omega, fun j hj hj' => ?_⟩
          by_cases hji : j = i
          · rw [hji, hget, h0]
          · exact hz j hj (by omega)
      have hi' : (if z.len = 0 then i else z.start) + (z.len + 1) = i + 1 := by
        split
        · omega
        · have := hi (by omega); omega
      simp only
      split
      · exact ih (z := ⟨_, _, _, _⟩) hl' hext hext fun _ => hi'
      · exact ih (z := ⟨_, _, _, _⟩) hl' hbest hext fun _ => hi'
    · exact ih (z := ⟨_, _, 0, 0⟩) hl' hbest ⟨Nat.zero_le _, fun j _ hj => absurd hj (by simp)⟩
        fun h => absurd h (by simp)

theorem best_zeros (hs : List String) : Zeros hs (zeroRun hs 0 ⟨0, 0, 0, 0⟩).bestStart
    (zeroRun hs 0 ⟨0, 0, 0, 0⟩).bestLen :=
  zeroRun_zeros rfl (zeros_zero hs) (zeros_zero hs) fun h => absurd h (by simp)

theorem take_replicate_drop {s n : Nat} (h : Zeros hs s n) :
    hs.take s ++ List.replicate n "0" ++ hs.drop (s + n) = hs := by
  obtain ⟨hle, hz⟩ := h
  have hmid : (hs.drop s).take n = List.replicate n "0" := by
    apply List.ext_getElem?
    intro j
    by_cases hj : j < n
    · rw [List.getElem?_take_of_lt hj, List.getElem?_drop, hz _ (by omega) (by omega),
        List.getElem?_replicate_of_lt hj]
    · rw [List.getElem?_eq_none (by simp; omega), List.getElem?_eq_none (by simp; omega)]
  rw [← hmid, ← List.drop_drop, List.append_assoc, List.take_append_drop, List.take_append_drop]

/-- The words before the first empty one and after the last, with zeros in between. -/
def expand (n : Nat) (ws : List String) : List String :=
  let front := ws.takeWhile (· ≠ "")
  let back := (ws.reverse.takeWhile (· ≠ "")).reverse
  if front.length = ws.length then ws
  else front ++ List.replicate (n - front.length - back.length) "0" ++ back

theorem expand_of_words {l m r : List String} {n : Nat} (hl : "" ∉ l) (hr : "" ∉ r)
    (hm : m.head? = some "") (hm' : m.getLast? = some "") :
    expand n (l ++ m ++ r) = l ++ List.replicate (n - l.length - r.length) "0" ++ r := by
  obtain ⟨m₁, rfl⟩ := List.head?_eq_some_iff.mp hm
  obtain ⟨m₂, hm₂⟩ := List.getLast?_eq_some_iff.mp hm'
  have hfront : (l ++ "" :: m₁ ++ r).takeWhile (· ≠ "") = l := by
    rw [List.append_assoc, List.cons_append]
    exact takeWhile_ne hl _
  have hback : (l ++ "" :: m₁ ++ r).reverse.takeWhile (· ≠ "") = r.reverse := by
    rw [hm₂]
    simp only [List.reverse_append, List.reverse_cons, List.nil_append,
      List.append_assoc, List.cons_append]
    exact takeWhile_ne (by simpa using hr) _
  have hlen : l.length ≠ (l ++ "" :: m₁ ++ r).length := by simp
  simp only [expand, hfront, hback, if_neg hlen, List.reverse_reverse]

theorem expand_compress (hne : "" ∉ hs) : expand hs.length (compress hs) = hs := by
  have hz := best_zeros hs
  unfold compress
  generalize zeroRun hs 0 ⟨0, 0, 0, 0⟩ = z at hz ⊢
  simp only
  split
  · have htake : "" ∉ hs.take z.bestStart := fun h => hne (List.mem_of_mem_take h)
    have hdrop : "" ∉ hs.drop (z.bestStart + z.bestLen) := fun h => hne (List.mem_of_mem_drop h)
    have hcount : hs.length - (hs.take z.bestStart).length -
        (hs.drop (z.bestStart + z.bestLen)).length = z.bestLen := by
      have := hz.1
      simp only [List.length_take, List.length_drop]
      omega
    -- At an end of the address the run stands for one empty word more.
    have hform : (if z.bestStart = 0 then [""] else []) ++ hs.take z.bestStart ++ [""] ++
        hs.drop (z.bestStart + z.bestLen) ++
          (if z.bestStart + z.bestLen = hs.length then [""] else []) =
        hs.take z.bestStart ++ ((if z.bestStart = 0 then [""] else []) ++ [""] ++
          (if z.bestStart + z.bestLen = hs.length then [""] else [])) ++
          hs.drop (z.bestStart + z.bestLen) := by
      split <;> split <;> simp_all
    rw [hform, expand_of_words htake hdrop (by split <;> rfl) (by split <;> split <;> rfl), hcount,
      take_replicate_drop hz]
  · rw [expand, takeWhile_ne_of_notMem hne, if_pos rfl]

theorem mem_compress {w : String} (hw : w ∈ compress hs) : w = "" ∨ w ∈ hs := by
  unfold compress at hw
  simp only at hw
  split at hw
  · simp only [List.mem_append, List.mem_ite_nil_right, List.mem_singleton] at hw
    rcases hw with (((hw | hw) | hw) | hw) | hw
    · exact Or.inl hw.2
    · exact Or.inr (List.mem_of_mem_take hw)
    · exact Or.inl hw
    · exact Or.inr (List.mem_of_mem_drop hw)
    · exact Or.inl hw.2
  · exact Or.inr hw

theorem compress_noColon (h : ∀ w ∈ hs, ':' ∉ w.toList) : ∀ w ∈ compress hs, ':' ∉ w.toList := by
  intro w hw
  rcases mem_compress hw with rfl | hw
  · simp
  · exact h w hw

theorem compress_ne_nil (h : hs ≠ []) : compress hs ≠ [] := by
  unfold compress
  simp only
  split
  · simp
  · exact h

/-- At least one colon is left. -/
theorem one_lt_length_compress (h : 1 < hs.length) : 1 < (compress hs).length := by
  unfold compress
  simp only
  split
  · have htake := List.length_take (i := (zeroRun hs 0 ⟨0, 0, 0, 0⟩).bestStart) (l := hs)
    split
    · simp only [List.length_append, List.length_singleton]
      omega
    · simp only [List.length_append, List.length_singleton]
      omega
  · exact h

theorem split_str (a : IPv6Address) : split (str a) ':' = compress (a.hextets.map hex) := by
  apply split_join
  · apply compress_noColon
    intro w hw
    obtain ⟨n, _, rfl⟩ := List.mem_map.mp hw
    exact hex_noColon n
  · exact compress_ne_nil (by simp [hextets])

/-- The text of an address has hexadecimal digits and colons. -/
theorem notMem_str {c : Char} (hc : digitVal c = none) (hcolon : c ≠ ':') (a : IPv6Address) :
    c ∉ (str a).toList := by
  intro h
  rcases mem_join h with rfl | ⟨w, hw, hcw⟩
  · exact hcolon rfl
  · rcases mem_compress hw with rfl | hw
    · cases hcw
    · obtain ⟨n, -, rfl⟩ := List.mem_map.mp hw
      exact notMem_hex hc n hcw

theorem colon_mem_str (a : IPv6Address) : ':' ∈ (str a).toList := by
  by_contra h
  have hlen : 1 < (compress (a.hextets.map hex)).length :=
    one_lt_length_compress (by simp [hextets])
  rw [← split_str, split_of_notMem h, List.length_singleton] at hlen
  exact lt_irrefl 1 hlen

/-- The hextets from the highest on determine the address. -/
theorem eq_of_hextets {a b : IPv6Address} (h : a.hextets = b.hextets) : a = b := by
  have hi := List.map_inj_left.mp h
  have hk : ∀ k ≤ 8, a.toNat / 2 ^ (16 * (8 - k)) = b.toNat / 2 ^ (16 * (8 - k)) := by
    intro k
    induction k with
    | zero =>
      intro _
      have ha := a.lt
      have hb := b.lt
      rw [Nat.div_eq_of_lt ha, Nat.div_eq_of_lt hb]
    | succ k ih =>
      intro hlt
      have hmod := hi k (List.mem_range.mpr (by omega))
      have hdiv := ih (by omega)
      have hexp : 16 * (8 - k) = 16 * (7 - k) + 16 := by omega
      rw [hexp, Nat.pow_add, ← Nat.div_div_eq_div_mul, ← Nat.div_div_eq_div_mul] at hdiv
      rw [show 8 - (k + 1) = 7 - k by omega, ← Nat.div_add_mod (a.toNat / _) (2 ^ 16),
        ← Nat.div_add_mod (b.toNat / _) (2 ^ 16), hmod, hdiv]
  apply Address.ext
  simpa using hk 8 le_rfl

theorem str_injective : Function.Injective str := by
  intro a b h
  have hs := congrArg (split · ':') h
  simp only [split_str] at hs
  have hne : ∀ c : IPv6Address, "" ∉ c.hextets.map hex := by
    intro c hc
    obtain ⟨n, _, hn⟩ := List.mem_map.mp hc
    exact hex_ne_empty n hn
  have hlen : ∀ c : IPv6Address, (c.hextets.map hex).length = 8 := by simp [hextets]
  have ha := expand_compress (hne a)
  have hb := expand_compress (hne b)
  rw [hlen] at ha hb
  rw [hs, hb] at ha
  exact eq_of_hextets (hex_injective.list_map ha.symm)

end IPv6Address

end PyMesh
