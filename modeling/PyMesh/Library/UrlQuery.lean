import PyMesh.Library.Text
import PyMesh.Library.Utf8

/-! The query of a URL: what a client sends of a text, and what a server reads of it that decodes
forms. -/
namespace UrlQuery

open Text

def isHex (c : Char) : Bool := (digitVal c).isSome

/-- A text is cut up into percent signs with two hexadecimal digits, and single characters. -/
inductive Piece where
  | escape (x y : Char)
  | char (c : Char)
deriving DecidableEq

def pieces : List Char → List Piece
  | [] => []
  | [c] => [.char c]
  | [c, d] => [.char c, .char d]
  | c :: x :: y :: cs =>
    if c = '%' ∧ isHex x ∧ isHex y then .escape x y :: pieces cs
    else .char c :: pieces (x :: y :: cs)

/-- Which characters a client sends as they are. The delimiters of a query are among them. -/
structure Client where
  safe : Char → Bool
  delimiters : ∀ c ∈ ['&', '+', '='], safe c = true
  ascii : ∀ c, safe c = true → c.toNat < 128

def hexDigit (n : Nat) : Char := n.digitChar.toUpper

def percent (b : UInt8) : List Char := ['%', hexDigit (b.toNat / 16), hexDigit (b.toNat % 16)]

/-- What is percent-encoded already is left so. -/
def Piece.quote (client : Client) : Piece → List Char
  | .escape x y => ['%', x, y]
  | .char c => if client.safe c then [c] else (String.utf8EncodeChar c).flatMap percent

def quote (client : Client) (cs : List Char) : List Char :=
  (pieces cs).flatMap (Piece.quote client)

/-- The query that a client sends for a URL: it starts after the first `?`, and a fragment is cut
off. -/
def query (client : Client) (url : String) : List Char :=
  quote client (((url.toList.takeWhile (· ≠ '#')).dropWhile (· ≠ '?')).drop 1)

def Piece.bytes : Piece → List UInt8
  | .escape x y => [UInt8.ofNat (16 * (digitVal x).getD 0 + (digitVal y).getD 0)]
  | .char c => String.utf8EncodeChar c

/-- `unquote(s)` of a text of ASCII characters. -/
def unquote (cs : List Char) : List Char := Utf8.decode ((pieces cs).flatMap Piece.bytes)

/-- `c.replace("+", " ")`. -/
def plusToSpace (c : Char) : Char := if c = '+' then ' ' else c

def unquotePlus (cs : List Char) : List Char := unquote (cs.map plusToSpace)

/-- A field of a form: what stands before its first equals sign, and what stands after it. -/
def field (nv : List Char) : String × String :=
  (String.ofList (unquotePlus (nv.takeWhile (· ≠ '='))),
    String.ofList (unquotePlus ((nv.dropWhile (· ≠ '=')).drop 1)))

/-- `parse_qsl(qs, keep_blank_values=True)`. -/
def parseQsl (qs : List Char) : List (String × String) :=
  ((qs.splitOn '&').filter (· ≠ [])).map field

/-- The value of a key that is there twice is the last one. -/
def lookup (params : List (String × String)) (key : String) : Option String :=
  (params.reverse.find? fun p => p.1 = key).map Prod.snd

def startsEscape : List Char → Bool
  | c :: x :: y :: _ => c = '%' && isHex x && isHex y
  | _ => false

variable {client : Client} {c x y : Char} {cs s t : List Char}

theorem pieces_char (h : startsEscape (c :: cs) = false) :
    pieces (c :: cs) = .char c :: pieces cs := by
  cases cs with
  | nil => rfl
  | cons x cs =>
    cases cs with
    | nil => rfl
    | cons y cs =>
      refine if_neg ?_
      rintro ⟨hc, hx, hy⟩
      simp [startsEscape, hc, hx, hy] at h

theorem pieces_escape (hx : isHex x = true) (hy : isHex y = true) :
    pieces ('%' :: x :: y :: cs) = .escape x y :: pieces cs := if_pos ⟨rfl, hx, hy⟩

/-- A text is read from the left, a piece at a time. -/
@[elab_as_elim]
theorem piecewise {P : List Char → Prop} (nil : P [])
    (char : ∀ c cs, startsEscape (c :: cs) = false → P cs → P (c :: cs))
    (escape : ∀ x y cs, isHex x = true → isHex y = true → P cs → P ('%' :: x :: y :: cs))
    (cs : List Char) : P cs := by
  induction hn : cs.length using Nat.strongRecOn generalizing cs with
  | _ n ih =>
    cases cs with
    | nil => exact nil
    | cons c cs =>
      rw [List.length_cons] at hn
      by_cases h : startsEscape (c :: cs) = true
      · match cs, h with
        | x :: y :: cs, h =>
          simp only [startsEscape, Bool.and_eq_true, decide_eq_true_eq] at h
          obtain ⟨⟨rfl, hx⟩, hy⟩ := h
          simp only [List.length_cons] at hn
          exact escape x y cs hx hy (ih cs.length (by omega) cs rfl)
      · rw [Bool.not_eq_true] at h
        exact char c cs h (ih cs.length (by omega) cs rfl)

theorem quote_char (h : startsEscape (c :: cs) = false) :
    quote client (c :: cs) = Piece.quote client (.char c) ++ quote client cs := by
  rw [quote, pieces_char h]
  rfl

theorem quote_escape (hx : isHex x = true) (hy : isHex y = true) :
    quote client ('%' :: x :: y :: cs) = '%' :: x :: y :: quote client cs := by
  rw [quote, pieces_escape hx hy]
  rfl

theorem startsEscape_of_ne (hc : c ≠ '%') (cs : List Char) : startsEscape (c :: cs) = false := by
  cases cs with
  | nil => rfl
  | cons x cs =>
    cases cs with
    | nil => rfl
    | cons y cs => simp [startsEscape, hc]

theorem ne_of_isHex (hx : isHex x = true) (hc : isHex c = false) : c ≠ x := by
  rintro rfl
  exact Bool.noConfusion (hx.symm.trans hc)

theorem digitVal_hexDigit : ∀ d < 16, digitVal (hexDigit d) = some d := by decide

theorem isHex_hexDigit {d : Nat} (h : d < 16) : isHex (hexDigit d) = true := by
  rw [isHex, digitVal_hexDigit d h]
  rfl

/-- The piece that a byte is sent as. -/
def Piece.ofByte (b : UInt8) : Piece :=
  .escape (hexDigit (b.toNat / 16)) (hexDigit (b.toNat % 16))

theorem Piece.bytes_ofByte (b : UInt8) : (ofByte b).bytes = [b] := by
  have hb := b.toNat_lt
  have hhi : b.toNat / 16 < 16 := by omega
  have hlo : b.toNat % 16 < 16 := by omega
  have hval : 16 * (b.toNat / 16) + b.toNat % 16 = b.toNat := by omega
  rw [ofByte, bytes, digitVal_hexDigit _ hhi, digitVal_hexDigit _ hlo]
  simp only [Option.getD_some, hval, UInt8.ofNat_toNat]

theorem pieces_percents (bs : List UInt8) (cs : List Char) :
    pieces (bs.flatMap percent ++ cs) = bs.map Piece.ofByte ++ pieces cs := by
  induction bs with
  | nil => rfl
  | cons b bs ih =>
    have hb := b.toNat_lt
    have hhi : b.toNat / 16 < 16 := by omega
    have hlo : b.toNat % 16 < 16 := by omega
    rw [List.flatMap_cons, List.append_assoc, List.map_cons, List.cons_append, ← ih]
    exact pieces_escape (isHex_hexDigit hhi) (isHex_hexDigit hlo)

/-- What is sent starts with a percent sign, or with the first character of the text. -/
theorem quote_cons {r : List Char} (h : quote client cs = x :: r) (hx : x ≠ '%') :
    ∃ t, cs = x :: t ∧ r = quote client t := by
  induction cs using piecewise with
  | nil => cases h
  | char c cs hc ih =>
    rw [quote_char hc, Piece.quote] at h
    split at h
    · cases h
      exact ⟨cs, rfl, rfl⟩
    · obtain ⟨b, bs, hbs, -⟩ := Utf8.encode_start c
      rw [hbs, List.flatMap_cons, List.append_assoc] at h
      exact (hx (List.cons.inj h).1.symm).elim
  | escape a b cs ha hb ih =>
    rw [quote_escape ha hb] at h
    exact (hx (List.cons.inj h).1.symm).elim

/-- A percent sign that starts no escape starts none in what is sent. -/
theorem startsEscape_quote (h : startsEscape (c :: cs) = false) :
    startsEscape (c :: quote client cs) = false := by
  have hpercent : isHex '%' = false := by decide
  by_contra hc
  rw [Bool.not_eq_false] at hc
  cases hq : quote client cs with
  | nil =>
    rw [hq] at hc
    cases hc
  | cons x r =>
    cases r with
    | nil =>
      rw [hq] at hc
      cases hc
    | cons y r =>
      rw [hq] at hc
      simp only [startsEscape, Bool.and_eq_true, decide_eq_true_eq] at hc
      obtain ⟨⟨rfl, hx⟩, hy⟩ := hc
      obtain ⟨t, rfl, ht⟩ := quote_cons hq (ne_of_isHex hx hpercent).symm
      obtain ⟨u, rfl, -⟩ := quote_cons ht.symm (ne_of_isHex hy hpercent).symm
      simp [startsEscape, hx, hy] at h

/-- The pieces of what is sent for a piece. -/
def Piece.sent (client : Client) : Piece → List Piece
  | .escape x y => [.escape x y]
  | .char c => if client.safe c then [.char c] else (String.utf8EncodeChar c).map .ofByte

theorem pieces_quote (client : Client) (cs : List Char) :
    pieces (quote client cs) = (pieces cs).flatMap (Piece.sent client) := by
  induction cs using piecewise with
  | nil => rfl
  | char c cs hc ih =>
    rw [quote_char hc, pieces_char hc, List.flatMap_cons, ← ih, Piece.quote, Piece.sent]
    split
    · exact pieces_char (startsEscape_quote hc)
    · exact pieces_percents _ _
  | escape x y cs hx hy ih =>
    rw [quote_escape hx hy, pieces_escape hx hy, pieces_escape hx hy, List.flatMap_cons, ← ih]
    rfl

def Piece.plusToSpace : Piece → Piece
  | .escape x y => .escape x y
  | .char c => .char (UrlQuery.plusToSpace c)

theorem startsEscape_plusToSpace (cs : List Char) :
    startsEscape (cs.map plusToSpace) = startsEscape cs := by
  have hhex : ∀ c, isHex (plusToSpace c) = isHex c := by
    intro c
    unfold plusToSpace
    split
    · rename_i h
      subst h
      decide
    · rfl
  have hpercent : ∀ c, plusToSpace c = '%' ↔ c = '%' := by
    intro c
    unfold plusToSpace
    split
    · rename_i h
      subst h
      decide
    · rfl
  cases cs with
  | nil => rfl
  | cons c cs =>
    cases cs with
    | nil => rfl
    | cons x cs =>
      cases cs with
      | nil => rfl
      | cons y cs => simp only [List.map_cons, startsEscape, hhex, hpercent]

theorem pieces_plusToSpace (cs : List Char) :
    pieces (cs.map plusToSpace) = (pieces cs).map Piece.plusToSpace := by
  have hplain : ∀ c, isHex c = true → plusToSpace c = c := fun c hc =>
    if_neg (ne_of_isHex hc (by decide : isHex '+' = false)).symm
  induction cs using piecewise with
  | nil => rfl
  | char c cs hc ih =>
    have hc' := startsEscape_plusToSpace (c :: cs)
    rw [hc, List.map_cons] at hc'
    rw [List.map_cons, pieces_char hc', pieces_char hc, ih]
    rfl
  | escape x y cs hx hy ih =>
    have hpercent : plusToSpace '%' = '%' := rfl
    rw [List.map_cons, List.map_cons, List.map_cons, hplain x hx, hplain y hy, hpercent,
      pieces_escape hx hy, pieces_escape hx hy, ih]
    rfl

/-- The bytes that a server reads of a piece. -/
def Piece.received (p : Piece) : List UInt8 := p.plusToSpace.bytes

theorem unquotePlus_eq (cs : List Char) :
    unquotePlus cs = Utf8.decode ((pieces cs).flatMap Piece.received) := by
  rw [unquotePlus, unquote, pieces_plusToSpace, List.flatMap_map]
  rfl

theorem Piece.received_sent (client : Client) (p : Piece) :
    (p.sent client).flatMap received = p.received := by
  cases p with
  | escape x y => exact List.append_nil _
  | char c =>
    rw [sent]
    split
    · exact List.append_nil _
    · rename_i hsafe
      have hplus : c ≠ '+' := by
        rintro rfl
        exact hsafe (client.delimiters '+' (by simp))
      have hreceived : received (char c) = String.utf8EncodeChar c := by
        simp [received, plusToSpace, UrlQuery.plusToSpace, bytes, hplus]
      have hbyte : ∀ b : UInt8, received (ofByte b) = [b] := bytes_ofByte
      rw [hreceived, List.flatMap_map]
      simp only [hbyte]
      exact List.flatMap_singleton' _

/-- A server reads what is sent for a text as it would read the text. -/
theorem unquotePlus_quote (client : Client) (cs : List Char) :
    unquotePlus (quote client cs) = unquotePlus cs := by
  rw [unquotePlus_eq, unquotePlus_eq, pieces_quote, List.flatMap_assoc]
  simp only [Piece.received_sent]

theorem startsEscape_append (hc : isHex c = false) (h : startsEscape (x :: s) = false)
    (t : List Char) : startsEscape (x :: (s ++ c :: t)) = false := by
  cases s with
  | nil =>
    cases t with
    | nil => rfl
    | cons d t => simp [startsEscape, hc]
  | cons a s =>
    cases s with
    | nil => simp [startsEscape, hc]
    | cons b s => exact h

/-- No escape goes over a character that is no digit. -/
theorem quote_append (hc : isHex c = false) (s t : List Char) :
    quote client (s ++ c :: t) = quote client s ++ quote client (c :: t) := by
  induction s using piecewise with
  | nil => rfl
  | char d s hd ih =>
    rw [List.cons_append, quote_char (startsEscape_append hc hd t), quote_char hd, ih,
      List.append_assoc]
  | escape x y s hx hy ih =>
    rw [List.cons_append, List.cons_append, List.cons_append, quote_escape hx hy,
      quote_escape hx hy, ih]
    rfl

/-- A character that is sent is one of an escape, or a safe one of the text. -/
theorem mem_quote_cases (h : c ∈ quote client s) :
    c = '%' ∨ isHex c = true ∨ (client.safe c = true ∧ c ∈ s) := by
  induction s using piecewise with
  | nil => cases h
  | char d s hd ih =>
    rw [quote_char hd, List.mem_append, Piece.quote] at h
    rcases h with h | h
    · split at h
      · rename_i hsafe
        obtain rfl := List.mem_singleton.mp h
        exact Or.inr (Or.inr ⟨hsafe, List.mem_cons_self⟩)
      · obtain ⟨b, -, hb⟩ := List.mem_flatMap.mp h
        have hlt := b.toNat_lt
        simp only [percent, List.mem_cons, List.not_mem_nil, or_false] at hb
        rcases hb with hb | rfl | rfl
        · exact Or.inl hb
        · exact Or.inr (Or.inl (isHex_hexDigit (by omega)))
        · exact Or.inr (Or.inl (isHex_hexDigit (by omega)))
    · rcases ih h with hp | hx | ⟨hsafe, hm⟩
      · exact Or.inl hp
      · exact Or.inr (Or.inl hx)
      · exact Or.inr (Or.inr ⟨hsafe, List.mem_cons_of_mem d hm⟩)
  | escape x y s hx hy ih =>
    rw [quote_escape hx hy] at h
    simp only [List.mem_cons] at h
    rcases h with h | rfl | rfl | h
    · exact Or.inl h
    · exact Or.inr (Or.inl hx)
    · exact Or.inr (Or.inl hy)
    · rcases ih h with hp | hx | ⟨hsafe, hm⟩
      · exact Or.inl hp
      · exact Or.inr (Or.inl hx)
      · exact Or.inr (Or.inr ⟨hsafe, by simp [hm]⟩)

/-- The characters that part a query into fields, and a field into its key and its value. -/
def Separator (c : Char) : Prop := c = '&' ∨ c = '='

theorem Separator.isHex (h : Separator c) : isHex c = false := by
  rcases h with rfl | rfl <;> decide

theorem Separator.ne_percent (h : Separator c) : c ≠ '%' := by
  rcases h with rfl | rfl <;> decide

theorem Separator.safe (h : Separator c) (client : Client) : client.safe c = true := by
  rcases h with rfl | rfl
  · exact client.delimiters '&' (by simp)
  · exact client.delimiters '=' (by simp)

theorem quote_separator (hc : Separator c) (s t : List Char) :
    quote client (s ++ c :: t) = quote client s ++ c :: quote client t := by
  rw [quote_append hc.isHex, quote_char (startsEscape_of_ne hc.ne_percent t), Piece.quote,
    if_pos (hc.safe client)]
  rfl

theorem mem_quote (hc : Separator c) (h : c ∈ quote client s) : c ∈ s := by
  rcases mem_quote_cases h with hp | hx | ⟨-, hm⟩
  · exact (hc.ne_percent hp).elim
  · exact Bool.noConfusion (hx.symm.trans hc.isHex)
  · exact hm

theorem quote_eq_nil_iff : quote client s = [] ↔ s = [] := by
  constructor
  · intro h
    induction s using piecewise with
    | nil => rfl
    | char c s hc ih =>
      rw [quote_char hc, List.append_eq_nil_iff, Piece.quote] at h
      obtain ⟨b, bs, hbs, -⟩ := Utf8.encode_start c
      have hne := h.1
      rw [hbs] at hne
      split at hne <;> cases hne
    | escape x y s hx hy ih =>
      rw [quote_escape hx hy] at h
      cases h
  · rintro rfl
    rfl

theorem field_append {k v : List Char} (hk : '=' ∉ k) :
    field (k ++ '=' :: v) = (String.ofList (unquotePlus k), String.ofList (unquotePlus v)) := by
  rw [field, takeWhile_ne hk, dropWhile_ne hk]
  rfl

theorem field_of_notMem {k : List Char} (hk : '=' ∉ k) :
    field k = (String.ofList (unquotePlus k), "") := by
  rw [field, takeWhile_ne_of_notMem hk, dropWhile_ne_of_notMem hk]
  rfl

theorem field_quote (client : Client) (nv : List Char) : field (quote client nv) = field nv := by
  by_cases h : '=' ∈ nv
  · obtain ⟨k, v, rfl, hk⟩ := List.eq_append_cons_of_mem h
    have hk' : '=' ∉ quote client k := mt (mem_quote (Or.inr rfl)) hk
    rw [quote_separator (Or.inr rfl), field_append hk', field_append hk, unquotePlus_quote,
      unquotePlus_quote]
  · have h' : '=' ∉ quote client nv := mt (mem_quote (Or.inr rfl)) h
    rw [field_of_notMem h', field_of_notMem h, unquotePlus_quote]

theorem parseQsl_append (s t : List Char) :
    parseQsl (s ++ '&' :: t) = parseQsl s ++ parseQsl t := by
  rw [parseQsl, List.splitOn_append_cons_self, List.filter_append, List.map_append]
  rfl

theorem parseQsl_of_notMem (h : '&' ∉ s) : parseQsl s = if s = [] then [] else [field s] := by
  rw [parseQsl, List.splitOn_eq_singleton h]
  by_cases hs : s = []
  · rw [hs]
    rfl
  · rw [if_neg hs]
    simp [hs]

/-- The fields that a server reads of a query are those of the text that it was made from. -/
theorem parseQsl_quote (client : Client) (q : List Char) :
    parseQsl (quote client q) = parseQsl q := by
  have hfree : ∀ s : List Char, '&' ∉ s → parseQsl (quote client s) = parseQsl s := by
    intro s hs
    have hs' : '&' ∉ quote client s := mt (mem_quote (Or.inl rfl)) hs
    rw [parseQsl_of_notMem hs', parseQsl_of_notMem hs, field_quote]
    simp only [quote_eq_nil_iff]
  induction hn : q.length using Nat.strongRecOn generalizing q with
  | _ n ih =>
    by_cases h : '&' ∈ q
    · obtain ⟨s, t, rfl, hs⟩ := List.eq_append_cons_of_mem h
      have hlen : t.length < n := by
        rw [← hn, List.length_append, List.length_cons]
        omega
      rw [quote_separator (Or.inl rfl), parseQsl_append, parseQsl_append, hfree s hs,
        ih t.length hlen t rfl]
    · exact hfree q h

/-- A percent sign with two hexadecimal digits after it is somewhere in the text. -/
def Escaped (s : List Char) : Prop :=
  ∃ x y, isHex x = true ∧ isHex y = true ∧ ['%', x, y] <:+: s

theorem escaped_iff : Escaped s ↔ ∃ x y, Piece.escape x y ∈ pieces s := by
  induction s using piecewise with
  | nil => simp [Escaped, pieces]
  | char c s hc ih =>
    have hstart : ∀ x y, isHex x = true → isHex y = true → ¬ ['%', x, y] <+: c :: s := by
      rintro x y hx hy ⟨t, ht⟩
      rw [← ht] at hc
      simp [startsEscape, hx, hy] at hc
    have hstep : Escaped (c :: s) ↔ Escaped s := by
      constructor
      · rintro ⟨x, y, hx, hy, h⟩
        rcases List.infix_cons_iff.mp h with h | h
        · exact (hstart x y hx hy h).elim
        · exact ⟨x, y, hx, hy, h⟩
      · rintro ⟨x, y, hx, hy, h⟩
        exact ⟨x, y, hx, hy, h.trans (List.suffix_cons c s).isInfix⟩
    rw [hstep, ih, pieces_char hc]
    simp
  | escape x y s hx hy ih =>
    rw [pieces_escape hx hy]
    refine iff_of_true ⟨x, y, hx, hy, ?_⟩ ⟨x, y, List.mem_cons_self⟩
    exact (List.prefix_append ['%', x, y] s).isInfix

instance (s : List Char) : Decidable (Escaped s) :=
  decidable_of_iff ((pieces s).any fun p => p matches .escape _ _) (by
    rw [escaped_iff, List.any_eq_true]
    constructor
    · rintro ⟨p, hp, h⟩
      cases p with
      | escape x y => exact ⟨x, y, hp⟩
      | char c => cases h
    · rintro ⟨x, y, h⟩
      exact ⟨_, h, rfl⟩)

/-- Each piece makes one character at most. -/
theorem length_decodeFrom_le (ps : List Piece) (st : Option Utf8.Pending) :
    (Utf8.decodeFrom st (ps.flatMap Piece.received)).length ≤
      ps.length + (Utf8.flush st).length := by
  induction ps generalizing st with
  | nil =>
    rw [List.flatMap_nil, Utf8.decodeFrom_nil]
    simp
  | cons p ps ih =>
    rw [List.flatMap_cons, List.length_cons]
    cases p with
    | escape x y => exact Utf8.length_decodeFrom_cons_le ih st _
    | char c =>
      have hps : (Utf8.decodeFrom none (ps.flatMap Piece.received)).length ≤ ps.length := ih none
      have hchar : Piece.received (.char c) = String.utf8EncodeChar (plusToSpace c) := rfl
      rw [hchar, Utf8.decodeFrom_encode_flush, List.length_append, List.length_cons]
      omega

theorem length_pieces_le (s : List Char) : (pieces s).length ≤ s.length := by
  induction s using piecewise with
  | nil => exact Nat.le_refl 0
  | char c s hc ih =>
    rw [pieces_char hc, List.length_cons, List.length_cons]
    omega
  | escape x y s hx hy ih =>
    rw [pieces_escape hx hy, List.length_cons, List.length_cons, List.length_cons,
      List.length_cons]
    omega

theorem length_unquotePlus_le (s : List Char) : (unquotePlus s).length ≤ s.length := by
  have hdecode : (unquotePlus s).length ≤ (pieces s).length := by
    rw [unquotePlus_eq]
    exact length_decodeFrom_le (pieces s) none
  exact hdecode.trans (length_pieces_le s)

theorem unquotePlus_char (hc : startsEscape (c :: s) = false) :
    unquotePlus (c :: s) = plusToSpace c :: unquotePlus s := by
  have hchar : Piece.received (.char c) = String.utf8EncodeChar (plusToSpace c) := rfl
  rw [unquotePlus_eq, unquotePlus_eq, pieces_char hc, List.flatMap_cons, hchar]
  exact Utf8.decodeFrom_encode _ _

/-- A text with an escape in it gets shorter. -/
theorem length_unquotePlus_escape (hx : isHex x = true) (hy : isHex y = true) (s : List Char) :
    (unquotePlus ('%' :: x :: y :: s)).length < ('%' :: x :: y :: s).length := by
  have hdecode := length_decodeFrom_le (pieces ('%' :: x :: y :: s)) none
  have hpieces := length_pieces_le s
  have hnone : (Utf8.flush none).length = 0 := rfl
  rw [pieces_escape hx hy, List.length_cons, hnone] at hdecode
  rw [unquotePlus_eq, Utf8.decode, pieces_escape hx hy]
  simp only [List.length_cons]
  omega

/-- A text is read as itself exactly when there is no plus sign and no escape in it. -/
theorem unquotePlus_eq_iff : unquotePlus s = s ↔ '+' ∉ s ∧ ¬ Escaped s := by
  induction s using piecewise with
  | nil => exact iff_of_true rfl ⟨by simp, by simp [escaped_iff, pieces]⟩
  | char c s hc ih =>
    have hescaped : Escaped (c :: s) ↔ Escaped s := by
      rw [escaped_iff, escaped_iff, pieces_char hc]
      simp
    have hplus : plusToSpace c = c ↔ '+' ≠ c := by
      unfold plusToSpace
      split
      · rename_i h
        subst h
        decide
      · rename_i h
        exact iff_of_true rfl (Ne.symm h)
    rw [unquotePlus_char hc, List.cons.injEq, ih, hplus, hescaped, List.mem_cons, not_or,
      and_assoc]
  | escape x y s hx hy ih =>
    refine iff_of_false ?_ ?_
    · intro h
      have hlen := length_unquotePlus_escape hx hy s
      rw [h] at hlen
      omega
    · rintro ⟨-, h⟩
      exact h ⟨x, y, hx, hy, (List.prefix_append ['%', x, y] s).isInfix⟩

/-- A text that comes out of a query as it was put into it. -/
def Verbatim (s : List Char) : Prop := '&' ∉ s ∧ '#' ∉ s ∧ '+' ∉ s ∧ ¬ Escaped s

instance (s : List Char) : Decidable (Verbatim s) := instDecidableAnd

/-- The key of a field: none of its characters means anything in a query. -/
def Key (key : String) : Prop := ∀ c ∈ key.toList, c ∉ ['&', '#', '+', '%', '=']

instance (key : String) : Decidable (Key key) := List.decidableBAll _ _

namespace Key

variable {key : String}

theorem unquotePlus_toList (hk : Key key) : unquotePlus key.toList = key.toList := by
  refine unquotePlus_eq_iff.mpr ⟨fun h => hk '+' h (by decide), ?_⟩
  rintro ⟨x, y, -, -, h⟩
  exact hk '%' (h.subset List.mem_cons_self) (by decide)

theorem notMem_equals (hk : Key key) : '=' ∉ key.toList := fun h => hk '=' h (by decide)

theorem notMem_field (hk : Key key) {c : Char} (hc : c ∈ ['&', '#']) (hs : c ∉ s) :
    c ∉ key.toList ++ '=' :: s := by
  have hkey : c ∈ ['&', '#', '+', '%', '='] := by
    simp only [List.mem_cons, List.not_mem_nil, or_false] at hc ⊢
    rcases hc with rfl | rfl <;> simp
  have hne : c ≠ '=' := by
    rintro rfl
    exact absurd hc (by decide)
  rw [List.mem_append, List.mem_cons, not_or, not_or]
  exact ⟨fun h => hk c h hkey, hne, hs⟩

theorem takeWhile_field (hk : Key key) (s : List Char) :
    (key.toList ++ '=' :: s).takeWhile (· ≠ '#') =
      key.toList ++ '=' :: s.takeWhile (· ≠ '#') := by
  have hkey : '#' ∉ key.toList := fun h => hk '#' h (by decide)
  rw [takeWhile_ne_append hkey]
  rfl

/-- A field without a separator in its value. -/
theorem parseQsl_field (hk : Key key) (hs : '&' ∉ s) :
    parseQsl (key.toList ++ '=' :: s) = [(key, String.ofList (unquotePlus s))] := by
  have hne : key.toList ++ '=' :: s ≠ [] := by simp
  rw [parseQsl_of_notMem (hk.notMem_field (by decide) hs), if_neg hne,
    field_append hk.notMem_equals, hk.unquotePlus_toList, String.ofList_toList]

end Key

theorem length_field_le (nv : List Char) : (field nv).2.toList.length ≤ nv.length := by
  have hv := length_unquotePlus_le ((nv.dropWhile (· ≠ '=')).drop 1)
  have hdrop := (List.dropWhile_suffix (p := fun c => decide (c ≠ '=')) (l := nv)).length_le
  have htail : ((nv.dropWhile (· ≠ '=')).drop 1).length ≤ (nv.dropWhile (· ≠ '=')).length :=
    List.drop_sublist 1 _ |>.length_le
  rw [field, String.toList_ofList]
  omega

/-- No value is longer than the text that it is read from. -/
theorem length_value_le {q : List Char} {p : String × String} (hp : p ∈ parseQsl q) :
    p.2.toList.length ≤ q.length := by
  have hfree : ∀ s : List Char, '&' ∉ s → ∀ p ∈ parseQsl s, p.2.toList.length ≤ s.length := by
    intro s hs p hp
    rw [parseQsl_of_notMem hs] at hp
    split at hp
    · cases hp
    · rw [List.mem_singleton.mp hp]
      exact length_field_le s
  induction hn : q.length using Nat.strongRecOn generalizing q with
  | _ n ih =>
    rw [← hn]
    by_cases h : '&' ∈ q
    · obtain ⟨s, t, rfl, hs⟩ := List.eq_append_cons_of_mem h
      rw [List.length_append, List.length_cons] at hn ⊢
      rw [parseQsl_append, List.mem_append] at hp
      rcases hp with hp | hp
      · have hle := hfree s hs p hp
        omega
      · have hle := ih t.length (by omega) hp rfl
        omega
    · exact hfree q h p hp

theorem lookup_append (a b : List (String × String)) (key : String) :
    lookup (a ++ b) key = (lookup b key).or (lookup a key) := by
  simp only [lookup, List.reverse_append, List.find?_append]
  cases b.reverse.find? fun p => p.1 = key <;> rfl

theorem mem_of_lookup {params : List (String × String)} {key value : String}
    (h : lookup params key = some value) : (key, value) ∈ params := by
  obtain ⟨⟨k, v⟩, hp, rfl⟩ := Option.map_eq_some_iff.mp h
  have hk : k = key := by simpa using List.find?_some hp
  rw [← hk]
  exact List.mem_reverse.mp (List.mem_of_find?_eq_some hp)

theorem lookup_singleton (k v key : String) :
    lookup [(k, v)] key = if k = key then some v else none := by
  by_cases h : k = key <;> simp [lookup, h]

/-- A field has a value, whatever stands in it, and it is read as what was put there only when
that is verbatim. -/
theorem lookup_field {key : String} (hk : Key key) (s : List Char) : ∃ v,
    lookup (parseQsl (key.toList ++ '=' :: s)) key = some v ∧ v.toList.length ≤ s.length ∧
      (v.toList = s → '&' ∉ s ∧ '+' ∉ s ∧ ¬ Escaped s) := by
  by_cases h : '&' ∈ s
  · obtain ⟨a, b, rfl, ha⟩ := List.eq_append_cons_of_mem h
    have hsplit : key.toList ++ '=' :: (a ++ '&' :: b) =
        (key.toList ++ '=' :: a) ++ '&' :: b := by simp
    have hlen : (a ++ '&' :: b).length = a.length + (b.length + 1) := by simp
    -- All that is read is shorter than the text of the field.
    have hshort : ∃ v, lookup (parseQsl (key.toList ++ '=' :: (a ++ '&' :: b))) key = some v ∧
        v.toList.length < (a ++ '&' :: b).length := by
      rw [hsplit, parseQsl_append, lookup_append, hk.parseQsl_field ha, lookup_singleton,
        if_pos rfl, hlen]
      cases hb : lookup (parseQsl b) key with
      | none =>
        have hle := length_unquotePlus_le a
        exact ⟨_, rfl, by rw [String.toList_ofList]; omega⟩
      | some v =>
        have hle : v.toList.length ≤ b.length := length_value_le (mem_of_lookup hb)
        exact ⟨v, rfl, by omega⟩
    obtain ⟨v, hv, hlt⟩ := hshort
    refine ⟨v, hv, hlt.le, fun heq => ?_⟩
    rw [heq] at hlt
    omega
  · refine ⟨_, by rw [hk.parseQsl_field h, lookup_singleton, if_pos rfl], ?_, ?_⟩
    · rw [String.toList_ofList]
      exact length_unquotePlus_le s
    · rw [String.toList_ofList, unquotePlus_eq_iff]
      exact fun hs => ⟨h, hs⟩

/-- The same of a field at the end of a query, where a fragment is cut off. -/
theorem lookup_cut {key : String} (hk : Key key) (s : List Char) : ∃ v,
    lookup (parseQsl (key.toList ++ '=' :: s.takeWhile (· ≠ '#'))) key = some v ∧
      (v.toList = s → Verbatim s) := by
  by_cases h : '#' ∈ s
  · obtain ⟨a, b, rfl, ha⟩ := List.eq_append_cons_of_mem h
    obtain ⟨v, hv, hle, -⟩ := lookup_field hk a
    rw [takeWhile_ne ha]
    refine ⟨v, hv, fun heq => ?_⟩
    rw [heq, List.length_append, List.length_cons] at hle
    omega
  · obtain ⟨v, hv, -, hverbatim⟩ := lookup_field hk s
    rw [takeWhile_ne_of_notMem h]
    exact ⟨v, hv, fun heq => ⟨(hverbatim heq).1, h, (hverbatim heq).2⟩⟩

/-- What a field says of the other keys. -/
theorem lookup_other {key key' : String} (hk : Key key) (hs : '&' ∉ s) (hne : key ≠ key') :
    lookup (parseQsl (key.toList ++ '=' :: s)) key' = none := by
  rw [hk.parseQsl_field hs, lookup_singleton, if_neg hne]

theorem lookup_verbatim {key : String} (hk : Key key) (hs : Verbatim s) :
    lookup (parseQsl (key.toList ++ '=' :: s)) key = some (String.ofList s) := by
  rw [hk.parseQsl_field hs.1, lookup_singleton, if_pos rfl, unquotePlus_eq_iff.mpr hs.2.2]

theorem not_escaped (h : '%' ∉ s) : ¬ Escaped s := by
  rintro ⟨x, y, -, -, hs⟩
  exact h (hs.subset List.mem_cons_self)

/-- Where nothing is escaped only the plus signs change. -/
theorem unquotePlus_of_notMem (h : '%' ∉ s) : unquotePlus s = s.map plusToSpace := by
  have hspace : ∀ c, plusToSpace (plusToSpace c) = plusToSpace c := by
    intro c
    unfold plusToSpace
    split <;> simp_all
  have hplus : ∀ c ∈ s.map plusToSpace, c ≠ '+' ∧ c ≠ '%' := by
    intro c hc
    obtain ⟨d, hd, rfl⟩ := List.mem_map.mp hc
    have hne : d ≠ '%' := fun he => h (he ▸ hd)
    unfold plusToSpace
    split <;> simp_all
  have hfixed : unquotePlus (s.map plusToSpace) = s.map plusToSpace :=
    unquotePlus_eq_iff.mpr ⟨fun hc => (hplus _ hc).1 rfl,
      not_escaped fun hc => (hplus _ hc).2 rfl⟩
  rw [← hfixed, unquotePlus, unquotePlus, List.map_map]
  simp only [Function.comp_def, hspace]

/-- What a server reads of the query of a URL, up to a fragment. -/
theorem parseQsl_query {base : String} (hbase : ∀ c ∈ ['?', '#'], c ∉ base.toList)
    (client : Client) (form : List Char) :
    parseQsl (query client (String.ofList (base.toList ++ '?' :: form))) =
      parseQsl (form.takeWhile (· ≠ '#')) := by
  rw [query, parseQsl_quote, String.toList_ofList, takeWhile_ne_append (hbase '#' (by simp)),
    List.takeWhile_cons_of_pos (p := fun c => decide (c ≠ '#')) rfl,
    dropWhile_ne (hbase '?' (by simp))]
  rfl

end UrlQuery
