import PyMesh.Library.Bytes

/-! Sequences of type-length-value items, each value padded to a multiple of four bytes. -/
namespace Tlv

open Bytes

/-- An item and where it starts. -/
structure Item where
  start : Nat
  type : Nat
  value : List UInt8
deriving DecidableEq

/-- The first byte after the value. -/
def Item.stop (i : Item) : Nat := i.start + 4 + i.value.length

/-- A length with its padding. -/
def padded (n : Nat) : Nat := (n + 3) / 4 * 4

/-- The item at an offset, if all its bytes are there. -/
def itemAt (data : List UInt8) (offset : Nat) : Option Item :=
  let type := ofBigEndian (slice data offset (offset + 2))
  let len := ofBigEndian (slice data (offset + 2) (offset + 4))
  if offset + 4 + len ≤ data.length then
    some ⟨offset, type, slice data (offset + 4) (offset + 4 + len)⟩
  else none

/-- The items from an offset on, up to the first that is not complete. -/
def items (data : List UInt8) (offset : Nat) : List Item :=
  if offset < data.length then
    match itemAt data offset with
    | none => []
    | some i => i :: items data (offset + 4 + padded i.value.length)
  else []
termination_by data.length - offset

/-- The length that the item at an offset declares. -/
def declared (data : List UInt8) (offset : Nat) : Nat :=
  ofBigEndian (slice data (offset + 2) (offset + 4))

/-- The item at an offset is complete. -/
def Complete (data : List UInt8) (offset : Nat) : Prop :=
  offset + 4 + declared data offset ≤ data.length

/-- The offsets that are read from one on, over the complete items, until one of them stops the
reader. -/
inductive Visits (Stops : Nat → Prop) (data : List UInt8) (start : Nat) : Nat → Prop
  | start : Visits Stops data start start
  | next {k : Nat} : Visits Stops data start k → Complete data k → ¬ Stops k →
      Visits Stops data start (k + 4 + padded (declared data k))

/-- What an item holds, wherever it starts. -/
def Item.content (i : Item) : Nat × List UInt8 := (i.type, i.value)

/-- An item as it is sent. The bytes that pad the value may be any. -/
structure Attribute where
  type : Nat
  value : List UInt8
  padding : List UInt8
  type_lt : type < 65536
  length_lt : value.length < 65536
  length_padding : value.length + padding.length = padded value.length

def Attribute.content (a : Attribute) : Nat × List UInt8 := (a.type, a.value)

def Attribute.unpadded (a : Attribute) : List UInt8 :=
  pack16 a.type ++ pack16 a.value.length ++ a.value

def Attribute.encode (a : Attribute) : List UInt8 := a.unpadded ++ a.padding

def encode (as : List Attribute) : List UInt8 := as.flatMap Attribute.encode

variable {data : List UInt8} {offset k : Nat} {i : Item} {pre post : List UInt8} {a : Attribute}
  {as : List Attribute} {Stops : Nat → Prop}

theorem itemAt_eq_some_iff : itemAt data offset = some i ↔
    offset + 4 + ofBigEndian (slice data (offset + 2) (offset + 4)) ≤ data.length ∧
      i = ⟨offset, ofBigEndian (slice data offset (offset + 2)), slice data (offset + 4)
        (offset + 4 + ofBigEndian (slice data (offset + 2) (offset + 4)))⟩ := by
  simp [itemAt, eq_comm]

/-- The value of an item has the length that the item declares. -/
theorem length_value (h : itemAt data offset = some i) :
    i.value.length = ofBigEndian (slice data (offset + 2) (offset + 4)) := by
  obtain ⟨hle, rfl⟩ := itemAt_eq_some_iff.mp h
  rw [length_slice]
  omega

theorem complete_of_itemAt (h : itemAt data offset = some i) : Complete data offset :=
  (itemAt_eq_some_iff.mp h).1

theorem itemAt_of_complete (h : Complete data offset) : itemAt data offset =
    some ⟨offset, ofBigEndian (slice data offset (offset + 2)),
      slice data (offset + 4) (offset + 4 + declared data offset)⟩ :=
  itemAt_eq_some_iff.mpr ⟨h, rfl⟩

/-- The reader goes on from the second item as if it had started there. -/
theorem visits_iff (hc : Complete data offset) (hs : ¬ Stops offset) :
    Visits Stops data offset k ↔
      k = offset ∨ Visits Stops data (offset + 4 + padded (declared data offset)) k := by
  constructor
  · intro h
    induction h with
    | start => exact Or.inl rfl
    | next _ hk hstop ih =>
      rcases ih with rfl | ih
      · exact Or.inr .start
      · exact Or.inr (.next ih hk hstop)
  · rintro (rfl | h)
    · exact .start
    · induction h with
      | start => exact .next .start hc hs
      | next _ hk hstop ih => exact .next ih hk hstop

/-- Where nothing is left to read, or the first item is the one, the reader stays. -/
theorem visits_of_stops (h : Complete data offset → Stops offset) :
    Visits Stops data offset k ↔ k = offset := by
  constructor
  · intro hk
    induction hk with
    | start => rfl
    | next _ hc hstop ih =>
      subst ih
      exact (hstop (h hc)).elim
  · rintro rfl
    exact .start

theorem Attribute.length_unpadded (a : Attribute) : a.unpadded.length = 4 + a.value.length := by
  simp [unpadded]
  omega

theorem Attribute.length_encode (a : Attribute) : a.encode.length = 4 + padded a.value.length := by
  have hp := a.length_padding
  rw [encode, List.length_append, a.length_unpadded]
  omega

/-- An item is read wherever it starts, and whatever comes after its value. -/
theorem itemAt_unpadded (pre post : List UInt8) (a : Attribute) :
    itemAt (pre ++ a.unpadded ++ post) pre.length = some ⟨pre.length, a.type, a.value⟩ := by
  have htype : slice (pre ++ a.unpadded ++ post) pre.length (pre.length + 2) = pack16 a.type := by
    have hparts : pre ++ a.unpadded ++ post =
        pre ++ pack16 a.type ++ (pack16 a.value.length ++ a.value ++ post) := by
      simp [Attribute.unpadded]
    rw [hparts]
    exact slice_append rfl rfl
  have hlength : slice (pre ++ a.unpadded ++ post) (pre.length + 2) (pre.length + 4) =
      pack16 a.value.length := by
    have hparts : pre ++ a.unpadded ++ post =
        pre ++ pack16 a.type ++ pack16 a.value.length ++ (a.value ++ post) := by
      simp [Attribute.unpadded]
    rw [hparts]
    exact slice_append (by simp) (by simp)
  have hvalue : slice (pre ++ a.unpadded ++ post) (pre.length + 4)
      (pre.length + 4 + a.value.length) = a.value := by
    have hparts : pre ++ a.unpadded ++ post =
        pre ++ pack16 a.type ++ pack16 a.value.length ++ a.value ++ post := by
      simp [Attribute.unpadded]
    rw [hparts]
    exact slice_append (by simp) rfl
  rw [itemAt_eq_some_iff, htype, hlength, ofBigEndian_pack16 a.type_lt,
    ofBigEndian_pack16 a.length_lt, hvalue]
  refine ⟨?_, rfl⟩
  rw [List.length_append, List.length_append, a.length_unpadded]
  omega

theorem items_end (h : data.length ≤ offset) : items data offset = [] := by
  rw [items, if_neg (by omega)]

/-- The last item is read without its padding too. -/
theorem items_unpadded (pre : List UInt8) (a : Attribute) :
    items (pre ++ a.unpadded) pre.length = [⟨pre.length, a.type, a.value⟩] := by
  have hat := itemAt_unpadded pre [] a
  rw [List.append_nil] at hat
  have hp := a.length_padding
  rw [items, if_pos, hat]
  · dsimp only
    rw [items_end]
    rw [List.length_append, a.length_unpadded]
    omega
  · rw [List.length_append, a.length_unpadded]
    omega

/-- The items of attributes in the middle of the data are the attributes, and what is read after
them comes next. -/
theorem items_encode (pre post : List UInt8) (as : List Attribute) :
    (items (pre ++ encode as ++ post) pre.length).map Item.content = as.map Attribute.content ++
      (items (pre ++ encode as ++ post) (pre.length + (encode as).length)).map Item.content := by
  induction as generalizing pre with
  | nil => rfl
  | cons a as ih =>
    have hdata : pre ++ encode (a :: as) ++ post =
        pre ++ a.unpadded ++ (a.padding ++ encode as ++ post) := by
      simp [encode, Attribute.encode]
    have hnext : pre.length + 4 + padded a.value.length = (pre ++ a.encode).length := by
      rw [List.length_append, a.length_encode]
      omega
    have hrest : pre ++ encode (a :: as) ++ post = (pre ++ a.encode) ++ encode as ++ post := by
      simp [encode]
    have hend : pre.length + (encode (a :: as)).length =
        (pre ++ a.encode).length + (encode as).length := by
      simp [encode, Nat.add_assoc]
    rw [items, if_pos, hdata, itemAt_unpadded]
    · dsimp only
      rw [List.map_cons, ← hdata, hnext, hend, hrest, ih (pre ++ a.encode)]
      rfl
    · rw [hdata, List.length_append, List.length_append, a.length_unpadded]
      omega

theorem le_of_visits (h : Visits Stops data offset k) : offset ≤ k := by
  induction h with
  | start => exact Nat.le_refl _
  | next _ _ _ ih => omega

/-- The first item with a property is the one at the offset at which the reader stops. -/
theorem find?_items_eq_some_iff {p : Item → Bool} (hstops : ∀ k,
      Stops k ↔ ∃ i, itemAt data k = some i ∧ p i = true) :
    (items data offset).find? p = some i ↔
      ∃ k, Visits Stops data offset k ∧ Stops k ∧ itemAt data k = some i := by
  have hnone : ∀ offset, itemAt data offset = none →
      ¬ ∃ k, Visits Stops data offset k ∧ Stops k ∧ itemAt data k = some i := by
    rintro offset hoff ⟨k, hk, -, hi⟩
    have hcut : ¬ Complete data offset := by
      intro hc
      rw [itemAt_of_complete hc] at hoff
      cases hoff
    rw [(visits_of_stops fun hc => (hcut hc).elim).mp hk, hoff] at hi
    cases hi
  fun_induction items data offset with
  | case1 offset hlt hoff => exact iff_of_false (by simp) (hnone offset hoff)
  | case2 offset hlt first hfirst ih =>
    have hc := complete_of_itemAt hfirst
    rw [length_value hfirst] at ih
    by_cases hp : p first = true
    · have hstop : Stops offset := (hstops offset).mpr ⟨first, hfirst, hp⟩
      rw [List.find?_cons_of_pos hp, Option.some_inj]
      simp only [visits_of_stops fun _ => hstop, exists_eq_left, hstop, hfirst, true_and,
        Option.some_inj]
    · have hpass : ¬ Stops offset := by
        intro hstop
        obtain ⟨i', hi', hpi⟩ := (hstops offset).mp hstop
        obtain rfl := Option.some.inj (hfirst.symm.trans hi')
        exact hp hpi
      rw [List.find?_cons_of_neg hp, length_value hfirst]
      refine ih.trans (exists_congr fun k => and_congr_left fun hk => ?_)
      rw [visits_iff hc hpass]
      refine ⟨Or.inr, fun h => h.resolve_left ?_⟩
      rintro rfl
      exact hpass hk.1
  | case3 offset hge =>
    refine iff_of_false (by simp) (hnone offset ?_)
    refine if_neg ?_
    omega

/-- The first answer comes from the first item that has one. -/
theorem findSome?_eq_bind_find? {α β : Type} (f : α → Option β) (l : List α) :
    l.findSome? f = (l.find? fun a => (f a).isSome).bind f := by
  induction l with
  | nil => rfl
  | cons a l ih =>
    rw [List.findSome?_cons, List.find?_cons]
    cases h : f a with
    | none => simpa using ih
    | some b => simp [h]

end Tlv
