import XbdmGdbBridge.Lib.Memory
import Mathlib.Data.List.Basic

/-!
# Numbers in a block of bytes

A block has an end, and a number that is not inside it can neither be read nor written. `Relocated`
says of two blocks that some numbers were moved by a distance, others set, and that is all: the block
behind it is determined by the one before, and two moves are one by the sum of the distances.
-/

namespace XbdmGdbBridge.Lib

abbrev Block := List UInt8

namespace Block

/-- The number in `n` bytes, lowest first. -/
def load (n : Nat) (b : Block) (offset : Nat) : Option Nat :=
  if offset + n ≤ b.length then some (Memory.value n fun a => b.getD (offset + a) 0) else none

def store (n : Nat) (b : Block) (offset v : Nat) : Option Block :=
  if offset + n ≤ b.length then
    some (b.mapIdx fun a c => if offset ≤ a ∧ a < offset + n then Memory.byteOf v (a - offset) else c)
  else none

section Bytes

variable {n offset v : Nat} {b b' : Block}

theorem load_eq_some (h : load n b offset = some v) :
    offset + n ≤ b.length ∧ v < 256 ^ n ∧ ∀ i < n, b[offset + i]? = some (Memory.byteOf v i) := by
  obtain ⟨hfits, ⟨⟩⟩ := Option.ite_none_right_eq_some.mp h
  refine ⟨hfits, Memory.value_lt n _, fun i hi => ?_⟩
  rw [Memory.byteOf_value _ hi, List.getD_eq_getElem?_getD, List.getElem?_eq_getElem (by omega)]
  rfl

theorem load_of_bytes (hfits : offset + n ≤ b.length)
    (h : ∀ i < n, b[offset + i]? = some (Memory.byteOf v i)) :
    load n b offset = some (v % 256 ^ n) := by
  have hvalue : Memory.value n (fun a => b.getD (offset + a) 0) = Memory.value n (Memory.byteOf v) := by
    apply Memory.value_congr
    intro i hi
    rw [List.getD_eq_getElem?_getD, h i hi]
    rfl
  rw [load, if_pos hfits, hvalue, Memory.value_byteOf]

theorem load_isSome (hfits : offset + n ≤ b.length) : ∃ v, load n b offset = some v :=
  ⟨_, if_pos hfits⟩

/-- A number is read the same from a block with the same bytes in its place. -/
theorem load_congr (hlength : b'.length = b.length)
    (h : ∀ a, offset ≤ a → a < offset + n → b'[a]? = b[a]?) : load n b' offset = load n b offset := by
  unfold load
  rw [hlength]
  congr 2
  apply Memory.value_congr
  intro i hi
  rw [List.getD_eq_getElem?_getD, List.getD_eq_getElem?_getD, h _ (by omega) (by omega)]

theorem store_isSome (hfits : offset + n ≤ b.length) : ∃ b', store n b offset v = some b' :=
  ⟨_, if_pos hfits⟩

theorem length_store (h : store n b offset v = some b') : b'.length = b.length := by
  obtain ⟨-, ⟨⟩⟩ := Option.ite_none_right_eq_some.mp h
  exact List.length_mapIdx

theorem fits_of_store (h : store n b offset v = some b') : offset + n ≤ b.length :=
  (Option.ite_none_right_eq_some.mp h).1

theorem getElem?_store_inside (h : store n b offset v = some b') {i : Nat} (hi : i < n) :
    b'[offset + i]? = some (Memory.byteOf v i) := by
  obtain ⟨hfits, ⟨⟩⟩ := Option.ite_none_right_eq_some.mp h
  rw [List.getElem?_mapIdx, List.getElem?_eq_getElem (by omega)]
  simp [hi]

theorem getElem?_store_outside (h : store n b offset v = some b') {a : Nat}
    (ha : a < offset ∨ offset + n ≤ a) : b'[a]? = b[a]? := by
  obtain ⟨hfits, ⟨⟩⟩ := Option.ite_none_right_eq_some.mp h
  have hnot : ¬(offset ≤ a ∧ a < offset + n) := by omega
  rw [List.getElem?_mapIdx]
  simp [hnot]

theorem load_store (h : store n b offset v = some b') : load n b' offset = some (v % 256 ^ n) := by
  refine load_of_bytes ?_ fun i hi => getElem?_store_inside h hi
  rw [length_store h]
  exact fits_of_store h

end Bytes

/-- Two places of the same width with no byte in common. -/
def Apart (n p q : Nat) : Prop :=
  p + n ≤ q ∨ q + n ≤ p

/-- The numbers in some places were moved by a distance; the bytes outside are as they were. -/
structure Shifted (n delta : Nat) (places : List Nat) (b b' : Block) : Prop where
  length : b'.length = b.length
  moved : ∀ p ∈ places, ∀ v, load n b p = some v → load n b' p = some ((v + delta) % 256 ^ n)
  same : ∀ a, (∀ p ∈ places, a < p ∨ p + n ≤ a) → b'[a]? = b[a]?

section Shifts

variable {n delta p : Nat} {places others : List Nat} {b b' b'' : Block}

theorem Shifted.refl (n delta : Nat) (b : Block) : Shifted n delta [] b b :=
  ⟨rfl, by simp, fun _ _ => rfl⟩

theorem Shifted.of_store {v : Nat} (hload : load n b p = some v)
    (hstore : store n b p ((v + delta) % 256 ^ n) = some b') : Shifted n delta [p] b b' := by
  refine ⟨length_store hstore, ?_, ?_⟩
  · intro q hq w hw
    obtain rfl := List.mem_singleton.mp hq
    rw [hload, Option.some.injEq] at hw
    rw [load_store hstore, hw, Nat.mod_mod]
  · intro a ha
    exact getElem?_store_outside hstore (ha p (by simp))

/-- A number apart from all places is read as before. -/
theorem Shifted.load_apart (h : Shifted n delta places b b') (hp : ∀ q ∈ places, Apart n p q) :
    load n b' p = load n b p := by
  refine load_congr h.length fun a hlow hhigh => h.same a fun q hq => ?_
  rcases hp q hq with hpq | hqp
  · exact .inl (by omega)
  · exact .inr (by omega)

theorem Shifted.append (h : Shifted n delta places b b') (h' : Shifted n delta others b' b'')
    (hapart : ∀ p ∈ places, ∀ q ∈ others, Apart n p q) :
    Shifted n delta (places ++ others) b b'' := by
  refine ⟨h'.length.trans h.length, ?_, ?_⟩
  · intro p hp v hv
    rcases List.mem_append.mp hp with hp | hp
    · rw [h'.load_apart (hapart p hp)]
      exact h.moved p hp v hv
    · refine h'.moved p hp v ?_
      rw [h.load_apart fun q hq => (hapart q hq p hp).symm]
      exact hv
  · intro a ha
    rw [h'.same a fun q hq => ha q (by simp [hq]), h.same a fun p hp => ha p (by simp [hp])]

end Shifts

/-- Numbers written one after the other, each to its place. -/
def stores (n : Nat) : List (Nat × Nat) → Block → Option Block
  | [], b => some b
  | (p, v) :: slots, b => (store n b p v).bind (stores n slots)

/-- Slots that have a byte in common put the same there. -/
def Agree (n : Nat) (slots : List (Nat × Nat)) : Prop :=
  ∀ s ∈ slots, ∀ t ∈ slots, ∀ i < n, ∀ j < n, s.1 + i = t.1 + j →
    Memory.byteOf s.2 i = Memory.byteOf t.2 j

section Slots

variable {n : Nat} {slots : List (Nat × Nat)} {b b' : Block}

theorem length_stores (h : stores n slots b = some b') : b'.length = b.length := by
  induction slots generalizing b with
  | nil =>
    cases h
    rfl
  | cons slot slots ih =>
    obtain ⟨b₁, hfirst, hothers⟩ := Option.bind_eq_some_iff.mp h
    rw [ih hothers, length_store hfirst]

theorem fits_of_stores (h : stores n slots b = some b') : ∀ s ∈ slots, s.1 + n ≤ b.length := by
  induction slots generalizing b with
  | nil => simp
  | cons slot slots ih =>
    obtain ⟨b₁, hfirst, hothers⟩ := Option.bind_eq_some_iff.mp h
    intro s hs
    rcases List.mem_cons.mp hs with rfl | hs
    · exact fits_of_store hfirst
    · rw [← length_store hfirst]
      exact ih hothers s hs

theorem stores_isSome (h : ∀ s ∈ slots, s.1 + n ≤ b.length) : ∃ b', stores n slots b = some b' := by
  induction slots generalizing b with
  | nil => exact ⟨b, rfl⟩
  | cons slot slots ih =>
    obtain ⟨b₁, hfirst⟩ := store_isSome (v := slot.2) (h slot (by simp))
    obtain ⟨b₂, hothers⟩ := ih (b := b₁) fun s hs => by
      rw [length_store hfirst]
      exact h s (by simp [hs])
    exact ⟨b₂, Option.bind_eq_some_iff.mpr ⟨b₁, hfirst, hothers⟩⟩

theorem getElem?_stores_outside (h : stores n slots b = some b') {a : Nat}
    (ha : ∀ s ∈ slots, a < s.1 ∨ s.1 + n ≤ a) : b'[a]? = b[a]? := by
  induction slots generalizing b with
  | nil =>
    cases h
    rfl
  | cons slot slots ih =>
    obtain ⟨b₁, hfirst, hothers⟩ := Option.bind_eq_some_iff.mp h
    rw [ih hothers fun s hs => ha s (by simp [hs]), getElem?_store_outside hfirst (ha slot (by simp))]

/-- A byte that was written is from one of the slots. -/
theorem getElem?_stores_inside (h : stores n slots b = some b') (hagree : Agree n slots)
    {s : Nat × Nat} (hs : s ∈ slots) {i : Nat} (hi : i < n) :
    b'[s.1 + i]? = some (Memory.byteOf s.2 i) := by
  induction slots generalizing b s i with
  | nil => cases hs
  | cons slot slots ih =>
    obtain ⟨b₁, hfirst, hothers⟩ := Option.bind_eq_some_iff.mp h
    have hrest : Agree n slots := fun s hs t ht => hagree s (by simp [hs]) t (by simp [ht])
    by_cases hcovered : ∃ t ∈ slots, t.1 ≤ s.1 + i ∧ s.1 + i < t.1 + n
    · obtain ⟨t, ht, hlow, hhigh⟩ := hcovered
      have hj : s.1 + i = t.1 + (s.1 + i - t.1) := by omega
      rw [hagree s hs t (by simp [ht]) i hi (s.1 + i - t.1) (by omega) hj, hj]
      have hbyte := ih hothers hrest ht (i := s.1 + i - t.1) (by omega)
      rwa [← hj] at hbyte ⊢
    · have houtside : ∀ t ∈ slots, s.1 + i < t.1 ∨ t.1 + n ≤ s.1 + i := by
        intro t ht
        by_contra hin
        exact hcovered ⟨t, ht, by omega⟩
      rw [getElem?_stores_outside hothers houtside]
      rcases List.mem_cons.mp hs with rfl | hs
      · exact getElem?_store_inside hfirst hi
      · rcases houtside s hs with h | h <;> omega

/-- Behind the writes each slot has its number exactly when slots with common bytes agree. -/
theorem stores_held_iff (h : stores n slots b = some b') :
    (∀ s ∈ slots, load n b' s.1 = some (s.2 % 256 ^ n)) ↔ Agree n slots := by
  constructor
  · intro hheld s hs t ht i hi j hj hsame
    have hfirst := (load_eq_some (hheld s hs)).2.2 i hi
    have hsecond := (load_eq_some (hheld t ht)).2.2 j hj
    rw [Memory.byteOf_mod _ hi, hsame] at hfirst
    rw [Memory.byteOf_mod _ hj, hfirst] at hsecond
    exact Option.some.inj hsecond
  · intro hagree s hs
    refine load_of_bytes ?_ fun i hi => getElem?_stores_inside h hagree hs hi
    rw [length_stores h]
    exact fits_of_stores h s hs

end Slots

/-- The numbers in some places were moved by a distance, those in some slots set, and the bytes
outside both are as they were. -/
structure Relocated (n delta : Nat) (places : List Nat) (slots : List (Nat × Nat)) (b b' : Block) :
    Prop where
  length : b'.length = b.length
  moved : ∀ p ∈ places, ∀ v, load n b p = some v → load n b' p = some ((v + delta) % 256 ^ n)
  held : ∀ s ∈ slots, load n b' s.1 = some (s.2 % 256 ^ n)
  same : ∀ a, (∀ p ∈ places, a < p ∨ p + n ≤ a) → (∀ s ∈ slots, a < s.1 ∨ s.1 + n ≤ a) →
    b'[a]? = b[a]?

section Relocations

variable {n delta delta' : Nat} {places : List Nat} {slots : List (Nat × Nat)} {b b' b'' : Block}

theorem Shifted.relocated (h : Shifted n delta places b b') (hstores : stores n slots b' = some b'')
    (hagree : Agree n slots) (hapart : ∀ p ∈ places, ∀ s ∈ slots, Apart n p s.1) :
    Relocated n delta places slots b b'' := by
  refine ⟨(length_stores hstores).trans h.length, ?_, (stores_held_iff hstores).mpr hagree, ?_⟩
  · intro p hp v hv
    rw [← h.moved p hp v hv]
    refine load_congr (length_stores hstores) fun a hlow hhigh => getElem?_stores_outside hstores ?_
    intro s hs
    rcases hapart p hp s hs with h | h
    · exact .inl (by omega)
    · exact .inr (by omega)
  · intro a hplaces hslots
    rw [getElem?_stores_outside hstores hslots, h.same a hplaces]

theorem Relocated.trans (h : Relocated n delta places slots b b')
    (h' : Relocated n delta' places slots b' b'') :
    Relocated n (delta + delta') places slots b b'' := by
  refine ⟨h'.length.trans h.length, ?_, h'.held, ?_⟩
  · intro p hp v hv
    rw [h'.moved p hp _ (h.moved p hp v hv), Nat.mod_add_mod, Nat.add_assoc]
  · intro a hplaces hslots
    rw [h'.same a hplaces hslots, h.same a hplaces hslots]

theorem Relocated.congr_delta (h : Relocated n delta places slots b b')
    (hdelta : delta % 256 ^ n = delta' % 256 ^ n) : Relocated n delta' places slots b b' := by
  refine ⟨h.length, ?_, h.held, h.same⟩
  intro p hp v hv
  rw [h.moved p hp v hv, Nat.add_mod, hdelta, ← Nat.add_mod]

/-- The block behind a relocation is determined by the one before. -/
theorem Relocated.unique (h : Relocated n delta places slots b b')
    (h' : Relocated n delta places slots b b'') (hplaces : ∀ p ∈ places, p + n ≤ b.length) :
    b' = b'' := by
  have hload : ∀ p v : Nat, load n b' p = some v → load n b'' p = some v → ∀ i < n,
      b'[p + i]? = b''[p + i]? := by
    intro p v hv hw i hi
    rw [(load_eq_some hv).2.2 i hi, (load_eq_some hw).2.2 i hi]
  apply List.ext_getElem?
  intro a
  by_cases hplace : ∃ p ∈ places, p ≤ a ∧ a < p + n
  · obtain ⟨p, hp, hlow, hhigh⟩ := hplace
    obtain ⟨v, hv⟩ := load_isSome (hplaces p hp)
    have hbyte := hload p _ (h.moved p hp v hv) (h'.moved p hp v hv) (a - p) (by omega)
    rwa [Nat.add_sub_cancel' hlow] at hbyte
  by_cases hslot : ∃ s ∈ slots, s.1 ≤ a ∧ a < s.1 + n
  · obtain ⟨s, hs, hlow, hhigh⟩ := hslot
    have hbyte := hload s.1 _ (h.held s hs) (h'.held s hs) (a - s.1) (by omega)
    rwa [Nat.add_sub_cancel' hlow] at hbyte
  · have houtside : ∀ p ∈ places, a < p ∨ p + n ≤ a := by
      intro p hp
      by_contra hin
      exact hplace ⟨p, hp, by omega⟩
    have hslots : ∀ s ∈ slots, a < s.1 ∨ s.1 + n ≤ a := by
      intro s hs
      by_contra hin
      exact hslot ⟨s, hs, by omega⟩
    rw [h.same a houtside hslots, h'.same a houtside hslots]

end Relocations

end Block

end XbdmGdbBridge.Lib
