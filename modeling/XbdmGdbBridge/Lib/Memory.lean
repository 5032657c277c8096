import Mathlib.Algebra.Group.Nat.Defs
import Mathlib.Data.Nat.Basic

/-!
# Bytes in memory

Memory by offset, copies into it, and numbers stored from the low byte up. `copies` is a row of
copies at a fixed distance; when they are wider than the distance each one overwrites the end of the
one before.
-/

namespace XbdmGdbBridge.Lib

abbrev Memory := Nat → UInt8

namespace Memory

def copy (m : Memory) (offset : Nat) (source : Memory) (length : Nat) : Memory := fun a =>
  if offset ≤ a ∧ a < offset + length then source (a - offset) else m a

theorem copy_inside (m source : Memory) {offset length k : Nat} (h : k < length) :
    m.copy offset source length (offset + k) = source k := by
  simp [copy, h]

theorem copy_outside (m source : Memory) {offset length a : Nat}
    (h : a < offset ∨ offset + length ≤ a) : m.copy offset source length a = m a := by
  unfold copy
  rw [if_neg (by omega)]

/-- Copies of `width` bytes each: the `k`-th from `source` at `pitch * k` to `offset + stride * k`. -/
def copies (m : Memory) (offset stride : Nat) (source : Memory) (pitch width : Nat) : Nat → Memory
  | 0 => m
  | n + 1 =>
    (m.copies offset stride source pitch width n).copy (offset + stride * n)
      (fun k => source (pitch * n + k)) width

section Copies

variable (m source : Memory) {offset stride pitch width : Nat}

/-- Up to the next copy, each one stays. -/
theorem copies_inside {n i k a : Nat} (ha : a = offset + stride * i + k) (hi : i < n)
    (hk : k < stride) (hw : k < width) :
    m.copies offset stride source pitch width n a = source (pitch * i + k) := by
  subst ha
  induction n with
  | zero => exact absurd hi (Nat.not_lt_zero i)
  | succ n ih =>
    rcases Nat.lt_succ_iff_lt_or_eq.mp hi with hlt | rfl
    · have hbefore : offset + stride * i + k < offset + stride * n := by
        have hstep : stride * i + stride ≤ stride * n := by
          rw [← Nat.mul_succ]
          exact Nat.mul_le_mul_left stride hlt
        omega
      unfold copies
      rw [copy_outside _ _ (.inl hbefore)]
      exact ih hlt
    · exact copy_inside _ _ hw

theorem copies_before {n a : Nat} (h : a < offset) :
    m.copies offset stride source pitch width n a = m a := by
  induction n with
  | zero => rfl
  | succ n ih =>
    unfold copies
    rw [copy_outside _ _ (.inl (by omega)), ih]

end Copies

/-- The number whose bytes stand in the first `n` places. -/
def value : Nat → Memory → Nat
  | 0, _ => 0
  | n + 1, m => (m 0).toNat + 256 * value n (fun a => m (a + 1))

def byteOf (v i : Nat) : UInt8 :=
  UInt8.ofNat (v / 256 ^ i)

theorem value_lt (n : Nat) (m : Memory) : value n m < 256 ^ n := by
  induction n generalizing m with
  | zero => exact Nat.one_pos
  | succ n ih =>
    have hfirst := (m 0).toNat_lt
    have hrest := ih fun a => m (a + 1)
    rw [value, Nat.pow_succ]
    omega

theorem byteOf_value {n i : Nat} (m : Memory) (h : i < n) : byteOf (value n m) i = m i := by
  induction n generalizing m i with
  | zero => exact absurd h (Nat.not_lt_zero i)
  | succ n ih =>
    have hfirst := (m 0).toNat_lt
    cases i with
    | zero =>
      apply UInt8.toNat_inj.mp
      simp only [byteOf, value, Nat.pow_zero, Nat.div_one, UInt8.toNat_ofNat']
      omega
    | succ i =>
      have hrest := ih (fun a => m (a + 1)) (Nat.lt_of_succ_lt_succ h)
      rw [← hrest]
      unfold byteOf
      rw [value, Nat.pow_succ, Nat.mul_comm (256 ^ i), ← Nat.div_div_eq_div_mul]
      congr 2
      omega

theorem value_congr {n : Nat} {m m' : Memory} (h : ∀ i < n, m i = m' i) : value n m = value n m' := by
  induction n generalizing m m' with
  | zero => rfl
  | succ n ih =>
    rw [value, value, h 0 (Nat.succ_pos n), ih fun i hi => h (i + 1) (Nat.succ_lt_succ hi)]

theorem value_byteOf (n v : Nat) : value n (byteOf v) = v % 256 ^ n := by
  induction n generalizing v with
  | zero => rw [value, Nat.pow_zero, Nat.mod_one]
  | succ n ih =>
    have hrest : (fun a => byteOf v (a + 1)) = byteOf (v / 256) := by
      funext a
      rw [byteOf, byteOf, Nat.pow_succ', Nat.div_div_eq_div_mul]
    have hfirst : (byteOf v 0).toNat = v % 256 := by
      rw [byteOf, Nat.pow_zero, Nat.div_one]
      exact UInt8.toNat_ofNat'
    rw [value, hrest, ih, hfirst, Nat.pow_succ', Nat.mod_mul]

theorem byteOf_mod {n i : Nat} (v : Nat) (h : i < n) : byteOf (v % 256 ^ n) i = byteOf v i := by
  rw [← value_byteOf, byteOf_value _ h]

end Memory

/-- A memory whose addresses wrap around. -/
abbrev Space := UInt32 → UInt8

namespace Space

def store (m : Space) (address : UInt32) (data : List UInt8) : Space := fun a =>
  data.getD (a - address).toNat (m a)

def load (m : Space) (address : UInt32) (n : Nat) : List UInt8 :=
  (List.range n).map fun i => m (address + UInt32.ofNat i)

variable {m : Space} {address : UInt32} {data more : List UInt8} {i n : Nat}

theorem offset_toNat (address : UInt32) (h : i < 2 ^ 32) :
    (address + UInt32.ofNat i - address).toNat = i := by
  rw [UInt32.add_comm, UInt32.add_sub_cancel, UInt32.toNat_ofNat_of_lt' h]

/-- Every address has an offset from another. -/
theorem add_offset (a address : UInt32) : address + UInt32.ofNat (a - address).toNat = a := by
  rw [UInt32.ofNat_toNat, UInt32.add_comm, UInt32.sub_add_cancel]

theorem store_at (m : Space) (address : UInt32) (data : List UInt8) (h : i < 2 ^ 32) :
    m.store address data (address + UInt32.ofNat i) =
      data.getD i (m (address + UInt32.ofNat i)) := by
  rw [store, offset_toNat address h]

/-- Two spaces that agree at every offset from an address. -/
theorem ext_at {m m' : Space} (address : UInt32)
    (h : ∀ i < 2 ^ 32, m (address + UInt32.ofNat i) = m' (address + UInt32.ofNat i)) : m = m' := by
  funext a
  rw [← add_offset a address]
  exact h _ (a - address).toNat_lt

/-- An address behind data, or before it, seen from its end. -/
theorem offset_from_end (address : UInt32) (hi : i < 2 ^ 32) (hn : n ≤ 2 ^ 32) :
    (address + UInt32.ofNat i - (address + UInt32.ofNat n)).toNat =
      if n ≤ i then i - n else 2 ^ 32 - n + i := by
  have hcancel : address + UInt32.ofNat i - (address + UInt32.ofNat n) =
      UInt32.ofNat i - UInt32.ofNat n := by grind
  rw [hcancel, UInt32.toNat_sub, UInt32.toNat_ofNat', UInt32.toNat_ofNat', Nat.mod_eq_of_lt hi]
  split <;> omega

/-- What is written behind other data is written with it. -/
theorem store_append (h : data.length + more.length ≤ 2 ^ 32) :
    (m.store address data).store (address + UInt32.ofNat data.length) more =
      m.store address (data ++ more) := by
  refine ext_at address fun i hi => ?_
  rw [store, offset_from_end address hi (by omega), store_at _ _ _ hi, store_at _ _ _ hi,
    List.getD_eq_getElem?_getD, List.getD_eq_getElem?_getD, List.getD_eq_getElem?_getD]
  split
  case isTrue hle =>
    rw [List.getElem?_append_right hle, List.getElem?_eq_none hle]
    rfl
  case isFalse hlt =>
    rw [List.getElem?_append_left (by omega), List.getElem?_eq_none (by omega)]
    rfl

theorem length_load : (m.load address n).length = n := by
  simp [load]

theorem take_load {k : Nat} (h : k ≤ n) : (m.load address n).take k = m.load address k := by
  rw [load, ← List.map_take, List.take_range, Nat.min_eq_left h]
  rfl

/-- What is there is written back without an effect, as far as one goes. -/
theorem store_take_load : m.store address ((m.load address n).take i) = m := by
  refine ext_at address fun j hj => ?_
  rw [store_at _ _ _ hj, List.getD_eq_getElem?_getD]
  cases hread : ((m.load address n).take i)[j]? with
  | none => rfl
  | some v =>
    obtain ⟨hlt, hv⟩ := List.getElem?_eq_some_iff.1 hread
    rw [List.getElem_take] at hv
    rw [← hv]
    simp [load]

/-- What was written is read again. -/
theorem load_store (h : data.length ≤ 2 ^ 32) :
    (m.store address data).load address data.length = data := by
  refine List.ext_getElem length_load fun i hi hi' => ?_
  simp only [load, List.getElem_map, List.getElem_range]
  rw [store_at _ _ _ (by omega), List.getD_eq_getElem?_getD, List.getElem?_eq_getElem hi']
  rfl

/-- A write is without an effect on a stretch it begins in exactly if the data stands there. -/
theorem load_store_eq_iff (h : data.length ≤ n) (hn : n ≤ 2 ^ 32) :
    (m.store address data).load address n = m.load address n ↔ data <+: m.load address n := by
  constructor
  · intro hsame
    refine ⟨(m.load address n).drop data.length, ?_⟩
    calc data ++ (m.load address n).drop data.length
        = ((m.store address data).load address n).take data.length ++
            (m.load address n).drop data.length := by
          rw [take_load h, load_store (by omega)]
      _ = m.load address n := by rw [hsame, List.take_append_drop]
  · rintro ⟨rest, hrest⟩
    have hdata : data = (m.load address n).take data.length := by
      rw [← hrest, List.take_left]
    rw [hdata, store_take_load]

end Space

end XbdmGdbBridge.Lib
