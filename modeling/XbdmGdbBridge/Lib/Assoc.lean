import Mathlib.Data.List.Basic

/-!
# Lists of keys and values as maps

A map is a list of entries, of which the first one under a key counts.
-/

namespace XbdmGdbBridge.Lib

variable {κ β : Type} [DecidableEq κ] [BEq κ] [LawfulBEq κ]

/-- Without the entries of a key, it has no value and the others have theirs. -/
theorem lookup_filter_ne (key k : κ) (m : List (κ × β)) :
    (m.filter fun entry => entry.1 ≠ key).lookup k = if k = key then none else m.lookup k := by
  induction m with
  | nil => simp
  | cons entry m ih =>
    obtain ⟨a, v⟩ := entry
    by_cases ha : a = key
    · rw [List.filter_cons_of_neg (by simp [ha]), ih]
      by_cases hk : k = key
      · rw [if_pos hk, if_pos hk]
      · have hne : (k == a) = false := by simpa [ha] using hk
        rw [if_neg hk, if_neg hk, List.lookup_cons, hne]
    · rw [List.filter_cons_of_pos (by simpa using ha), List.lookup_cons, List.lookup_cons, ih]
      by_cases hk : k = key
      · have hne : (k == a) = false := by simpa [hk] using Ne.symm ha
        rw [hne, if_pos hk]
      · rw [if_neg hk, if_neg hk]

omit [DecidableEq κ] in
/-- With one entry per key, every entry counts. -/
theorem lookup_of_mem {m : List (κ × β)} {k : κ} {v : β} (hkeys : (m.map Prod.fst).Nodup)
    (h : (k, v) ∈ m) : m.lookup k = some v := by
  induction m with
  | nil => cases h
  | cons entry m ih =>
    obtain ⟨a, w⟩ := entry
    rw [List.map_cons, List.nodup_cons] at hkeys
    rw [List.lookup_cons]
    rcases List.mem_cons.mp h with hhead | hmem
    · obtain ⟨rfl, rfl⟩ := Prod.mk.inj hhead
      rw [beq_self_eq_true]
    · have hne : (k == a) = false := by
        rw [beq_eq_false_iff_ne]
        rintro rfl
        exact hkeys.1 (List.mem_map.mpr ⟨_, hmem, rfl⟩)
      rw [hne]
      exact ih hkeys.2 hmem

end XbdmGdbBridge.Lib
