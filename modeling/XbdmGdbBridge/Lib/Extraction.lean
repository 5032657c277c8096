import Mathlib

namespace XbdmGdbBridge.Lib

/-- One item taken off the front of a buffer: how many elements it used, the
item, and the extractor state it leaves. -/
structure Extract (S γ : Type) where
  count : Nat
  item : γ
  state : S

/-- A reader that takes items off the front of a growing buffer. It always
uses something, never more than is there, and later input cannot change an
extraction that was already possible. -/
structure Extractor (S α γ : Type) where
  next : S → List α → Option (Extract S γ)
  progress : next s u = some e → 0 < e.count ∧ e.count ≤ u.length
  stable : next s u = some e → next s (u ++ v) = some e

/-- What a drain returns: the items in order, the final state and the rest. -/
structure Drained (S α γ : Type) where
  items : List γ
  state : S
  rest : List α

/-- Put items that were extracted earlier in front of a drain. -/
def Drained.after (d : Drained S α γ) (earlier : List γ) : Drained S α γ :=
  { d with items := earlier ++ d.items }

namespace Extractor

/-- Extract at most `n` items. -/
def drainFor (x : Extractor S α γ) : Nat → S → List α → Drained S α γ
  | 0, s, u => ⟨[], s, u⟩
  | n + 1, s, u =>
    match x.next s u with
    | none => ⟨[], s, u⟩
    | some e => (x.drainFor n e.state (u.drop e.count)).after [e.item]

/-- Extract until no further item is complete. -/
def drain (x : Extractor S α γ) (s : S) (u : List α) : Drained S α γ :=
  x.drainFor u.length s u

/-- No item is complete, whatever the state. -/
def Stuck (x : Extractor S α γ) (u : List α) : Prop := ∀ s, x.next s u = none

@[simp] theorem after_nil (d : Drained S α γ) : d.after [] = d := rfl

@[simp] theorem after_after (d : Drained S α γ) (a b : List γ) :
    (d.after a).after b = d.after (b ++ a) := by
  simp [Drained.after]

@[simp] theorem after_items (d : Drained S α γ) (a : List γ) :
    (d.after a).items = a ++ d.items := rfl

@[simp] theorem after_state (d : Drained S α γ) (a : List γ) : (d.after a).state = d.state := rfl

@[simp] theorem after_rest (d : Drained S α γ) (a : List γ) : (d.after a).rest = d.rest := rfl

/-- Once the bound covers the buffer, a larger bound changes nothing. -/
theorem drainFor_enough (x : Extractor S α γ) {n m : Nat} {s : S} {u : List α}
    (hn : u.length ≤ n) (hm : u.length ≤ m) : x.drainFor n s u = x.drainFor m s u := by
  induction n generalizing m s u with
  | zero =>
    have hu : u = [] := List.length_eq_zero_iff.mp (by omega)
    subst u
    cases m with
    | zero => rfl
    | succ m =>
      cases hx : x.next s [] with
      | none => simp [drainFor, hx]
      | some e =>
        have hp := x.progress hx
        simp only [List.length_nil] at hp
        omega
  | succ n ih =>
    cases m with
    | zero =>
      have hu : u = [] := List.length_eq_zero_iff.mp (by omega)
      subst u
      cases hx : x.next s [] with
      | none => simp [drainFor, hx]
      | some e =>
        have hp := x.progress hx
        simp only [List.length_nil] at hp
        omega
    | succ m =>
      cases hx : x.next s u with
      | none => simp [drainFor, hx]
      | some e =>
        have hp := x.progress hx
        have hl : (u.drop e.count).length + e.count = u.length := by
          simp only [List.length_drop]
          omega
        simp only [drainFor, hx]
        rw [ih (m := m) (by omega) (by omega)]

theorem drain_none {x : Extractor S α γ} (h : x.next s u = none) : x.drain s u = ⟨[], s, u⟩ := by
  cases u with
  | nil => rfl
  | cons a u => simp [drain, drainFor, h]

theorem drain_stuck {x : Extractor S α γ} (h : x.Stuck u) (s : S) : x.drain s u = ⟨[], s, u⟩ :=
  drain_none (h s)

theorem drain_some {x : Extractor S α γ} (h : x.next s u = some e) :
    x.drain s u = (x.drain e.state (u.drop e.count)).after [e.item] := by
  have hp := x.progress h
  cases u with
  | nil =>
    simp only [List.length_nil] at hp
    omega
  | cons a u =>
    simp only [drain, List.length_cons, drainFor, h]
    rw [x.drainFor_enough (n := u.length) (m := ((a :: u).drop e.count).length)]
    · simp only [List.length_drop, List.length_cons]
      omega
    · exact Nat.le_refl _

/-- Induction along a drain: either nothing is complete, or one item comes off
and the drain goes on with what is left. -/
theorem drain_induction (x : Extractor S α γ) {motive : S → List α → Prop}
    (none : ∀ s u, x.next s u = .none → motive s u)
    (some : ∀ s u e, x.next s u = .some e → motive e.state (u.drop e.count) → motive s u)
    (s : S) (u : List α) : motive s u := by
  generalize hn : u.length = n
  induction n using Nat.strongRecOn generalizing s u with
  | ind n ih =>
    cases hx : x.next s u with
    | none => exact none s u hx
    | some e =>
      have hp := x.progress hx
      apply some s u e hx
      exact ih (u.drop e.count).length (by simp only [List.length_drop]; omega) _ _ rfl

/-- Draining what has arrived and then the rest together with the later input
is draining everything at once. -/
theorem drain_append (x : Extractor S α γ) (s : S) (u v : List α) :
    x.drain s (u ++ v) =
      (x.drain (x.drain s u).state ((x.drain s u).rest ++ v)).after (x.drain s u).items := by
  induction s, u using x.drain_induction with
  | none s u h => simp [drain_none h]
  | some s u e h ih =>
    have hp := x.progress h
    have hs : x.next s (u ++ v) = some e := x.stable h
    have hd : (u ++ v).drop e.count = u.drop e.count ++ v := by
      rw [List.drop_append_of_le_length hp.2]
    rw [drain_some hs, hd, ih, drain_some h]
    simp

/-- The rest of a drain holds no complete item. -/
theorem drain_rest_none (x : Extractor S α γ) (s : S) (u : List α) :
    x.next (x.drain s u).state (x.drain s u).rest = none := by
  induction s, u using x.drain_induction with
  | none s u h => simp [drain_none h, h]
  | some s u e h ih => simpa [drain_some h] using ih

/-- One more element arrives at a stuck buffer. -/
theorem drain_cons {x : Extractor S α γ} (s : S) (u : List α) (b : α) (v : List α) :
    x.drain s (u ++ b :: v) =
      (x.drain (x.drain s (u ++ [b])).state ((x.drain s (u ++ [b])).rest ++ v)).after
        (x.drain s (u ++ [b])).items := by
  have he : u ++ b :: v = (u ++ [b]) ++ v := by simp
  rw [he, drain_append]

end Extractor

end XbdmGdbBridge.Lib
