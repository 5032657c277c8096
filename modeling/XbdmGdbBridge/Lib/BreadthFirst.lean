import Mathlib.Logic.Relation

/-!
# Breadth-first order

The order in which a queue is worked off when what is below an element is put behind the queue. An
element that is below two others comes twice; on trees there are none.
-/

namespace XbdmGdbBridge.Lib

variable {α : Type}

inductive BreadthFirst (below : α → List α) : List α → List α → Prop where
  | nil : BreadthFirst below [] []
  | cons {a : α} {queue order : List α} :
    BreadthFirst below (queue ++ below a) order → BreadthFirst below (a :: queue) (a :: order)

namespace BreadthFirst

variable {below : α → List α} {queue order : List α} {b : α}

/-- What comes is what can be reached from the queue. -/
theorem mem_iff (h : BreadthFirst below queue order) :
    b ∈ order ↔ ∃ a ∈ queue, Relation.ReflTransGen (fun x y => y ∈ below x) a b := by
  induction h with
  | nil => simp
  | @cons a queue order _ ih =>
    rw [List.mem_cons, ih]
    constructor
    · rintro (rfl | ⟨c, hc, hreach⟩)
      · exact ⟨b, List.mem_cons_self, .refl⟩
      · rcases List.mem_append.mp hc with hc | hc
        · exact ⟨c, List.mem_cons_of_mem _ hc, hreach⟩
        · exact ⟨a, List.mem_cons_self, .head hc hreach⟩
    · rintro ⟨c, hc, hreach⟩
      rcases List.mem_cons.mp hc with rfl | hc
      · rcases Relation.ReflTransGen.cases_head hreach with rfl | ⟨e, he, hreach⟩
        · exact .inl rfl
        · exact .inr ⟨e, List.mem_append_right _ he, hreach⟩
      · exact .inr ⟨c, List.mem_append_left _ hc, hreach⟩

section Ranks

variable {rank : α → Nat} (hrank : ∀ a, ∀ b ∈ below a, rank b < rank a)
include hrank

theorem exists_of_rank_zero (queue : List α) (hqueue : ∀ a ∈ queue, rank a ≤ 0) :
    ∃ order, BreadthFirst below queue order := by
  induction queue with
  | nil => exact ⟨[], .nil⟩
  | cons a queue ih =>
    have hleaf : below a = [] := List.eq_nil_iff_forall_not_mem.mpr fun b hb =>
      Nat.not_lt_zero _ (Nat.lt_of_lt_of_le (hrank a b hb) (hqueue a List.mem_cons_self))
    obtain ⟨order, horder⟩ := ih fun c hc => hqueue c (List.mem_cons_of_mem _ hc)
    refine ⟨a :: order, .cons ?_⟩
    rwa [hleaf, List.append_nil]

/-- The elements at the front of the queue leave some of lower rank behind it. -/
theorem exists_of_front {n : Nat} (h : ∀ queue : List α, (∀ a ∈ queue, rank a ≤ n) →
      ∃ order, BreadthFirst below queue order) (front back : List α)
    (hfront : ∀ a ∈ front, rank a ≤ n + 1) (hback : ∀ a ∈ back, rank a ≤ n) :
    ∃ order, BreadthFirst below (front ++ back) order := by
  induction front generalizing back with
  | nil => exact h back hback
  | cons a front ih =>
    obtain ⟨order, horder⟩ := ih (back ++ below a)
      (fun c hc => hfront c (List.mem_cons_of_mem _ hc)) (by
        intro c hc
        rcases List.mem_append.mp hc with hc | hc
        · exact hback c hc
        · have hlt := hrank a c hc
          have hle := hfront a List.mem_cons_self
          omega)
    rw [← List.append_assoc] at horder
    exact ⟨a :: order, .cons horder⟩

/-- The queue is worked off if what is below has always a lower rank. -/
theorem exists_of_rank (n : Nat) (queue : List α) (hqueue : ∀ a ∈ queue, rank a ≤ n) :
    ∃ order, BreadthFirst below queue order := by
  induction n generalizing queue with
  | zero => exact exists_of_rank_zero hrank queue hqueue
  | succ n ih =>
    obtain ⟨order, horder⟩ := exists_of_front hrank ih queue [] hqueue (by simp)
    exact ⟨order, by rwa [List.append_nil] at horder⟩

end Ranks

end BreadthFirst

end XbdmGdbBridge.Lib
