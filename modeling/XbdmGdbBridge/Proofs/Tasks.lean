import Mathlib.Data.List.MinMax
import Mathlib.Data.List.Perm.Basic
import XbdmGdbBridge.Net.TaskConnection

/-!
# What becomes of posted tasks
-/

namespace XbdmGdbBridge.Proofs.Tasks

open Networking TaskConnection

variable {τ : Type} {s : TaskConnection τ}

/-- The tasks that `Process` has taken. -/
def taken (s : TaskConnection τ) : List (Posted τ × Nat) :=
  s.ran ++ s.tasksToRun

def waiting (s : TaskConnection τ) : List (Posted τ) :=
  s.delayedTasks.map delayed ++ s.taskQueue.map atOnce

/-- The tasks without a delay. -/
def undelayed (tasks : List (Posted τ)) : List τ :=
  tasks.filterMap fun p => if p.expires.isNone then some p.task else none

/-- Each posted task waits or was taken, once; those without a delay are taken in the order they
were posted, and those with one not before their time. -/
structure Accounted (s : TaskConnection τ) : Prop where
  all : ((taken s).map Prod.fst ++ waiting s).Perm s.posted
  order : undelayed ((taken s).map Prod.fst) ++ s.taskQueue = undelayed s.posted
  due : ∀ t ∈ taken s, ∀ e ∈ t.1.expires, e ≤ t.2
  sorted : s.delayedTasks.Pairwise (·.1 ≤ ·.1)

theorem perm_emplace (it : Nat × τ) (m : List (Nat × τ)) : (emplace it m).Perm (it :: m) := by
  refine List.perm_middle.trans ?_
  rw [List.takeWhile_append_dropWhile]

theorem sorted_emplace (it : Nat × τ) {m : List (Nat × τ)} (h : m.Pairwise (·.1 ≤ ·.1)) :
    (emplace it m).Pairwise (·.1 ≤ ·.1) := by
  induction m with
  | nil => exact List.pairwise_singleton _ _
  | cons first m ih =>
    obtain ⟨hfirst, hm⟩ := List.pairwise_cons.mp h
    by_cases hle : first.1 ≤ it.1
    · have hcons : emplace it (first :: m) = first :: emplace it m := by simp [emplace, hle]
      rw [hcons, List.pairwise_cons]
      refine ⟨fun other hother => ?_, ih hm⟩
      rcases List.mem_cons.mp ((perm_emplace it m).mem_iff.mp hother) with rfl | hother
      · exact hle
      · exact hfirst other hother
    · have hcons : emplace it (first :: m) = it :: first :: m := by simp [emplace, hle]
      rw [hcons, List.pairwise_cons]
      refine ⟨fun other hother => ?_, h⟩
      rcases List.mem_cons.mp hother with rfl | hother
      · omega
      · exact Nat.le_trans (by omega) (hfirst other hother)

theorem Accounted.post (h : Accounted s) (task : τ) : Accounted (s.post task) where
  all := by simpa [waiting, taken, TaskConnection.post] using h.all.append_right [atOnce task]
  order := by
    simpa [undelayed, atOnce, taken, TaskConnection.post] using congrArg (· ++ [task]) h.order
  due := h.due
  sorted := h.sorted

theorem Accounted.postDelayed (h : Accounted s) (it : Nat × τ) : Accounted (s.postDelayed it) where
  all := by
    have hwaiting := ((perm_emplace it s.delayedTasks).map delayed).append_right
      (s.taskQueue.map atOnce)
    refine (hwaiting.append_left _).trans (List.perm_middle.trans ?_)
    exact (h.all.cons _).trans (List.perm_append_singleton _ _).symm
  order := by simpa [undelayed, delayed, taken, TaskConnection.postDelayed] using h.order
  due := h.due
  sorted := sorted_emplace it h.sorted

theorem Accounted.process (h : Accounted s) (hs : s.tasksToRun = []) (now : Nat) :
    Accounted (s.process now) where
  all := by
    have hparts := (List.filter_append_perm (fun it : Nat × τ => it.1 ≤ now) s.delayedTasks).map delayed
    refine List.Perm.trans ?_ h.all
    rw [List.map_append] at hparts
    have hrest := ((hparts.append_left (s.taskQueue.map atOnce)).trans List.perm_append_comm).append_left
      (s.ran.map Prod.fst)
    simpa [taken, waiting, hs, TaskConnection.process, Function.comp_def] using hrest
  order := by
    refine Eq.trans ?_ h.order
    simp [taken, hs, TaskConnection.process, undelayed, atOnce, delayed, Function.comp_def]
  due := by
    intro t ht
    rcases List.mem_append.mp ht with hran | hnew
    · exact h.due t (List.mem_append_left _ hran)
    · obtain ⟨p, hp, rfl⟩ := List.mem_map.mp hnew
      rcases List.mem_append.mp hp with hp | hp
      · obtain ⟨task, -, rfl⟩ := List.mem_map.mp hp
        exact nofun
      · obtain ⟨it, hit, rfl⟩ := List.mem_map.mp hp
        rintro e ⟨⟩
        exact of_decide_eq_true (List.mem_filter.mp hit).2
  sorted := h.sorted.filter _

theorem Accounted.step (h : Accounted s) (e : TaskEvent τ) : Accounted (s.step e) := by
  cases e with
  | post task => exact h.post task
  | postDelayed expires task => exact h.postDelayed (expires, task)
  | process now =>
    rw [TaskConnection.step]
    split
    next hs => exact h.process (List.isEmpty_iff.mp hs) now
    next => exact h
  | runTask =>
    have htaken : taken (s.step .runTask) = taken s := by
      rw [taken, TaskConnection.step, List.append_assoc, ← List.drop_one, List.take_append_drop]
      rfl
    exact ⟨htaken ▸ h.all, htaken ▸ h.order, htaken ▸ h.due, h.sorted⟩

theorem Accounted.run (h : Accounted s) (events : List (TaskEvent τ)) :
    Accounted (events.foldl TaskConnection.step s) := by
  induction events generalizing s with
  | nil => exact h
  | cons e events ih => exact ih (h.step e)

theorem accounted_fresh : Accounted ({} : TaskConnection τ) :=
  ⟨.refl _, rfl, nofun, .nil⟩

/-- In every order of posts and turns of the select thread. -/
theorem tasks_accounted (events : List (TaskEvent τ)) : Accounted (events.foldl step {}) :=
  accounted_fresh.run events

end XbdmGdbBridge.Proofs.Tasks
