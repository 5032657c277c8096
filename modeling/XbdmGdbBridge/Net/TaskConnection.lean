import Mathlib.Data.List.Basic

/-!
# Tasks for the select thread

`TaskConnection`: any thread posts tasks, to be run at once or not before a time. `Process` takes
those that are due and runs them without the lock, so that more are posted meanwhile.
-/

namespace XbdmGdbBridge.Networking

variable {τ : Type}

/-- A task, and the time it waits for if it is delayed. -/
structure Posted (τ : Type) where
  expires : Option Nat
  task : τ

structure TaskConnection (τ : Type) where
  taskQueue : List τ := []
  delayedTasks : List (Nat × τ) := []
  /-- What `Process` has taken and not run yet, with its `now`. -/
  tasksToRun : List (Posted τ × Nat) := []
  /-- History. -/
  ran : List (Posted τ × Nat) := []
  posted : List (Posted τ) := []

inductive TaskEvent (τ : Type) where
  | post (task : τ)
  | postDelayed (expires : Nat) (task : τ)
  | process (now : Nat)
  | runTask

namespace TaskConnection

/-- `emplace` of a `std::multimap`. -/
def emplace (it : Nat × τ) (m : List (Nat × τ)) : List (Nat × τ) :=
  m.takeWhile (·.1 ≤ it.1) ++ it :: m.dropWhile (·.1 ≤ it.1)

def atOnce (task : τ) : Posted τ :=
  ⟨none, task⟩

def delayed (it : Nat × τ) : Posted τ :=
  ⟨some it.1, it.2⟩

/-- `Process` up to its loop. -/
def process (s : TaskConnection τ) (now : Nat) : TaskConnection τ :=
  { s with
    taskQueue := []
    delayedTasks := s.delayedTasks.filter fun it => !it.1 ≤ now
    tasksToRun := (s.taskQueue.map atOnce ++
      (s.delayedTasks.filter fun it => it.1 ≤ now).map delayed).map (·, now) }

def post (s : TaskConnection τ) (task : τ) : TaskConnection τ :=
  { s with taskQueue := s.taskQueue ++ [task], posted := s.posted ++ [atOnce task] }

def postDelayed (s : TaskConnection τ) (it : Nat × τ) : TaskConnection τ :=
  { s with delayedTasks := emplace it s.delayedTasks, posted := s.posted ++ [delayed it] }

-- `Process` is called again when its loop has ended; what cannot happen changes nothing.
def step (s : TaskConnection τ) : TaskEvent τ → TaskConnection τ
  | .post task => s.post task
  | .postDelayed expires task => s.postDelayed (expires, task)
  | .process now => if s.tasksToRun.isEmpty then s.process now else s
  | .runTask => { s with tasksToRun := s.tasksToRun.tail, ran := s.ran ++ s.tasksToRun.take 1 }

end TaskConnection

end XbdmGdbBridge.Networking
