import XbdmGdbBridge.Lib.Program

/-!
# Programs cut into calls

A `Task` is a program given call by call, so that something else can happen to the state between
two of them. Without interruption it is the program again (`run`).
-/

namespace XbdmGdbBridge.Lib

open Program

/-- Turns of one thread over a state it shares, without the others. -/
inductive Alone {τ : Type 1} {σ : Type} (step : τ → σ → τ → σ → Prop) : τ → σ → τ → σ → Prop where
  | refl (t : τ) (s : σ) : Alone step t s t s
  | head {t t' t'' : τ} {s s' s'' : σ} (h : step t s t' s') (rest : Alone step t' s' t'' s'') :
      Alone step t s t'' s''

theorem Alone.trans {τ : Type 1} {σ : Type} {step : τ → σ → τ → σ → Prop} {t t' t'' : τ}
    {s s' s'' : σ} (h : Alone step t s t' s') (h' : Alone step t' s' t'' s'') :
    Alone step t s t'' s'' := by
  induction h with
  | refl => exact h'
  | head first rest ih => exact .head first (ih h')

inductive Task (ε σ : Type) : Type 1 where
  | done
  | call {α : Type} (x : Program ε σ α) (next : α → Task ε σ)

namespace Task

variable {ε σ : Type}

def run : Task ε σ → Program ε σ Unit
  | done => pure ()
  | call x next => x >>= fun a => (next a).run

def once {α : Type} (x : Program ε σ α) : Task ε σ :=
  call x fun _ => done

def andThen : Task ε σ → Task ε σ → Task ε σ
  | done, u => u
  | call x next, u => call x fun a => (next a).andThen u

/-- One call of a task. -/
inductive Step : Task ε σ → σ → Task ε σ → σ → Prop where
  | call {α : Type} {x : Program ε σ α} {next : α → Task ε σ} {s s' : σ} {a : α}
      (h : x s = .ok (a, s')) : Step (.call x next) s (next a) s'

theorem step_call {α : Type} {x : Program ε σ α} {next : α → Task ε σ} {t : Task ε σ} {s s' : σ}
    (h : Step (.call x next) s t s') : ∃ a, x s = .ok (a, s') ∧ t = next a := by
  cases h with
  | call hx => exact ⟨_, hx, rfl⟩

theorem run_andThen (t u : Task ε σ) : (t.andThen u).run = t.run >>= fun _ => u.run := by
  induction t with
  | done => simp only [andThen, run, pure_bind]
  | call x next ih =>
    simp only [andThen, run, bind_assoc, ih]

/-- Running a task to its end is making its calls one after the other. -/
theorem alone_of_run {t : Task ε σ} {s s' : σ} (h : t.run s = .ok ((), s')) :
    Alone Step t s done s' := by
  induction t generalizing s with
  | done =>
    cases h
    exact .refl _ _
  | call x next ih =>
    obtain ⟨a, m, hx, hrest⟩ := bind_ok h
    exact .head (.call hx) (ih a hrest)

/-- Every call of the task stays within the relation. -/
inductive All (R : σ → σ → Prop) : Task ε σ → Prop where
  | done : All R done
  | call {α : Type} {x : Program ε σ α} {next : α → Task ε σ} (first : Within R x)
      (rest : ∀ a, All R (next a)) : All R (.call x next)

variable {R : σ → σ → Prop} {t u t' : Task ε σ} {s s' : σ}

theorem All.once {α : Type} {x : Program ε σ α} (h : Within R x) : All R (once x) :=
  .call h fun _ => .done

theorem All.andThen (ht : All R t) (hu : All R u) : All R (t.andThen u) := by
  induction ht with
  | done => exact hu
  | call first rest ih => exact .call first ih

theorem All.step (h : All R t) (hs : Step t s t' s') : R s s' ∧ All R t' := by
  cases hs with
  | call hx =>
    cases h with
    | call first rest => exact ⟨first _ _ _ hx, rest _⟩

/-- Turns of two tasks over a state they share, in any order. -/
inductive Interleaved : Task ε σ → Task ε σ → σ → Task ε σ → Task ε σ → σ → Prop where
  | refl (t u : Task ε σ) (s : σ) : Interleaved t u s t u s
  | left {t t' t'' u u'' : Task ε σ} {s s' s'' : σ} (h : Step t s t' s')
      (rest : Interleaved t' u s' t'' u'' s'') : Interleaved t u s t'' u'' s''
  | right {t t'' u u' u'' : Task ε σ} {s s' s'' : σ} (h : Step u s u' s')
      (rest : Interleaved t u' s' t'' u'' s'') : Interleaved t u s t'' u'' s''

variable {u' t'' u'' : Task ε σ} {s'' : σ}

theorem Interleaved.trans (h : Interleaved t u s t' u' s')
    (h' : Interleaved t' u' s' t'' u'' s'') : Interleaved t u s t'' u'' s'' := by
  induction h with
  | refl => exact h'
  | left first rest ih => exact .left first (ih h')
  | right first rest ih => exact .right first (ih h')

theorem interleaved_left (h : Alone Step t s t' s') (u : Task ε σ) :
    Interleaved t u s t' u s' := by
  induction h with
  | refl => exact .refl _ _ _
  | head first rest ih => exact .left first ih

theorem interleaved_right (h : Alone Step u s u' s') (t : Task ε σ) :
    Interleaved t u s t u' s' := by
  induction h with
  | refl => exact .refl _ _ _
  | head first rest ih => exact .right first ih

/-- What every turn of either task keeps. -/
theorem Interleaved.keeps {P : Task ε σ → Task ε σ → σ → Prop}
    (hleft : ∀ t t' u s s', P t u s → Step t s t' s' → P t' u s')
    (hright : ∀ t u u' s s', P t u s → Step u s u' s' → P t u' s')
    (h : Interleaved t u s t' u' s') (hs : P t u s) : P t' u' s' := by
  induction h with
  | refl => exact hs
  | left first rest ih => exact ih (hleft _ _ _ _ _ hs first)
  | right first rest ih => exact ih (hright _ _ _ _ _ hs first)

end Task

end XbdmGdbBridge.Lib
