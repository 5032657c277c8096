import Mathlib.Control.Basic

/-!
# Programs over a state that may stop with a fault

`Program ε σ α` is state passing with an exit. The rules here are for the three questions the
development asks of a program: does it fault (`faultOf`), how much does a completed run add to a
measure of the state (`Adds`), and which part of the state does it leave alone (`Keeps`).
-/

namespace XbdmGdbBridge.Lib

abbrev Program (ε σ α : Type) := StateT σ (Except ε) α

/-- A component of a state. -/
structure Part (σ τ : Type) where
  read : σ → τ
  write : τ → σ → σ

variable {ε σ τ α β : Type}

namespace Program

def fault (e : ε) : Program ε σ α :=
  fun _ => .error e

/-- A program that cannot fault. -/
def total (x : StateM σ α) : Program ε σ α :=
  fun s => .ok (x s)

/-- A program on a component, run on the whole state. -/
def on (p : Part σ τ) (x : Program ε τ α) : Program ε σ α :=
  fun s => match x (p.read s) with
    | .ok (a, t) => .ok (a, p.write t s)
    | .error e => .error e

theorem pure_apply (a : α) (s : σ) : (pure a : Program ε σ α) s = .ok (a, s) := rfl

theorem bind_apply (x : Program ε σ α) (f : α → Program ε σ β) (s : σ) :
    (x >>= f) s = match x s with
      | .ok (a, s') => f a s'
      | .error e => .error e := by
  change StateT.bind x f s = _
  unfold StateT.bind
  cases x s <;> rfl

theorem bind_of_ok {x : Program ε σ α} {s s' : σ} {a : α} (h : x s = .ok (a, s'))
    (f : α → Program ε σ β) : (x >>= f) s = f a s' := by
  rw [bind_apply, h]

theorem get_bind_apply (f : σ → Program ε σ α) (s : σ) : (get >>= f) s = f s s := rfl

theorem bind_total (x : StateM σ α) (f : α → Program ε σ β) (s : σ) :
    (total x >>= f) s = f (x s).1 (x s).2 := rfl

theorem bind_ok {x : Program ε σ α} {f : α → Program ε σ β} {s s' : σ} {b : β}
    (h : (x >>= f) s = .ok (b, s')) :
    ∃ a m, x s = .ok (a, m) ∧ f a m = .ok (b, s') := by
  rw [bind_apply] at h
  cases hx : x s with
  | error e => simp [hx] at h
  | ok r =>
    obtain ⟨a, m⟩ := r
    exact ⟨a, m, rfl, by simpa [hx] using h⟩

theorem total_ok {x : StateM σ α} {s s' : σ} {a : α}
    (h : (total x : Program ε σ α) s = .ok (a, s')) : s' = (x s).2 :=
  (congrArg Prod.snd (Except.ok.inj h)).symm

/-- A program that cannot fault, run for its effect. -/
theorem discard_ok {x : StateM σ α} {s s' : σ}
    (h : (total x >>= fun _ => pure () : Program ε σ Unit) s = .ok ((), s')) : s' = (x s).2 :=
  (congrArg Prod.snd (Except.ok.inj h)).symm

theorem on_ok {p : Part σ τ} {x : Program ε τ α} {s s' : σ} {a : α}
    (h : on p x s = .ok (a, s')) : ∃ t, x (p.read s) = .ok (a, t) ∧ s' = p.write t s := by
  unfold on at h
  cases hx : x (p.read s) with
  | error e => simp [hx] at h
  | ok r =>
    obtain ⟨b, t⟩ := r
    simp only [hx, Except.ok.injEq, Prod.mk.injEq] at h
    exact ⟨t, by rw [h.1], h.2.symm⟩

theorem on_of_ok {p : Part σ τ} {x : Program ε τ α} {s : σ} {t : τ} {a : α}
    (h : x (p.read s) = .ok (a, t)) : on p x s = .ok (a, p.write t s) := by
  rw [on, h]

def faultOf (x : Program ε σ α) (s : σ) : Option ε :=
  match x s with
  | .ok _ => none
  | .error e => some e

section Faults

@[simp] theorem faultOf_pure (a : α) (s : σ) : faultOf (pure a : Program ε σ α) s = none := rfl

@[simp] theorem faultOf_fault (e : ε) (s : σ) :
    faultOf (fault e : Program ε σ α) s = some e := rfl

@[simp] theorem faultOf_total (x : StateM σ α) (s : σ) :
    faultOf (total x : Program ε σ α) s = none := rfl

theorem faultOf_bind (x : Program ε σ α) (f : α → Program ε σ β) (s : σ) :
    faultOf (x >>= f) s = match x s with
      | .ok (a, s') => faultOf (f a) s'
      | .error e => some e := by
  simp only [faultOf, bind_apply]
  cases x s with
  | error e => rfl
  | ok r => rfl

theorem faultOf_ite {c : Prop} [Decidable c] (x y : Program ε σ α) (s : σ) :
    faultOf (if c then x else y) s = if c then faultOf x s else faultOf y s := by
  split <;> rfl

theorem faultOf_on (p : Part σ τ) (x : Program ε τ α) (s : σ) :
    faultOf (on p x) s = faultOf x (p.read s) := by
  simp only [faultOf, on]
  cases x (p.read s) with
  | error e => rfl
  | ok r => rfl

theorem faultOf_eq_none_iff {x : Program ε σ α} {s : σ} :
    faultOf x s = none ↔ ∃ a s', x s = .ok (a, s') := by
  unfold faultOf
  cases x s with
  | error e => simp
  | ok r =>
    obtain ⟨a, s'⟩ := r
    simp

theorem faultOf_eq_some_iff {x : Program ε σ α} {s : σ} {e : ε} :
    faultOf x s = some e ↔ x s = .error e := by
  unfold faultOf
  cases x s with
  | error e => simp
  | ok r => simp

/-- No state makes the program fault. -/
def Safe (x : Program ε σ α) : Prop :=
  ∀ s, faultOf x s = none

theorem Safe.pure (a : α) : Safe (pure a : Program ε σ α) := fun _ => rfl

theorem Safe.total (x : StateM σ α) : Safe (total x : Program ε σ α) := fun _ => rfl

theorem Safe.no_fault {x : Program ε σ α} {s : σ} {e : ε} (hx : Safe x)
    (h : faultOf x s = some e) : False := by
  rw [hx s] at h
  cases h

theorem Safe.on {p : Part σ τ} {x : Program ε τ α} (h : Safe x) : Safe (on p x) := by
  intro s
  rw [faultOf_on]
  exact h _

/-- What follows a safe program decides alone when nothing it depends on can fault. -/
theorem Safe.bind {x : Program ε σ α} {f : α → Program ε σ β} (hx : Safe x)
    (hf : ∀ a, Safe (f a)) : Safe (x >>= f) := by
  intro s
  obtain ⟨a, s', h⟩ := faultOf_eq_none_iff.mp (hx s)
  rw [faultOf_bind, h]
  exact hf a s'

theorem Safe.ite {c : Prop} [Decidable c] {x y : Program ε σ α} (hx : c → Safe x)
    (hy : ¬c → Safe y) : Safe (if c then x else y) := by
  split
  · exact hx ‹_›
  · exact hy ‹_›

theorem faultOf_bind_safe {x : Program ε σ α} {f : α → Program ε σ β} {s : σ}
    (hf : ∀ a, Safe (f a)) : faultOf (x >>= f) s = faultOf x s := by
  rw [faultOf_bind]
  unfold faultOf
  cases x s with
  | error e => rfl
  | ok r => exact hf r.1 r.2

end Faults

/-- A completed run of the program raises the measure by exactly `n`. -/
def Adds (m : σ → Nat) (n : Nat) (x : Program ε σ α) : Prop :=
  ∀ s a s', x s = .ok (a, s') → m s' = m s + n

section Measure

variable {m : σ → Nat} {n k : Nat}

theorem Adds.pure (a : α) : Adds m 0 (pure a : Program ε σ α) := by
  intro s b s' h
  simp only [pure_apply, Except.ok.injEq, Prod.mk.injEq] at h
  rw [← h.2, Nat.add_zero]

theorem Adds.fault (e : ε) : Adds m n (fault e : Program ε σ α) := by
  intro s b s' h
  cases h

theorem Adds.bind {x : Program ε σ α} {f : α → Program ε σ β} (hx : Adds m n x)
    (hf : ∀ a, Adds m k (f a)) : Adds m (n + k) (x >>= f) := by
  intro s b s' h
  obtain ⟨a, s₁, h₁, h₂⟩ := bind_ok h
  rw [hf a _ _ _ h₂, hx _ _ _ h₁, Nat.add_assoc]

/-- The case of `Adds.bind` in which the first program leaves the measure alone. -/
theorem Adds.after {x : Program ε σ α} {f : α → Program ε σ β} (hx : Adds m 0 x)
    (hf : ∀ a, Adds m k (f a)) : Adds m k (x >>= f) := by
  simpa using hx.bind hf

theorem Adds.ite {c : Prop} [Decidable c] {x y : Program ε σ α} (hx : c → Adds m n x)
    (hy : ¬c → Adds m n y) : Adds m n (if c then x else y) := by
  split
  · exact hx ‹_›
  · exact hy ‹_›

theorem Adds.on {p : Part σ τ} (hp : ∀ t s, m (p.write t s) = m s) (x : Program ε τ α) :
    Adds m 0 (on p x) := by
  intro s a s' h
  obtain ⟨t, -, rfl⟩ := on_ok h
  rw [hp, Nat.add_zero]

end Measure

/-- A completed run of the program raises the measure by at most `n`. -/
def AtMost (m : σ → Nat) (n : Nat) (x : Program ε σ α) : Prop :=
  ∀ s a s', x s = .ok (a, s') → ∃ k ≤ n, m s' = m s + k

section Bounds

variable {m : σ → Nat} {n k : Nat}

theorem Adds.atMost {x : Program ε σ α} (h : Adds m n x) (hk : n ≤ k) : AtMost m k x :=
  fun s a s' hs => ⟨n, hk, h s a s' hs⟩

theorem AtMost.bind {x : Program ε σ α} {f : α → Program ε σ β} (hx : AtMost m n x)
    (hf : ∀ a, AtMost m k (f a)) : AtMost m (n + k) (x >>= f) := by
  intro s b s' h
  obtain ⟨a, s₁, h₁, h₂⟩ := bind_ok h
  obtain ⟨i, hi, hfirst⟩ := hx _ _ _ h₁
  obtain ⟨j, hj, hsecond⟩ := hf a _ _ _ h₂
  exact ⟨i + j, Nat.add_le_add hi hj, by omega⟩

/-- The case of `AtMost.bind` in which the first program leaves the measure alone. -/
theorem Adds.atMost_after {x : Program ε σ α} {f : α → Program ε σ β} (hx : Adds m 0 x)
    (hf : ∀ a, AtMost m k (f a)) : AtMost m k (x >>= f) := by
  simpa using (hx.atMost (Nat.le_refl 0)).bind hf

theorem AtMost.ite {c : Prop} [Decidable c] {x y : Program ε σ α} (hx : c → AtMost m n x)
    (hy : ¬c → AtMost m n y) : AtMost m n (if c then x else y) := by
  split
  · exact hx ‹_›
  · exact hy ‹_›

end Bounds

/-- Every completed run of the program relates the state behind it to the one before. -/
def Within (R : σ → σ → Prop) (x : Program ε σ α) : Prop :=
  ∀ s a s', x s = .ok (a, s') → R s s'

section Relations

variable {R : σ → σ → Prop}

theorem Within.pure (hr : ∀ s, R s s) (a : α) : Within R (pure a : Program ε σ α) := by
  intro s b s' h
  cases h
  exact hr s

theorem Within.fault (e : ε) : Within R (fault e : Program ε σ α) := by
  intro s b s' h
  cases h

theorem Within.total {x : StateM σ α} (h : ∀ s, R s (x s).2) :
    Within R (Program.total x : Program ε σ α) := by
  intro s a s' hs
  obtain ⟨rfl, rfl⟩ := Prod.mk.inj (Except.ok.inj hs)
  exact h s

theorem Within.bind {x : Program ε σ α} {f : α → Program ε σ β} (hx : Within R x)
    (hf : ∀ a, Within R (f a)) (ht : ∀ s s' s'', R s s' → R s' s'' → R s s'') :
    Within R (x >>= f) := by
  intro s b s' h
  obtain ⟨a, s₁, h₁, h₂⟩ := bind_ok h
  exact ht _ _ _ (hx _ _ _ h₁) (hf a _ _ _ h₂)

/-- `Within.bind` for programs that cannot fault. -/
theorem Within.total_bind {x : StateM σ α} {f : α → StateM σ β}
    (hx : Within R (Program.total x : Program ε σ α))
    (hf : ∀ a, Within R (Program.total (f a) : Program ε σ β))
    (ht : ∀ s s' s'', R s s' → R s' s'' → R s s'') :
    Within R (Program.total (x >>= f) : Program ε σ β) :=
  hx.bind hf ht

theorem Within.ite {c : Prop} [Decidable c] {x y : Program ε σ α} (hx : Within R x)
    (hy : Within R y) : Within R (if c then x else y) := by
  split
  · exact hx
  · exact hy

end Relations

section Loops

variable {f : α → Program ε σ Bool}

theorem allM_append {m : Type → Type} [Monad m] [LawfulMonad m] (f : α → m Bool) (l l' : List α) :
    (l ++ l').allM f = do if ← l.allM f then l'.allM f else return false := by
  induction l with
  | nil => simp [List.allM]
  | cons a l ih =>
    rw [List.cons_append, List.allM, List.allM, bind_assoc]
    refine congrArg _ (funext fun b => ?_)
    cases b with
    | true => exact ih
    | false => simp

/-- The elements that something is done about. -/
theorem allM_filterMap {m : Type → Type} [Monad m] [LawfulMonad m] (f : β → m Bool) (g : α → Option β)
    (l : List α) : (l.filterMap g).allM f =
      l.allM fun a => (g a).elim (pure true) f := by
  induction l with
  | nil => rfl
  | cons a l ih =>
    rw [List.allM, ← ih]
    cases hg : g a with
    | none => simp [List.filterMap_cons_none hg]
    | some b =>
      rw [List.filterMap_cons_some hg, List.allM]
      rfl

theorem allM_cons_of_ok {a : α} {l : List α} {s s' : σ} {b : Bool} (h : f a s = .ok (b, s')) :
    (a :: l).allM f s = if b then l.allM f s' else .ok (false, s') := by
  rw [List.allM, bind_of_ok h]
  cases b <;> rfl

end Loops

end Program

section Running

theorem run_pure (a : α) (s : σ) : (pure a : StateM σ α) s = (a, s) := rfl

theorem run_bind (x : StateM σ α) (f : α → StateM σ β) (s : σ) :
    (x >>= f) s = f (x s).1 (x s).2 := rfl

theorem run_get (s : σ) : (get : StateM σ σ) s = (s, s) := rfl

theorem run_modify (f : σ → σ) (s : σ) : (modify f : StateM σ PUnit) s = (⟨⟩, f s) := rfl

theorem run_ite {c : Prop} [Decidable c] (x y : StateM σ α) (s : σ) :
    (if c then x else y) s = if c then x s else y s := by
  split <;> rfl

theorem except_bind_ok_iff {ε : Type} {x : Except ε α} {f : α → Except ε β} :
    (∃ b, (x >>= f) = .ok b) ↔ ∃ a, x = .ok a ∧ ∃ b, f a = .ok b := by
  cases x <;> simp [bind, Except.bind]

end Running

/-- A program that cannot fault leaves what `g` reads of the state as it was. -/
def Keeps (g : σ → β) (x : StateM σ α) : Prop :=
  ∀ s, g (x s).2 = g s

section Frames

variable {γ : Type} {g : σ → γ}

theorem Keeps.pure (a : α) : Keeps g (pure a : StateM σ α) := fun _ => rfl

theorem Keeps.get : Keeps g (get : StateM σ σ) := fun _ => rfl

theorem Keeps.bind {x : StateM σ α} {f : α → StateM σ β} (hx : Keeps g x)
    (hf : ∀ a, Keeps g (f a)) : Keeps g (x >>= f) := by
  intro s
  change g (f (x s).1 (x s).2).2 = g s
  rw [hf, hx]

theorem Keeps.ite {c : Prop} [Decidable c] {x y : StateM σ α} (hx : Keeps g x)
    (hy : Keeps g y) : Keeps g (if c then x else y) := by
  split
  · exact hx
  · exact hy

/-- A relation between states that agree in what the program leaves alone. -/
theorem Keeps.within {R : σ → σ → Prop} {x : StateM σ α} (h : Keeps g x)
    (hr : ∀ s s', g s' = g s → R s s') : Program.Within R (Program.total x : Program ε σ α) :=
  Program.Within.total fun s => hr _ _ (h s)

theorem Keeps.comp {x : StateM σ α} (h : Keeps g x) (f : γ → β) :
    Keeps (fun s => f (g s)) x :=
  fun s => congrArg f (h s)

end Frames

/-- Every completed run of the program leaves what `g` reads of the state as it was. -/
def Leaves (g : σ → β) (x : Program ε σ α) : Prop :=
  ∀ s a s', x s = .ok (a, s') → g s' = g s

section ProgramFrames

variable {γ φ : Type} {g : σ → γ}

/-- A relation between states that agree in what the program leaves alone. -/
theorem Leaves.within {R : σ → σ → Prop} {x : Program ε σ α} (h : Leaves g x)
    (hr : ∀ s s', g s' = g s → R s s') : Program.Within R x :=
  fun s a s' hs => hr _ _ (h s a s' hs)

theorem Leaves.pure (a : α) : Leaves g (pure a : Program ε σ α) := by
  intro s b s' h
  cases h
  rfl

theorem Leaves.fault (e : ε) : Leaves g (Program.fault e : Program ε σ α) := by
  intro s b s' h
  cases h

theorem Leaves.bind {x : Program ε σ α} {f : α → Program ε σ β} (hx : Leaves g x)
    (hf : ∀ a, Leaves g (f a)) : Leaves g (x >>= f) := by
  intro s b s' h
  obtain ⟨a, s₁, h₁, h₂⟩ := Program.bind_ok h
  exact (hf a _ _ _ h₂).trans (hx _ _ _ h₁)

theorem Keeps.leaves {x : StateM σ α} (h : Keeps g x) :
    Leaves g (Program.total x : Program ε σ α) := by
  intro s a s' hs
  obtain ⟨rfl, rfl⟩ := Prod.mk.inj (Except.ok.inj hs)
  exact h s

/-- A program that returns its failures goes on only behind a success. -/
theorem Leaves.except_bind {x : ExceptT φ (Program ε σ) α} {f : α → ExceptT φ (Program ε σ) β}
    (hx : Leaves g x.run) (hf : ∀ a, Leaves g (f a).run) : Leaves g (x >>= f).run := by
  refine Leaves.bind hx ?_
  intro r
  cases r with
  | error e => exact Leaves.pure _
  | ok a => exact hf a

end ProgramFrames

/-- From a state in `P` a program that cannot fault ends with a result and state in `Q`. -/
def Ensures (P : σ → Prop) (x : StateM σ α) (Q : α → σ → Prop) : Prop :=
  ∀ s, P s → Q (x s).1 (x s).2

section Conditions

variable {γ : Type} {P : σ → Prop} {Q : α → σ → Prop}

theorem Ensures.pure (a : α) (h : ∀ s, P s → Q a s) : Ensures P (pure a) Q := h

theorem Ensures.bind {x : StateM σ α} {f : α → StateM σ β} {R : β → σ → Prop}
    (hx : Ensures P x Q) (hf : ∀ a, Ensures (Q a) (f a) R) : Ensures P (x >>= f) R :=
  fun s hs => hf _ _ (hx s hs)

theorem Ensures.ite {c : Prop} [Decidable c] {x y : StateM σ α} (hx : c → Ensures P x Q)
    (hy : ¬c → Ensures P y Q) : Ensures P (if c then x else y) Q := by
  split
  · exact hx ‹_›
  · exact hy ‹_›

theorem Ensures.get_bind {f : σ → StateM σ β} {R : β → σ → Prop}
    (hf : ∀ s, P s → Ensures P (f s) R) : Ensures P (get >>= f) R :=
  fun s hs => hf s hs s hs

/-- What holds of a part the program leaves alone still holds behind it. -/
theorem Keeps.ensures {g : σ → γ} {x : StateM σ α} (h : Keeps g x) (p : γ → Prop) :
    Ensures (fun s => p (g s)) x fun _ s => p (g s) := by
  intro s hs
  exact (congrArg p (h s)).mpr hs

end Conditions

end XbdmGdbBridge.Lib
