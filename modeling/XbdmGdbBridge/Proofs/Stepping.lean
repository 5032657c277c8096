import XbdmGdbBridge.Proofs.ThreadContexts
import XbdmGdbBridge.Proofs.Transparency

/-!
# Single steps

`StepInstruction` against a target that keeps registers, breakpoints and a log, and answers each
request with the next of an arbitrary sequence of status codes. Seen from the target a step is a list
of requests that ends with the first refusal.
-/

namespace XbdmGdbBridge.Proofs.Stepping

open Lib XBDMDebugger
open Transparency (toNat_lt_of_ne_last toNat_succ)

structure Machine where
  /-- The text of a thread's general registers. -/
  registers : UInt32 → Bytes
  installed : Finset UInt32 := ∅
  /-- The status codes still to come. -/
  outcomes : Nat → StatusCode
  /-- History: the requests and whether they were granted, oldest first. -/
  log : List (Request × Bool) := []

namespace Machine

def grants (m : Machine) (r : Request) : Bool :=
  r.isOK (m.outcomes 0)

/-- What a granted request does to the registers. -/
def write : Request → (UInt32 → Bytes) → UInt32 → Bytes
  | .setContext thread context, registers => Function.update registers thread context.serialize
  | _, registers => registers

def after (m : Machine) (r : Request) : Machine where
  registers := if m.grants r then write r m.registers else m.registers
  installed := if m.grants r then r.arm m.installed else m.installed
  outcomes n := m.outcomes (n + 1)
  log := m.log ++ [(r, m.grants r)]

/-- The context a request is answered with. -/
def shown (m : Machine) : Request → ThreadContext
  | .getContext thread => Console.readContext (m.registers thread)
  | _ => {}

instance : Xbdm Machine where
  answer r m := ({ status := m.outcomes 0, context := m.shown r }, m.after r)
  announces _ m := (false, m)

/-- Requests in turn, up to the first that is refused. -/
def attempt : List Request → Machine → Bool × Machine
  | [], m => (true, m)
  | r :: rest, m => if m.grants r then attempt rest (m.after r) else (false, m.after r)

/-- Requests in turn, whatever their outcome. -/
def sendAll : List Request → Machine → Machine
  | [], m => m
  | r :: rest, m => sendAll rest (m.after r)

/-- A step as the target sees it: the breakpoints in the way are lifted, and put back if the work
behind them is refused. -/
def step (thread : UInt32) (lifted : List UInt32) (work : List Request) (m : Machine) :
    Bool × Machine :=
  let fetched := attempt [.stop, .getContext thread] m
  if fetched.1 then
    let worked := attempt work (sendAll (lifted.map fun bp => .breakAddress bp true) fetched.2)
    if worked.1 then worked
    else (false, sendAll (lifted.map fun bp => .breakAddress bp false) worked.2)
  else fetched

end Machine

open Machine

/-- The context a step writes. -/
def trapped (c : ThreadContext) (flags : Int32) : ThreadContext :=
  { c with eflags := some (flags ||| trapFlag) }

/-- The requests of `Thread::StepInstruction`. With the trap flag already set there is no write and no
continue. -/
def threadWork (thread : UInt32) (c : ThreadContext) (flags : Int32) : List Request :=
  if flags ||| trapFlag = flags then [.getContext thread]
  else [.getContext thread, .setContext thread (trapped c flags), .continue thread]

/-- The requests behind the lifted breakpoints. -/
def work (thread : UInt32) (c : ThreadContext) (flags : Int32) : List Request :=
  threadWork thread c flags ++ [.go]

section Refinement

variable {d : XBDMDebugger Machine} {i : ThreadRef} {c : ThreadContext} {flags : Int32}

/-- An operation as the target sees it. -/
def view {α : Type} (x : Op Machine α) (d : XBDMDebugger Machine) : α × Machine :=
  ((x d).1, (x d).2.context.target)

theorem view_accepted (r : Request) (d : XBDMDebugger Machine) :
    view (accepted r) d = (d.context.target.grants r, d.context.target.after r) := by
  have h : view (accepted r) d = ((if d.context.target.grants r then some _ else none).isSome, _) := rfl
  rw [h]
  cases d.context.target.grants r <;> rfl

theorem attempt_append (a b : List Request) (m : Machine) :
    attempt (a ++ b) m = if (attempt a m).1 then attempt b (attempt a m).2 else attempt a m := by
  induction a generalizing m with
  | nil => rfl
  | cons r rest ih =>
    rw [List.cons_append, attempt, attempt]
    cases m.grants r with
    | true => exact ih _
    | false => rfl

/-- One request after which the operation goes on or gives up. -/
theorem attempt_cons (r : Request) (rest : List Request) (m : Machine) :
    attempt (r :: rest) m = if m.grants r then attempt rest (m.after r) else (false, m.after r) := rfl

theorem view_accepted_attempt (r : Request) (d : XBDMDebugger Machine) :
    view (accepted r) d = attempt [r] d.context.target := by
  rw [view_accepted, attempt_cons]
  cases d.context.target.grants r <;> rfl

theorem view_fetchContextSync (i : ThreadRef) (d : XBDMDebugger Machine) :
    view (fetchContextSync i) d = (d.context.target.grants (.getContext (d.threadAt i).threadId),
      d.context.target.after (.getContext (d.threadAt i).threadId)) := by
  have hresult : (fetchContextSync i d).1 = _ := fetch_result i .getContext _ _ d
  have hcontext : (fetchContextSync i d).2.context = _ := fetch_context i .getContext _ _ d
  rw [view, hresult, hcontext]
  exact view_accepted _ d

theorem fetchContextSync_context (hi : i < d.threads.length)
    (h : d.context.target.grants (.getContext (d.threadAt i).threadId) = true) :
    ((fetchContextSync i d).2.threadAt i).context =
      some (Console.readContext (d.context.target.registers (d.threadAt i).threadId)) := by
  have hthread : (fetchContextSync i d).2.threadAt i = _ := fetch_threadAt hi .getContext _ _
  have hreply : (request (.getContext (d.threadAt i).threadId) d).1 =
      if d.context.target.grants (.getContext (d.threadAt i).threadId) then some _ else none := rfl
  rw [hthread, hreply, h, if_pos rfl]
  rfl

theorem fetchContextSync_threadId (i : ThreadRef) (d : XBDMDebugger Machine) :
    ((fetchContextSync i d).2.threadAt i).threadId = (d.threadAt i).threadId :=
  threadAt_id_congr (congrArg Core.threadIds (aside_core.fetchContextSync i d)) i

/-- An operation that gives up when its first part fails. -/
theorem view_guard (x y : Op Machine Bool) (d : XBDMDebugger Machine) :
    view (do if !(← x) then return false else y) d =
      if (view x d).1 then view y (x d).2 else (false, (view x d).2) := by
  have h : view (do if !(← x) then return false else y) d =
      view (if !(view x d).1 then pure false else y) (x d).2 := rfl
  rw [h]
  cases (view x d).1 <;> rfl

/-- `Thread::StepInstruction` behind its query. -/
def setTrap (i : ThreadRef) : Op Machine Bool := do
  let thread ← deref i
  let context := thread.context.getD {}
  match context.eflags with
  | none => return false
  | some flags =>
    if flags ||| trapFlag = flags then return true
    else if !(← accepted (.setContext thread.threadId
        { context with eflags := some (flags ||| trapFlag) })) then
      return false
    else continueSync i

theorem stepThread_eq (i : ThreadRef) :
    stepThread i = (do if !(← fetchContextSync i) then return false else setTrap i) := rfl

theorem view_setTrap {thread : UInt32} (hid : (d.threadAt i).threadId = thread)
    (hc : (d.threadAt i).context = some c) (hflags : c.eflags = some flags) :
    view (setTrap i) d = attempt (if flags ||| trapFlag = flags then []
      else [.setContext thread (trapped c flags), .continue thread]) d.context.target := by
  have hbody : view (setTrap i) d = view (if flags ||| trapFlag = flags then pure true
      else do
        if !(← accepted (.setContext thread (trapped c flags))) then return false
        else continueSync i) d := by
    unfold view setTrap
    simp only [run_bind, run_deref, hc, hid, Option.getD_some, hflags]
    rfl
  rw [hbody]
  by_cases htrap : flags ||| trapFlag = flags
  · rw [if_pos htrap, if_pos htrap]
    rfl
  · rw [if_neg htrap, if_neg htrap, view_guard, view_accepted, attempt_cons]
    have hcontinue : view (continueSync i) (accepted (.setContext thread (trapped c flags)) d).2 =
        attempt [.continue thread]
          (d.context.target.after (.setContext thread (trapped c flags))) := by
      rw [← hid]
      exact view_accepted_attempt _ _
    rw [hcontinue]

/-- `Thread::StepInstruction` as the target sees it. -/
theorem view_stepThread (hi : i < d.threads.length)
    (hc : Console.readContext (d.context.target.registers (d.threadAt i).threadId) = c)
    (hflags : c.eflags = some flags) :
    view (stepThread i) d = attempt (threadWork (d.threadAt i).threadId c flags) d.context.target := by
  have hwork : threadWork (d.threadAt i).threadId c flags = .getContext (d.threadAt i).threadId ::
      if flags ||| trapFlag = flags then []
      else [.setContext (d.threadAt i).threadId (trapped c flags),
        .continue (d.threadAt i).threadId] := by
    unfold threadWork
    split <;> rfl
  have htarget : (fetchContextSync i d).2.context.target = _ :=
    congrArg Prod.snd (view_fetchContextSync i d)
  rw [stepThread_eq, view_guard, view_fetchContextSync, hwork, attempt_cons]
  split
  next hgrant =>
    have hstored := fetchContextSync_context hi hgrant
    rw [hc] at hstored
    rw [view_setTrap (fetchContextSync_threadId i d) hstored hflags, htarget]
  next => rfl

theorem view_stepAndGo (hi : i < d.threads.length)
    (hc : Console.readContext (d.context.target.registers (d.threadAt i).threadId) = c)
    (hflags : c.eflags = some flags) :
    view (stepAndGo i) d = attempt (work (d.threadAt i).threadId c flags) d.context.target := by
  have hbody : view (stepAndGo i) d =
      view (if (view (stepThread i) d).1 then accepted .go else pure false) (stepThread i d).2 := rfl
  have htarget : (stepThread i d).2.context.target = (view (stepThread i) d).2 := rfl
  rw [view_stepThread hi hc hflags] at hbody htarget
  rw [hbody, work, attempt_append]
  split
  next => rw [view_accepted_attempt, htarget]
  next hrefused =>
    refine Prod.ext (Bool.eq_false_iff.mpr hrefused).symm ?_
    exact htarget

theorem view_suspendBreakpoints (l : List UInt32) (d : XBDMDebugger Machine) :
    (suspendBreakpoints l d).2.context.target =
      sendAll (l.map fun bp => .breakAddress bp true) d.context.target := by
  induction l generalizing d with
  | nil => rfl
  | cons bp rest ih => exact ih (request (.breakAddress bp true) d).2

theorem view_restoreBreakpoints (l : List UInt32) (d : XBDMDebugger Machine) :
    (restoreBreakpoints l d).2.context.target =
      sendAll (l.map fun bp => .breakAddress bp false) d.context.target := by
  induction l generalizing d with
  | nil => rfl
  | cons bp rest ih => exact ih (request (.breakAddress bp false) d).2

/-- Only a write of a context changes registers. -/
theorem registers_after {r : Request} (h : write r = id) (m : Machine) :
    (m.after r).registers = m.registers := by
  unfold after
  rw [h]
  exact ite_self _

theorem registers_suspend (l : List UInt32) (m : Machine) :
    (sendAll (l.map fun bp => .breakAddress bp true) m).registers = m.registers := by
  induction l generalizing m with
  | nil => rfl
  | cons bp rest ih => exact (ih _).trans (registers_after rfl m)

/-- `XBDMDebugger::StepInstruction` behind its query. -/
def liftAndStep (i : ThreadRef) : Op Machine Bool := do
  match ((← deref i).context.getD {}).eip with
  | none => return false
  | some eip =>
    let breakpoints := (← get).getActiveBreakpointsInRange eip.toUInt32 1
    suspendBreakpoints breakpoints
    if ← stepAndGo i then return true
    else
      restoreBreakpoints breakpoints
      return false

theorem stepAt_eq (i : ThreadRef) : stepAt i = (do
    if !(← (stop : Op Machine Bool)) then return false
    else if !(← fetchContextSync i) then return false
    else liftAndStep i) := rfl

theorem view_liftAndStep {eip : Int32} {thread : UInt32} (hi : i < d.threads.length)
    (hid : (d.threadAt i).threadId = thread)
    (hc : Console.readContext (d.context.target.registers thread) = c)
    (hstored : (d.threadAt i).context = some c) (heip : c.eip = some eip)
    (hflags : c.eflags = some flags) :
    view (liftAndStep i) d =
      let lifted := d.getActiveBreakpointsInRange eip.toUInt32 1
      let worked := attempt (work thread c flags)
        (sendAll (lifted.map fun bp => .breakAddress bp true) d.context.target)
      if worked.1 then worked
      else (false, sendAll (lifted.map fun bp => .breakAddress bp false) worked.2) := by
  subst hid
  let lifted := d.getActiveBreakpointsInRange eip.toUInt32 1
  let suspended := (suspendBreakpoints lifted d).2
  have hcore : core suspended = core d := keeps_suspendBreakpoints lifted d
  have hids : suspended.threadIds = d.threadIds := congrArg Core.threadIds hcore
  have hid : (suspended.threadAt i).threadId = (d.threadAt i).threadId := threadAt_id_congr hids i
  have htarget : suspended.context.target = _ := view_suspendBreakpoints lifted d
  have hwork : view (stepAndGo i) suspended = attempt (work (d.threadAt i).threadId c flags)
      (sendAll (lifted.map fun bp => .breakAddress bp true) d.context.target) := by
    rw [view_stepAndGo (by rwa [length_of_ids hids]) (c := c) _ hflags, hid, htarget]
    rw [htarget, hid, registers_suspend, hc]
  have hbody : view (liftAndStep i) d = view (if (view (stepAndGo i) suspended).1 then pure true
      else do
        restoreBreakpoints lifted
        return false) (stepAndGo i suspended).2 := by
    unfold view liftAndStep
    simp only [run_bind, run_deref, hstored, Option.getD_some, heip]
    rfl
  have hworked : (stepAndGo i suspended).2.context.target = (view (stepAndGo i) suspended).2 := rfl
  rw [hwork] at hbody hworked
  rw [hbody]
  dsimp only
  split
  next hstepped => exact Prod.ext hstepped.symm hworked
  next =>
    rw [← hworked]
    exact Prod.ext rfl (view_restoreBreakpoints lifted _)

/-- The faithful step and the step of the target agree. -/
theorem view_stepAt {eip : Int32} (hi : i < d.threads.length)
    (hc : Console.readContext (d.context.target.registers (d.threadAt i).threadId) = c)
    (heip : c.eip = some eip) (hflags : c.eflags = some flags) :
    view (stepAt i) d = step (d.threadAt i).threadId
      (d.getActiveBreakpointsInRange eip.toUInt32 1) (work (d.threadAt i).threadId c flags)
      d.context.target := by
  let stopped := (stop d).2
  have hid : (stopped.threadAt i).threadId = (d.threadAt i).threadId := rfl
  have htarget : stopped.context.target = d.context.target.after .stop := rfl
  have hregisters : stopped.context.target.registers = d.context.target.registers :=
    registers_after rfl _
  rw [stepAt_eq, view_guard, show view stop d = _ from view_accepted .stop d, step, attempt_cons]
  dsimp only
  split
  next =>
    rw [view_guard, view_fetchContextSync, attempt_cons]
    rw [hid, htarget]
    split
    next hgrant =>
      let fetched := (fetchContextSync i stopped).2
      have hcore : core fetched = core d := aside_core.fetchContextSync i stopped
      have hlength : fetched.threads.length = d.threads.length :=
        length_of_ids (congrArg Core.threadIds hcore)
      have hsame : fetched.getActiveBreakpointsInRange eip.toUInt32 1 =
          d.getActiveBreakpointsInRange eip.toUInt32 1 := by
        have hbps : fetched.breakpoints = d.breakpoints := congrArg Core.breakpoints hcore
        unfold getActiveBreakpointsInRange
        rw [hbps]
      have hfetched : fetched.context.target = _ := congrArg Prod.snd (view_fetchContextSync i stopped)
      have hkept : fetched.context.target.registers = d.context.target.registers := by
        rw [hfetched, registers_after rfl, hregisters]
      have hstored : (fetched.threadAt i).context = some c := by
        rw [fetchContextSync_context (d := stopped) hi hgrant, hregisters, hid, hc]
      change view (liftAndStep i) fetched = _
      rw [view_liftAndStep (by rwa [hlength]) (fetchContextSync_threadId i stopped)
        (by rw [hkept, hid, hc]) hstored heip hflags, hsame, hfetched, hid]
      rfl
    next => rfl
  next => rfl

theorem view_stepInstruction {eip : Int32} {thread : UInt32} (hactive : d.activeThread = some i)
    (hid : (d.threadAt i).threadId = thread)
    (hc : Console.readContext (d.context.target.registers thread) = c)
    (heip : c.eip = some eip) (hflags : c.eflags = some flags) :
    view stepInstruction d = step thread (d.getActiveBreakpointsInRange eip.toUInt32 1)
      (work thread c flags) d.context.target := by
  subst hid
  have hi : i < d.threads.length := by
    obtain ⟨id, -, hid⟩ := Option.bind_eq_some_iff.mp hactive
    exact getThread_lt hid
  have hbody : view stepInstruction d =
      view (stepAt i) (noteResumed (d.threadAt i).threadId .step d).2 := by
    unfold view stepInstruction
    simp only [run_bind, run_get, hactive, run_deref]
  rw [hbody]
  exact view_stepAt hi hc heip hflags

end Refinement

section Attempts

variable {m : Machine} {rs : List Request}

/-- From the `n`-th on, the outcomes grant the requests in turn. -/
def Accepts (outcomes : Nat → StatusCode) (n : Nat) (rs : List Request) : Prop :=
  ∀ (j : Nat) (r : Request), rs[j]? = some r → r.isOK (outcomes (n + j)) = true

theorem accepts_nil {outcomes : Nat → StatusCode} {n : Nat} : Accepts outcomes n [] :=
  fun j r h => absurd h (by simp)

theorem accepts_cons {outcomes : Nat → StatusCode} {n : Nat} {r : Request} :
    Accepts outcomes n (r :: rs) ↔ r.isOK (outcomes n) = true ∧ Accepts outcomes (n + 1) rs := by
  constructor
  · intro h
    refine ⟨h 0 r rfl, fun j r' hr' => ?_⟩
    have := h (j + 1) r' hr'
    rwa [show n + 1 + j = n + (j + 1) by omega]
  · rintro ⟨hr, h⟩ j r' hr'
    cases j with
    | zero =>
      obtain rfl : r = r' := Option.some.inj hr'
      exact hr
    | succ j =>
      have := h j r' hr'
      rwa [show n + 1 + j = n + (j + 1) by omega] at this

theorem accepts_shift {outcomes : Nat → StatusCode} {k : Nat} :
    Accepts (fun n => outcomes (n + k)) 0 rs ↔ Accepts outcomes k rs := by
  unfold Accepts
  simp only [Nat.zero_add, Nat.add_comm k]

theorem attempt_iff (rs : List Request) (m : Machine) :
    (attempt rs m).1 = true ↔ Accepts m.outcomes 0 rs := by
  induction rs generalizing m with
  | nil => exact iff_of_true rfl accepts_nil
  | cons r rest ih =>
    have hrest : (attempt rest (m.after r)).1 = true ↔ Accepts m.outcomes 1 rest :=
      (ih _).trans accepts_shift
    rw [attempt_cons, accepts_cons, ← hrest]
    change _ ↔ m.grants r = true ∧ _
    cases m.grants r <;> simp

/-- What is left when every request of a list was granted. -/
theorem attempt_granted (h : (attempt rs m).1 = true) :
    (attempt rs m).2 = {
      registers := rs.foldl (fun registers r => write r registers) m.registers
      installed := rs.foldl (fun installed r => r.arm installed) m.installed
      outcomes := fun n => m.outcomes (n + rs.length)
      log := m.log ++ rs.map fun r => (r, true) } := by
  induction rs generalizing m with
  | nil =>
    rw [List.map_nil, List.append_nil]
    rfl
  | cons r rest ih =>
    rw [attempt_cons] at h ⊢
    by_cases hr : m.grants r = true
    · rw [if_pos hr] at h ⊢
      rw [ih h]
      simp only [after, hr, if_true, List.foldl_cons, List.map_cons, List.length_cons,
        List.append_assoc, List.singleton_append]
      congr 1
    · rw [if_neg hr] at h
      cases h

/-- A list of requests is logged up to some place. -/
theorem attempt_log (rs : List Request) (m : Machine) :
    ∃ new, (attempt rs m).2.log = m.log ++ new ∧ ∀ e ∈ new, e.1 ∈ rs := by
  induction rs generalizing m with
  | nil => exact ⟨[], (List.append_nil _).symm, by simp⟩
  | cons r rest ih =>
    rw [attempt_cons]
    split
    · obtain ⟨new, hlog, hnew⟩ := ih (m.after r)
      refine ⟨(r, m.grants r) :: new, ?_, ?_⟩
      · rw [hlog, after, List.append_assoc, List.singleton_append]
      · intro e he
        rcases List.mem_cons.mp he with rfl | he
        · exact List.mem_cons_self
        · exact List.mem_cons_of_mem _ (hnew e he)
    · refine ⟨[(r, m.grants r)], rfl, fun e he => ?_⟩
      rw [List.mem_singleton.mp he]
      exact List.mem_cons_self

theorem sendAll_log (rs : List Request) (m : Machine) :
    ∃ new, (sendAll rs m).log = m.log ++ new ∧ new.map Prod.fst = rs := by
  induction rs generalizing m with
  | nil => exact ⟨[], (List.append_nil _).symm, rfl⟩
  | cons r rest ih =>
    obtain ⟨new, hlog, hnew⟩ := ih (m.after r)
    refine ⟨(r, m.grants r) :: new, ?_, ?_⟩
    · rw [sendAll, hlog, after, List.append_assoc, List.singleton_append]
    · rw [List.map_cons, hnew]

theorem sendAll_outcomes (rs : List Request) (m : Machine) :
    (sendAll rs m).outcomes = fun n => m.outcomes (n + rs.length) := by
  induction rs generalizing m with
  | nil => rfl
  | cons r rest ih =>
    rw [sendAll, ih, List.length_cons]
    rfl

end Attempts

section Results

variable {m : Machine} {rs : List Request} {thread : UInt32} {lifted : List UInt32} {c : ThreadContext} {flags : Int32}

/-- The target when the breakpoints are lifted. -/
def lift (thread : UInt32) (lifted : List UInt32) (m : Machine) : Machine :=
  sendAll (lifted.map fun bp => .breakAddress bp true) (attempt [.stop, .getContext thread] m).2

theorem step_eq (h : (attempt [.stop, .getContext thread] m).1 = true) :
    step thread lifted rs m =
      if (attempt rs (lift thread lifted m)).1 then attempt rs (lift thread lifted m)
      else (false, sendAll (lifted.map fun bp => .breakAddress bp false)
        (attempt rs (lift thread lifted m)).2) :=
  if_pos h

theorem step_refused (h : ¬(attempt [.stop, .getContext thread] m).1 = true) :
    step thread lifted rs m = attempt [.stop, .getContext thread] m :=
  if_neg h

theorem lift_eq (h : (attempt [.stop, .getContext thread] m).1 = true) :
    lift thread lifted m = sendAll (lifted.map fun bp => .breakAddress bp true) { m with
      outcomes := fun n => m.outcomes (n + 2)
      log := m.log ++ [(.stop, true), (.getContext thread, true)] } :=
  congrArg (sendAll _) (attempt_granted h)

theorem lift_outcomes (h : (attempt [.stop, .getContext thread] m).1 = true) :
    (lift thread lifted m).outcomes = fun n => m.outcomes (n + (2 + lifted.length)) := by
  rw [lift_eq h, sendAll_outcomes, List.length_map]
  funext n
  exact congrArg m.outcomes (by omega)

/-- A step succeeds when everything but the lifting is granted. -/
theorem step_iff (thread : UInt32) (lifted : List UInt32) (rs : List Request) (m : Machine) :
    (step thread lifted rs m).1 = true ↔
      Accepts m.outcomes 0 [.stop, .getContext thread] ∧ Accepts m.outcomes (2 + lifted.length) rs := by
  rw [← attempt_iff]
  by_cases hfetched : (attempt [.stop, .getContext thread] m).1 = true
  · rw [step_eq hfetched, and_iff_right hfetched, ← accepts_shift, ← lift_outcomes hfetched,
      ← attempt_iff]
    split
    next => rfl
    next h => exact iff_of_false Bool.false_ne_true h
  · rw [step_refused hfetched]
    exact iff_of_false hfetched fun h => hfetched h.1

/-- A breakpoint is asked for again after each request that lifts it. -/
def Renewed (log : List (Request × Bool)) : Prop :=
  ∀ pre bp b post, log = pre ++ (Request.breakAddress bp true, b) :: post →
    ∃ b', (Request.breakAddress bp false, b') ∈ post

theorem renewed_of_quiet {log : List (Request × Bool)} (h : ∀ e ∈ log, e.1.isBreak = false) :
    Renewed log := by
  intro pre bp b post hlog
  have := h (.breakAddress bp true, b) (by rw [hlog]; simp)
  cases this

/-- What is lifted first and asked for at the end. -/
theorem renewed_append {front renewed : List (Request × Bool)}
    (hnone : ∀ bp b, (Request.breakAddress bp true, b) ∉ renewed)
    (hall : ∀ bp b, (Request.breakAddress bp true, b) ∈ front →
      ∃ b', (Request.breakAddress bp false, b') ∈ renewed) :
    Renewed (front ++ renewed) := by
  intro pre bp b post hlog
  rcases List.append_eq_append_iff.mp hlog with ⟨mid, -, hmid⟩ | ⟨mid, hfront, hmid⟩
  · exact absurd (by rw [hmid]; simp) (hnone bp b)
  · cases mid with
    | nil => exact absurd (by rw [List.nil_append] at hmid; rw [← hmid]; simp) (hnone bp b)
    | cons e rest =>
      rw [List.cons_append, List.cons.injEq] at hmid
      obtain ⟨rfl, rfl⟩ := hmid
      obtain ⟨b', hb'⟩ := hall bp b (by rw [hfront]; simp)
      exact ⟨b', List.mem_append_right _ hb'⟩

/-- A step that fails put back what it lifted, whatever became of the requests. -/
theorem step_failed (hquiet : ∀ r ∈ rs, r.isBreak = false)
    (h : (step thread lifted rs m).1 = false) :
    ∃ new, (step thread lifted rs m).2.log = m.log ++ new ∧ Renewed new := by
  by_cases hfetched : (attempt [.stop, .getContext thread] m).1 = true
  · rw [step_eq hfetched] at h ⊢
    split at h
    next hworked => exact absurd (hworked.symm.trans h) (by decide)
    next hworked =>
      rw [if_neg hworked]
      obtain ⟨cleared, hcleared, hclear⟩ := sendAll_log (lifted.map fun bp => .breakAddress bp true)
        { m with
          outcomes := fun n => m.outcomes (n + 2)
          log := m.log ++ [(.stop, true), (.getContext thread, true)] }
      obtain ⟨tried, htried, htry⟩ := attempt_log rs (lift thread lifted m)
      obtain ⟨renewed, hrenewed, hrenew⟩ := sendAll_log
        (lifted.map fun bp => .breakAddress bp false) (attempt rs (lift thread lifted m)).2
      rw [← lift_eq hfetched] at hcleared
      refine ⟨[(.stop, true), (.getContext thread, true)] ++ cleared ++ tried ++ renewed, ?_, ?_⟩
      · rw [hrenewed, htried, hcleared]
        simp only [List.append_assoc]
      · refine renewed_append (fun bp b hmem => ?_) fun bp b hmem => ?_
        · have hreq := List.mem_map_of_mem (f := Prod.fst) hmem
          rw [hrenew] at hreq
          simp at hreq
        · have hbp : bp ∈ lifted := by
            simp only [List.mem_append, List.mem_cons, List.not_mem_nil, or_false, Prod.mk.injEq,
              reduceCtorEq, false_and, false_or] at hmem
            rcases hmem with hmem | hmem
            · have hreq := List.mem_map_of_mem (f := Prod.fst) hmem
              rw [hclear] at hreq
              simpa using hreq
            · have := hquiet _ (htry _ hmem)
              cases this
          have hreq : Request.breakAddress bp false ∈ renewed.map Prod.fst := by
            rw [hrenew]
            exact List.mem_map_of_mem hbp
          obtain ⟨e, he, hfst⟩ := List.mem_map.mp hreq
          exact ⟨e.2, by rwa [← hfst]⟩
  · rw [step_refused hfetched]
    obtain ⟨new, hlog, hnew⟩ := attempt_log [.stop, .getContext thread] m
    refine ⟨new, hlog, renewed_of_quiet fun e he => ?_⟩
    have hmem := hnew e he
    simp only [List.mem_cons, List.not_mem_nil, or_false] at hmem
    rcases hmem with he | he <;> rw [he] <;> rfl

theorem step_succeeded (h : (step thread lifted rs m).1 = true) :
    (attempt [.stop, .getContext thread] m).1 = true ∧ (attempt rs (lift thread lifted m)).1 = true ∧
      (step thread lifted rs m).2 = (attempt rs (lift thread lifted m)).2 := by
  by_cases hfetched : (attempt [.stop, .getContext thread] m).1 = true
  · rw [step_eq hfetched] at h ⊢
    split at h
    next hworked => exact ⟨hfetched, hworked, by rw [if_pos hworked]⟩
    next => cases h
  · rw [step_refused hfetched] at h
    exact absurd h hfetched

theorem lift_registers (h : (attempt [.stop, .getContext thread] m).1 = true) :
    (lift thread lifted m).registers = m.registers := by
  rw [lift_eq h, registers_suspend]

theorem lift_log (lifted : List UInt32) (h : (attempt [.stop, .getContext thread] m).1 = true) :
    ∃ cleared, (lift thread lifted m).log =
        m.log ++ ([(.stop, true), (.getContext thread, true)] ++ cleared) ∧
      cleared.map Prod.fst = lifted.map fun bp => Request.breakAddress bp true := by
  obtain ⟨cleared, hlog, hcleared⟩ := sendAll_log (lifted.map fun bp => .breakAddress bp true)
    { m with
      outcomes := fun n => m.outcomes (n + 2)
      log := m.log ++ [(.stop, true), (.getContext thread, true)] }
  rw [← lift_eq h] at hlog
  exact ⟨cleared, hlog.trans (List.append_assoc _ _ _), hcleared⟩

theorem work_trapped (h : flags ||| trapFlag = flags) :
    work thread c flags = [.getContext thread, .go] := by
  rw [work, threadWork, if_pos h]
  rfl

theorem work_untrapped (h : flags ||| trapFlag ≠ flags) :
    work thread c flags = [.getContext thread, .setContext thread (trapped c flags),
      .continue thread, .go] := by
  rw [work, threadWork, if_neg h]
  rfl

theorem work_quiet : ∀ r ∈ work thread c flags, r.isBreak = false := by
  intro r hr
  by_cases h : flags ||| trapFlag = flags
  · rw [work_trapped h] at hr
    simp only [List.mem_cons, List.not_mem_nil, or_false] at hr
    rcases hr with rfl | rfl <;> rfl
  · rw [work_untrapped h] at hr
    simp only [List.mem_cons, List.not_mem_nil, or_false] at hr
    rcases hr with rfl | rfl | rfl | rfl <;> rfl

theorem work_installed (h : (attempt (work thread c flags) m).1 = true) :
    (attempt (work thread c flags) m).2.installed = m.installed := by
  rw [attempt_granted h]
  by_cases htrap : flags ||| trapFlag = flags
  · rw [work_trapped htrap]
    rfl
  · rw [work_untrapped htrap]
    rfl

end Results

section Sets

variable {σ : Type} {d : XBDMDebugger σ}

/-- At the last address the range of one byte has no end. -/
theorem lifted_eq (hset : d.breakpoints.Nodup) (eip : UInt32) :
    d.getActiveBreakpointsInRange eip 1 =
      if eip ∈ d.breakpoints ∧ eip ≠ 0xFFFFFFFF then [eip] else [] := by
  by_cases htop : eip = 0xFFFFFFFF
  · subst htop
    rw [if_neg fun h => h.2 rfl]
    refine List.filter_eq_nil_iff.mpr fun bp _ h => ?_
    rw [Bool.and_eq_true, decide_eq_true_eq, decide_eq_true_eq] at h
    exact UInt32.not_lt_zero h.2
  · have hpred : ∀ bp ∈ d.breakpoints,
        (decide (eip ≤ bp) && decide (bp < eip + 1)) = (bp == eip) := by
      intro bp _
      have hsucc := toNat_succ (toNat_lt_of_ne_last htop)
      rw [Bool.eq_iff_iff, Bool.and_eq_true, decide_eq_true_eq, decide_eq_true_eq, beq_iff_eq,
        UInt32.le_iff_toNat_le, UInt32.lt_iff_toNat_lt, hsucc, ← UInt32.toNat_inj]
      omega
    rw [getActiveBreakpointsInRange, List.filter_congr hpred, List.filter_beq, hset.count]
    by_cases hmem : eip ∈ d.breakpoints
    · rw [if_pos hmem, if_pos ⟨hmem, htop⟩]
      rfl
    · rw [if_neg hmem, if_neg fun h => hmem h.1]
      rfl

end Sets

/-- What a successful step has done: the trap flag is set and nothing else in the context, the thread
was continued once, the target runs, and no breakpoint is where the thread stands. -/
structure Stepped (thread eip : UInt32) (c : ThreadContext) (flags : Int32)
    (d d' : XBDMDebugger Machine) : Prop where
  context : Console.readContext (d'.context.target.registers thread) = trapped c flags
  continued : ∃ pre post, d'.context.target.log =
      d.context.target.log ++ (pre ++ (Request.continue thread, true) :: post) ∧
    (∀ e ∈ pre ++ post, e.1 ≠ Request.continue thread) ∧ (Request.go, true) ∈ post
  lifted : eip ∈ d.breakpoints → eip ∉ d'.context.target.installed

/-- Both outcomes of `StepInstruction` are as they should be. -/
structure Steps (thread eip : UInt32) (c : ThreadContext) (flags : Int32)
    (d : XBDMDebugger Machine) : Prop where
  success : (stepInstruction d).1 = true → Stepped thread eip c flags d (stepInstruction d).2
  failure : (stepInstruction d).1 = false → ∃ new, (stepInstruction d).2.context.target.log =
    d.context.target.log ++ new ∧ Renewed new

section Claims

variable {d : XBDMDebugger Machine} {i : ThreadRef} {thread : UInt32} {c : ThreadContext}
  {eip flags : Int32} {lifted : List UInt32}

/-- The target grants all requests of the step other than those that lift breakpoints. -/
def Goes (d : XBDMDebugger Machine) (thread eip : UInt32) (c : ThreadContext) (flags : Int32) : Prop :=
  Accepts d.context.target.outcomes 0 [.stop, .getContext thread] ∧
    Accepts d.context.target.outcomes (2 + (d.getActiveBreakpointsInRange eip 1).length)
      (work thread c flags)

theorem readContext_serialize (c : ThreadContext) : Console.readContext c.serialize = c := by
  obtain ⟨r, hread, hparse⟩ := ofText_serialize c
  rw [Console.readContext, hread]
  exact hparse

theorem work_context {m : Machine} (hc : Console.readContext (m.registers thread) = c)
    (hflags : c.eflags = some flags) (h : (attempt (work thread c flags) m).1 = true) :
    Console.readContext ((attempt (work thread c flags) m).2.registers thread) = trapped c flags := by
  rw [attempt_granted h]
  by_cases htrap : flags ||| trapFlag = flags
  · rw [work_trapped htrap, trapped, htrap, ← hflags]
    exact hc
  · rw [work_untrapped htrap]
    change Console.readContext
      (Function.update m.registers thread (trapped c flags).serialize thread) = _
    rw [Function.update_self, readContext_serialize]

/-- The breakpoint of the instruction, when the lifting is over. -/
theorem lift_installed {m : Machine} {bps : List UInt32} {a : UInt32}
    (hl : lifted = if a ∈ bps ∧ a ≠ 0xFFFFFFFF then [a] else [])
    (h : (attempt [.stop, .getContext thread] m).1 = true) (ha : a ∈ bps) :
    a ∉ (lift thread lifted m).installed ↔ (a ∈ m.installed →
      a ≠ 0xFFFFFFFF ∧ (Request.breakAddress a true).isOK (m.outcomes 2) = true) := by
  rw [lift_eq h, hl]
  by_cases htop : a = 0xFFFFFFFF
  · rw [if_neg fun hand => hand.2 htop]
    exact ⟨fun hout hin => absurd hin hout, fun himp hin => (himp hin).1 htop⟩
  · rw [if_pos ⟨ha, htop⟩, and_iff_right htop]
    change a ∉ (if (Request.breakAddress a true).isOK (m.outcomes 2) then m.installed.erase a
      else m.installed) ↔ _
    split
    next hgrant => exact iff_of_true (Finset.notMem_erase a _) fun _ => hgrant
    next hgrant => exact ⟨fun hout hin => absurd hin hout, fun himp hin => hgrant (himp hin)⟩

/-- A step that went through, with the flag clear before: the thread was continued once. -/
theorem work_continued {m : Machine} (hfetched : (attempt [.stop, .getContext thread] m).1 = true)
    (h : (attempt (work thread c flags) (lift thread lifted m)).1 = true) :
    (∃ pre post, (attempt (work thread c flags) (lift thread lifted m)).2.log =
        m.log ++ (pre ++ (Request.continue thread, true) :: post) ∧
      (∀ e ∈ pre ++ post, e.1 ≠ Request.continue thread) ∧ (Request.go, true) ∈ post) ↔
      flags ||| trapFlag ≠ flags := by
  obtain ⟨cleared, hlog, hcleared⟩ := lift_log lifted hfetched
  have hnot : ∀ e ∈ cleared, e.1 ≠ Request.continue thread := by
    intro e he heq
    have hmem := List.mem_map_of_mem (f := Prod.fst) he
    rw [hcleared, heq] at hmem
    simp at hmem
  rw [attempt_granted h]
  dsimp only
  rw [hlog]
  by_cases htrap : flags ||| trapFlag = flags
  · refine iff_of_false ?_ fun hne => hne htrap
    rintro ⟨pre, post, hsplit, -, -⟩
    rw [work_trapped htrap, List.append_assoc, List.append_cancel_left_eq] at hsplit
    have hmem : (Request.continue thread, true) ∈ [(Request.stop, true),
        (Request.getContext thread, true)] ++ cleared ++
          [Request.getContext thread, .go].map fun r => (r, true) := by
      rw [hsplit]
      simp
    simp only [List.mem_append, List.mem_cons, List.not_mem_nil, or_false, List.map_cons,
      List.map_nil, Prod.mk.injEq, reduceCtorEq, false_and, false_or] at hmem
    exact hnot _ hmem rfl
  · refine iff_of_true ?_ htrap
    refine ⟨[(.stop, true), (.getContext thread, true)] ++ cleared ++
      [(.getContext thread, true), (.setContext thread (trapped c flags), true)], [(.go, true)],
      ?_, ?_, List.mem_singleton.mpr rfl⟩
    · rw [work_untrapped htrap]
      simp only [List.append_assoc, List.cons_append, List.nil_append, List.map_cons, List.map_nil]
    · intro e he
      simp only [List.mem_append, List.mem_cons, List.not_mem_nil, or_false] at he
      rcases he with (((rfl | rfl) | he) | rfl | rfl) | rfl
      all_goals first | exact hnot _ he | exact fun heq => Request.noConfusion heq

section Hypotheses

variable (hactive : d.activeThread = some i) (hid : (d.threadAt i).threadId = thread)
  (hc : Console.readContext (d.context.target.registers thread) = c)
  (heip : c.eip = some eip) (hflags : c.eflags = some flags)
include hactive hid hc heip hflags

theorem stepInstruction_result : (stepInstruction d).1 =
    (step thread (d.getActiveBreakpointsInRange eip.toUInt32 1) (work thread c flags)
      d.context.target).1 := by
  rw [← view_stepInstruction hactive hid hc heip hflags]
  rfl

theorem stepInstruction_target : (stepInstruction d).2.context.target =
    (step thread (d.getActiveBreakpointsInRange eip.toUInt32 1) (work thread c flags)
      d.context.target).2 := by
  rw [← view_stepInstruction hactive hid hc heip hflags]
  rfl

theorem stepInstruction_iff_goes :
    (stepInstruction d).1 = true ↔ Goes d thread eip.toUInt32 c flags := by
  rw [stepInstruction_result hactive hid hc heip hflags, step_iff]
  rfl

/-- When a step that went through has done its work. -/
theorem stepped_iff (hset : d.breakpoints.Nodup) (h : (stepInstruction d).1 = true) :
    Stepped thread eip.toUInt32 c flags d (stepInstruction d).2 ↔
      flags ||| trapFlag ≠ flags ∧
      (eip.toUInt32 ∈ d.breakpoints → eip.toUInt32 ∈ d.context.target.installed →
        eip.toUInt32 ≠ 0xFFFFFFFF ∧ (Request.breakAddress eip.toUInt32 true).isOK
          (d.context.target.outcomes 2) = true) := by
  have htarget := stepInstruction_target hactive hid hc heip hflags
  rw [stepInstruction_result hactive hid hc heip hflags] at h
  obtain ⟨hfetched, hworked, hstep⟩ := step_succeeded h
  have hcontext := work_context (by rw [lift_registers hfetched]; exact hc) hflags hworked
  have hinstalled := work_installed hworked
  have hcontinued := work_continued hfetched hworked
  have hlifted := fun hmem => lift_installed (lifted_eq hset eip.toUInt32) hfetched hmem
  rw [← hstep, ← htarget] at hcontext hinstalled hcontinued
  rw [← hcontinued]
  constructor
  · intro hstepped
    refine ⟨hstepped.continued, fun hmem => (hlifted hmem).mp ?_⟩
    rw [← hinstalled]
    exact hstepped.lifted hmem
  · rintro ⟨hcont, hlift⟩
    refine ⟨hcontext, hcont, fun hmem => ?_⟩
    rw [hinstalled]
    exact (hlifted hmem).mpr (hlift hmem)

/-- Both outcomes of a step are right, unless the step goes through although the trap flag was set
before, or although the breakpoint of the instruction was not lifted. -/
theorem steps_iff (hset : d.breakpoints.Nodup) :
    Steps thread eip.toUInt32 c flags d ↔ (Goes d thread eip.toUInt32 c flags →
      flags ||| trapFlag ≠ flags ∧
      (eip.toUInt32 ∈ d.breakpoints → eip.toUInt32 ∈ d.context.target.installed →
        eip.toUInt32 ≠ 0xFFFFFFFF ∧ (Request.breakAddress eip.toUInt32 true).isOK
          (d.context.target.outcomes 2) = true)) := by
  have hgoes := stepInstruction_iff_goes hactive hid hc heip hflags
  have hstepped := stepped_iff hactive hid hc heip hflags hset
  constructor
  · intro h hgo
    exact (hstepped (hgoes.mpr hgo)).mp (h.success (hgoes.mpr hgo))
  · intro h
    refine ⟨fun htrue => (hstepped htrue).mpr (h (hgoes.mp htrue)), ?_⟩
    rw [stepInstruction_result hactive hid hc heip hflags,
      stepInstruction_target hactive hid hc heip hflags]
    exact step_failed work_quiet

end Hypotheses

/-- Thread 1 stands at a breakpoint at 0x10000 with these flags, and everything is granted. -/
def standing (flags : Int32) : XBDMDebugger Machine where
  context := { target := {
    registers := fun _ => ThreadContext.serialize { eip := some 0x10000, eflags := some flags }
    installed := {0x10000}
    outcomes := fun n => if n = 1 ∨ n = 3 then .okMultilineResponse else .ok } }
  threads := [{ threadId := 1 }]
  activeThreadId := some 1
  breakpoints := [0x10000]

theorem steps_standing :
    Steps 1 0x10000 { eip := some 0x10000, eflags := some 0x202 } 0x202 (standing 0x202) :=
  (steps_iff (d := standing 0x202) (i := 0) (c := { eip := some 0x10000, eflags := some 0x202 })
    rfl rfl (readContext_serialize _) rfl rfl (by decide)).mpr
    fun _ => ⟨by decide, fun _ _ => ⟨by decide, rfl⟩⟩

/-- With the trap flag already set a step reports success and the thread was never continued. -/
theorem not_steps_trapped :
    (stepInstruction (standing 0x302)).1 = true ∧
      ¬Steps 1 0x10000 { eip := some 0x10000, eflags := some 0x302 } 0x302 (standing 0x302) := by
  let c : ThreadContext := { eip := some 0x10000, eflags := some 0x302 }
  have hgoes := stepInstruction_iff_goes (d := standing 0x302) (i := 0) (c := c) rfl rfl
    (readContext_serialize _) rfl rfl
  have htrue : (stepInstruction (standing 0x302)).1 = true := by
    refine hgoes.mpr ⟨?_, ?_⟩
    · exact accepts_cons.mpr ⟨rfl, accepts_cons.mpr ⟨rfl, accepts_nil⟩⟩
    · rw [work_trapped (by decide)]
      exact accepts_cons.mpr ⟨rfl, accepts_cons.mpr ⟨rfl, accepts_nil⟩⟩
  refine ⟨htrue, fun h => ?_⟩
  have hstepped := (stepped_iff (i := 0) (c := c) rfl rfl (readContext_serialize _) rfl rfl
    (by decide) htrue).mp (h.success htrue)
  exact hstepped.1 (by decide)

end Claims

end XbdmGdbBridge.Proofs.Stepping
