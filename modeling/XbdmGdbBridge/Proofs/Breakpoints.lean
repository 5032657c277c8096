import XbdmGdbBridge.Lib.Runs
import XbdmGdbBridge.Proofs.Debugger
import XbdmGdbBridge.Xbox.Armed

/-!
# Breakpoints of the debugger and of the target

The debugger keeps the set of breakpoints it was asked for. Reads and steps lift some of them for a
while, and every request may fail on its own; a stop brings back what is missing.
-/

namespace XbdmGdbBridge.Proofs

open Lib Program XBDMDebugger

variable {σ : Type}

/-- The break requests between two states were all granted. -/
def Granted (d d' : XBDMDebugger (Armed σ)) : Prop :=
  ∃ log, d'.outcomes = d.outcomes ++ log ∧ ∀ o ∈ log, o.2 = true

/-- What is known here and there of the breakpoints. -/
def arms (d : XBDMDebugger (Armed σ)) : List UInt32 × Finset UInt32 × List (Request × Bool) :=
  (d.breakpoints, d.installed, d.outcomes)

section Requests

variable [Xbdm σ]

/-- The target grants the request. -/
def grants (r : Request) (d : XBDMDebugger (Armed σ)) : Bool :=
  r.isOK (Xbdm.answer r d.context.target.target).1.status

theorem request_isSome (r : Request) (d : XBDMDebugger (Armed σ)) :
    (request r d).1.isSome = grants r d := by
  change (if grants r d then some _ else none).isSome = grants r d
  cases grants r d <;> rfl

theorem request_installed (r : Request) (d : XBDMDebugger (Armed σ)) :
    (request r d).2.installed = if grants r d then r.arm d.installed else d.installed := rfl

theorem request_outcomes (r : Request) (d : XBDMDebugger (Armed σ)) :
    (request r d).2.outcomes =
      if r.isBreak then d.outcomes ++ [(r, grants r d)] else d.outcomes := rfl

theorem arm_quiet {r : Request} (h : r.isBreak = false) (installed : Finset UInt32) :
    r.arm installed = installed := by
  cases r <;> first | rfl | cases h

theorem aside_arms : Aside (arms : XBDMDebugger (Armed σ) → _) where
  request r h d := by
    unfold arms
    rw [request_installed, request_outcomes, arm_quiet h, ite_self, h]
    rfl
  update _ _ _ := fun _ => rfl
  regions _ := fun _ => rfl

end Requests

section Lifting

variable [Xbdm σ] {bps : List UInt32}

/-- Nothing is installed that the debugger does not know of. -/
def Confined (bps : List UInt32) (d : XBDMDebugger (Armed σ)) : Prop :=
  d.breakpoints = bps ∧ d.installed ⊆ bps.toFinset

omit [Xbdm σ] in
theorem confined_of_keeps {α : Type} {x : Op (Armed σ) α} (h : Keeps arms x) :
    Ensures (Confined bps) x fun _ => Confined bps :=
  h.ensures fun a => a.1 = bps ∧ a.2.1 ⊆ bps.toFinset

theorem confined_suspend (l : List UInt32) :
    Ensures (Confined bps) (suspendBreakpoints l : Op (Armed σ) _) fun _ => Confined bps := by
  induction l with
  | nil => exact Ensures.pure _ fun _ h => h
  | cons bp rest ih =>
    have hfirst : Ensures (Confined bps) (request (.breakAddress bp true) : Op (Armed σ) _)
        fun _ => Confined bps := by
      rintro d ⟨hbps, hsub⟩
      refine ⟨hbps, ?_⟩
      rw [request_installed]
      split
      · exact (Finset.erase_subset _ _).trans hsub
      · exact hsub
    exact hfirst.bind fun _ => ih

theorem confined_restore {l : List UInt32} (hl : ∀ bp ∈ l, bp ∈ bps) :
    Ensures (Confined bps) (restoreBreakpoints l : Op (Armed σ) _) fun _ => Confined bps := by
  induction l with
  | nil => exact Ensures.pure _ fun _ h => h
  | cons bp rest ih =>
    have hfirst : Ensures (Confined bps) (request (.breakAddress bp false) : Op (Armed σ) _)
        fun _ => Confined bps := by
      rintro d ⟨hbps, hsub⟩
      refine ⟨hbps, ?_⟩
      rw [request_installed]
      split
      · exact Finset.insert_subset (List.mem_toFinset.mpr (hl bp List.mem_cons_self)) hsub
      · exact hsub
    exact hfirst.bind fun _ => ih fun b hb => hl b (List.mem_cons_of_mem _ hb)

omit [Xbdm σ] in
theorem Confined.overlaps {d : XBDMDebugger (Armed σ)} (h : Confined bps d)
    (address length : UInt32) : ∀ bp ∈ d.getActiveBreakpointsInRange address length, bp ∈ bps := by
  intro bp hbp
  rw [← h.1]
  exact List.mem_of_mem_filter hbp

theorem confined_readMemory (address length : UInt32) :
    Ensures (Confined bps) (readMemory address length : Op (Armed σ) _) fun _ => Confined bps := by
  apply Ensures.get_bind
  intro d hd
  refine (confined_suspend _).bind ?_
  intro _
  refine (confined_of_keeps (aside_arms.request _ rfl)).bind ?_
  intro reply
  exact (confined_restore (hd.overlaps _ _)).bind fun _ => Ensures.pure _ fun _ h => h

theorem confined_stepAt (i : ThreadRef) :
    Ensures (Confined bps) (stepAt i : Op (Armed σ) _) fun _ => Confined bps := by
  have hreturn (b : Bool) : Ensures (Confined bps) (pure b : Op (Armed σ) _)
      fun _ => Confined bps := Ensures.pure _ fun _ h => h
  refine (confined_of_keeps aside_arms.stop).bind ?_
  intro stopped
  refine Ensures.ite (fun _ => hreturn _) fun _ => ?_
  refine (confined_of_keeps (aside_arms.fetchContextSync i)).bind ?_
  intro fetched
  refine Ensures.ite (fun _ => hreturn _) fun _ => ?_
  refine (confined_of_keeps (Aside.deref i)).bind ?_
  intro t
  split
  · exact hreturn _
  · apply Ensures.get_bind
    intro d hd
    refine (confined_suspend _).bind ?_
    intro _
    refine (confined_of_keeps (aside_arms.stepAndGo i)).bind ?_
    intro stepped
    exact Ensures.ite (fun _ => hreturn _) fun _ =>
      (confined_restore (hd.overlaps _ _)).bind fun _ => hreturn _

theorem confined_stepInstruction :
    Ensures (Confined bps) (stepInstruction : Op (Armed σ) _) fun _ => Confined bps := by
  apply Ensures.get_bind
  intro d _
  cases d.activeThread with
  | none => exact Ensures.pure _ fun _ h => h
  | some i =>
    refine (confined_of_keeps (Aside.deref i)).bind ?_
    intro t
    refine (confined_of_keeps fun _ => rfl).bind ?_
    intro _
    exact confined_stepAt i

omit [Xbdm σ] in
theorem keeps_arms_setActiveThread (id : UInt32) :
    Keeps arms (setActiveThread id : Op (Armed σ) _) := by
  apply Keeps.get.bind
  intro d
  exact Keeps.ite (Keeps.bind (fun _ => rfl) fun _ => Keeps.pure _)
    (Keeps.bind (fun _ => rfl) fun _ => Keeps.pure _)

end Lifting

section Restoring

variable [Xbdm σ]

/-- A stop restores what the debugger knows of; the rest of it sends no break request. -/
theorem arms_stopped (d : XBDMDebugger (Armed σ)) :
    arms (onExecutionStateChanged .stopped d).2 =
      arms (restoreBreakpoints d.breakpoints { d with state := .stopped }).2 := by
  have hmap : Keeps arms (fetchMemoryMap >>= fun _ => pure () : Op (Armed σ) Unit) :=
    aside_arms.fetchMemoryMap.bind fun _ => Keeps.pure _
  unfold onExecutionStateChanged
  rw [run_bind, if_neg (by decide), if_pos rfl, run_bind, run_bind]
  refine aside_arms.getFirstStoppedThread.bind ?_ _
  intro found
  cases found with
  | none => exact hmap
  | some i =>
    apply (Aside.deref i).bind
    intro t
    exact (keeps_arms_setActiveThread _).bind fun _ => hmap

theorem arms_running {state : ExecutionState} (hreboot : state ≠ .rebooting)
    (hstop : state ≠ .stopped) (d : XBDMDebugger (Armed σ)) :
    arms (onExecutionStateChanged state d).2 = arms d := by
  unfold onExecutionStateChanged
  rw [run_bind, if_neg hreboot, if_neg hstop]
  rfl

theorem restore_granted (l : List UInt32) (d : XBDMDebugger (Armed σ)) :
    ∃ log, (restoreBreakpoints l d).2.outcomes = d.outcomes ++ log ∧
      (∀ o ∈ log, ∃ asked : XBDMDebugger (Armed σ), o.2 = grants o.1 asked) ∧
      ((∀ o ∈ log, o.2 = true) →
        (restoreBreakpoints l d).2.installed = d.installed ∪ l.toFinset) := by
  induction l generalizing d with
  | nil =>
    refine ⟨[], (List.append_nil _).symm, by simp, fun _ => ?_⟩
    rw [List.toFinset_nil, Finset.union_empty]
    rfl
  | cons bp rest ih =>
    obtain ⟨log, hlog, hasked, hinstalled⟩ := ih (request (.breakAddress bp false) d).2
    refine ⟨(.breakAddress bp false, grants (.breakAddress bp false) d) :: log, ?_, ?_, ?_⟩
    · rw [List.append_cons]
      exact hlog
    · rw [List.forall_mem_cons]
      exact ⟨⟨d, rfl⟩, hasked⟩
    · intro hgranted
      have hfirst : grants (.breakAddress bp false) d = true := hgranted _ List.mem_cons_self
      have hrest := hinstalled fun o ho => hgranted o (List.mem_cons_of_mem _ ho)
      rw [request_installed, hfirst, if_pos rfl] at hrest
      change (restoreBreakpoints rest (request (.breakAddress bp false) d).2).2.installed = _
      rw [hrest, List.toFinset_cons]
      exact Finset.insert_union_comm _ _ _

theorem suspend_removes (l : List UInt32) (d : XBDMDebugger (Armed σ)) :
    (∃ log, (suspendBreakpoints l d).2.outcomes = d.outcomes ++ log) ∧
      d.installed ⊆ (suspendBreakpoints l d).2.installed ∪ l.toFinset := by
  induction l generalizing d with
  | nil => exact ⟨⟨[], (List.append_nil _).symm⟩, Finset.subset_union_left⟩
  | cons bp rest ih =>
    obtain ⟨⟨log, hlog⟩, hsub⟩ := ih (request (.breakAddress bp true) d).2
    refine ⟨⟨(.breakAddress bp true, grants (.breakAddress bp true) d) :: log, ?_⟩, ?_⟩
    · rw [List.append_cons]
      exact hlog
    · intro a ha
      change a ∈ (suspendBreakpoints rest (request (.breakAddress bp true) d).2).2.installed ∪ _
      by_cases hbp : a = bp
      · rw [hbp, List.toFinset_cons]
        exact Finset.mem_union_right _ (Finset.mem_insert_self _ _)
      · have hkept : a ∈ (request (.breakAddress bp true) d).2.installed := by
          rw [request_installed]
          split
          · exact Finset.mem_erase.mpr ⟨hbp, ha⟩
          · exact ha
        rw [List.toFinset_cons, Finset.union_insert]
        exact Finset.mem_insert_of_mem (hsub hkept)

theorem readMemory_installed (address length : UInt32) (d : XBDMDebugger (Armed σ))
    (h : Granted d (readMemory address length d).2) :
    d.installed ⊆ (readMemory address length d).2.installed := by
  let l := d.getActiveBreakpointsInRange address length
  let d₁ := (suspendBreakpoints l d).2
  let d₂ := (request (.getMemBinary address length) d₁).2
  obtain ⟨⟨log₁, hlog₁⟩, hsub⟩ := suspend_removes l d
  obtain ⟨log₃, hlog₃, -, hinstalled⟩ := restore_granted l d₂
  have hquiet : arms d₂ = arms d₁ := aside_arms.request (.getMemBinary address length) rfl d₁
  have hinstalled₂ : d₂.installed = d₁.installed := congrArg (fun a => a.2.1) hquiet
  have houtcomes₂ : d₂.outcomes = d₁.outcomes := congrArg (fun a => a.2.2) hquiet
  obtain ⟨log, hlog, hgranted⟩ := h
  have hsplit : log = log₁ ++ log₃ := by
    rw [houtcomes₂, hlog₁, List.append_assoc] at hlog₃
    exact List.append_cancel_left (hlog.symm.trans hlog₃)
  rw [hsplit] at hgranted
  have hall := hinstalled fun o ho => hgranted o (List.mem_append_right _ ho)
  change d.installed ⊆ (restoreBreakpoints l d₂).2.installed
  rw [hall, hinstalled₂]
  exact hsub

theorem stopped_installed {d : XBDMDebugger (Armed σ)} (hsub : d.installed ⊆ d.breakpoints.toFinset)
    (h : Granted d (onExecutionStateChanged .stopped d).2) :
    (onExecutionStateChanged .stopped d).2.installed =
      (onExecutionStateChanged .stopped d).2.breakpoints.toFinset := by
  have harms := arms_stopped d
  obtain ⟨restored, hrestored, -, hinstalled⟩ :=
    restore_granted d.breakpoints { d with state := .stopped }
  obtain ⟨log, hlog, hgranted⟩ := h
  have houtcomes : (onExecutionStateChanged .stopped d).2.outcomes =
      (restoreBreakpoints d.breakpoints { d with state := .stopped }).2.outcomes :=
    congrArg (fun a => a.2.2) harms
  have hsame : log = restored := by
    rw [houtcomes, hrestored] at hlog
    exact (List.append_cancel_left hlog).symm
  rw [hsame] at hgranted
  have hbreakpoints : (onExecutionStateChanged .stopped d).2.breakpoints = d.breakpoints :=
    (congrArg Prod.fst harms).trans
      (congrArg Core.breakpoints (keeps_restoreBreakpoints d.breakpoints { d with state := .stopped }))
  have hafter : (onExecutionStateChanged .stopped d).2.installed = _ :=
    congrArg (fun a => a.2.1) harms
  rw [hafter, hbreakpoints]
  exact (hinstalled hgranted).trans (Finset.union_eq_right.mpr hsub)

end Restoring

section Runs

variable [Xbdm σ]

omit [Xbdm σ] in
theorem toFinset_added (bps : List UInt32) (address : UInt32) :
    (if bps.contains address then bps else bps.orderedInsert (· ≤ ·) address).toFinset =
      insert address bps.toFinset := by
  ext a
  rw [Finset.mem_insert, List.mem_toFinset, List.mem_toFinset]
  split
  next hmem =>
    rw [List.contains_iff_mem] at hmem
    constructor
    · exact .inr
    · rintro (rfl | ha)
      · exact hmem
      · exact ha
  next => rw [List.mem_orderedInsert]

omit [Xbdm σ] in
theorem toFinset_removed (bps : List UInt32) (address : UInt32) :
    (bps.filter (· ≠ address)).toFinset = bps.toFinset.erase address := by
  ext a
  rw [Finset.mem_erase, List.mem_toFinset, List.mem_toFinset, List.mem_filter, and_comm]
  simp

theorem addBreakpoint_arms (address : UInt32) (d : XBDMDebugger (Armed σ)) :
    let d' := (addBreakpoint address d).2
    if grants (.breakAddress address false) d then
      d'.installed = insert address d.installed ∧
        d'.breakpoints.toFinset = insert address d.breakpoints.toFinset
    else d'.installed = d.installed ∧ d'.breakpoints = d.breakpoints := by
  have haccepted : (accepted (.breakAddress address false) d).1 = _ := request_isSome _ d
  have hinstalled : (accepted (.breakAddress address false) d).2.installed = _ :=
    request_installed (.breakAddress address false) d
  dsimp only [addBreakpoint]
  rw [run_bind, haccepted]
  cases hgrant : grants (.breakAddress address false) d with
  | true =>
    rw [hgrant] at hinstalled
    exact ⟨hinstalled, toFinset_added _ _⟩
  | false =>
    rw [hgrant] at hinstalled
    exact ⟨hinstalled, rfl⟩

theorem removeBreakpoint_arms (address : UInt32) (d : XBDMDebugger (Armed σ)) :
    let d' := (removeBreakpoint address d).2
    if grants (.breakAddress address true) d then
      d'.installed = d.installed.erase address ∧
        d'.breakpoints.toFinset = d.breakpoints.toFinset.erase address
    else d'.installed = d.installed ∧ d'.breakpoints = d.breakpoints := by
  have haccepted : (accepted (.breakAddress address true) d).1 = _ := request_isSome _ d
  have hinstalled : (accepted (.breakAddress address true) d).2.installed = _ :=
    request_installed (.breakAddress address true) d
  dsimp only [removeBreakpoint]
  rw [run_bind, haccepted]
  cases hgrant : grants (.breakAddress address true) d with
  | true =>
    rw [hgrant] at hinstalled
    exact ⟨hinstalled, toFinset_removed _ _⟩
  | false =>
    rw [hgrant] at hinstalled
    exact ⟨hinstalled, rfl⟩

def BreakStep (e : BreakEvent) (d d' : XBDMDebugger (Armed σ)) : Prop :=
  e.perform d = .ok ((), d')

theorem getMemory_cases {address length : UInt32} {validate : Bool} {d d' : XBDMDebugger (Armed σ)}
    (h : BreakStep (.getMemory address length validate) d d') :
    d' = d ∨ d' = (readMemory address length d).2 := by
  cases validate with
  | false =>
    cases h
    exact .inr rfl
  | true =>
    obtain ⟨data, d₁, hget, hreturn⟩ := bind_ok
      (show (XBDMDebugger.getMemory address length >>= fun _ => pure ()) d = .ok ((), d') from h)
    cases hreturn
    obtain ⟨allowed, d₂, hvalidate, hread⟩ := bind_ok hget
    have hsame : d₂ = d := by
      unfold validateMemoryAccess at hvalidate
      split at hvalidate
      · cases hvalidate
      · cases hvalidate
        rfl
    rw [hsame] at hread
    cases allowed with
    | false =>
      cases hread
      exact .inl rfl
    | true =>
      cases hread
      exact .inr rfl

/-- Nothing is installed that the debugger does not know of. -/
def Known (d : XBDMDebugger (Armed σ)) : Prop :=
  d.installed ⊆ d.breakpoints.toFinset

omit [Xbdm σ] in
theorem known_of_ensures {α : Type} {x : Op (Armed σ) α} {d : XBDMDebugger (Armed σ)}
    (h : Ensures (Confined d.breakpoints) x fun _ => Confined d.breakpoints) (hd : Known d) :
    Known (x d).2 := by
  obtain ⟨hbps, hsub⟩ := h d ⟨rfl, hd⟩
  unfold Known
  rw [hbps]
  exact hsub

theorem executionState_run {state : ExecutionState} {d d' : XBDMDebugger (Armed σ)}
    (hreboot : state ≠ .rebooting) (h : BreakStep (.executionState state) d d') :
    d' = (onExecutionStateChanged state d).2 := by
  unfold BreakStep BreakEvent.perform at h
  dsimp only at h
  rw [if_neg hreboot] at h
  exact total_ok h

theorem known_executionState (state : ExecutionState) {d d' : XBDMDebugger (Armed σ)}
    (hd : Known d) (h : BreakStep (.executionState state) d d') : Known d' := by
  by_cases hreboot : state = .rebooting
  · rw [hreboot] at h
    cases h
    exact Finset.empty_subset _
  · rw [executionState_run hreboot h]
    by_cases hstop : state = .stopped
    · rw [hstop]
      have hrestored : Confined d.breakpoints
          (restoreBreakpoints d.breakpoints { d with state := .stopped }).2 :=
        confined_restore (fun _ hbp => hbp) _ ⟨rfl, hd⟩
      have harms := arms_stopped d
      have hbps := congrArg Prod.fst harms
      have hinstalled := congrArg (fun a => a.2.1) harms
      unfold Known
      rw [show (onExecutionStateChanged .stopped d).2.installed = _ from hinstalled,
        show (onExecutionStateChanged .stopped d).2.breakpoints = _ from hbps]
      change _ ⊆ (restoreBreakpoints d.breakpoints { d with state := .stopped }).2.breakpoints.toFinset
      rw [hrestored.1]
      exact hrestored.2
    · have harms := arms_running hreboot hstop d
      have hbps : (onExecutionStateChanged state d).2.breakpoints = _ := congrArg Prod.fst harms
      have hinstalled : (onExecutionStateChanged state d).2.installed = _ :=
        congrArg (fun a => a.2.1) harms
      unfold Known
      rw [hinstalled, hbps]
      exact hd

theorem known_step (e : BreakEvent) (d d' : XBDMDebugger (Armed σ)) (hd : Known d)
    (h : BreakStep e d d') : Known d' := by
  cases e with
  | addBreakpoint address =>
    have harms := addBreakpoint_arms address d
    dsimp only at harms
    rw [discard_ok h]
    unfold Known at hd ⊢
    split at harms
    · rw [harms.1, harms.2]
      exact Finset.insert_subset_insert _ hd
    · rw [harms.1, harms.2]
      exact hd
  | removeBreakpoint address =>
    have harms := removeBreakpoint_arms address d
    dsimp only at harms
    rw [discard_ok h]
    unfold Known at hd ⊢
    split at harms
    · rw [harms.1, harms.2]
      exact Finset.erase_subset_erase _ hd
    · rw [harms.1, harms.2]
      exact hd
  | getMemory address length validate =>
    obtain rfl | rfl := getMemory_cases h
    · exact hd
    · exact known_of_ensures (confined_readMemory address length) hd
  | stepInstruction =>
    rw [discard_ok h]
    exact known_of_ensures confined_stepInstruction hd
  | executionState state => exact known_executionState state hd h

/-- In every state that is reached from one without breakpoints on the target: what is installed is
known to the debugger; a read whose break requests are granted leaves installed what was; and a stop
whose restore requests are granted makes the two sets equal. -/
theorem run_breakpoints_kept {d₀ d : XBDMDebugger (Armed σ)}
    {events : List (BreakEvent × XBDMDebugger (Armed σ))} (hstart : d₀.installed = ∅)
    (h : Run BreakStep d₀ events d) :
    d.installed ⊆ d.breakpoints.toFinset ∧
      (∀ address length validate d', BreakStep (.getMemory address length validate) d d' →
        Granted d d' → d.installed ⊆ d'.installed) ∧
      ∀ d', BreakStep (.executionState .stopped) d d' → Granted d d' →
        d'.installed = d'.breakpoints.toFinset := by
  have hknown : Known d := by
    refine (h.always known_step ?_).2
    unfold Known
    rw [hstart]
    exact Finset.empty_subset _
  refine ⟨hknown, ?_, ?_⟩
  · intro address length validate d' hstep hgranted
    obtain rfl | rfl := getMemory_cases hstep
    · exact Finset.Subset.refl _
    · exact readMemory_installed address length d hgranted
  · intro d' hstep hgranted
    rw [executionState_run (by decide) hstep] at hgranted ⊢
    exact stopped_installed hknown hgranted

/-- A debugger and a target without breakpoints; every request is granted. -/
def unarmed : XBDMDebugger (Armed Willing) :=
  { context := { target := { target := {} } } }

theorem run_breakpoints_kept_added : ∃ d,
    Run BreakStep unarmed [(.addBreakpoint 5, unarmed)] d ∧ 5 ∈ d.installed ∧
      d.installed ⊆ d.breakpoints.toFinset := by
  have hrun : Run BreakStep unarmed [(.addBreakpoint 5, unarmed)] (addBreakpoint 5 unarmed).2 :=
    .cons rfl (.nil _)
  exact ⟨_, hrun, by decide, (run_breakpoints_kept rfl hrun).1⟩

end Runs

end XbdmGdbBridge.Proofs
