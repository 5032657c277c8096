import XbdmGdbBridge.Lib.Assoc
import XbdmGdbBridge.Lib.Runs
import XbdmGdbBridge.Proofs.Conditions
import XbdmGdbBridge.Shell.Commands

/-!
# Conditions of the shell's breakpoints

The conditions live in a map of their own, which not every command that changes a breakpoint changes
as well.
-/

namespace XbdmGdbBridge.Proofs

open Lib Program XBDMDebugger Shell

variable {σ : Type}

/-- The condition each breakpoint should have. -/
abbrev Wanted := BreakpointType → UInt32 → Option Bytes

namespace Wanted

def none : Wanted := fun _ _ => .none

def set (type : BreakpointType) (address : UInt32) (condition : Option Bytes) (w : Wanted) :
    Wanted := fun t a => if (t, a) = (type, address) then condition else w t a

end Wanted

/-- An empty text is no condition. -/
def conditionOf (condition : Option Bytes) : Option Bytes :=
  condition.filter (· ≠ [])

/-- The conditions there should be behind an event: those of the latest commands. -/
def wantsCondition : ConditionEvent → Wanted → Wanted
  | .command args condition, w =>
    match args.mode with
    | some (type, address, clear) =>
      w.set type address (if clear then none else conditionOf condition)
    | none => if args = .clearall ∧ condition = none then .none else w
  | .reboot, _ => .none

/-- Nothing that was registered has to go without being taken back. -/
def LeavesNone : ConditionEvent → Wanted → Prop
  | .command args condition, w =>
    match args.mode with
    | some (type, address, clear) => clear = false → condition = none → w type address = none
    | none => args = .clearall → condition = none → w = .none
  | .reboot, w => w = .none

section Conditions

variable {type : BreakpointType} {address : UInt32}

theorem find_remove (type : BreakpointType) (address : UInt32) (d : XBDMDebugger σ)
    (t : BreakpointType) (a : UInt32) :
    (removeBreakpointCondition type address d).2.findBreakpointCondition t a =
      Wanted.set type address none d.findBreakpointCondition t a :=
  lookup_filter_ne (type, address) (t, a) d.breakpointConditions

theorem find_set (type : BreakpointType) (address : UInt32) (text : Bytes) (d : XBDMDebugger σ)
    (t : BreakpointType) (a : UInt32) :
    (setBreakpointCondition type address text d).2.findBreakpointCondition t a =
      Wanted.set type address (conditionOf (some text)) d.findBreakpointCondition t a := by
  have hremoved := find_remove type address d t a
  unfold setBreakpointCondition
  rw [run_bind]
  by_cases htext : text = []
  · have hnone : conditionOf (some text) = none := by simp [conditionOf, htext]
    rw [if_pos htext, hnone]
    exact hremoved
  · have hsome : conditionOf (some text) = some text := by simp [conditionOf, htext]
    rw [if_neg htext, hsome]
    change List.lookup (t, a) (((type, address), text) :: _) = _
    rw [List.lookup_cons]
    unfold Wanted.set at hremoved ⊢
    by_cases hta : (t, a) = (type, address)
    · rw [if_pos hta, hta]
      simp
    · have hne : ((t, a) == (type, address)) = false := beq_eq_false_iff_ne.mpr hta
      rw [if_neg hta] at hremoved ⊢
      rw [hne]
      exact hremoved

/-- What an event really does to the conditions. -/
def registers : ConditionEvent → Wanted → Wanted
  | .command args condition, w =>
    match args.mode with
    | some (type, address, clear) =>
      if clear then w.set type address none
      else condition.elim w fun text => w.set type address (conditionOf (some text))
    | none => w
  | .reboot, w => w

theorem find_updateCondition (type : BreakpointType) (address : UInt32) (clear : Bool)
    (condition : Option Bytes) (d : XBDMDebugger σ) :
    (updateCondition type address clear condition d).2.findBreakpointCondition =
      if clear then Wanted.set type address none d.findBreakpointCondition
      else condition.elim d.findBreakpointCondition fun text =>
        Wanted.set type address (conditionOf (some text)) d.findBreakpointCondition := by
  unfold updateCondition
  cases clear with
  | true =>
    funext t a
    exact find_remove type address d t a
  | false =>
    cases condition with
    | none => rfl
    | some text =>
      funext t a
      exact find_set type address text d t a

theorem find_perform [Xbdm σ] (e : ConditionEvent) (d : XBDMDebugger σ) :
    (e.perform d).2.findBreakpointCondition = registers e d.findBreakpointCondition := by
  cases e with
  | reboot => rfl
  | command args condition =>
    cases args with
    | start => cases condition <;> rfl
    | clearall => cases condition <;> rfl
    | addr address clear => exact find_updateCondition _ address clear condition d
    | read address size clear => exact find_updateCondition _ address clear condition d
    | write address size clear => exact find_updateCondition _ address clear condition d
    | execute address size clear => exact find_updateCondition _ address clear condition d

theorem Wanted.set_eq_self (type : BreakpointType) (address : UInt32) (w : Wanted) :
    w = w.set type address .none ↔ w type address = .none := by
  constructor
  · intro h
    rw [h, Wanted.set, if_pos rfl]
  · intro h
    funext t a
    unfold Wanted.set
    split
    next heq =>
      obtain ⟨rfl, rfl⟩ := Prod.mk.inj heq
      exact h
    next => rfl

theorem Wanted.update_eq_iff (type : BreakpointType) (address : UInt32) (clear : Bool)
    (condition : Option Bytes) (w : Wanted) :
    (if clear then w.set type address .none
      else condition.elim w fun text => w.set type address (conditionOf (some text))) =
        w.set type address (if clear then .none else conditionOf condition) ↔
      (clear = false → condition = .none → w type address = .none) := by
  cases clear with
  | true => simp
  | false =>
    cases condition with
    | none => simpa [conditionOf] using Wanted.set_eq_self type address w
    | some text => simp

/-- The conditions are as they should be exactly if the event had none to take back without doing
so. -/
theorem registers_eq_iff (e : ConditionEvent) (w : Wanted) :
    registers e w = wantsCondition e w ↔ LeavesNone e w := by
  cases e with
  | reboot => exact Iff.rfl
  | command args condition =>
    cases args with
    | start => exact iff_of_true rfl fun h => by cases h
    | clearall =>
      cases condition with
      | none => exact ⟨fun h _ _ => h, fun h => h rfl rfl⟩
      | some text => exact iff_of_true rfl fun _ h => by cases h
    | addr address clear => exact Wanted.update_eq_iff _ address clear condition w
    | read address size clear => exact Wanted.update_eq_iff _ address clear condition w
    | write address size clear => exact Wanted.update_eq_iff _ address clear condition w
    | execute address size clear => exact Wanted.update_eq_iff _ address clear condition w

end Conditions

section Stops

variable [Xbdm σ]

/-- The notification that a thread has come to the breakpoint. -/
inductive Reaches : BreakpointType → UInt32 → Notification → Prop where
  | breakpoint (threadId address : UInt32) :
      Reaches .breakpoint address (.breakpoint threadId address)
  | watchpoint {type : BreakpointType} {access : AccessType} (h : watchType access = some type)
      (threadId address watched : UInt32) :
      Reaches type watched (.watchpoint access threadId address watched)

/-- The notification is handled without asking any thread to go on. -/
def StopsAt (n : Notification) (d : XBDMDebugger σ) : Prop :=
  ∃ d', onNotification n d = .ok ((), d') ∧ d'.resumed = d.resumed

theorem concludeStop_none (i : ThreadRef) (d : XBDMDebugger σ) :
    ∃ d', concludeStop i none d = .ok ((), d') ∧ core d' = core d := by
  refine ⟨(performAfterStopActions i d).2, rfl, ?_⟩
  have hkeeps : Keeps core (performAfterStopActions i : Op σ _) := by
    apply Keeps.get.bind
    intro d
    exact Keeps.ite ((aside_core.fetchContextSync i).bind fun _ => Keeps.pure _) (Keeps.pure _)
  exact hkeeps d

/-- Without a condition a thread that comes to a breakpoint stays there. -/
theorem stops_without_condition {type : BreakpointType} {address : UInt32} {n : Notification}
    (hn : Reaches type address n) {d : XBDMDebugger σ}
    (h : d.findBreakpointCondition type address = none) : StopsAt n d := by
  cases hn with
  | breakpoint threadId =>
    cases hthread : d.getThread threadId with
    | none =>
      refine ⟨d, ?_, rfl⟩
      change onBreakpoint threadId address d = _
      unfold onBreakpoint
      rw [get_bind_apply, hthread]
      rfl
    | some i =>
      have hcore : core (arriveBreakpoint i address d).2 =
          { core d with activeThreadId := some threadId } :=
        (keeps_arrival i d address (aside_core.fetchInfoSync i) (aside_core.resumeSync i)).trans
          (noteStop_core hthread address)
      have hnone : (arriveBreakpoint i address d).2.findBreakpointCondition .breakpoint address =
          none := by
        rw [← h]
        exact findBreakpointCondition_core (by rw [hcore]) _ _
      obtain ⟨d', hrun, hd'⟩ := concludeStop_none i (arriveBreakpoint i address d).2
      refine ⟨d', ?_, ?_⟩
      · change onBreakpoint threadId address d = _
        rw [onBreakpoint_eq hthread, hnone, hrun]
      · exact (congrArg Core.resumed hd').trans (congrArg Core.resumed hcore)
  | @watchpoint _ access htype threadId reached =>
    cases hthread : d.getThread threadId with
    | none =>
      refine ⟨d, ?_, rfl⟩
      change onWatchpoint _ threadId reached address d = _
      unfold onWatchpoint
      rw [get_bind_apply, hthread]
      rfl
    | some i =>
      have hcore := noteStop_core hthread reached
      have hnone : (watchType access).bind
          ((noteStop i reached d).2.findBreakpointCondition · address) = none := by
        rw [htype, Option.bind_some, ← h]
        exact findBreakpointCondition_core (by rw [hcore]) _ _
      obtain ⟨d', hrun, hd'⟩ := concludeStop_none i (noteStop i reached d).2
      refine ⟨d', ?_, ?_⟩
      · change onWatchpoint _ threadId reached address d = _
        rw [onWatchpoint_eq hthread, hnone, hrun]
      · exact (congrArg Core.resumed hd').trans (congrArg Core.resumed hcore)

end Stops

section Runs

variable [Xbdm σ]

/-- An event, with the conditions that should be there carried along. -/
def ConditionStep (e : ConditionEvent) (s s' : XBDMDebugger σ × Wanted) : Prop :=
  s'.1 = (e.perform s.1).2 ∧ s'.2 = wantsCondition e s.2

/-- Each condition is the one of the latest command, and without one there is a stop. -/
def Registered (s : XBDMDebugger σ × Wanted) : Prop :=
  (∀ type address, s.1.findBreakpointCondition type address = s.2 type address) ∧
    ∀ type address, s.2 type address = none → ∀ n, Reaches type address n → StopsAt n s.1

theorem registered_iff (s : XBDMDebugger σ × Wanted) :
    Registered s ↔ s.1.findBreakpointCondition = s.2 := by
  constructor
  · rintro ⟨hfind, -⟩
    funext type address
    exact hfind type address
  · intro hfind
    refine ⟨fun type address => by rw [hfind], ?_⟩
    intro type address hnone n hn
    rw [← hfind] at hnone
    exact stops_without_condition hn hnone

theorem registered_step_iff (e : ConditionEvent) (s s' : XBDMDebugger σ × Wanted)
    (hs : Registered s) (h : ConditionStep e s s') : Registered s' ↔ LeavesNone e s.2 := by
  obtain ⟨hrun, hwanted⟩ := h
  rw [registered_iff] at hs ⊢
  rw [hrun, hwanted, find_perform, hs]
  exact registers_eq_iff e s.2

/-- The conditions are those of the latest commands in every state exactly if no command and no
reboot finds one that it should take back and does not. -/
theorem run_registered_iff {d : XBDMDebugger σ}
    {events : List (ConditionEvent × (XBDMDebugger σ × Wanted))} {s : XBDMDebugger σ × Wanted}
    (h : Run ConditionStep (d, d.findBreakpointCondition) events s) :
    Run.Always Registered events s ↔ ∀ e ∈ events, LeavesNone e.1 e.2.2 :=
  h.always_iff registered_step_iff ((registered_iff _).mpr rfl)

/-- A debugger without threads and conditions. -/
def unconditional : XBDMDebugger Willing :=
  { context := { target := {} } }

/-- `break addr 0x1000 if eax` and then another command. -/
def conditionThen (e : ConditionEvent) :
    List (ConditionEvent × (XBDMDebugger Willing × Wanted)) :=
  let first := ConditionEvent.command (.addr 0x1000 false) (some (ascii "eax"))
  [(first, (unconditional, unconditional.findBreakpointCondition)),
    (e, ((first.perform unconditional).2,
      wantsCondition first unconditional.findBreakpointCondition))]

theorem run_conditionThen (e : ConditionEvent) : ∃ d, Run ConditionStep
      (unconditional, unconditional.findBreakpointCondition) (conditionThen e)
      (d, wantsCondition e (wantsCondition (.command (.addr 0x1000 false) (some (ascii "eax")))
        unconditional.findBreakpointCondition)) ∧
    d.findBreakpointCondition =
      registers e ((ConditionEvent.command (.addr 0x1000 false) (some (ascii "eax"))).perform
        unconditional).2.findBreakpointCondition :=
  ⟨(e.perform _).2, .cons ⟨rfl, rfl⟩ (.cons ⟨rfl, rfl⟩ (.nil _)), find_perform e _⟩

theorem run_condition_cleared : ∃ s,
    Run ConditionStep (unconditional, unconditional.findBreakpointCondition)
        (conditionThen (.command (.addr 0x1000 true) none)) s ∧
      Run.Always Registered (conditionThen (.command (.addr 0x1000 true) none)) s := by
  obtain ⟨d, hrun, -⟩ := run_conditionThen (.command (.addr 0x1000 true) none)
  refine ⟨_, hrun, (run_registered_iff hrun).mpr ?_⟩
  intro e he
  simp only [conditionThen, List.mem_cons, List.not_mem_nil, or_false] at he
  obtain rfl | rfl := he
  · intro _ h
    cases h
  · intro h
    cases h

/-- The condition is still registered behind the second command, which takes it back. -/
def Outlives (e : ConditionEvent) : Prop :=
  ∃ s, Run ConditionStep (unconditional, unconditional.findBreakpointCondition)
      (conditionThen e) s ∧
    s.2 .breakpoint 0x1000 = none ∧
    s.1.findBreakpointCondition .breakpoint 0x1000 = some (ascii "eax")

theorem outlives_of {e : ConditionEvent}
    (hwanted : wantsCondition e (wantsCondition (.command (.addr 0x1000 false) (some (ascii "eax")))
      unconditional.findBreakpointCondition) .breakpoint 0x1000 = none)
    (hfound : registers e ((ConditionEvent.command (.addr 0x1000 false) (some (ascii "eax"))).perform
      unconditional).2.findBreakpointCondition .breakpoint 0x1000 = some (ascii "eax")) :
    Outlives e := by
  obtain ⟨d, hrun, hfind⟩ := run_conditionThen e
  refine ⟨_, hrun, hwanted, ?_⟩
  rw [hfind]
  exact hfound

/-- A condition survives the same breakpoint set without one, the removal of all breakpoints, and a
reboot. -/
theorem run_condition_stale : Outlives (.command (.addr 0x1000 false) none) ∧
    Outlives (.command .clearall none) ∧ Outlives .reboot := by
  refine ⟨outlives_of ?_ ?_, outlives_of ?_ ?_, outlives_of ?_ ?_⟩
  all_goals decide +kernel

end Runs

end XbdmGdbBridge.Proofs
