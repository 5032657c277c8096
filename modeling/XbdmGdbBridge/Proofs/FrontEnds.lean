import XbdmGdbBridge.Proofs.Breakpoints
import XbdmGdbBridge.Proofs.MemoryWrites
import XbdmGdbBridge.Shell.Commands

/-!
# Breakpoints from the shell and from GDB

GDB's breakpoints go through the debugger, which notes them and restores them at a stop. The shell
sends its requests to the target without telling the debugger.
-/

namespace XbdmGdbBridge.Proofs

open Lib Program XBDMDebugger Shell

variable {σ : Type}

/-- The breakpoints there should be behind an operation. -/
def wants : FrontEvent → Finset UInt32 → Finset UInt32
  | .shell (.addr address false) _, wanted => insert address wanted
  | .shell (.addr address true) _, wanted => wanted.erase address
  | .shell .clearall none, _ => ∅
  | .addBreakpoint address, wanted => insert address wanted
  | .removeBreakpoint address, wanted => wanted.erase address
  | _, wanted => wanted

/-- An operation of the shell that changes nothing. -/
def Redundant : FrontEvent → Finset UInt32 → Prop
  | .shell (.addr address false) _, wanted => address ∈ wanted
  | .shell (.addr address true) _, wanted => address ∉ wanted
  | .shell .clearall none, wanted => wanted = ∅
  | _, _ => True

theorem wants_eq_iff (args : BreakArgs) (condition : Option Bytes) (wanted : Finset UInt32) :
    wants (.shell args condition) wanted = wanted ↔ Redundant (.shell args condition) wanted := by
  cases args with
  | start => exact iff_of_true rfl trivial
  | clearall =>
    cases condition with
    | none => exact eq_comm
    | some text => exact iff_of_true rfl trivial
  | addr address clear =>
    cases clear with
    | false => exact Finset.insert_eq_self
    | true => exact Finset.erase_eq_self
  | read address size clear => exact iff_of_true rfl trivial
  | write address size clear => exact iff_of_true rfl trivial
  | execute address size clear => exact iff_of_true rfl trivial

section Operations

variable [Xbdm σ]

theorem grants_obliging (hok : Obliging σ) (r : Request) (d : XBDMDebugger (Armed σ)) :
    grants r d = true :=
  hok r d.context.target.target

omit [Xbdm σ] in
theorem keeps_arms_updateCondition (type : BreakpointType) (address : UInt32) (clear : Bool)
    (condition : Option Bytes) :
    Keeps arms (updateCondition type address clear condition : Op (Armed σ) _) := by
  unfold updateCondition
  refine Keeps.ite (fun _ => rfl) ?_
  cases condition with
  | none => exact Keeps.pure _
  | some text =>
    refine Keeps.bind (fun _ => rfl) ?_
    intro _
    exact Keeps.ite (Keeps.pure _) fun _ => rfl

theorem commandBreak_request {args : BreakArgs} {type : BreakpointType} {address : UInt32}
    {clear : Bool} (h : args.mode = some (type, address, clear)) (condition : Option Bytes)
    (d : XBDMDebugger (Armed σ)) :
    ∃ asked : XBDMDebugger (Armed σ), arms asked = arms d ∧
      (commandBreak args condition d).2 = (request args.request asked).2 := by
  refine ⟨(updateCondition type address clear condition d).2,
    keeps_arms_updateCondition type address clear condition d, ?_⟩
  unfold commandBreak
  rw [h]
  rfl

/-- The shell's request reaches the target, and the debugger does not hear of it. -/
theorem commandBreak_arms (hok : Obliging σ) (args : BreakArgs) (condition : Option Bytes)
    (d : XBDMDebugger (Armed σ)) :
    (commandBreak args condition d).2.breakpoints = d.breakpoints ∧
      (commandBreak args condition d).2.installed = wants (.shell args condition) d.installed := by
  have hasked {args : BreakArgs} (h : args.mode.isSome = true) :
      (commandBreak args condition d).2.breakpoints = d.breakpoints ∧
        (commandBreak args condition d).2.installed = args.request.arm d.installed := by
    obtain ⟨⟨type, address, clear⟩, hmode⟩ := Option.isSome_iff_exists.mp h
    obtain ⟨asked, harms, hrun⟩ := commandBreak_request hmode condition d
    have hbreakpoints : asked.breakpoints = d.breakpoints := congrArg Prod.fst harms
    have hinstalled : asked.installed = d.installed := congrArg (fun a => a.2.1) harms
    rw [hrun, request_installed, grants_obliging hok, if_pos rfl, hinstalled]
    exact ⟨hbreakpoints, rfl⟩
  have hplain {args : BreakArgs} (h : args.mode = none) :
      (commandBreak args none d).2 = (request args.request d).2 := by
    unfold commandBreak
    rw [h]
    rfl
  cases args with
  | start =>
    cases condition with
    | none =>
      rw [hplain rfl, request_installed, grants_obliging hok]
      exact ⟨rfl, rfl⟩
    | some text => exact ⟨rfl, rfl⟩
  | clearall =>
    cases condition with
    | none =>
      rw [hplain rfl, request_installed, grants_obliging hok]
      exact ⟨rfl, rfl⟩
    | some text => exact ⟨rfl, rfl⟩
  | addr address clear => cases clear <;> exact hasked rfl
  | read address size clear => exact hasked rfl
  | write address size clear => exact hasked rfl
  | execute address size clear => exact hasked rfl

theorem restore_obliging (hok : Obliging σ) (l : List UInt32) (d : XBDMDebugger (Armed σ)) :
    (restoreBreakpoints l d).2.installed = d.installed ∪ l.toFinset := by
  obtain ⟨log, -, hasked, hinstalled⟩ := restore_granted l d
  apply hinstalled
  intro o ho
  obtain ⟨asked, hgrants⟩ := hasked o ho
  rw [hgrants, grants_obliging hok]

end Operations

section Runs

variable [Xbdm σ]

/-- An event, with the set that should be there carried along. -/
def FrontStep (e : FrontEvent) (s s' : XBDMDebugger (Armed σ) × Finset UInt32) : Prop :=
  s'.1 = (e.perform s.1).2 ∧ s'.2 = wants e s.2

/-- The target and the debugger have the breakpoints that should be there. -/
def Agreed (s : XBDMDebugger (Armed σ) × Finset UInt32) : Prop :=
  s.1.installed = s.2 ∧ s.1.breakpoints.toFinset = s.2

theorem agreed_addBreakpoint (hok : Obliging σ) (address : UInt32)
    {s s' : XBDMDebugger (Armed σ) × Finset UInt32} (hs : Agreed s)
    (h : FrontStep (.addBreakpoint address) s s') : Agreed s' := by
  obtain ⟨hrun, hwanted⟩ := h
  have harms := addBreakpoint_arms address s.1
  rw [grants_obliging hok] at harms
  replace hrun : s'.1 = (addBreakpoint address s.1).2 := hrun
  unfold Agreed
  rw [hrun, hwanted, harms.1, harms.2, hs.1, hs.2]
  exact ⟨rfl, rfl⟩

theorem agreed_removeBreakpoint (hok : Obliging σ) (address : UInt32)
    {s s' : XBDMDebugger (Armed σ) × Finset UInt32} (hs : Agreed s)
    (h : FrontStep (.removeBreakpoint address) s s') : Agreed s' := by
  obtain ⟨hrun, hwanted⟩ := h
  have harms := removeBreakpoint_arms address s.1
  rw [grants_obliging hok] at harms
  replace hrun : s'.1 = (removeBreakpoint address s.1).2 := hrun
  unfold Agreed
  rw [hrun, hwanted, harms.1, harms.2, hs.1, hs.2]
  exact ⟨rfl, rfl⟩

/-- The target gets the debugger's set on top of its own. -/
theorem stopped_arms (hok : Obliging σ) (d : XBDMDebugger (Armed σ)) :
    (onExecutionStateChanged .stopped d).2.installed = d.installed ∪ d.breakpoints.toFinset ∧
      (onExecutionStateChanged .stopped d).2.breakpoints = d.breakpoints := by
  have harms := arms_stopped d
  have hinstalled : (onExecutionStateChanged .stopped d).2.installed = _ :=
    congrArg (fun a => a.2.1) harms
  have hcore := keeps_restoreBreakpoints d.breakpoints { d with state := .stopped }
  refine ⟨hinstalled.trans ?_, (congrArg Prod.fst harms).trans (congrArg Core.breakpoints hcore)⟩
  exact restore_obliging hok d.breakpoints { d with state := .stopped }

theorem agreed_step_iff (hok : Obliging σ) (e : FrontEvent)
    (s s' : XBDMDebugger (Armed σ) × Finset UInt32) (hs : Agreed s) (h : FrontStep e s s') :
    Agreed s' ↔ Redundant e s.2 := by
  cases e with
  | shell args condition =>
    obtain ⟨hrun, hwanted⟩ := h
    obtain ⟨hbreakpoints, hinstalled⟩ := commandBreak_arms hok args condition s.1
    replace hrun : s'.1 = (commandBreak args condition s.1).2 := hrun
    rw [← wants_eq_iff]
    unfold Agreed
    rw [hrun, hwanted, hinstalled, hbreakpoints, hs.1, hs.2]
    exact ⟨fun hagreed => hagreed.2.symm, fun hsame => ⟨rfl, hsame.symm⟩⟩
  | addBreakpoint address => exact iff_of_true (agreed_addBreakpoint hok address hs h) trivial
  | removeBreakpoint address =>
    exact iff_of_true (agreed_removeBreakpoint hok address hs h) trivial
  | stopped =>
    obtain ⟨hrun, hwanted⟩ := h
    obtain ⟨hinstalled, hbreakpoints⟩ := stopped_arms hok s.1
    replace hrun : s'.1 = (onExecutionStateChanged .stopped s.1).2 := hrun
    refine iff_of_true ?_ trivial
    unfold Agreed
    rw [hrun, hwanted, hinstalled, hbreakpoints, hs.1, hs.2]
    exact ⟨Finset.union_self _, rfl⟩

/-- Without breakpoints at the start, the target and the debugger agree with the operations of both
front ends in every state exactly as long as the shell changes nothing. -/
theorem run_agreed_iff_redundant (hok : Obliging σ) {d : XBDMDebugger (Armed σ)}
    {events : List (FrontEvent × (XBDMDebugger (Armed σ) × Finset UInt32))}
    {s : XBDMDebugger (Armed σ) × Finset UInt32} (hinstalled : d.installed = ∅)
    (hbreakpoints : d.breakpoints = []) (h : Run FrontStep (d, ∅) events s) :
    Run.Always Agreed events s ↔ ∀ e ∈ events, Redundant e.1 e.2.2 := by
  apply h.always_iff (agreed_step_iff hok)
  refine ⟨hinstalled, ?_⟩
  rw [hbreakpoints]
  rfl

/-- GDB sets a breakpoint, the shell does something, and the target stops. -/
def shellBetween (args : BreakArgs) :
    List (FrontEvent × (XBDMDebugger (Armed Willing) × Finset UInt32)) :=
  let added := (addBreakpoint 5 unarmed).2
  [(.addBreakpoint 5, (unarmed, ∅)), (.shell args none, (added, {5})),
    (.stopped, ((commandBreak args none added).2, wants (.shell args none) {5}))]

theorem run_shellBetween (args : BreakArgs) : ∃ d,
    Run FrontStep (unarmed, ∅) (shellBetween args) (d, wants (.shell args none) {5}) ∧
      d.installed = wants (.shell args none) {5} ∪ {5} := by
  let added := (addBreakpoint 5 unarmed).2
  have hadded : added.installed = {5} ∧ added.breakpoints.toFinset = {5} := by decide
  have hadd : FrontStep (.addBreakpoint 5) (unarmed, ∅) (added, {5}) := ⟨rfl, by decide⟩
  have hshell : FrontStep (.shell args none) (added, {5})
      ((commandBreak args none added).2, wants (.shell args none) {5}) := ⟨rfl, rfl⟩
  have hstop : FrontStep .stopped ((commandBreak args none added).2, wants (.shell args none) {5})
      ((onExecutionStateChanged .stopped (commandBreak args none added).2).2,
        wants (.shell args none) {5}) := ⟨rfl, rfl⟩
  refine ⟨(onExecutionStateChanged .stopped (commandBreak args none added).2).2, ?_, ?_⟩
  · exact .cons hadd (.cons hshell (.cons hstop (.nil _)))
  · obtain ⟨hbreakpoints, hinstalled⟩ := commandBreak_arms obliging_willing args none added
    rw [(stopped_arms obliging_willing _).1, hinstalled, hbreakpoints, hadded.1, hadded.2]

theorem run_shellBetween_same : ∃ s,
    Run FrontStep (unarmed, ∅) (shellBetween (.addr 5 false)) s ∧
      Run.Always Agreed (shellBetween (.addr 5 false)) s := by
  obtain ⟨d, hrun, -⟩ := run_shellBetween (.addr 5 false)
  refine ⟨_, hrun, (run_agreed_iff_redundant obliging_willing rfl rfl hrun).mpr ?_⟩
  intro e he
  simp only [shellBetween, List.mem_cons, List.not_mem_nil, or_false] at he
  obtain rfl | rfl | rfl := he
  · trivial
  · exact Finset.mem_singleton_self 5
  · trivial

/-- A breakpoint that GDB has set and the shell has removed comes back at the next stop. -/
theorem run_shellBetween_removed : ∃ s,
    Run FrontStep (unarmed, ∅) (shellBetween (.addr 5 true)) s ∧ s.2 = ∅ ∧ 5 ∈ s.1.installed ∧
      ¬Run.Always Agreed (shellBetween (.addr 5 true)) s := by
  obtain ⟨d, hrun, hinstalled⟩ := run_shellBetween (.addr 5 true)
  have hback : 5 ∈ d.installed := by
    rw [hinstalled]
    decide
  have hnone : wants (.shell (.addr 5 true) none) {5} = ∅ := by decide
  refine ⟨_, hrun, hnone, hback, ?_⟩
  rintro ⟨-, hsame, -⟩
  rw [show d.installed = _ from hsame, hnone] at hback
  exact absurd hback (Finset.notMem_empty 5)

end Runs

end XbdmGdbBridge.Proofs
