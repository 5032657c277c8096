import Mathlib.Data.Finset.Basic
import XbdmGdbBridge.Xbox.Notifications

/-!
# A target with breakpoints

Any endpoint, together with the breakpoints on code that it has installed. A request changes them
exactly when it is granted, and a reboot removes them all.
-/

namespace XbdmGdbBridge

open Lib

/-- What a granted request does to the breakpoints of the target. -/
def Request.arm : Request → Finset UInt32 → Finset UInt32
  | .breakAddress address false, installed => insert address installed
  | .breakAddress address true, installed => installed.erase address
  | .breakClearAll, _ => ∅
  | _, installed => installed

structure Armed (σ : Type) where
  target : σ
  installed : Finset UInt32 := ∅
  /-- History: the break requests and whether they were granted, oldest first. -/
  outcomes : List (Request × Bool) := []

instance {σ : Type} [Xbdm σ] : Xbdm (Armed σ) where
  answer r s :=
    let (reply, target) := Xbdm.answer r s.target
    let granted := r.isOK reply.status
    (reply, {
      target
      installed := if granted then r.arm s.installed else s.installed
      outcomes := if r.isBreak then s.outcomes ++ [(r, granted)] else s.outcomes })
  announces state s :=
    let (announced, target) := Xbdm.announces state s.target
    (announced, { s with target })

namespace XBDMDebugger

variable {σ : Type}

def installed (d : XBDMDebugger (Armed σ)) : Finset UInt32 :=
  d.context.target.installed

def outcomes (d : XBDMDebugger (Armed σ)) : List (Request × Bool) :=
  d.context.target.outcomes

/-- The target restarts. -/
def reboot : Op (Armed σ) Unit :=
  modify fun d => { d with context.target.installed := ∅ }

end XBDMDebugger

/-- Calls and notifications that concern breakpoints. -/
inductive BreakEvent where
  | addBreakpoint (address : UInt32)
  | removeBreakpoint (address : UInt32)
  | getMemory (address length : UInt32) (validate : Bool)
  | stepInstruction
  | executionState (state : ExecutionState)
deriving DecidableEq, Repr

namespace BreakEvent

variable {σ : Type} [Xbdm σ]

/-- One event from its start to its end. The target announces that it reboots. -/
def perform : BreakEvent → XBDMDebugger.Handler (Armed σ) Unit
  | addBreakpoint address => do
    let _ ← Program.total (XBDMDebugger.addBreakpoint address)
  | removeBreakpoint address => do
    let _ ← Program.total (XBDMDebugger.removeBreakpoint address)
  | getMemory address length validate => do
    let _ ← if validate then XBDMDebugger.getMemory address length
      else Program.total (XBDMDebugger.readMemory address length)
  | stepInstruction => do
    let _ ← Program.total XBDMDebugger.stepInstruction
  | executionState state => do
    if state = .rebooting then Program.total XBDMDebugger.reboot
    Program.total (XBDMDebugger.onExecutionStateChanged state)

end BreakEvent

end XbdmGdbBridge
