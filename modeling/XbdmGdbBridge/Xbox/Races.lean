import XbdmGdbBridge.Lib.Interleaving
import XbdmGdbBridge.Xbox.Armed

/-!
# Two threads at the breakpoints

`GetMemory` on one thread while another one adds or removes a breakpoint. They take turns at each
request and at each access to `breakpoints_`; the set is only accessed with `breakpoints_lock_` held,
which the second thread keeps from before its request until behind its update.
-/

namespace XbdmGdbBridge

open Lib XBDMDebugger

structure Shared (σ : Type) where
  debugger : XBDMDebugger (Armed σ)
  /-- The thread that changes the set holds `breakpoints_lock_`. -/
  locked : Bool := false

namespace Shared

variable {σ : Type}

abbrev Turn (σ α : Type) := Program Fault (Shared σ) α

abbrev Turns (σ : Type) := Task Fault (Shared σ)

def debuggerPart : Part (Shared σ) (XBDMDebugger (Armed σ)) where
  read s := s.debugger
  write d s := { s with debugger := d }

def on {α : Type} (x : Op (Armed σ) α) : Turn σ α :=
  Program.on debuggerPart (Program.total x)

-- A thread that finds the lock taken waits: its turn does not come to an end in that state.
def unlessLocked {α : Type} (x : Turn σ α) : Turn σ α := fun s =>
  if s.locked then .error .exception else x s

def acquire : Turn σ Unit :=
  unlessLocked (Program.total (modify fun s => { s with locked := true }))

def release : Turn σ Unit :=
  Program.total (modify fun s => { s with locked := false })

/-- `GetActiveBreakpointsInRange` takes the lock, reads and lets go of it. -/
def snapshot (address length : UInt32) : Turn σ (List UInt32) :=
  unlessLocked fun s => .ok (s.debugger.getActiveBreakpointsInRange address length, s)

/-- The update of `breakpoints_` behind a granted request. -/
def note (address : UInt32) (clear : Bool) : Op (Armed σ) Unit :=
  modify fun d => { d with breakpoints :=
    if clear then d.breakpoints.filter (· ≠ address)
    else if d.breakpoints.contains address then d.breakpoints
    else d.breakpoints.orderedInsert (· ≤ ·) address }

variable [Xbdm σ]

/-- `AddBreakpoint` and, with `clear`, `RemoveBreakpoint`. -/
def changeTurns (address : UInt32) (clear : Bool) : Turns σ :=
  .call acquire fun _ =>
    .call (on (accepted (.breakAddress address clear))) fun granted =>
      if granted then .call (on (note address clear)) fun _ => .once release
      else .once release

def addBreakpoint (address : UInt32) : Turns σ := changeTurns address false

def removeBreakpoint (address : UInt32) : Turns σ := changeTurns address true

def restoreBreakpoints : List UInt32 → Turns σ
  | [] => .done
  | bp :: rest => .call (on (request (.breakAddress bp false))) fun _ => restoreBreakpoints rest

def suspendBreakpoints (next : Turns σ) : List UInt32 → Turns σ
  | [] => next
  | bp :: rest => .call (on (request (.breakAddress bp true))) fun _ => suspendBreakpoints next rest

/-- `GetMemory` once it has its copy of the breakpoints in the range. -/
def readMemory (address length : UInt32) (overlaps : List UInt32) : Turns σ :=
  suspendBreakpoints
    (.call (on (request (.getMemBinary address length))) fun _ => restoreBreakpoints overlaps)
    overlaps

def validated (address length : UInt32) (validate : Bool) : Turn σ Bool :=
  if validate then Program.on debuggerPart (validateMemoryAccess address length) else pure true

def getMemory (address length : UInt32) (validate : Bool) : Turns σ :=
  .call (validated address length validate) fun allowed =>
    if allowed then .call (snapshot address length) (readMemory address length) else .done

end Shared

end XbdmGdbBridge
