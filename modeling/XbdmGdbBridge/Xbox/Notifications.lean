import XbdmGdbBridge.Xbox.Debugger

/-!
# Notifications of the debug monitor

What `XBDMDebugger::OnNotification` does with the notifications that concern threads, execution
and memory.
-/

namespace XbdmGdbBridge

open Lib

inductive Notification where
  | executionStateChanged (state : ExecutionState)
  | breakpoint (threadId address : UInt32)
  | watchpoint (type : AccessType) (threadId address watchedAddress : UInt32)
  | singleStep (threadId address : UInt32)
  | exception (threadId address : UInt32)
  | threadCreated (threadId : UInt32)
  | threadTerminated (threadId : UInt32)
  | moduleLoaded
  | sectionLoaded
  | sectionUnloaded
deriving DecidableEq, Repr

namespace XBDMDebugger

variable {σ : Type} [Xbdm σ]

abbrev Handler (σ α : Type) := Program Fault (XBDMDebugger σ) α

def onThreadCreated (threadId : UInt32) : Op σ Unit :=
  modify fun d =>
    if d.threadIds.contains threadId then d
    else { d with threads := d.threads ++ [{ threadId }] }

def onThreadTerminated (threadId : UInt32) : Op σ Unit :=
  modify fun d =>
    if d.threadIds.contains threadId then
      { d with
        activeThreadId := if d.activeThreadId = some threadId then none else d.activeThreadId
        threads := d.threads.eraseP (fun t => t.threadId == threadId) }
    else d

def createMemoryReader : MemoryReader (XBDMDebugger σ) := fun address size => do
  match ← getMemory address size with
  | none => return .error (ascii "Failed to read memory at " ++ ascii (toString address.toNat))
  | some data => return .ok data

/-- The start of every stop handler: the thread becomes active and is asked why it stopped. -/
def noteStop (i : ThreadRef) (address : UInt32) : Op σ Unit := do
  let _ ← setActiveThread (← deref i).threadId
  update i fun t => { t with lastKnownAddress := some address }
  let _ ← fetchStopReasonSync i

def performAfterStopActions (i : ThreadRef) : Op σ Unit := do
  if (← get).printThreadInfoOnBreak then
    let _ ← fetchContextSync i
  else pure ()

/-- Evaluates the condition of a breakpoint on the thread's registers; `none` when there is no
context or the evaluation fails. -/
def evaluateCondition (i : ThreadRef) (condition : Bytes) : Handler σ (Option UInt32) := do
  let _ ← Program.total (fetchContextSync i)
  let thread ← Program.total (deref i)
  match thread.context with
  | none => return none
  | some context =>
    let parser : DebuggerExpressionParser (XBDMDebugger σ) :=
      { context, threadId := some thread.threadId, memoryReader := some createMemoryReader }
    match ← (parser.parse condition).run with
    | .ok value => return some value
    | .error _ => return none

-- A thread whose condition is false goes on; its `stopped` flag and reason stay as fetched.
def concludeStop (i : ThreadRef) (condition : Option Bytes) : Handler σ Unit := do
  let value ← match condition with
    | none => pure none
    | some text => evaluateCondition i text
  if value = some 0 then
    let _ ← Program.total (do continueThread (← deref i).threadId)
    let _ ← Program.total go
  else Program.total (performAfterStopActions i)

def onBreakpoint (threadId address : UInt32) : Handler σ Unit := do
  match (← get).getThread threadId with
  | none => pure ()
  | some i =>
    Program.total (noteStop i address)
    let _ ← Program.total (fetchInfoSync i)
    match (← get).threadAt i |>.suspendCount with
    | some n => if 0 < n then let _ ← Program.total (resumeSync i) else pure ()
    | none => pure ()
    concludeStop i ((← get).findBreakpointCondition .breakpoint address)

def watchType : AccessType → Option BreakpointType
  | .read => some .readWatch
  | .write => some .writeWatch
  | .execute => some .executeWatch
  | .unknown => none

def onWatchpoint (type : AccessType) (threadId address watchedAddress : UInt32) :
    Handler σ Unit := do
  match (← get).getThread threadId with
  | none => pure ()
  | some i =>
    Program.total (noteStop i address)
    let d ← get
    concludeStop i ((watchType type).bind (d.findBreakpointCondition · watchedAddress))

/-- `OnSingleStep` and `OnException`. -/
def onPlainStop (threadId address : UInt32) : Handler σ Unit := do
  match (← get).getThread threadId with
  | none => pure ()
  | some i =>
    Program.total (noteStop i address)
    Program.total (performAfterStopActions i)

def onSingleStep (threadId address : UInt32) : Handler σ Unit :=
  onPlainStop threadId address

def onException (threadId address : UInt32) : Handler σ Unit :=
  onPlainStop threadId address

def onNotification : Notification → Handler σ Unit
  | .executionStateChanged state => Program.total (onExecutionStateChanged state)
  | .breakpoint threadId address => onBreakpoint threadId address
  | .watchpoint type threadId address watched => onWatchpoint type threadId address watched
  | .singleStep threadId address => onSingleStep threadId address
  | .exception threadId address => onException threadId address
  | .threadCreated threadId => Program.total (onThreadCreated threadId)
  | .threadTerminated threadId => Program.total (onThreadTerminated threadId)
  | .moduleLoaded | .sectionLoaded | .sectionUnloaded => do
    let _ ← Program.total fetchMemoryMap

end XBDMDebugger

end XbdmGdbBridge
