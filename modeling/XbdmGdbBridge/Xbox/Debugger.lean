import Mathlib.Data.List.Sort
import XbdmGdbBridge.Xbox.Expression

/-!
# Threads and the debugger

`Thread` and `XBDMDebugger` over the debug monitor. A `shared_ptr<Thread>` obtained from the
debugger is the position of the thread in the debugger's list, so that what one holder of the
pointer writes is seen by the others.
-/

namespace XbdmGdbBridge

open Lib

structure Thread where
  threadId : UInt32
  suspendCount : Option Int32 := none
  context : Option ThreadContext := none
  floatContext : Option ThreadFloatContext := none
  lastKnownAddress : Option UInt32 := none
  stopped : Bool := false
  lastStopReason : Option StopReason := none
deriving DecidableEq, Repr

inductive BreakpointType where
  | breakpoint | readWatch | writeWatch | executeWatch
deriving DecidableEq, Repr

/-- What the debugger is asked to do to a thread so that it runs again. -/
inductive Action where
  | continue | step
deriving DecidableEq, Repr

structure XBDMDebugger (σ : Type) where
  context : XBDMContext σ
  state : ExecutionState := .invalid
  threads : List Thread := []
  activeThreadId : Option UInt32 := none
  memoryRegions : List MemoryRegion := []
  breakpoints : List UInt32 := []
  breakpointConditions : List ((BreakpointType × UInt32) × Bytes) := []
  printThreadInfoOnBreak : Bool := false
  /-- History: the threads the debugger was asked to resume, oldest first. -/
  resumed : List (UInt32 × Action) := []

abbrev ThreadRef := Nat

namespace XBDMDebugger

variable {σ : Type} [Xbdm σ]

/-- A debugger operation that always returns. -/
abbrev Op (σ α : Type) := StateM (XBDMDebugger σ) α

def request (r : Request) : Op σ (Option Reply) := fun d =>
  let (reply, context) := d.context.sendCommandSync r
  (if r.isOK reply.status then some reply else none, { d with context })

/-- The bare outcome of a request. -/
def accepted (r : Request) : Op σ Bool := do
  let reply ← request r
  return reply.isSome

def threadIds (d : XBDMDebugger σ) : List UInt32 :=
  d.threads.map Thread.threadId

def getThread (d : XBDMDebugger σ) (threadId : UInt32) : Option ThreadRef :=
  d.threads.findIdx? (fun t => t.threadId == threadId)

def activeThread (d : XBDMDebugger σ) : Option ThreadRef :=
  d.activeThreadId.bind d.getThread

def anyThreadID (d : XBDMDebugger σ) : Option UInt32 :=
  match d.threads with
  | [] => none
  | thread :: _ => some (d.activeThreadId.getD thread.threadId)

def getThreadIDs (d : XBDMDebugger σ) : List UInt32 :=
  if d.threads = [] then []
  else d.activeThreadId.toList ++
    d.threadIds.filter (fun id => some id ≠ d.activeThreadId)

def threadAt (d : XBDMDebugger σ) (i : ThreadRef) : Thread :=
  d.threads.getD i ⟨0, none, none, none, none, false, none⟩

def deref (i : ThreadRef) : Op σ Thread := do
  return (← get).threadAt i

def update (i : ThreadRef) (f : Thread → Thread) : Op σ Unit :=
  modify fun d => { d with threads := d.threads.modify i f }

def setActiveThread (threadId : UInt32) : Op σ Bool := do
  if (← get).threadIds.contains threadId then
    modify fun d => { d with activeThreadId := some threadId }
    return true
  else
    modify fun d => { d with activeThreadId := none }
    return false

def noteResumed (threadId : UInt32) (action : Action) : Op σ Unit :=
  modify fun d => { d with resumed := d.resumed ++ [(threadId, action)] }

section Threads

/-- A query of one thread whose answer, or refusal, is stored with the thread. -/
def fetch (i : ThreadRef) (query : UInt32 → Request) (forget : Thread → Thread)
    (store : Reply → Thread → Thread) : Op σ Bool := do
  let thread ← deref i
  match ← request (query thread.threadId) with
  | none =>
    update i forget
    return false
  | some reply =>
    update i (store reply)
    return true

def fetchInfoSync (i : ThreadRef) : Op σ Bool :=
  fetch i .threadInfo (fun t => { t with suspendCount := none })
    (fun reply t => { t with suspendCount := some reply.suspendCount })

def fetchContextSync (i : ThreadRef) : Op σ Bool :=
  fetch i .getContext (fun t => { t with context := none })
    (fun reply t => { t with context := some reply.context })

def fetchFloatContextSync (i : ThreadRef) : Op σ Bool :=
  fetch i .getExtContext (fun t => { t with floatContext := none })
    (fun reply t => { t with floatContext := some reply.floatContext })

/-- `IsStopped::ProcessResponse`. -/
def noteStopReason (reply : Reply) (t : Thread) : Thread :=
  { t with
    stopped := reply.status == .ok
    lastStopReason := if reply.status = .ok then reply.stopReason else none }

-- A refused query forgets the reason and leaves `stopped` as it was.
def fetchStopReasonSync (i : ThreadRef) : Op σ Bool :=
  fetch i .isStopped (fun t => { t with lastStopReason := none }) noteStopReason

def pushContextSync (i : ThreadRef) : Op σ Bool := do
  let thread ← deref i
  match thread.context with
  | none => return false
  | some context => accepted (.setContext thread.threadId context)

def pushFloatContextSync (i : ThreadRef) : Op σ Bool := do
  let thread ← deref i
  match thread.floatContext with
  | none => return false
  | some context => accepted (.setFloatContext thread.threadId context)

def continueSync (i : ThreadRef) : Op σ Bool := do
  let thread ← deref i
  accepted (.continue thread.threadId)

def resumeSync (i : ThreadRef) : Op σ Bool := do
  let thread ← deref i
  accepted (.resume thread.threadId)

/-- The single-step bit of `eflags`. -/
def trapFlag : Int32 := 0x100

def stepThread (i : ThreadRef) : Op σ Bool := do
  if !(← fetchContextSync i) then return false
  else
    let thread ← deref i
    let context := thread.context.getD {}
    match context.eflags with
    | none => return false
    | some flags =>
      let newFlags := flags ||| trapFlag
      -- With the flag already set nothing is sent, not even the continue.
      if newFlags = flags then return true
      else if !(← accepted (.setContext thread.threadId { context with eflags := some newFlags })) then
        return false
      else continueSync i

end Threads

section Breakpoints

def getActiveBreakpointsInRange (d : XBDMDebugger σ) (address length : UInt32) : List UInt32 :=
  d.breakpoints.filter (fun bp => address ≤ bp && bp < address + length)

def suspendBreakpoints : List UInt32 → Op σ Unit
  | [] => pure ()
  | bp :: rest => do
    let _ ← request (.breakAddress bp true)
    suspendBreakpoints rest

def restoreBreakpoints : List UInt32 → Op σ Unit
  | [] => pure ()
  | bp :: rest => do
    let _ ← request (.breakAddress bp false)
    restoreBreakpoints rest

def addBreakpoint (address : UInt32) : Op σ Bool := do
  if ← accepted (.breakAddress address false) then
    modify fun d => { d with breakpoints :=
      if d.breakpoints.contains address then d.breakpoints
      else d.breakpoints.orderedInsert (· ≤ ·) address }
    return true
  else return false

def removeBreakpoint (address : UInt32) : Op σ Bool := do
  if ← accepted (.breakAddress address true) then
    modify fun d => { d with breakpoints := d.breakpoints.filter (· ≠ address) }
    return true
  else return false

def addReadWatch (address length : UInt32) : Op σ Bool :=
  accepted (.breakOnRead address length false)

def addWriteWatch (address length : UInt32) : Op σ Bool :=
  accepted (.breakOnWrite address length false)

def removeReadWatch (address length : UInt32) : Op σ Bool :=
  accepted (.breakOnRead address length true)

def removeWriteWatch (address length : UInt32) : Op σ Bool :=
  accepted (.breakOnWrite address length true)

def removeBreakpointCondition (type : BreakpointType) (address : UInt32) : Op σ Unit :=
  modify fun d => { d with breakpointConditions :=
    d.breakpointConditions.filter fun entry => entry.1 ≠ (type, address) }

-- An empty condition removes the one that is there.
def setBreakpointCondition (type : BreakpointType) (address : UInt32) (condition : Bytes) :
    Op σ Unit := do
  removeBreakpointCondition type address
  if condition = [] then pure ()
  else modify fun d => { d with breakpointConditions :=
    ((type, address), condition) :: d.breakpointConditions }

def findBreakpointCondition (d : XBDMDebugger σ) (type : BreakpointType) (address : UInt32) :
    Option Bytes :=
  d.breakpointConditions.lookup (type, address)

end Breakpoints

section Execution

def stop : Op σ Bool :=
  accepted .stop

def go : Op σ Bool :=
  accepted .go

def fetchInfos : List ThreadRef → Op σ Unit
  | [] => pure ()
  | i :: rest => do
    let _ ← fetchInfoSync i
    fetchInfos rest

def fetchThreads : Op σ Bool := do
  match ← request .threads with
  | none => return false
  | some reply =>
    modify fun d => { d with threads := reply.threads.map (fun id => { threadId := id }) }
    fetchInfos (List.range reply.threads.length)
    return true

def fetchMemoryMap : Op σ Bool := do
  match ← request .walkMem with
  | none => return false
  | some reply =>
    modify fun d => { d with
      memoryRegions := reply.regions.insertionSort (fun a b => a.start ≤ b.start) }
    return true

/-- The loop of `GetFirstStoppedThread`; the active thread has been asked already. -/
def firstStopped (active : Option UInt32) : List ThreadRef → Op σ (Option ThreadRef)
  | [] => pure none
  | i :: rest => do
    if active = some (← deref i).threadId then firstStopped active rest
    else
      let fetched ← fetchStopReasonSync i
      if fetched && (← deref i).stopped then return some i
      else firstStopped active rest

def getFirstStoppedThread : Op σ (Option ThreadRef) := do
  let d ← get
  let refs := List.range d.threads.length
  match d.activeThread with
  | none => firstStopped d.activeThreadId refs
  | some i =>
    let fetched ← fetchStopReasonSync i
    if fetched && (← deref i).stopped then return some i
    else firstStopped d.activeThreadId refs

def onExecutionStateChanged (state : ExecutionState) : Op σ Unit := do
  modify fun d => { d with state }
  if state = .rebooting then
    modify fun d => { d with breakpoints := [] }
  else if state = .stopped then
    restoreBreakpoints (← get).breakpoints
    if let some i ← getFirstStoppedThread then
      let _ ← setActiveThread (← deref i).threadId
    let _ ← fetchMemoryMap
  else pure ()

def announcement (state : ExecutionState) : Op σ Bool := fun d =>
  let (announced, target) := Xbdm.announces state d.context.target
  (announced, { d with context := { d.context with target } })

-- The notification thread is what changes the state while this one waits.
def waitForState (state : ExecutionState) : Op σ Bool := do
  if (← get).state = state then return true
  else if ← announcement state then
    onExecutionStateChanged state
    return true
  else return false

def continueEach : List ThreadRef → Op σ Bool
  | [] => pure true
  | i :: rest => do
    noteResumed (← deref i).threadId .continue
    let continued ← continueSync i
    let others ← continueEach rest
    return continued && others

def continueAll : Op σ Bool := do
  continueEach (List.range (← get).threads.length)

def continueThread (threadId : UInt32) : Op σ Bool := do
  match (← get).getThread threadId with
  | none => return false
  | some i =>
    noteResumed (← deref i).threadId .continue
    continueSync i

def stepAndGo (i : ThreadRef) : Op σ Bool := do
  if ← stepThread i then go else return false

/-- `StepInstruction` on the active thread. The breakpoints it lifts come back at once only when
the step fails. -/
def stepAt (i : ThreadRef) : Op σ Bool := do
  if !(← stop) then return false
  else if !(← fetchContextSync i) then return false
  else
    match ((← deref i).context.getD {}).eip with
    | none => return false
    | some eip =>
      let breakpoints := (← get).getActiveBreakpointsInRange eip.toUInt32 1
      suspendBreakpoints breakpoints
      if ← stepAndGo i then return true
      else
        restoreBreakpoints breakpoints
        return false

def stepInstruction : Op σ Bool := do
  match (← get).activeThread with
  | none => return false
  | some i =>
    noteResumed (← deref i).threadId .step
    stepAt i

/-- The polling loop of `HaltAll`, ten milliseconds a turn. -/
def pollStopped (i : ThreadRef) : Nat → Nat → Op σ Unit
  | 0, _ => pure ()
  | fuel + 1, wait => do
    if (← deref i).stopped || wait = 0 then pure ()
    else
      let _ ← fetchStopReasonSync i
      if 10 > wait then pure () else pollStopped i fuel (wait - 10)

def kDefaultHaltAllMaxWaitMilliseconds : Nat := 250

/-- `HaltAll` once the target is known to be stopped: a stopped thread, or else the first one,
becomes active and is polled until it has stopped or the time is up. -/
def activateStopped (optimisticMaxWait : Nat) : Op σ Bool := do
  let i := (← getFirstStoppedThread).getD 0
  let _ ← setActiveThread (← deref i).threadId
  pollStopped i optimisticMaxWait optimisticMaxWait
  return (← deref i).stopped

def haltAll (optimisticMaxWait : Nat := kDefaultHaltAllMaxWaitMilliseconds) : Op σ Bool := do
  if (← get).threads = [] then return true
  else if !(← accepted .halt) then return false
  else if !(← waitForState .stopped) then return false
  else activateStopped optimisticMaxWait

end Execution

section Memory

def coveredFrom (last : UInt32) (isWrite : Bool) : UInt32 → List MemoryRegion → Bool
  | _, [] => false
  | start, region :: rest =>
    if region.contains start then
      if region.contains last then !(isWrite && !region.isWritable)
      else coveredFrom last isWrite region.end rest
    else coveredFrom last isWrite start rest

/-- `ValidateMemoryAccess` behind its assertion that the length is not zero. -/
def accessible (d : XBDMDebugger σ) (address length : UInt32) (isWrite : Bool) : Bool :=
  d.memoryRegions = [] ||
    coveredFrom (address + length - 1) isWrite address d.memoryRegions

def validateMemoryAccess (address length : UInt32) (isWrite : Bool := false) :
    Program Fault (XBDMDebugger σ) Bool := do
  if length = 0 then Program.fault .assertion
  else return (← get).accessible address length isWrite

def readMemory (address length : UInt32) : Op σ (Option Bytes) := do
  let overlaps := (← get).getActiveBreakpointsInRange address length
  suspendBreakpoints overlaps
  let reply ← request (.getMemBinary address length)
  restoreBreakpoints overlaps
  return reply.map Reply.data

def getMemory (address length : UInt32) : Program Fault (XBDMDebugger σ) (Option Bytes) := do
  if ← validateMemoryAccess address length then Program.total (readMemory address length)
  else return none

/-- `SetMem::kMaximumDataSize`. -/
def kMaximumDataSize : Nat := 120

def setMemory (address : UInt32) (data : Bytes) : Program Fault (XBDMDebugger σ) Bool := do
  if ← validateMemoryAccess address (UInt32.ofNat data.length) true then
    if kMaximumDataSize < data.length then Program.fault .assertion
    else Program.total (accepted (.setMem address data))
  else return false

end Memory

end XBDMDebugger

end XbdmGdbBridge
