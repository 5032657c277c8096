import Mathlib.Data.List.Basic
import XbdmGdbBridge.Util.CText

/-!
# The debug monitor as the bridge sees it

Requests and replies of the XBDM protocol at the level of `SendCommandSync`: a request is a typed
value, a reply is a status code together with the fields the request's `ProcessResponse` would
have filled in. What stands at the other end is left open (`Xbdm`), so every result of the
development holds for every sequence of replies.
-/

namespace XbdmGdbBridge

inductive ExecutionState where
  | invalid | stopped | started | rebooting | pending
deriving DecidableEq, Repr

structure ThreadContext where
  ebp : Option Int32 := none
  esp : Option Int32 := none
  eip : Option Int32 := none
  eflags : Option Int32 := none
  eax : Option Int32 := none
  ebx : Option Int32 := none
  ecx : Option Int32 := none
  edx : Option Int32 := none
  edi : Option Int32 := none
  esi : Option Int32 := none
  cr0NpxState : Option Int32 := none
deriving DecidableEq, Repr

structure ThreadFloatContext where
  control : Int32 := 0
  status : Int32 := 0
  tag : Int32 := 0
  errorOffset : Int32 := 0
  errorSelector : Int32 := 0
  dataOffset : Int32 := 0
  dataSelector : Int32 := 0
  st0 : Int64 := 0
  st1 : Int64 := 0
  st2 : Int64 := 0
  st3 : Int64 := 0
  st4 : Int64 := 0
  st5 : Int64 := 0
  st6 : Int64 := 0
  st7 : Int64 := 0
  cr0NpxState : Int32 := 0
deriving DecidableEq, Repr

structure MemoryRegion where
  start : UInt32
  size : UInt32
  protect : UInt32
deriving DecidableEq, Repr

namespace MemoryRegion

-- The constructor stores this sum; it wraps for a region that reaches the top of memory.
def «end» (r : MemoryRegion) : UInt32 :=
  r.start + r.size

def contains (r : MemoryRegion) (address : UInt32) (length : UInt32 := 1) : Bool :=
  r.start ≤ address && address + length ≤ r.end

def isWritable (r : MemoryRegion) : Bool :=
  r.protect &&& 0x04 ≠ 0 || r.protect &&& 0x08 ≠ 0 || r.protect &&& 0x10 ≠ 0 ||
    r.protect &&& 0x20 ≠ 0 || r.protect &&& 0x40 ≠ 0 || r.protect &&& 0x80 ≠ 0

end MemoryRegion

/-- The access of `StopReasonDataBreakpoint`. -/
inductive AccessType where
  | unknown | read | write | execute
deriving DecidableEq, Repr

/-- `StopReasonBase_` with the parts of its subclasses that are read after parsing. -/
inductive StopReason where
  | unknown
  | debugstr
  | assertion
  | breakpoint
  | singleStep
  | watchpoint (accessType : AccessType) (accessAddress : UInt32)
  | executionStateChanged
  | exception
  | threadCreated
  | threadTerminated
  | moduleLoaded
  | sectionLoaded
  | sectionUnloaded
  | rip
  | ripStop
deriving DecidableEq, Repr

namespace StopReason

-- SIGABRT for the two RIP reasons, SIGTRAP for all others.
def signal : StopReason → Nat
  | rip => 6
  | ripStop => 6
  | _ => 5

end StopReason

inductive StatusCode where
  | invalid
  | ok
  | okConnected
  | okMultilineResponse
  | okBinaryResponse
  | okSendBinaryData
  | okConnectionDedicated
  | errUnexpected
  | errMaxConnectionsExceeded
  | errFileNotFound
  | errNoSuchModule
  | errMemoryNotMapped
  | errNoSuchThread
  | errFailedToSetSystemTime
  | errUnknownCommand
  | errNotStopped
  | errFileMustBeCopied
  | errExists
  | errDirectoryNotEmpty
  | errFilenameInvalid
  | errCreateFileFailed
  | errAccessDenied
  | errNoRoomOnDevice
  | errNotDebuggable
  | errTypeInvalid
  | errDataNotAvailable
  | errBoxNotLocked
  | errKeyExchangeRequired
  | errDedicatedConnectionRequired
  | errNotConnected
  | errAbandoned
deriving DecidableEq, Repr

inductive Request where
  | breakAddress (address : UInt32) (clear : Bool)
  | breakAtStart
  | breakClearAll
  | breakOnExecute (address : UInt32) (size : UInt32) (clear : Bool)
  | breakOnRead (address : UInt32) (size : UInt32) (clear : Bool)
  | breakOnWrite (address : UInt32) (size : UInt32) (clear : Bool)
  | continue (thread : UInt32)
  | getContext (thread : UInt32)
  | getExtContext (thread : UInt32)
  | getMemBinary (address : UInt32) (length : UInt32)
  | go
  | halt
  | isStopped (thread : UInt32)
  | resume (thread : UInt32)
  | setContext (thread : UInt32) (context : ThreadContext)
  | setFloatContext (thread : UInt32) (context : ThreadFloatContext)
  | setMem (address : UInt32) (data : Bytes)
  | stop
  | threadInfo (thread : UInt32)
  | threads
  | walkMem
deriving DecidableEq, Repr

/-- What a processed request holds once it has been answered. -/
structure Reply where
  status : StatusCode
  context : ThreadContext := {}
  floatContext : ThreadFloatContext := {}
  data : Bytes := []
  suspendCount : Int32 := 0
  threads : List UInt32 := []
  regions : List MemoryRegion := []
  /-- The first word of an `isstopped` answer and its `read`, `write` and `execute` values. -/
  reason : Bytes := []
  read : Option UInt32 := none
  write : Option UInt32 := none
  execute : Option UInt32 := none
deriving DecidableEq, Repr

namespace Request

def isOK : Request → StatusCode → Bool
  | .continue _, s | .isStopped _, s => s == .ok || s == .errNotStopped
  | .stop, s => s == .ok || s == .errUnexpected
  | .getContext _, s | .threadInfo _, s | .threads, s | .walkMem, s => s == .okMultilineResponse
  | .getExtContext _, s | .getMemBinary _ _, s => s == .okBinaryResponse
  | _, s => s == .ok

/-- The requests that set and clear breakpoints on code. -/
def isBreak : Request → Bool
  | .breakAddress _ _ | .breakClearAll => true
  | _ => false

/-- The thread a request is addressed to. -/
def thread? : Request → Option UInt32
  | .continue t | .getContext t | .getExtContext t | .isStopped t | .resume t
  | .setContext t _ | .setFloatContext t _ | .threadInfo t => some t
  | _ => none

end Request

namespace Reply

def dataBreakpoint (r : Reply) : StopReason :=
  match r.read, r.write, r.execute with
  | some a, _, _ => .watchpoint .read a
  | none, some a, _ => .watchpoint .write a
  | none, none, some a => .watchpoint .execute a
  | none, none, none => .watchpoint .unknown 0

-- `IsStopped::ProcessResponse`: a word that is not listed leaves the reason unset.
def stopReason (r : Reply) : Option StopReason :=
  if r.reason = ascii "stopped" then some .unknown
  else if r.reason = ascii "debugstr" then some .debugstr
  else if r.reason = ascii "assert" then some .assertion
  else if r.reason = ascii "break" then some .breakpoint
  else if r.reason = ascii "singlestep" then some .singleStep
  else if r.reason = ascii "data" then some r.dataBreakpoint
  else if r.reason = ascii "execution" then some .executionStateChanged
  else if r.reason = ascii "exception" then some .exception
  else if r.reason = ascii "create" then some .threadCreated
  else if r.reason = ascii "terminate" then some .threadTerminated
  else if r.reason = ascii "modload" then some .moduleLoaded
  else if r.reason = ascii "sectload" then some .sectionLoaded
  else if r.reason = ascii "sectunload" then some .sectionUnloaded
  else if r.reason = ascii "rip" then some .rip
  else if r.reason = ascii "ripstop" then some .ripStop
  else none

end Reply

/-- What can end a handler other than a return. All but the last leave the rules of the language
or abort the process. -/
inductive Fault where
  | assertion
  | range
  | emptyAccess
  | absent
  | exception
deriving DecidableEq, Repr

/-- The other end of the connection: how it answers a request, and whether it announces an
awaited execution state before the wait for it runs out. -/
class Xbdm (σ : Type) where
  answer : Request → σ → Reply × σ
  announces : ExecutionState → σ → Bool × σ

/-- An endpoint that gives the listed answers in turn, and is gone after the last. -/
structure Script where
  replies : List Reply := []
deriving DecidableEq, Repr

instance : Xbdm Script where
  answer _ s :=
    match s.replies with
    | [] => ({ status := .errNotConnected }, s)
    | reply :: rest => (reply, ⟨rest⟩)
  announces _ s := (false, s)

/-- The status a successful answer to the request carries. -/
def Request.success : Request → StatusCode
  | .getContext _ | .threadInfo _ | .threads | .walkMem => .okMultilineResponse
  | .getExtContext _ | .getMemBinary _ _ => .okBinaryResponse
  | _ => .ok

/-- An endpoint that grants every request. -/
structure Willing where
deriving DecidableEq, Repr

instance : Xbdm Willing where
  answer r s := ({ status := r.success }, s)
  announces _ s := (true, s)

theorem Request.isOK_success (r : Request) : r.isOK r.success = true := by
  cases r <;> rfl

structure XBDMContext (σ : Type) where
  target : σ
  sent : List Request := []

namespace XBDMContext

variable {σ : Type} [Xbdm σ]

def sendCommandSync (r : Request) (c : XBDMContext σ) : Reply × XBDMContext σ :=
  let (reply, target) := Xbdm.answer r c.target
  (reply, { target, sent := c.sent ++ [r] })

end XBDMContext

end XbdmGdbBridge
