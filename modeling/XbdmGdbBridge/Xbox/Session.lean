import XbdmGdbBridge.Lib.Interleaving
import XbdmGdbBridge.Xbox.Bridge

/-!
# A session: two threads at the bridge

The thread that handles GDB's packets works through `HandleVCont` while the notification thread
hands every notification to the debugger and to the bridge, in either order. They share the bridge
and take turns at each call to the debugger and to the transport. `SendThreadStopPacket` ends in
such a call and is one turn.
-/

namespace XbdmGdbBridge

open Lib CText Gdb

namespace GDBBridge

variable {σ : Type} [Xbdm σ]

abbrev Calls (σ : Type) := Task Fault (GDBBridge σ)

section Elements

def unprocessedCalls (processed : List UInt32) (threadId : Int32) : List UInt32 → Calls σ
  | [] => .done
  | id :: rest =>
    if processed.contains id then unprocessedCalls processed threadId rest
    else .call (ask (XBDMDebugger.continueThread threadId.toUInt32)) fun _ =>
      unprocessedCalls processed threadId rest

def continueCalls (processed : List UInt32) (threadId : Int32) : Calls σ :=
  if processed = [] ∧ threadId ≤ 0 then .once (ask XBDMDebugger.continueAll)
  else if 0 < threadId then .once (ask (XBDMDebugger.continueThread threadId.toUInt32))
  else .call (known (·.threadIds)) (unprocessedCalls processed threadId)

def stepCalls (threadId : Int32) : Calls σ :=
  if 0 < threadId then
    .call (ask (XBDMDebugger.setActiveThread threadId.toUInt32)) fun _ =>
      .call (ask XBDMDebugger.stepInstruction) fun stepped =>
        if !stepped then .once (sendError EFAULT) else .done
  else .once (sendError EBADMSG)

def actionCalls (processed : List UInt32) (threadId : Int32) : Bytes → Calls σ
  | [] => .once (Program.fault .emptyAccess : Handler σ Unit)
  | code :: _ =>
    if code = byte 'c' then continueCalls processed threadId
    else if code = byte 's' then stepCalls threadId
    else .once sendEmpty

def elementsCalls : List UInt32 → List Bytes → Calls σ
  | _, [] => .done
  | processed, command :: rest =>
    match elementThreadId command with
    | none => (Task.once (sendError EBADMSG)).andThen (elementsCalls processed rest)
    | some threadId =>
      (actionCalls (noteProcessed processed threadId) threadId command).andThen
        (elementsCalls (noteProcessed processed threadId) rest)

/-- `HandleVCont` up to `MarkWaitingForStopPacket`. -/
def vContCalls (args : Bytes) : Calls σ :=
  (if args = [] then Task.once (sendError EBADMSG) else .done).andThen
    (elementsCalls [] (split (byte ';') args))

end Elements

/-- Where the packet thread is in `HandleVCont`. -/
inductive Client (σ : Type) : Type 1 where
  | idle
  | elements (calls : Calls σ)
  | mark
  | report (thread : ThreadRef)
  | settle (waiting : Bool)
  | go

/-- One turn of the packet thread. -/
inductive Client.Step : Client σ → GDBBridge σ → Client σ → GDBBridge σ → Prop where
  | elements {t t' : Calls σ} {b b' : GDBBridge σ} (h : Task.Step t b t' b') :
      Step (.elements t) b (.elements t') b'
  | turn {b : GDBBridge σ} : Step (.elements .done) b .mark b
  | found {b : GDBBridge σ} {i : ThreadRef}
      (h : (XBDMDebugger.getFirstStoppedThread b.debugger).1 = some i) :
      Step .mark b (.report i)
        { b with debugger := (XBDMDebugger.getFirstStoppedThread b.debugger).2 }
  | missed {b : GDBBridge σ} (h : (XBDMDebugger.getFirstStoppedThread b.debugger).1 = none) :
      Step .mark b (.settle true)
        { b with debugger := (XBDMDebugger.getFirstStoppedThread b.debugger).2 }
  | report {b b' : GDBBridge σ} {i : ThreadRef} {sent : Bool}
      (h : sendThreadStopPacket (some i) b = .ok (sent, b')) : Step (.report i) b (.settle false) b'
  | settle {b : GDBBridge σ} {waiting : Bool} :
      Step (.settle waiting) b .go { b with waitingOnStopPacket := waiting }
  | go {b : GDBBridge σ} :
      Step .go b .idle { b with debugger := (XBDMDebugger.go b.debugger).2 }

/-- Where the notification thread is. `debugger` is inside the debugger's handler, with the bridge's
handler still to come if `report` is set; the other three are inside the bridge's handler, with the
debugger's still to come. -/
inductive Notifier (σ : Type) : Type 1 where
  | idle
  | debugger (calls : Calls σ) (report : Bool)
  | check (rest : Calls σ)
  | lookup (rest : Calls σ)
  | send (thread : Option ThreadRef) (rest : Calls σ)

/-- One turn of the notification thread. -/
inductive Notifier.Step : Notifier σ → GDBBridge σ → Notifier σ → GDBBridge σ → Prop where
  | debugger {t t' : Calls σ} {b b' : GDBBridge σ} {report : Bool} (h : Task.Step t b t' b') :
      Step (.debugger t report) b (.debugger t' report) b'
  | turn {b : GDBBridge σ} : Step (.debugger .done true) b (.check .done) b
  | finish {b : GDBBridge σ} : Step (.debugger .done false) b .idle b
  | skip {b : GDBBridge σ} {rest : Calls σ} (h : b.waitingOnStopPacket = false) :
      Step (.check rest) b (.debugger rest false) b
  | pass {b : GDBBridge σ} {rest : Calls σ} (h : b.waitingOnStopPacket = true) :
      Step (.check rest) b (.lookup rest) b
  | lookup {b : GDBBridge σ} {rest : Calls σ} :
      Step (.lookup rest) b (.send b.debugger.activeThread rest) b
  | send {b b' : GDBBridge σ} {thread : Option ThreadRef} {rest : Calls σ} {sent : Bool}
      (h : sendThreadStopPacket thread b = .ok (sent, b')) :
      Step (.send thread rest) b (.debugger rest false) b'

/-- The notifications the bridge may report to GDB. -/
def reports : Notification → Bool
  | .executionStateChanged state => state = .stopped
  | .breakpoint _ _ | .watchpoint _ _ _ _ | .singleStep _ _ | .exception _ _ => true
  | _ => false

def DebuggerOnly (b b' : GDBBridge σ) : Prop :=
  ∃ d, b' = { b with debugger := d }

/-- Who of the two subscribers is handed a notification first. -/
inductive First where
  | debugger | bridge
deriving DecidableEq, Repr

/-- `XBDMContext::DispatchNotification` on its own: one subscriber after the other. -/
def dispatchNotification (first : First) (n : Notification) : Handler σ Unit := do
  match first with
  | .debugger =>
    attempt (XBDMDebugger.onNotification n)
    onNotification n
  | .bridge =>
    onNotification n
    attempt (XBDMDebugger.onNotification n)

/-- Some way to cut the debugger's handling of a notification into calls. -/
structure Handles (n : Notification) (calls : Calls σ) : Prop where
  whole : calls.run = attempt (XBDMDebugger.onNotification n)
  only : calls.All DebuggerOnly

end GDBBridge

structure Session (σ : Type) : Type 1 where
  bridge : GDBBridge σ
  client : GDBBridge.Client σ := .idle
  notifier : GDBBridge.Notifier σ := .idle
  /-- How many replies had been sent when the latest `vCont` packet was taken up. -/
  since : Option Nat := none

namespace Session

open GDBBridge

variable {σ : Type} [Xbdm σ]

inductive Event where
  | resume (args : Bytes)
  | client
  | notify (n : Notification)
  | notifier

inductive Step : Session σ → Event → Session σ → Prop where
  | resume {s : Session σ} (args : Bytes) (free : s.client = .idle) :
      Step s (.resume args) { s with
        client := .elements (vContCalls args)
        since := some s.bridge.replies.length }
  | client {s : Session σ} {c : Client σ} {b : GDBBridge σ} (h : s.client.Step s.bridge c b) :
      Step s .client { s with client := c, bridge := b }
  | debuggerFirst {s : Session σ} {n : Notification} {calls : Calls σ} (handles : Handles n calls)
      (free : s.notifier = .idle) :
      Step s (.notify n) { s with notifier := .debugger calls (reports n) }
  | bridgeFirst {s : Session σ} {n : Notification} {calls : Calls σ} (handles : Handles n calls)
      (free : s.notifier = .idle) :
      Step s (.notify n) { s with
        notifier := if reports n then .check calls else .debugger calls false }
  | notifier {s : Session σ} {n : Notifier σ} {b : GDBBridge σ}
      (h : s.notifier.Step s.bridge n b) : Step s .notifier { s with notifier := n, bridge := b }

/-- The sessions that begin with the bridge `b` and take only steps the guard allows. -/
inductive Reached (guard : Session σ → Event → Prop) (b : GDBBridge σ) : Session σ → Prop where
  | start : Reached guard b { bridge := b }
  | step {s s' : Session σ} {e : Event} (before : Reached guard b s) (allowed : guard s e)
      (h : Step s e s') : Reached guard b s'

/-- The replies since the latest `vCont` packet was taken up. -/
def answers (s : Session σ) : List GDBPacket :=
  match s.since with
  | none => []
  | some n => s.bridge.replies.drop n

end Session

end XbdmGdbBridge
