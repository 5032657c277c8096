import XbdmGdbBridge.Rdcp.Answer

/-!
# Waiting for the completion of a request

`ExecuteXBDMPromise` on one thread and `Complete` or `Abandon` on another. The two take turns at each
access to what they share: the request in the queue, its status and message, its mutex and its
condition variable. A wait releases the mutex and blocks in one turn, and may end without a
notification.
-/

namespace XbdmGdbBridge.Rdcp

def INVALID : UInt32 := 0

def ERR_ABANDONED : UInt32 := 520

/-- How the select thread finishes a request. -/
inductive Ending where
  | complete (response : RDCPResponse)
  | abandon
deriving DecidableEq, Repr

def Ending.status : Ending → UInt32
  | complete response => response.status
  | abandon => ERR_ABANDONED

/-- `Abandon` leaves the message as it is. -/
def Ending.message (before : Bytes) : Ending → Bytes
  | complete response => response.message
  | abandon => before

/-- Where the executor thread is: in front of `Send`, of the lock of `WaitUntilCompleted` and of its
wait, in the wait, woken up and in front of the mutex again, or behind `WaitUntilCompleted`. -/
inductive ExecutorPlace where
  | send | lock | wait | blocked | relock | returned
deriving DecidableEq, Repr

/-- Where the select thread is: outside, in front of the assignments and of `notify_all`, or behind
it. -/
inductive SelectPlace where
  | outside
  | settle (ending : Ending)
  | notify
  | left
deriving DecidableEq, Repr

structure Rendezvous where
  executor : ExecutorPlace := .send
  selectThread : SelectPlace := .outside
  /-- `mutex_` is held. -/
  locked : Bool := false
  status : UInt32 := INVALID
  message : Bytes := []
deriving DecidableEq, Repr

/-- A turn of one of the threads; `wake` is a wakeup without a notification. -/
inductive Turn where
  | send | lock | wait | wake | relock
  | enter (ending : Ending) | settle | notify
deriving DecidableEq, Repr

/-- What the turn comes to, if its thread is there and not held up. -/
def Turn.take (s : Rendezvous) : Turn → Option Rendezvous
  | send => if s.executor = .send then some { s with executor := .lock } else none
  | lock =>
    if s.executor = .lock ∧ s.locked = false then some { s with executor := .wait, locked := true }
    else none
  | wait =>
    if s.executor = .wait then some { s with executor := .blocked, locked := false } else none
  | wake => if s.executor = .blocked then some { s with executor := .relock } else none
  | relock =>
    if s.executor = .relock ∧ s.locked = false then some { s with executor := .returned } else none
  -- The request is only completed or abandoned once it is in the queue.
  | enter ending =>
    if s.selectThread = .outside ∧ s.executor ≠ .send then
      some { s with selectThread := .settle ending }
    else none
  | settle =>
    match s.selectThread with
    | .settle ending => some { s with
        selectThread := .notify
        status := ending.status
        message := ending.message s.message }
    | _ => none
  | notify =>
    if s.selectThread = .notify then some { s with
      selectThread := .left
      executor := if s.executor = .blocked then .relock else s.executor }
    else none

end XbdmGdbBridge.Rdcp
