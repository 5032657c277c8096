import XbdmGdbBridge.Lib.Program
import XbdmGdbBridge.Xbox.Target

/-!
# Attaching to the target

`XBDMDebugger::Attach` and `Shutdown` with what they take hold of: a notification handler of the
context, and the debugger mode of the target. What the requests are answered and whether the
notification server listens is given for each call. The wait for a safe state before a handler is
registered again changes none of this and is left out.
-/

namespace XbdmGdbBridge

open Lib

/-- The requests `Attach` and `Shutdown` make for themselves. -/
inductive ControlRequest where
  | notifyAt (port : UInt16) (drop debug : Bool)
  | debugger (connect : Bool)
  | threads
  | modules
  | walkMem
deriving DecidableEq, Repr

def ControlRequest.isOK : ControlRequest → StatusCode → Bool
  | .debugger _, s => s == .ok || s == .errNotDebuggable
  | .notifyAt _ _ _, s => s == .ok
  | .threads, s | .modules, s | .walkMem, s => s == .okMultilineResponse

/-- Whose `OnNotification` a handler calls. -/
inductive HandlerOwner where
  | debugger
  | other
deriving DecidableEq, Repr

structure Attachment where
  /-- `notification_handlers_` and `next_notification_handler_id_` of the context. -/
  handlers : List (Nat × HandlerOwner) := []
  nextHandlerId : Nat := 1
  /-- `notification_handler_id_` of the debugger. -/
  handlerId : Nat := 0
  isAttached : Bool := false
  targetNotDebuggable : Bool := false
  /-- History: the requests and how they were answered, oldest first. -/
  sent : List (ControlRequest × StatusCode) := []
deriving DecidableEq, Repr

namespace Attachment

/-- What an `Attach` meets with. -/
structure Attempt where
  /-- The port of the notification server, if it listens already. -/
  port : Option UInt16
  /-- `StartNotificationListener`, and the port thereafter. -/
  started : Bool
  startedPort : Option UInt16
  notifyAtDrop : StatusCode
  notifyAt : StatusCode
  debugger : StatusCode
  threads : StatusCode
  modules : StatusCode
  walkMem : StatusCode
deriving DecidableEq, Repr

abbrev Op (α : Type) := StateM Attachment α

def sendCommandSync (r : ControlRequest) (status : StatusCode) : Op Bool := do
  modify fun a => { a with sent := a.sent ++ [(r, status)] }
  return r.isOK status

def registerNotificationHandler (owner : HandlerOwner) : Op Nat := do
  let id := (← get).nextHandlerId
  modify fun a => { a with
    nextHandlerId := id + 1
    handlers := a.handlers ++ [(id, owner)] }
  return id

def unregisterNotificationHandler (id : Nat) : Op Unit :=
  if id = 0 then pure ()
  else modify fun a => { a with handlers := a.handlers.filter fun entry => entry.1 ≠ id }

def requestDebugNotifications (port : UInt16) (drop notify : StatusCode) : Op Bool := do
  let _ ← sendCommandSync (.notifyAt port true true) drop
  sendCommandSync (.notifyAt port false true) notify

-- `enabled` is not handed on: the request connects by default.
def setDebugger (_enabled : Bool) (status : StatusCode) : Op Bool := do
  if ← sendCommandSync (.debugger true) status then
    modify fun a => { a with targetNotDebuggable := status == .errNotDebuggable }
    return true
  else return false

/-- The port of the server, which is started if need be. -/
def serverPort (o : Attempt) : Except Fault (Option UInt16) :=
  match o.port with
  | some port => .ok port
  | none =>
    if o.started then
      match o.startedPort with
      | some port => .ok port
      | none => .error .assertion
    else .ok none

/-- The threads, the modules and the memory map are fetched. -/
def fetchAll (o : Attempt) : Op Bool := do
  if ← sendCommandSync .threads o.threads then
    if ← sendCommandSync .modules o.modules then
      sendCommandSync .walkMem o.walkMem
    else return false
  else return false

/-- The requests of `Attach`, with the handler registered under this id. -/
def requestAll (port : UInt16) (id : Nat) (o : Attempt) : Op Bool := do
  if !(← requestDebugNotifications port o.notifyAtDrop o.notifyAt) then
    unregisterNotificationHandler id
    return false
  else if !(← setDebugger true o.debugger) then
    unregisterNotificationHandler id
    return false
  else if !(← fetchAll o) then return false
  else
    modify fun a => { a with isAttached := true }
    return true

def attachAt (port : UInt16) (o : Attempt) : Op Bool := do
  unregisterNotificationHandler (← get).handlerId
  let id ← registerNotificationHandler .debugger
  modify fun a => { a with handlerId := id }
  requestAll port id o

def attach (o : Attempt) : Program Fault Attachment Bool := fun a =>
  match serverPort o with
  | .error fault => .error fault
  | .ok none => .ok (false, a)
  | .ok (some port) => .ok (attachAt port o a)

def shutdown (debugger : StatusCode) : Op Unit := do
  modify fun a => { a with isAttached := false }
  let _ ← setDebugger false debugger
  unregisterNotificationHandler (← get).handlerId
  modify fun a => { a with handlerId := 0 }

end Attachment

end XbdmGdbBridge
