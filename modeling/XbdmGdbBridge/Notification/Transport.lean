import XbdmGdbBridge.Notification.Messages

/-!
# The notification channel

`XBDMNotificationTransport`: the lines in the read buffer are handled where they are, and removed
from it together behind the last one.
-/

namespace XbdmGdbBridge.Notifications

open Lib Rdcp

variable {ν : Type}

structure XBDMNotificationTransport (ν : Type) where
  readBuffer : Bytes := []
  helloReceived : Bool := false
  /-- What was handed to `notification_handler_` so far. -/
  delivered : List (XBDMNotification ν) := []
deriving DecidableEq, Repr

namespace XBDMNotificationTransport

/-- The state, and the fault that ended the call if there was one. -/
abbrev Outcome (ν : Type) := XBDMNotificationTransport ν × Option Fault

def handleNotification (custom : Constructors ν) (t : XBDMNotificationTransport ν) (memory : Bytes)
    (length : Nat) : Outcome ν :=
  if memory.take length = ascii "hello" then ({ t with helloReceived := true }, none)
  else
    match parseXBDMNotification custom memory length with
    | .error fault => (t, some fault)
    | .ok none => (t, none)
    | .ok (some notification) => ({ t with delivered := t.delivered ++ [notification] }, none)

/-- The loop of `OnBytesRead` from a place in the buffer on, with the bytes it passes. -/
def processMessages (custom : Constructors ν) :
    Nat → Bytes → XBDMNotificationTransport ν → Nat × Outcome ν
  | 0, _, t => (0, t, none)
  | fuel + 1, buffer, t =>
    match search kTerminator buffer with
    | none => (0, t, none)
    | some length =>
      let packetLength := length + kTerminator.length
      match t.handleNotification custom buffer length with
      | (t, some fault) => (packetLength, t, some fault)
      | (t, none) =>
        let (bytesProcessed, outcome) := processMessages custom fuel (buffer.drop packetLength) t
        (packetLength + bytesProcessed, outcome)

def shiftReadBuffer (t : XBDMNotificationTransport ν) (shiftBytes : Nat) :
    XBDMNotificationTransport ν :=
  if shiftBytes > t.readBuffer.length then t
  else { t with readBuffer := t.readBuffer.drop shiftBytes }

-- Every packet has a byte, so the length is fuel enough.
def onBytesRead (custom : Constructors ν) (t : XBDMNotificationTransport ν) : Outcome ν :=
  match processMessages custom (t.readBuffer.length + 1) t.readBuffer t with
  | (_, t, some fault) => (t, some fault)
  | (bytesProcessed, t, none) => (t.shiftReadBuffer bytesProcessed, none)

/-- The reads of a connection; a fault ends it. -/
def onReads (custom : Constructors ν) : XBDMNotificationTransport ν → List Bytes → Outcome ν
  | t, [] => (t, none)
  | t, chunk :: chunks =>
    match onBytesRead custom { t with readBuffer := t.readBuffer ++ chunk } with
    | (t, some fault) => (t, some fault)
    | (t, none) => onReads custom t chunks

end XBDMNotificationTransport

end XbdmGdbBridge.Notifications
