import Mathlib.Data.List.Dedup
import XbdmGdbBridge.Lib.Runs

/-!
# The select thread

`SelectThread` serves the connections registered with it, in two passes a turn: one asks each for its
descriptors, the other lets it process what `select` has found. Both serve a copy of the list, and
remove afterwards what has ended. Connections are added by any thread at any time. Beside it stands
what `XBDMContext` keeps of its notification channels.
-/

namespace XbdmGdbBridge.Networking

variable {κ : Type}

/-- The functions given to `AddConnection`. The one of a notification channel takes it out of
`notification_transports_`. -/
inductive OnClose (κ : Type) where
  | forget (transport : κ)
  | other
deriving DecidableEq, Repr

/-- Where the thread is. In a pass it has the entries still to be served and those to remove. -/
inductive Place (κ : Type) where
  | outside
  | head
  | selecting (toServe toRemove : List κ) (maxFd : Int)
  | waiting
  | processing (toServe toRemove : List κ)
  | aborted
deriving DecidableEq, Repr

structure SelectThread (κ : Type) where
  running : Bool := false
  place : Place κ := .outside
  selectables : List κ := []
  closeCallbacks : List (κ × OnClose κ) := []
  notificationTransports : List κ := []
  /-- History: the connections that were removed, those of them that had a callback, and the
  callbacks that were run, each with whether its connection was registered then. No step of the
  thread runs one. -/
  removed : List κ := []
  due : List κ := []
  ran : List (κ × Bool) := []
deriving DecidableEq, Repr

/-- What happens, with what the connections and `select` return. -/
inductive Event (κ : Type) where
  | start (selectSignaller : κ)
  | stop
  | addConnection (conn : κ)
  | addConnectionOnClose (conn : κ) (onClose : OnClose κ)
  | notificationChannelConnected (transport : κ)
  | beginTurn
  | select (maxFd : Int) (isShutdown : Bool)
  | endSelecting
  | wait (fds : Int)
  | process (valid : Bool)
  | endProcessing
deriving DecidableEq, Repr

namespace SelectThread

variable [DecidableEq κ]

def addConnection (s : SelectThread κ) (conn : κ) : SelectThread κ :=
  { s with selectables := s.selectables ++ [conn] }

/-- `close_callbacks_[conn] = on_close`. -/
def assignCallback (s : SelectThread κ) (conn : κ) (onClose : OnClose κ) : SelectThread κ :=
  { s with closeCallbacks :=
    (conn, onClose) :: s.closeCallbacks.filter fun entry => entry.1 ≠ conn }

def addConnectionOnClose (s : SelectThread κ) (conn : κ) (onClose : OnClose κ) : SelectThread κ :=
  (s.addConnection conn).assignCallback conn onClose

def hasCallback (s : SelectThread κ) (conn : κ) : Bool :=
  (s.closeCallbacks.lookup conn).isSome

/-- The transport is a new one. -/
def isNew (s : SelectThread κ) (transport : κ) : Bool :=
  transport ∉ s.selectables ∧ transport ∉ s.notificationTransports ∧ transport ∉ s.removed ∧
    !s.hasCallback transport

def onNotificationChannelConnected (s : SelectThread κ) (transport : κ) : SelectThread κ :=
  { s with notificationTransports := s.notificationTransports ++ [transport] }.addConnectionOnClose
    transport (.forget transport)

/-- The end of `ApplyAndEraseIf`. -/
def eraseAll (s : SelectThread κ) (toRemove : List κ) : SelectThread κ :=
  let gone := (s.selectables.filter (· ∈ toRemove)).dedup
  { s with
    selectables := s.selectables.filter (· ∉ toRemove)
    removed := s.removed ++ gone
    due := s.due ++ gone.filter s.hasCallback }

/-- `none` where it cannot happen. -/
def next (e : Event κ) (s : SelectThread κ) : Option (SelectThread κ) :=
  match e, s.place with
  | .start selectSignaller, .outside =>
    some ({ s with running := true, place := .head }.addConnection selectSignaller)
  | .stop, _ => some { s with running := false }
  | .addConnection conn, _ => some (s.addConnection conn)
  | .addConnectionOnClose conn onClose, _ => some (s.addConnectionOnClose conn onClose)
  | .notificationChannelConnected transport, _ =>
    if s.isNew transport then some (s.onNotificationChannelConnected transport) else none
  | .beginTurn, .head =>
    if s.running then some { s with place := .selecting s.selectables [] (-1) }
    else some { s with place := .outside }
  | .select fd isShutdown, .selecting (entry :: toServe) toRemove maxFd =>
    if fd < 0 then
      let toRemove := if isShutdown then toRemove ++ [entry] else toRemove
      some { s with place := .selecting toServe toRemove maxFd }
    else some { s with place := .selecting toServe toRemove (max maxFd fd) }
  | .endSelecting, .selecting [] toRemove maxFd =>
    -- Without a descriptor to wait for the assertion fails.
    some { s.eraseAll toRemove with place := if maxFd < 0 then .aborted else .waiting }
  | .wait fds, .waiting =>
    if fds < 0 then some { s with place := .head }
    else some { s with place := .processing s.selectables [] }
  | .process valid, .processing (entry :: toServe) toRemove =>
    let toRemove := if valid then toRemove else toRemove ++ [entry]
    some { s with place := .processing toServe toRemove }
  | .endProcessing, .processing [] toRemove =>
    some { s.eraseAll toRemove with place := .head }
  | _, _ => none

/-- The transitions. -/
def Step (e : Event κ) (s s' : SelectThread κ) : Prop :=
  next e s = some s'

end SelectThread

end XbdmGdbBridge.Networking
