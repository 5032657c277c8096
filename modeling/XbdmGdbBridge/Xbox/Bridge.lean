import XbdmGdbBridge.Gdb.Transport
import XbdmGdbBridge.Xbox.Notifications
import XbdmGdbBridge.Xbox.Registers

/-!
# The GDB side of the bridge

`GDBBridge` with a connected client: every handler of `HandlePacket`, and what the bridge does
with a notification. A reply is what a handler gives to `GDBTransport::Send`.
-/

namespace XbdmGdbBridge

open Lib CText Gdb

structure GDBBridge (σ : Type) where
  gdb : GDBTransport := {}
  debugger : XBDMDebugger σ
  threadIdForCommand : List (UInt8 × Int32) := []
  threadInfoBuffer : List Int32 := []
  waitingOnStopPacket : Bool := false
  /-- History: what was given to `GDBTransport::Send`, oldest first. -/
  replies : List GDBPacket := []

namespace GDBBridge

variable {σ : Type} [Xbdm σ]

abbrev Handler (σ α : Type) := Program Fault (GDBBridge σ) α

/-- A bridge that has just been created, for a target that answers as listed. -/
def fresh (replies : List Reply := []) (threads : List Thread := []) : GDBBridge Script :=
  { debugger := { context := { target := ⟨replies⟩ }, threads } }

def debuggerPart : Part (GDBBridge σ) (XBDMDebugger σ) where
  read b := b.debugger
  write d b := { b with debugger := d }

/-- Runs a debugger operation. -/
def ask (x : XBDMDebugger.Op σ α) : Handler σ α :=
  Program.on debuggerPart (Program.total x)

/-- Runs a debugger operation that may fault. -/
def attempt (x : XBDMDebugger.Handler σ α) : Handler σ α :=
  Program.on debuggerPart x

def known (f : XBDMDebugger σ → α) : Handler σ α := do
  return f (← get).debugger

section Sending

def send (data : Bytes) : Handler σ Unit :=
  Program.total (modify fun b => { b with
    gdb := b.gdb.send (.ofData data)
    replies := b.replies ++ [.ofData data] })

def sendOK : Handler σ Unit := send (ascii "OK")

def sendEmpty : Handler σ Unit := send []

def EPERM : UInt8 := 1
def EFAULT : UInt8 := 14
def EBUSY : UInt8 := 16
def EINVAL : UInt8 := 22
def EBADMSG : UInt8 := 74

def sendError (error : UInt8) : Handler σ Unit :=
  send (byte 'E' :: hexByte error)

def watchName : AccessType → Option String
  | .read => some "rwatch"
  | .write => some "watch"
  | _ => none

def stopDetails : StopReason → Bytes
  | .watchpoint access address =>
    match watchName access with
    | some name => ascii name ++ byte ':' :: hexPadded 8 address.toNat ++ [byte ';']
    | none => []
  | _ => []

def stopPacket (threadId : UInt32) (reason : StopReason) : Bytes :=
  byte 'T' :: hexPadded 2 reason.signal ++ ascii "thread:" ++ hexText threadId.toNat ++
    byte ';' :: stopDetails reason

def sendThreadStopPacket (thread : Option ThreadRef) : Handler σ Bool := do
  match thread with
  | none => return false
  | some i =>
    let t ← known (·.threadAt i)
    if !t.stopped then return false
    else
      match t.lastStopReason with
      | none => return false
      | some reason =>
        modify fun b => { b with waitingOnStopPacket := false }
        send (stopPacket t.threadId reason)
        return true

end Sending

section Unsupported

def handleDeprecatedCommand : Handler σ Unit := sendEmpty
def handleEnableExtendedMode : Handler σ Unit := sendEmpty
def handleArgv : Handler σ Unit := sendEmpty
def handleBackwardContinue : Handler σ Unit := sendEmpty
def handleBackwardStep : Handler σ Unit := sendEmpty
def handleContinue : Handler σ Unit := sendEmpty
def handleContinueWithSignal : Handler σ Unit := sendEmpty
def handleFileIO : Handler σ Unit := sendEmpty
def handleWriteGeneralRegisters : Handler σ Unit := sendEmpty
def handleStepInstruction : Handler σ Unit := sendEmpty
def handleSignalStep : Handler σ Unit := sendEmpty
def handleKill : Handler σ Unit := sendEmpty
def handleRestartSystem : Handler σ Unit := sendEmpty
def handleSingleStep : Handler σ Unit := sendEmpty
def handleSingleStepWithSignal : Handler σ Unit := sendEmpty
def handleSearchBackward : Handler σ Unit := sendEmpty
def handleCheckThreadAlive : Handler σ Unit := sendEmpty

def handleBCommandGroup (data : Bytes) : Handler σ Unit :=
  match data with
  | _ :: subcommand :: _ =>
    if subcommand = byte 'c' then handleBackwardContinue
    else if subcommand = byte 's' then handleBackwardStep
    else handleDeprecatedCommand
  | _ => sendEmpty

end Unsupported

section Control

def goUnlessStarted : Handler σ Unit := do
  if (← known (·.state)) ≠ .started then
    let _ ← ask XBDMDebugger.go

def reportActiveThread : Handler σ Unit := do
  match ← known (·.activeThread) with
  | none => Program.fault .assertion
  | some i => if !(← sendThreadStopPacket (some i)) then sendOK

def handleInterruptRequest : Handler σ Unit := do
  if !(← ask XBDMDebugger.haltAll) then sendError EBADMSG
  else
    goUnlessStarted
    reportActiveThread

def handleQueryHaltReason : Handler σ Unit := do
  match ← ask XBDMDebugger.getFirstStoppedThread with
  | none => sendError EPERM
  | some i =>
    if !(← known (·.threadAt i)).stopped then sendError EPERM
    else if !(← sendThreadStopPacket (some i)) then sendEmpty

def handleDetach : Handler σ Unit := do
  let _ ← ask XBDMDebugger.continueAll
  let _ ← ask XBDMDebugger.go
  sendOK

end Control

section Registers

-- Nothing registered for the command counts as 0, any thread.
def getThreadIDForCommand (b : GDBBridge σ) (command : UInt8) : Int32 :=
  (b.threadIdForCommand.lookup command).getD 0

/-- The thread a register command works on: `0` stands for any thread. -/
def selectedThread (d : XBDMDebugger σ) (threadId : Int32) : Option ThreadRef :=
  if threadId = 0 then d.getThread (d.anyThreadID.getD 0xffffffff)
  else d.getThread threadId.toUInt32

def handleSelectThreadForCommandGroup (data : Bytes) : Handler σ Unit := do
  match data with
  | _ :: operation :: id :: rest =>
    match hexInt32 (id :: rest) with
    | none => sendError EBADMSG
    | some threadId =>
      modify fun b => { b with threadIdForCommand :=
        (operation, threadId) :: b.threadIdForCommand.filter (fun entry => entry.1 ≠ operation) }
      sendOK
  | _ => sendError EBADMSG

def handleReadGeneralRegisters : Handler σ Unit := do
  let threadId := (← get).getThreadIDForCommand (byte 'g')
  if threadId < 0 then sendEmpty
  else
    match ← known (selectedThread · threadId) with
    | none => sendError EBADMSG
    | some i =>
      if !(← ask (XBDMDebugger.fetchContextSync i)) then sendError EBUSY
      else
        let _ ← ask (XBDMDebugger.fetchFloatContextSync i)
        let t ← known (·.threadAt i)
        send (Registers.serializeRegisters t.context t.floatContext)

/-- The answer to a register read once the contexts have been fetched. -/
def answerRegister (index : Int32) (t : Thread) : Handler σ Unit :=
  match Registers.getRegister index.toUInt32 t.context t.floatContext with
  | .error e => Program.fault e
  | .ok none => sendEmpty
  | .ok (some value) => send (hexText value.toNat)

def handleReadRegister (data : Bytes) : Handler σ Unit := do
  match hexInt32 (data.drop 1) with
  | none => sendError EINVAL
  | some index =>
    let threadId := (← get).getThreadIDForCommand (byte 'p')
    if threadId < 0 then sendEmpty
    else
      match ← known (selectedThread · threadId) with
      | none => sendError EBADMSG
      | some i =>
        if index < 19 then
          if !(← ask (XBDMDebugger.fetchContextSync i)) then sendError EBUSY
          else answerRegister index (← known (·.threadAt i))
        else
          let _ ← ask (XBDMDebugger.fetchFloatContextSync i)
          answerRegister index (← known (·.threadAt i))

def writeGeneralRegister (i : ThreadRef) (index : Int32) (value : UInt64) : Handler σ Unit := do
  if !(← ask (XBDMDebugger.fetchContextSync i)) then sendError EBUSY
  else
    match (← known (·.threadAt i)).context.bind
        (Registers.setRegister index.toUInt32 value.toUInt32) with
    | none => sendError EBUSY
    | some context =>
      ask (XBDMDebugger.update i fun t => { t with context := some context })
      if !(← ask (XBDMDebugger.pushContextSync i)) then sendError EBUSY else sendOK

def writeFloatRegister (i : ThreadRef) (index : Int32) (value : UInt64) : Handler σ Unit := do
  let _ ← ask (XBDMDebugger.fetchFloatContextSync i)
  match (← known (·.threadAt i)).floatContext.bind
      (Registers.setFloatRegister index.toUInt32 value) with
  | none => sendError EBUSY
  | some context =>
    ask (XBDMDebugger.update i fun t => { t with floatContext := some context })
    if !(← ask (XBDMDebugger.pushFloatContextSync i)) then sendError EBUSY else sendOK

def handleWriteRegister (data : Bytes) : Handler σ Unit := do
  match GDBPacket.memchr (byte '=') data with
  | none => sendError EINVAL
  | some split =>
    match hexInt32 (data.drop 1), hexUInt64 (data.drop (split + 1)) with
    | some index, some value =>
      let threadId := (← get).getThreadIDForCommand (byte 'P')
      if threadId < 0 then sendEmpty
      else
        match ← known (selectedThread · threadId) with
        | none => sendError EBADMSG
        | some i =>
          if index < 19 then writeGeneralRegister i index value
          else writeFloatRegister i index value
    | _, _ => sendError EINVAL

end Registers

section Memory

def handleReadMemory (data : Bytes) : Handler σ Unit := do
  match GDBPacket.memchr (byte ',') data with
  -- The text behind a missing comma would start beyond the end of the packet.
  | none => Program.fault .range
  | some split =>
    match hexUInt32 ((data.take split).drop 1), hexUInt32 (data.drop (split + 1)) with
    | some address, some length =>
      match ← attempt (XBDMDebugger.getMemory address length) with
      | some memory => send (hexEncode memory)
      | none => sendError EFAULT
    | _, _ => sendError EBADMSG

/-- The parts of an `M` or `X` packet: address and length text, and the data behind the colon
when there is one. `none` when a text would end before it starts. -/
def writeParts (data : Bytes) : Option (Bytes × Bytes × Option Bytes) :=
  match GDBPacket.memchr (byte ',') data with
  | none => none
  | some comma =>
    let address := (data.take comma).drop 1
    match GDBPacket.memchr (byte ':') data with
    | none => some (address, data.drop (comma + 1), none)
    | some colon =>
      if colon ≤ comma then none
      else some (address, (data.take colon).drop (comma + 1), some (data.drop (colon + 1)))

/-- `boost::algorithm::unhex` into the start of a vector without elements: the first decoded byte
is already written out of bounds, and text that does not decode throws. -/
def unhexIntoEmpty : Bytes → Except Fault Unit
  | [] => .ok ()
  | [_] => .error .exception
  | high :: low :: _ =>
    if isDigit 16 high && isDigit 16 low then .error .emptyAccess else .error .exception

def finishWrite (address length : UInt32) (data : Bytes) : Handler σ Unit := do
  if data.length ≠ length.toNat then sendError EBADMSG
  else if !(← attempt (XBDMDebugger.setMemory address data)) then sendError EFAULT
  else sendOK

/-- What the two memory writes have in common; `store` takes the text behind the colon. -/
def handleWrite (store : UInt32 → UInt32 → Bytes → Handler σ Unit) (data : Bytes) :
    Handler σ Unit :=
  match writeParts data with
  | none => Program.fault .range
  | some (addressText, lengthText, payload) =>
    match hexUInt32 lengthText with
    | none => sendOK
    | some length =>
      match hexUInt32 addressText with
      | none => sendError EBADMSG
      | some address =>
        match payload with
        | none => Program.fault .range
        | some text => store address length text

def storeHex (address length : UInt32) (text : Bytes) : Handler σ Unit :=
  match unhexIntoEmpty text with
  | .error e => Program.fault e
  | .ok () => finishWrite address length []

def handleWriteMemory (data : Bytes) : Handler σ Unit :=
  handleWrite storeHex data

def handleWriteMemoryBinary (data : Bytes) : Handler σ Unit :=
  handleWrite finishWrite data

end Memory

section Breakpoints

structure BreakpointCommand where
  type : Int32
  address : UInt32
  kind : Int32
deriving DecidableEq, Repr

def extractBreakpointCommandParams (data : Bytes) : Option BreakpointCommand :=
  match split (byte ';') data with
  | [] => none
  | first :: _ =>
    match split (byte ',') first with
    | [type, address, kind] =>
      match hexInt32 (type.drop 1), hexUInt32 address, hexInt32 kind with
      | some type, some address, some kind => some ⟨type, address, kind⟩
      | _, _, _ => none
    | _ => none

/-- What inserting and removing have in common. -/
def handleBreakpointType (software : UInt32 → XBDMDebugger.Op σ Bool)
    (readWatch writeWatch : UInt32 → UInt32 → XBDMDebugger.Op σ Bool) (data : Bytes) :
    Handler σ Unit := do
  match extractBreakpointCommandParams data with
  | none => sendError EBADMSG
  | some c =>
    if c.type = 0 then
      let _ ← ask (software c.address)
      sendOK
    -- A hardware breakpoint is refused, and refused again behind the switch.
    else if c.type = 1 then
      sendEmpty
      sendEmpty
    else if c.type = 2 then
      let _ ← ask (writeWatch c.address c.kind.toUInt32)
      sendOK
    else if c.type = 3 then
      let _ ← ask (readWatch c.address c.kind.toUInt32)
      sendOK
    else if c.type = 4 then
      let _ ← ask (readWatch c.address c.kind.toUInt32)
      let _ ← ask (writeWatch c.address c.kind.toUInt32)
      sendOK
    else sendEmpty

def handleRemoveBreakpointType (data : Bytes) : Handler σ Unit :=
  handleBreakpointType XBDMDebugger.removeBreakpoint XBDMDebugger.removeReadWatch
    XBDMDebugger.removeWriteWatch data

def handleInsertBreakpointType (data : Bytes) : Handler σ Unit :=
  handleBreakpointType XBDMDebugger.addBreakpoint XBDMDebugger.addReadWatch
    XBDMDebugger.addWriteWatch data

end Breakpoints

section Queries

def handleQueryAttached : Handler σ Unit := send (ascii "1")

/-- The features the source names, with what it appends to its answer for each. -/
def namedFeatures : List (Bytes × Bytes) :=
  [(ascii "multiprocess+", ascii "multiprocess-;"),
    (ascii "swbreak+", ascii "swbreak+;"),
    (ascii "hwbreak+", ascii "hwbreak-;"),
    (ascii "qRelocInsn+", ascii "qRelocInsn-;"),
    (ascii "fork-events+", ascii "fork-events-;"),
    (ascii "vfork-events+", ascii "vfork-events-;"),
    (ascii "exec-events+", ascii "exec-events-;"),
    (ascii "vContSupported+", ascii "vContSupported+;"),
    (ascii "QThreadEvents+", ascii "QThreadEvents-;"),
    (ascii "no-resumed+", ascii "no-resumed-;"),
    (ascii "xmlRegisters=i386", [])]

-- `back()` of an empty feature is out of bounds.
def featureAnswer (feature : Bytes) : Except Fault Bytes :=
  match namedFeatures.lookup feature with
  | some answer => .ok answer
  | none =>
    match feature.getLast? with
    | none => .error .emptyAccess
    | some last => .ok (if last = byte '+' then feature.dropLast ++ [byte '-'] else [])

def featureAnswers : List Bytes → Except Fault Bytes
  | [] => .ok []
  | feature :: rest => do
    let first ← featureAnswer feature
    let others ← featureAnswers rest
    return first ++ others

def handleQuerySupported (data : Bytes) : Handler σ Unit := do
  match GDBPacket.memchr (byte ':') data with
  | none => sendEmpty
  | some colon =>
    match featureAnswers (split (byte ';') (data.drop (colon + 1))) with
    | .error e => Program.fault e
    | .ok answers => send (ascii "PacketSize=4096;qXfer:features:read+;" ++ answers)

def stopReasonText : StopReason → String
  | .unknown => "UNKNOWN_STATE"
  | .debugstr => "debugstr"
  | .assertion => "assert"
  | .breakpoint => "breakpoint"
  | .singleStep => "single_step"
  | .watchpoint _ _ => "watchpoint"
  | .executionStateChanged => "execution_state_changed"
  | .exception => "exception"
  | .threadCreated => "thread_created"
  | .threadTerminated => "thread_terminated"
  | .moduleLoaded => "module_loaded"
  | .sectionLoaded => "section_loaded"
  | .sectionUnloaded => "section_unloaded"
  | .rip => "RIP"
  | .ripStop => "RIP_Stop"

/-- The whole 128-byte buffer is encoded, its unused end included. -/
def threadExtraInfo (threadId : Int32) (state : String) : Bytes :=
  let text := ascii (toString threadId.toInt) ++ byte ' ' :: ascii state
  hexEncode (text ++ List.replicate (128 - text.length) 0)

def handleQueryThreadExtraInfo (data : Bytes) : Handler σ Unit := do
  match GDBPacket.memchr (byte ',') data with
  | none => Program.fault .range
  | some comma =>
    match hexInt32 (data.drop (comma + 1)) with
    | none => sendError EBADMSG
    | some threadId =>
      match ← known (·.getThread threadId.toUInt32) with
      | none => sendError EBADMSG
      | some i =>
        let t ← known (·.threadAt i)
        if !t.stopped then send (threadExtraInfo threadId "Running")
        else
          match t.lastStopReason with
          | none => Program.fault .absent
          | some reason => send (threadExtraInfo threadId (stopReasonText reason))

def sendThreadInfoBuffer (sendAll : Bool) : Handler σ Unit := do
  match (← get).threadInfoBuffer with
  | [] => send (ascii "l")
  | first :: rest =>
    let hex (id : Int32) : Bytes := hexText id.toUInt32.toNat
    let listed := if sendAll then rest else []
    modify fun b => { b with threadInfoBuffer := if sendAll then [] else rest }
    send (byte 'm' :: hex first ++ listed.flatMap (fun id => byte ',' :: hex id))

def handleThreadInfoStart : Handler σ Unit := do
  if !(← ask XBDMDebugger.fetchThreads) then sendError EFAULT
  else
    let ids ← known (·.getThreadIDs)
    modify fun b => { b with threadInfoBuffer := ids.map UInt32.toInt32 }
    sendThreadInfoBuffer false

def handleThreadInfoContinue : Handler σ Unit := sendThreadInfoBuffer true

def handleQueryTraceStatus : Handler σ Unit := sendEmpty

def handleQueryCurrentThreadID : Handler σ Unit := do
  match ← known (·.anyThreadID) with
  | none => sendEmpty
  | some id =>
    if 0 ≤ id.toInt32 then send (ascii "QC" ++ hexText id.toNat) else sendEmpty

/-- The piece of the target description a request for `length` bytes at `start` gets. -/
def featuresReply (start length : UInt32) : Bytes :=
  let available := UInt32.ofNat kTargetXML.length
  if available ≤ start then ascii "l"
  else if available ≤ start + length then byte 'l' :: kTargetXML.drop start.toNat
  else byte 'm' :: (kTargetXML.drop start.toNat).take length.toNat

def handleFeaturesRead (data : Bytes) : Handler σ Unit := do
  match findText (ascii "read:") data with
  | none => sendError EBADMSG
  | some found =>
    let body := data.drop (found + 5)
    match GDBPacket.memchr (byte ':') body with
    | none => sendError EBADMSG
    | some colon =>
      if body.take colon ≠ ascii "target.xml" then sendError EBADMSG
      else
        let region := body.drop (colon + 1)
        match GDBPacket.memchr (byte ',') region with
        | none => sendError EBADMSG
        | some comma =>
          match hexUInt32 (region.take comma), hexUInt32 (region.drop (comma + 1)) with
          | some start, some length => send (featuresReply start length)
          | _, _ => sendError EBADMSG

def handleReadQuery (data : Bytes) : Handler σ Unit :=
  let query := data.drop 1
  if (ascii "Attached").isPrefixOf query then handleQueryAttached
  else if (ascii "Supported").isPrefixOf query then handleQuerySupported data
  else if (ascii "ThreadExtraInfo").isPrefixOf query then handleQueryThreadExtraInfo data
  else if query = ascii "fThreadInfo" then handleThreadInfoStart
  else if query = ascii "sThreadInfo" then handleThreadInfoContinue
  else if query = ascii "TStatus" then handleQueryTraceStatus
  else if query = ascii "C" then handleQueryCurrentThreadID
  else if (ascii "Xfer:features:read:").isPrefixOf query then handleFeaturesRead data
  else sendEmpty

def handleWriteQuery (data : Bytes) : Handler σ Unit := do
  if data = ascii "QStartNoAckMode" then
    modify fun b => { b with gdb := { b.gdb with noAckMode := true } }
    sendOK
  else sendEmpty

end Queries

section VCont

def handleVContQuery : Handler σ Unit := send (ascii "vCont;c;C;s;S")

-- The loop over the threads no element has named passes the element's own id, not theirs.
def continueUnprocessed (processed : List UInt32) (threadId : Int32) :
    List UInt32 → XBDMDebugger.Op σ Unit
  | [] => pure ()
  | id :: rest => do
    if processed.contains id then continueUnprocessed processed threadId rest
    else
      let _ ← XBDMDebugger.continueThread threadId.toUInt32
      continueUnprocessed processed threadId rest

/-- The thread id of an element: −1 when it has none, `none` when it is not a number. -/
def elementThreadId (command : Bytes) : Option Int32 :=
  match split (byte ':') command with
  | _ :: id :: _ => hexInt32 id
  | _ => some (-1)

def vContContinue (processed : List UInt32) (threadId : Int32) : Handler σ Unit := do
  if processed = [] ∧ threadId ≤ 0 then
    let _ ← ask XBDMDebugger.continueAll
  else if 0 < threadId then
    let _ ← ask (XBDMDebugger.continueThread threadId.toUInt32)
  else
    ask (continueUnprocessed processed threadId (← known (·.threadIds)))

def vContStep (threadId : Int32) : Handler σ Unit := do
  if 0 < threadId then
    let _ ← ask (XBDMDebugger.setActiveThread threadId.toUInt32)
    if !(← ask XBDMDebugger.stepInstruction) then sendError EFAULT
  else sendError EBADMSG

/-- The threads named so far, behind an element with this thread id. -/
def noteProcessed (processed : List UInt32) (threadId : Int32) : List UInt32 :=
  if 0 < threadId then processed ++ [threadId.toUInt32] else processed

def vContAction (processed : List UInt32) (threadId : Int32) : Bytes → Handler σ Unit
  | [] => Program.fault .emptyAccess
  | code :: _ =>
    if code = byte 'c' then vContContinue processed threadId
    else if code = byte 's' then vContStep threadId
    else sendEmpty

/-- The body of the loop over the elements; the result is the threads named so far. -/
def vContElement (processed : List UInt32) (command : Bytes) : Handler σ (List UInt32) := do
  match elementThreadId command with
  | none =>
    sendError EBADMSG
    return processed
  | some threadId =>
    vContAction (noteProcessed processed threadId) threadId command
    return noteProcessed processed threadId

def vContElements : List UInt32 → List Bytes → Handler σ Unit
  | _, [] => pure ()
  | processed, command :: rest => do
    let processed ← vContElement processed command
    vContElements processed rest

def markWaitingForStopPacket : Handler σ Unit := do
  match ← ask XBDMDebugger.getFirstStoppedThread with
  | some i =>
    let _ ← sendThreadStopPacket (some i)
    modify fun b => { b with waitingOnStopPacket := false }
  | none => modify fun b => { b with waitingOnStopPacket := true }

def refuseEmpty (args : Bytes) : Handler σ Unit := do
  if args = [] then sendError EBADMSG

-- An empty argument list is answered with an error and then handled like any other.
def handleVCont (args : Bytes) : Handler σ Unit := do
  refuseEmpty args
  vContElements [] (split (byte ';') args)
  markWaitingForStopPacket
  let _ ← ask XBDMDebugger.go

def handleExtendedVCommand (data : Bytes) : Handler σ Unit :=
  if data = ascii "vCont?" then handleVContQuery
  else if (ascii "vCont;").isPrefixOf data then handleVCont (data.drop 6)
  else sendEmpty

end VCont

/-- The `switch` of `HandlePacket`. -/
def dispatch (command : UInt8) (data : Bytes) : Handler σ Unit :=
  if command = 0x03 then handleInterruptRequest
  else if command = byte '!' then handleEnableExtendedMode
  else if command = byte '?' then handleQueryHaltReason
  else if command = byte 'A' then handleArgv
  else if command = byte 'b' then handleBCommandGroup data
  else if command = byte 'c' then handleContinue
  else if command = byte 'C' then handleContinueWithSignal
  else if command = byte 'D' then handleDetach
  else if command = byte 'F' then handleFileIO
  else if command = byte 'g' then handleReadGeneralRegisters
  else if command = byte 'G' then handleWriteGeneralRegisters
  else if command = byte 'H' then handleSelectThreadForCommandGroup data
  else if command = byte 'i' then handleStepInstruction
  else if command = byte 'I' then handleSignalStep
  else if command = byte 'k' then handleKill
  else if command = byte 'm' then handleReadMemory data
  else if command = byte 'M' then handleWriteMemory data
  else if command = byte 'p' then handleReadRegister data
  else if command = byte 'P' then handleWriteRegister data
  else if command = byte 'q' then handleReadQuery data
  else if command = byte 'Q' then handleWriteQuery data
  else if command = byte 'R' then handleRestartSystem
  else if command = byte 's' then handleSingleStep
  else if command = byte 'S' then handleSingleStepWithSignal
  else if command = byte 't' then handleSearchBackward
  else if command = byte 'T' then handleCheckThreadAlive
  else if command = byte 'v' then handleExtendedVCommand data
  else if command = byte 'X' then handleWriteMemoryBinary data
  else if command = byte 'z' then handleRemoveBreakpointType data
  else if command = byte 'Z' then handleInsertBreakpointType data
  else if command = byte 'B' ∨ command = byte 'd' ∨ command = byte 'r' then handleDeprecatedCommand
  else sendEmpty

-- `GDBPacket::Command` asserts that there is data.
def handlePacket (packet : GDBPacket) : Handler σ Unit :=
  match packet.data with
  | [] => Program.fault .assertion
  | command :: _ => dispatch command packet.data

section Stops

/-- What every stop notification comes to. -/
def reportStop : Handler σ Unit := do
  if (← get).waitingOnStopPacket then
    let _ ← sendThreadStopPacket (← known (·.activeThread))

def onNotification : Notification → Handler σ Unit
  | .executionStateChanged state => if state = .stopped then reportStop else pure ()
  | .breakpoint _ _ => reportStop
  | .watchpoint _ _ _ _ => reportStop
  | .singleStep _ _ => reportStop
  | .exception _ _ => reportStop
  | _ => pure ()

end Stops

end GDBBridge

end XbdmGdbBridge
