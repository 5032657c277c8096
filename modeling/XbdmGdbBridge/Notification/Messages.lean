import XbdmGdbBridge.Rdcp.Answer
import XbdmGdbBridge.Rdcp.Response

/-!
# Messages of the notification channel

`ParseXBDMNotification`: the kind of a notification is told by the start of its line, and the rest of
the line is what its constructor gets.
-/

namespace XbdmGdbBridge.Notifications

open CText Rdcp

structure Module where
  name : Bytes
  baseAddress : UInt32
  size : UInt32
  checksum : UInt32
  timestamp : UInt32
  isTls : Bool
  isXbe : Bool
deriving DecidableEq, Repr

structure Section where
  name : Bytes
  baseAddress : UInt32
  size : UInt32
  index : UInt32
  flags : UInt32
deriving DecidableEq, Repr

/-- The built-in notifications, and those of registered constructors. -/
inductive XBDMNotification (ν : Type) where
  | vx (message : Bytes)
  | debugStr (threadId : Int32) (text termination : Bytes) (isTerminated : Bool)
  | moduleLoaded (loaded : Module)
  | sectionLoaded (loaded : Section)
  | sectionUnloaded (unloaded : Section)
  | threadCreated (threadId : Int32) (startAddress : UInt32)
  | threadTerminated (threadId : Int32)
  | executionStateChanged (state : ExecutionState)
  | breakpoint (threadId : Int32) (address : UInt32) (flags : List Bytes)
  | watchpoint (type : AccessType) (threadId : Int32) (address watchedAddress : UInt32)
      (shouldBreak : Bool) (flags : List Bytes)
  | singleStep (threadId : Int32) (address : UInt32)
  | exception (code : UInt32) (threadId : Int32) (address read : UInt32) (flags : List Bytes)
  | custom (notification : ν)
deriving DecidableEq, Repr

/-- A registered constructor gets a range of bytes. It may give nothing; `none` where it throws. -/
abbrev XBDMNotificationConstructor (ν : Type) := Bytes → Option (Option ν)

abbrev Constructors (ν : Type) := List (Bytes × XBDMNotificationConstructor ν)

section Fields

def getDWORD (r : RDCPMapResponse) (key : Bytes) : Int32 :=
  (r.getOptionalDWORD key).getD 0

def Module.ofMap (parsed : RDCPMapResponse) : Module where
  name := parsed.getString (ascii "name") []
  baseAddress := parsed.getUInt32 (ascii "base") 0
  size := parsed.getUInt32 (ascii "size") 0
  checksum := parsed.getUInt32 (ascii "check") 0
  timestamp := parsed.getUInt32 (ascii "timestamp") 0
  isTls := parsed.hasKey (ascii "tls")
  isXbe := parsed.hasKey (ascii "xbe")

def Section.ofMap (parsed : RDCPMapResponse) : Section where
  name := parsed.getString (ascii "name") []
  baseAddress := parsed.getUInt32 (ascii "base") 0
  size := parsed.getUInt32 (ascii "size") 0
  index := parsed.getUInt32 (ascii "index") 0
  flags := parsed.getUInt32 (ascii "flags") 0

/-- `regex_match` with `notification_regex`: the digits, the kind of line end (empty if there is
none) and the text. Digits, spaces and letters are apart, so that only the line end is tried in
several ways. -/
def matchDebugStr (buffer : Bytes) : Option (Bytes × Bytes × Bytes) := do
  let s ← buffer.dropPrefix? (ascii "thread=")
  let digits := s.takeWhile (isDigit 10)
  let s := s.dropWhile (isDigit 10)
  if digits = [] ∨ s.takeWhile isSpace = [] then none
  else
    let s := s.dropWhile isSpace
    [ascii "lf", ascii "cr", ascii "crlf", []].findSome? fun kind => do
      let s ← s.dropPrefix? kind
      let text ← (s.dropWhile isSpace).dropPrefix? (ascii "string=")
      -- The dot of the expression does not match line ends.
      if 0x0d ∈ text ∨ 0x0a ∈ text then none else some (digits, kind, text)

def parseInt32 (value : Bytes) : Int32 :=
  Int32.ofInt (strtol (RDCPMapResponse.integerBase value) value).1

end Fields

section Constructors

variable {ν : Type}

def notificationVX (range : Bytes) : Except Fault (XBDMNotification ν) :=
  .ok (.vx range)

def notificationDebugStr (range : Bytes) : Except Fault (XBDMNotification ν) :=
  match matchDebugStr range with
  | none => .ok (.debugStr (-1) [] [0x0a] true)
  | some (digits, kind, text) =>
    let termination :=
      if kind = ascii "lf" then [0x0a]
      else if kind = ascii "cr" then [0x0d]
      else if kind = ascii "crlf" then [0x0d, 0x0a]
      else []
    .ok (.debugStr (parseInt32 digits) text termination (!termination.isEmpty))

/-- The constructors that read their fields from a map. -/
def ofMap (read : RDCPMapResponse → XBDMNotification ν) (range : Bytes) :
    Except Fault (XBDMNotification ν) :=
  (RDCPMapResponse.ofText range).map read

def notificationModuleLoaded : Bytes → Except Fault (XBDMNotification ν) :=
  ofMap fun parsed => .moduleLoaded (.ofMap parsed)

def notificationSectionLoaded : Bytes → Except Fault (XBDMNotification ν) :=
  ofMap fun parsed => .sectionLoaded (.ofMap parsed)

def notificationSectionUnloaded : Bytes → Except Fault (XBDMNotification ν) :=
  ofMap fun parsed => .sectionUnloaded (.ofMap parsed)

def notificationThreadCreated : Bytes → Except Fault (XBDMNotification ν) :=
  ofMap fun parsed =>
    .threadCreated (getDWORD parsed (ascii "thread")) (getDWORD parsed (ascii "start")).toUInt32

def notificationThreadTerminated : Bytes → Except Fault (XBDMNotification ν) :=
  ofMap fun parsed => .threadTerminated (getDWORD parsed (ascii "thread"))

def announcedState (parsed : RDCPMapResponse) : ExecutionState :=
  if parsed.hasKey (ascii "stopped") then .stopped
  else if parsed.hasKey (ascii "started") then .started
  else if parsed.hasKey (ascii "rebooting") then .rebooting
  else if parsed.hasKey (ascii "pending") then .pending
  else .invalid

def notificationExecutionStateChanged : Bytes → Except Fault (XBDMNotification ν) :=
  ofMap fun parsed => .executionStateChanged (announcedState parsed)

def notificationBreakpoint : Bytes → Except Fault (XBDMNotification ν) :=
  ofMap fun parsed =>
    .breakpoint (getDWORD parsed (ascii "thread")) (parsed.getUInt32 (ascii "addr") 0)
      parsed.valuelessKeys

def watchedAccess (parsed : RDCPMapResponse) : AccessType × UInt32 :=
  if parsed.hasKey (ascii "read") then (.read, parsed.getUInt32 (ascii "read") 0)
  else if parsed.hasKey (ascii "write") then (.write, parsed.getUInt32 (ascii "write") 0)
  else if parsed.hasKey (ascii "execute") then (.execute, parsed.getUInt32 (ascii "execute") 0)
  else (.unknown, 0)

def notificationWatchpoint : Bytes → Except Fault (XBDMNotification ν) :=
  ofMap fun parsed =>
    .watchpoint (watchedAccess parsed).1 (getDWORD parsed (ascii "thread"))
      (parsed.getUInt32 (ascii "addr") 0) (watchedAccess parsed).2
      (parsed.valuelessKeys.contains (ascii "stop"))
      (parsed.valuelessKeys.filter (· ≠ ascii "stop"))

def notificationSingleStep : Bytes → Except Fault (XBDMNotification ν) :=
  ofMap fun parsed =>
    .singleStep (getDWORD parsed (ascii "thread")) (parsed.getUInt32 (ascii "addr") 0)

def notificationException : Bytes → Except Fault (XBDMNotification ν) :=
  ofMap fun parsed =>
    .exception (getDWORD parsed (ascii "code")).toUInt32 (getDWORD parsed (ascii "thread"))
      (parsed.getUInt32 (ascii "address") 0) (parsed.getUInt32 (ascii "read") 0)
      parsed.valuelessKeys

/-- The starts of lines that are looked for, in order, and the constructors behind them. -/
def builtIns : List (Bytes × (Bytes → Except Fault (XBDMNotification ν))) :=
  [(ascii "vx!", notificationVX),
    (ascii "debugstr ", notificationDebugStr),
    (ascii "modload ", notificationModuleLoaded),
    (ascii "sectload ", notificationSectionLoaded),
    (ascii "sectunload ", notificationSectionUnloaded),
    (ascii "create ", notificationThreadCreated),
    (ascii "terminate ", notificationThreadTerminated),
    (ascii "execution ", notificationExecutionStateChanged),
    (ascii "break ", notificationBreakpoint),
    (ascii "data ", notificationWatchpoint),
    (ascii "singlestep ", notificationSingleStep),
    (ascii "exception ", notificationException)]

end Constructors

/-- `strchr` on memory that is readable up to its end: the character or the NUL is found there, or
the search leaves it. -/
def strchr (c : UInt8) : Bytes → Except Fault (Option Nat)
  | [] => .error .range
  | b :: rest =>
    if b = c then .ok (some 0)
    else if b = 0 then .ok none
    else (strchr c rest).map fun found => found.map (· + 1)

/-- A line of this length at the start of readable memory. -/
def startsWith (memory : Bytes) (length : Nat) (start : Bytes) : Bool :=
  decide (start.length ≤ length) && start.isPrefixOf memory

variable {ν : Type}

/-- The constructor registered for a prefix, on a range of bytes. -/
def constructCustom (custom : Constructors ν) (start range : Bytes) :
    Except Fault (Option (XBDMNotification ν)) :=
  match custom.lookup start with
  | none => .ok none
  | some construct =>
    match construct range with
    | none => .error .exception
    | some notification => .ok (notification.map .custom)

/-- What is in front of the first exclamation mark is looked up. -/
def parseCustomNotification (custom : Constructors ν) (memory : Bytes) (length : Nat) :
    Except Fault (Option (XBDMNotification ν)) := do
  match ← strchr (byte '!') memory with
  | none => return none
  | some delimiter =>
    constructCustom custom (memory.take delimiter) ((memory.take length).drop (delimiter + 1))

def parseXBDMNotification (custom : Constructors ν) (memory : Bytes) (length : Nat) :
    Except Fault (Option (XBDMNotification ν)) :=
  match builtIns.find? fun entry => startsWith memory length entry.1 with
  | some (start, construct) => (construct ((memory.take length).drop start.length)).map some
  | none => parseCustomNotification custom memory length

end XbdmGdbBridge.Notifications
