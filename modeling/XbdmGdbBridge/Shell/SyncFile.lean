import XbdmGdbBridge.Lib.Program
import XbdmGdbBridge.Notification.Messages
import XbdmGdbBridge.Rdcp.Requests
import XbdmGdbBridge.Shell.FileUtil

/-!
# Keeping a remote file up to date

`SyncFile` uploads a file unless the remote one has its size and the stamp of its modification time.
The remote keeps files under names of its own, which it makes of the paths it is given, and stores a
timestamp with something added to its low bits.
-/

namespace XbdmGdbBridge.Rdcp.RDCPMapResponse

open CText

def getQWORD (r : RDCPMapResponse) (lowKey highKey : Bytes) (defaultValue : Int64 := 0) : Int64 :=
  match r.map.lookup (toLowerCopy lowKey), r.map.lookup (toLowerCopy highKey) with
  | some low, some high =>
    ((Notifications.parseInt32 high).toInt64 <<< 32) + (parseUint32 low).toUInt64.toInt64
  | _, _ => defaultValue

end XbdmGdbBridge.Rdcp.RDCPMapResponse

namespace XbdmGdbBridge.FileUtil

open Lib CText Rdcp

def kMinTimestamp : UInt64 := 0x01c0000000000000

def kMaxTimestamp : UInt64 := 0x023fffffffffffff

def kTimeRange : UInt64 := kMaxTimestamp - kMinTimestamp

def kUsableTimestampRange : UInt64 := 0xFFFFFFFFF0000000

/-- The loop that brings a timestamp below the maximum. -/
def foldTimestamp (t : UInt64) : UInt64 :=
  if kMaxTimestamp < t then foldTimestamp (t - kTimeRange) else t
termination_by t.toNat
decreasing_by
  rename_i h
  have hrange : kTimeRange ≤ t := UInt64.le_trans (by decide) (UInt64.le_of_lt h)
  have hpos : 0 < kTimeRange.toNat := by decide
  have hle : kTimeRange.toNat ≤ t.toNat := hrange
  rw [UInt64.toNat_sub_of_le _ _ hrange]
  omega

/-- `SafeXFATTimestampForFile` of a modification time in seconds. -/
def safeXFATTimestamp (seconds : Int64) : UInt64 :=
  let t := (seconds <<< 28).toUInt64
  foldTimestamp (if t < kMinTimestamp then t + kMinTimestamp else t) &&& kUsableTimestampRange

structure LocalFile where
  name : Bytes
  data : Bytes
  seconds : Int64
  /-- `file_size` has 64 bits. -/
  size_lt : data.length < 2 ^ 64

def LocalFile.size (f : LocalFile) : UInt64 :=
  UInt64.ofNat f.data.length

structure RemoteFile where
  data : Bytes
  create : UInt64
  change : UInt64
  isDirectory : Bool
deriving DecidableEq, Repr

/-- The halves of a number in hexadecimal, under their keys. -/
def halves (low high : Bytes) (n : UInt64) : List (Bytes × Bytes) :=
  [(high, hexString (n >>> 32).toUInt32), (low, hexString n.toUInt32)]

/-- What is reported of a file. -/
def RemoteFile.report (f : RemoteFile) : RDCPMapResponse where
  map := halves (ascii "sizelo") (ascii "sizehi") (UInt64.ofNat f.data.length) ++
    halves (ascii "createlo") (ascii "createhi") f.create ++
    halves (ascii "changelo") (ascii "changehi") f.change ++
    (if f.isDirectory then [(ascii "directory", [])] else [])
  valuelessKeys := if f.isDirectory then [ascii "directory"] else []

inductive SyncRequest where
  | getFileAttributes (path : Bytes)
  | sendFile (path : Bytes) (data : Bytes)
  | setFileAttributes (path : Bytes) (create change : UInt64)
deriving DecidableEq, Repr

/-- The other end. Requests are counted by the history. -/
structure Remote where
  /-- The file a path is for. -/
  key : Bytes → Bytes
  files : Bytes → Option RemoteFile
  /-- Whether the request with this number is granted, if it changes something. -/
  grants : Nat → Bool
  /-- What is added to a timestamp. -/
  drift : Nat → Fin (2 ^ 28)
  requests : List SyncRequest := []

namespace Remote

def update (r : Remote) (path : Bytes) (f : Option RemoteFile → Option RemoteFile) : Remote :=
  { r with files := fun k => if k = r.key path then f (r.files k) else r.files k }

def log (r : Remote) (request : SyncRequest) : Remote :=
  { r with requests := r.requests ++ [request] }

def granted (r : Remote) : Bool :=
  r.grants r.requests.length

/-- The stored timestamp is a little later. -/
def later (r : Remote) (t : UInt64) : UInt64 :=
  t + UInt64.ofNat (r.drift r.requests.length)

-- As many bytes are taken as the request announces.
def receive (data : Bytes) (old : Option RemoteFile) : Option RemoteFile :=
  some { data := data.take (UInt32.ofNat data.length).toNat
         create := (old.map RemoteFile.create).getD 0
         change := (old.map RemoteFile.change).getD 0
         isDirectory := false }

def stamp (create change : UInt64) (old : Option RemoteFile) : Option RemoteFile :=
  old.map fun f => { f with create := create, change := change }

end Remote

abbrev SyncOp (α : Type) := StateM Remote α

def sendFileTo (path data : Bytes) : SyncOp Bool := fun r =>
  let sent := r.log (.sendFile path data)
  if r.granted then (true, sent.update path (Remote.receive data)) else (false, sent)

def setTimestamps (path : Bytes) (create change : UInt64) : SyncOp Bool := fun r =>
  let sent := r.log (.setFileAttributes path create change)
  if r.granted then (true, sent.update path (Remote.stamp (r.later create) (r.later change)))
  else (false, sent)

/-- What `CheckRemotePath` finds; sizes and times of a file that is not there are not read. -/
structure RemoteInfo where
  pathExists : Bool
  isDir : Bool
  size : UInt64
  createTimestamp : UInt64
  changeTimestamp : UInt64
deriving DecidableEq, Repr

def RemoteInfo.ofReport (report : RDCPMapResponse) : RemoteInfo where
  pathExists := true
  isDir := report.valuelessKeys.contains (ascii "directory")
  size := (report.getQWORD (ascii "sizelo") (ascii "sizehi")).toUInt64
  createTimestamp := (report.getQWORD (ascii "createlo") (ascii "createhi")).toUInt64
  changeTimestamp := (report.getQWORD (ascii "changelo") (ascii "changehi")).toUInt64

/-- The question is always answered. -/
def checkRemotePath (path : Bytes) : SyncOp RemoteInfo := fun r =>
  (match r.files (r.key path) with
    | none => ⟨false, false, 0, 0, 0⟩
    | some f => .ofReport f.report,
   r.log (.getFileAttributes path))

def uploadFileWithoutChecking (file : LocalFile) (fullRemotePath : Bytes) (setTimestamp : Bool) :
    SyncOp Bool := do
  let path := ensureXFATStylePath fullRemotePath
  if ← sendFileTo path file.data then
    if setTimestamp then
      let changeTimestamp := safeXFATTimestamp file.seconds
      setTimestamps path changeTimestamp changeTimestamp
    else return true
  else return false

/-- Upload, or nothing if the remote file is as the local one. -/
def syncChecked (file : LocalFile) (fullRemotePath : Bytes) (info : RemoteInfo) : SyncOp Bool :=
  if !info.pathExists then uploadFileWithoutChecking file fullRemotePath true
  else if safeXFATTimestamp file.seconds = info.changeTimestamp &&& kUsableTimestampRange ∧
      info.size = file.size then pure true
  else uploadFileWithoutChecking file fullRemotePath true

def syncFile (file : LocalFile) (remotePath : Bytes) : SyncOp Bool := do
  let info ← checkRemotePath remotePath
  if info.isDir then
    let fullRemotePath := ensureTrailingBackslash remotePath ++ file.name
    let info ← checkRemotePath fullRemotePath
    syncChecked file fullRemotePath info
  else syncChecked file remotePath info

end XbdmGdbBridge.FileUtil
