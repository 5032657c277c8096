import XbdmGdbBridge.Shell.LocalTree

/-!
# Uploading a directory

`UploadDirectory` walks over the files of a local directory and hands each to `UploadFile`, with the
remote directory as the place to put it.
-/

namespace XbdmGdbBridge.FileUtil

open Lib CText

inductive UploadFileOverwriteAction where
  | overwrite
  | abort
  | skip
deriving DecidableEq, Repr

namespace RemoteDisk

def uploadFileWithoutChecking (file : LocalContents) (fullRemotePath : Bytes) (setTimestamp : Bool) :
    DiskOp Bool := do
  let path := ensureXFATStylePath fullRemotePath
  if ← sendFile path file.data then
    if setTimestamp then
      let changeTimestamp := safeXFATTimestamp file.seconds
      setFileAttributes path changeTimestamp changeTimestamp
    else return true
  else return false

/-- The end of `UploadFile`, with what was found at the path. -/
def uploadChecked (file : LocalContents) (fullRemotePath : Bytes) (info : RemoteInfo)
    (action : UploadFileOverwriteAction) : DiskOp Bool :=
  if info.pathExists ∧ ¬info.isDir then
    match action with
    | .overwrite => uploadFileWithoutChecking file fullRemotePath true
    | .skip => return true
    | .abort => return false
  else uploadFileWithoutChecking file fullRemotePath true

/-- `UploadFile` into a directory. -/
def uploadInto (filename : Bytes) (file : LocalContents) (directory : Bytes)
    (action : UploadFileOverwriteAction) : DiskOp Bool := do
  let fullRemotePath := ensureTrailingBackslash directory ++ filename
  match ← checkRemotePath fullRemotePath with
  | none => return false
  | some info => uploadChecked file fullRemotePath info action

def uploadFile (filename : Bytes) (file : LocalContents) (remotePath : Bytes)
    (action : UploadFileOverwriteAction) : DiskOp Bool := do
  let safeRemotePath := ensureXFATStylePath remotePath
  match ← checkRemotePath safeRemotePath with
  | none => return false
  | some info =>
    if ¬info.pathExists ∧ safeRemotePath.getLast? = some (byte '\\') then
      if (← mkdir safeRemotePath) = .made then uploadInto filename file safeRemotePath action
      else return false
    else if info.isDir then uploadInto filename file safeRemotePath action
    else uploadChecked file safeRemotePath info action

/-- The first part of `UploadDirectory`: the remote directory is there, or it is made. -/
def ensureDirectory (path : Bytes) : DiskOp Bool := do
  match ← checkRemotePath path with
  | none => return false
  | some info =>
    if info.pathExists then return info.isDir
    else return (← mkdir path) = .made

end RemoteDisk

open RemoteDisk

/-- The directory goes under the name of the local one, unless only its contents are to go. -/
def uploadTarget (localName safeRemotePath : Bytes) (contentsOnly : Bool) : Bytes :=
  let fullRemotePath := ensureTrailingBackslash safeRemotePath
  if contentsOnly then fullRemotePath else ensureTrailingBackslash (fullRemotePath ++ localName)

def uploadDirectory (l : LocalDisk) (localName remotePath : Bytes)
    (action : UploadFileOverwriteAction) (contentsOnly : Bool) (fuel : Nat) :
    Program Exhausted RemoteDisk Bool := do
  let safeRemotePath := ensureXFATStylePath remotePath
  if ← Program.total (ensureDirectory safeRemotePath) then
    let target := uploadTarget localName safeRemotePath contentsOnly
    walkDirectory (fun e => Program.total (uploadFile e.name.text e.file target action)) l fuel
  else return false

end XbdmGdbBridge.FileUtil
