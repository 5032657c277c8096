import XbdmGdbBridge.Lib.Places
import XbdmGdbBridge.Lib.Program
import XbdmGdbBridge.Shell.FileUtil

/-!
# Fetching a remote directory

`SaveDirectory` makes a local directory for every directory that is listed and a local file for every
file. What the other end answers, and what the local file system does, is given as a tree in the order
in which it is asked for. The local file system has no links, so that a path leads where its elements
lead one by one.
-/

namespace XbdmGdbBridge.FileUtil

open Lib CText

/-- A place in the local file system, by the names from the root down. -/
abbrev Place := List Bytes

def moveOf (element : Bytes) : Option (Move Bytes) :=
  if element = [] ∨ element = ascii "." then none
  else if element = ascii ".." then some .up
  else some (.down element)

def moves (path : Bytes) : List (Move Bytes) :=
  (split (byte '/') path).filterMap moveOf

/-- Where a path begins that is used at this place. -/
def origin (place : Place) (path : Bytes) : Place :=
  if isAbsolute path then [] else place

/-- Where a path leads from this place. -/
def follow (place : Place) (path : Bytes) : Place :=
  walk (origin place path) (moves path)

/-- What becomes of a file: the other end refuses it, or it cannot be opened here, or it is written,
with or without an error. -/
inductive FileAnswer where
  | refused
  | unopened (data : Bytes)
  | written (data : Bytes) (good : Bool)

mutual

/-- The answer to a `dirlist` request. -/
inductive Listing where
  | refused
  | listed (entries : Entries)

/-- The entries of a listing with what is answered when they are asked for. Of the directories on the
path of a local directory, those that are missing are made. -/
inductive Entries where
  | nil
  | directory (name : Bytes) (missing : Place → Bool) (contents : Listing) (rest : Entries)
  | file (name : Bytes) (answer : FileAnswer) (rest : Entries)

end

inductive FileRequest where
  | dirList (path : Bytes)
  | getFile (path : Bytes)
deriving DecidableEq, Repr

/-- What has been done: the requests, and the places of directories made and files written. -/
structure Saving where
  requests : List FileRequest := []
  made : List Place := []
  written : List (Place × Bytes) := []
deriving DecidableEq, Repr

namespace Saving

abbrev Op (α : Type) := StateM Saving α

def sendCommandSync (r : FileRequest) : Op Unit :=
  modify fun s => { s with requests := s.requests ++ [r] }

/-- `create_directories` for a directory below one that is there. -/
def createDirectories (base : Place) (name : Bytes) (missing : Place → Bool) : Op Unit :=
  modify fun s => { s with
    made := s.made ++ (steps (origin base name) (moves name)).filter missing }

section Save

-- The working directory.
variable (cwd : Place)

def saveFile (remote localPath : Bytes) (answer : FileAnswer) : Op Bool := do
  sendCommandSync (.getFile remote)
  match answer with
  | .refused => return false
  | .unopened _ => return false
  | .written data good =>
    modify fun s => { s with written := s.written ++ [(follow cwd localPath, data)] }
    return good

/-- The loop over the files of a listing. -/
def saveFiles (remoteDir localPath : Bytes) : Entries → Op Bool
  | .nil => pure true
  | .directory _ _ _ rest => saveFiles remoteDir localPath rest
  | .file name answer rest => do
    if ← saveFile cwd (remoteDir ++ name) (append localPath name) answer then
      saveFiles remoteDir localPath rest
    else return false

mutual

def saveDirectory (remote localPath : Bytes) : Listing → Op Bool
  | .refused => do
    sendCommandSync (.dirList (ensureXFATStylePath remote))
    return false
  | .listed entries => do
    sendCommandSync (.dirList (ensureXFATStylePath remote))
    if ← saveDirectories (ensureTrailingBackslash remote) localPath entries then
      saveFiles cwd (ensureTrailingBackslash remote) localPath entries
    else return false

/-- The loop over the directories of a listing. -/
def saveDirectories (remoteDir localPath : Bytes) : Entries → Op Bool
  | .nil => pure true
  | .file _ _ rest => saveDirectories remoteDir localPath rest
  | .directory name missing contents rest => do
    createDirectories (follow cwd localPath) name missing
    if ← saveDirectory (remoteDir ++ name) (append localPath name) contents then
      saveDirectories remoteDir localPath rest
    else return false

end

end Save

end Saving

end XbdmGdbBridge.FileUtil
