import XbdmGdbBridge.Shell.RemoteTree

/-!
# Directories of this end

A local directory with what is below it, and the walk over its files. The paths of the source begin
with the directory that was given; here they are the names behind it. There are no links.
-/

namespace XbdmGdbBridge.FileUtil

open Lib CText

/-- What is read of a regular file. -/
structure LocalContents where
  data : Bytes
  /-- The modification time. -/
  seconds : Int64
  /-- `file_size` has 64 bits. -/
  size_lt : data.length < 2 ^ 64
deriving DecidableEq

inductive LocalItem where
  | regular (file : LocalContents)
  /-- Neither a regular file nor a directory. -/
  | other
deriving DecidableEq

structure LocalDisk where
  tree : FileTree Name LocalItem
  /-- What `directory_iterator` gives for a directory. -/
  entries : List Name → List (Name × Node LocalItem)
  entries_perm : ∀ p, (entries p).Perm (tree.children p)

/-- A regular file that a walk comes to. -/
structure LocalEntry where
  directory : List Name
  name : Name
  file : LocalContents
deriving DecidableEq

def LocalEntry.place (e : LocalEntry) : List Name :=
  e.directory ++ [e.name]

namespace LocalDisk

/-- `is_regular_file`. -/
def regularFile (p : List Name) : Name × Node LocalItem → Option LocalEntry
  | (name, .file (.regular file)) => some ⟨p, name, file⟩
  | _ => none

/-- `is_directory`. -/
def subdirectory (p : List Name) (entry : Name × Node LocalItem) : Option (List Name) :=
  if entry.2.isDirectory then some (p ++ [entry.1]) else none

def subdirectories (l : LocalDisk) (p : List Name) : List (List Name) :=
  (l.entries p).filterMap (subdirectory p)

end LocalDisk

section Walk

variable {σ : Type} (cb : LocalEntry → Program Exhausted σ Bool)

/-- The callback is for regular files only. -/
def processEntry (p : List Name) (entry : Name × Node LocalItem) : Program Exhausted σ Bool :=
  (LocalDisk.regularFile p entry).elim (pure true) cb

/-- The loop of `WalkDirectory`, with the directories that are still to be read. -/
def walkDirectories (l : LocalDisk) : Nat → List (List Name) → Program Exhausted σ Bool
  | _, [] => return true
  | 0, _ :: _ => Program.fault .exhausted
  | fuel + 1, p :: directories => do
    if ← (l.entries p).allM (processEntry cb p) then
      walkDirectories l fuel (directories ++ l.subdirectories p)
    else return false

def walkDirectory (l : LocalDisk) (fuel : Nat) : Program Exhausted σ Bool :=
  walkDirectories cb l fuel [[]]

end Walk

end XbdmGdbBridge.FileUtil
