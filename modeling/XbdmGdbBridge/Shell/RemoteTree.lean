import XbdmGdbBridge.Lib.FileTree
import XbdmGdbBridge.Shell.SyncFile

/-!
# Directories of the other end

The files of the other end as a tree, the requests that look at it and change it, and what is made of
them: listing a directory, and deleting one with all that is in it.

A request whose precondition does not hold is refused. One whose precondition holds is carried out
unless the other end refuses it for reasons of its own. A directory is listed in any order.
-/

namespace XbdmGdbBridge.FileUtil

open Lib CText Rdcp

/-- A name that both sides can give to a file or a directory. -/
structure Name where
  text : Bytes
  ne_nil : text ≠ []
  no_slash : byte '/' ∉ text
  no_backslash : byte '\\' ∉ text
  ne_dot : text ≠ ascii "."
  ne_dots : text ≠ ascii ".."
deriving DecidableEq

def Name.ofText (text : Bytes) : Option Name :=
  if h : text ≠ [] ∧ byte '/' ∉ text ∧ byte '\\' ∉ text ∧ text ≠ ascii "." ∧ text ≠ ascii ".." then
    some ⟨text, h.1, h.2.1, h.2.2.1, h.2.2.2.1, h.2.2.2.2⟩
  else none

/-- The names on the way to what a path is for. -/
def placeOf (path : Bytes) : Option (List Name) :=
  ((split (byte '\\') path).filter (· ≠ [])).mapM Name.ofText

section Places

variable {path : Bytes} {p : List Name} {name : Name}

theorem Name.ofText_text (name : Name) : Name.ofText name.text = some name :=
  dif_pos ⟨name.ne_nil, name.no_slash, name.no_backslash, name.ne_dot, name.ne_dots⟩

theorem Name.ofText_eq_some {text : Bytes} (h : Name.ofText text = some name) : name.text = text := by
  unfold Name.ofText at h
  split at h
  · cases h
    rfl
  · cases h

theorem placeOf_nil : placeOf [] = some [] := rfl

theorem placeOf_text (name : Name) : placeOf name.text = some [name] := by
  rw [placeOf, split_last name.no_backslash, List.filter_cons_of_pos (by simpa using name.ne_nil)]
  rw [List.filter_nil, List.mapM_cons, name.ofText_text]
  rfl

theorem placeOf_append {rest : Bytes} {q : List Name} (hpath : placeOf path = some p)
    (hrest : placeOf rest = some q) : placeOf (path ++ byte '\\' :: rest) = some (p ++ q) := by
  unfold placeOf at hpath hrest ⊢
  rw [split_append, List.filter_append, List.mapM_append, hpath, hrest]
  rfl

theorem placeOf_ensureTrailingBackslash (h : placeOf path = some p) :
    placeOf (ensureTrailingBackslash path) = some p := by
  unfold ensureTrailingBackslash
  split
  · exact h
  · exact (placeOf_append h placeOf_nil).trans (congrArg some (List.append_nil p))

/-- More behind the path of a directory. -/
theorem placeOf_behind {rest : Bytes} {q : List Name} (h : placeOf path = some p)
    (hrest : placeOf rest = some q) :
    placeOf (ensureTrailingBackslash path ++ rest) = some (p ++ q) := by
  unfold ensureTrailingBackslash
  split
  case isTrue hlast =>
    obtain ⟨front, rfl⟩ := List.getLast?_eq_some_iff.mp hlast
    have hfront : placeOf front = some p := by
      rw [← h, placeOf, placeOf, split_append, List.filter_append]
      exact congrArg (List.mapM _) (List.append_nil _).symm
    rw [List.append_assoc]
    exact placeOf_append hfront hrest
  case isFalse hlast =>
    rw [List.append_assoc]
    exact placeOf_append h hrest

theorem placeOf_child (h : placeOf path = some p) (name : Name) :
    placeOf (ensureTrailingBackslash path ++ name.text) = some (p ++ [name]) :=
  placeOf_behind h (placeOf_text name)

theorem exists_of_mapM {α β : Type} {f : α → Option β} {l : List α} {r : List β} {x : α}
    (h : l.mapM f = some r) (hx : x ∈ l) : ∃ y, f x = some y := by
  induction l generalizing r with
  | nil => cases hx
  | cons a l ih =>
    rw [List.mapM_cons] at h
    obtain ⟨b, hb, hrest⟩ := Option.bind_eq_some_iff.mp h
    obtain ⟨bs, hbs, -⟩ := Option.bind_eq_some_iff.mp hrest
    rcases List.mem_cons.mp hx with rfl | hmem
    · exact ⟨b, hb⟩
    · exact ih hbs hmem

/-- A path that leads somewhere has no slash in it. -/
theorem ensureXFATStylePath_of_place (h : placeOf path = some p) : ensureXFATStylePath path = path := by
  have hslash : byte '/' ∉ path := by
    intro hmem
    obtain ⟨piece, hpiece, hmem⟩ := exists_mem_split (show byte '/' ≠ byte '\\' by decide) hmem
    have hne : piece ≠ [] := List.ne_nil_of_mem hmem
    obtain ⟨name, hname⟩ := exists_of_mapM h (List.mem_filter.mpr ⟨hpiece, by simpa using hne⟩)
    exact name.no_slash (Name.ofText_eq_some hname ▸ hmem)
  refine (List.map_congr_left fun c hc => if_neg ?_).trans (List.map_id _)
  rintro rfl
  exact hslash hc

end Places

/-- What is kept of a file. -/
structure Stored where
  data : Bytes
  create : UInt64
  change : UInt64
deriving DecidableEq, Repr

abbrev RemoteTree := FileTree Name Stored

/-- A node as it is reported. -/
def remoteFile : Node Stored → RemoteFile
  | .directory => ⟨[], 0, 0, true⟩
  | .file f => ⟨f.data, f.create, f.change, false⟩

/-- `DirList::Entry`. -/
structure Entry where
  name : Bytes
  filesize : UInt64
  createTimestamp : UInt64
  changeTimestamp : UInt64
  isDirectory : Bool
deriving DecidableEq, Repr

/-- The line of a listing. -/
def listed (child : Name × Node Stored) : RDCPMapResponse :=
  let report := (remoteFile child.2).report
  { report with map := (ascii "name", child.1.text) :: report.map }

/-- `DirList::ProcessResponse`, for one line. -/
def Entry.ofResponse (line : RDCPMapResponse) : Entry where
  name := line.getString (ascii "name") []
  filesize := (line.getQWORD (ascii "sizelo") (ascii "sizehi")).toUInt64
  createTimestamp := (line.getQWORD (ascii "createlo") (ascii "createhi")).toUInt64
  changeTimestamp := (line.getQWORD (ascii "changelo") (ascii "changehi")).toUInt64
  isDirectory := line.hasKey (ascii "directory")

inductive TreeRequest where
  | getFileAttributes (path : Bytes)
  | dirList (path : Bytes)
  | delete (path : Bytes) (isDirectory : Bool)
  | mkdir (path : Bytes)
  | sendFile (path : Bytes) (data : Bytes)
  | setFileAttributes (path : Bytes) (create change : UInt64)
deriving DecidableEq, Repr

/-- The other end. Requests are counted by the history, which has with each whether it was granted. -/
structure RemoteDisk where
  tree : RemoteTree
  /-- The order of the listing that is the answer to the request with this number. -/
  order : Nat → List (Name × Node Stored) → List (Name × Node Stored)
  order_perm : ∀ n entries, (order n entries).Perm entries
  /-- Whether the request with this number is granted, if it can be carried out. -/
  grants : Nat → Bool
  /-- What is added to a timestamp. -/
  drift : Nat → Fin (2 ^ 28)
  requests : List (TreeRequest × Bool) := []

abbrev DiskOp (α : Type) := StateM RemoteDisk α

namespace RemoteDisk

def log (d : RemoteDisk) (request : TreeRequest) (granted : Bool) : RemoteDisk :=
  { d with requests := d.requests ++ [(request, granted)] }

def withTree (d : RemoteDisk) (tree : RemoteTree) : RemoteDisk :=
  { d with tree }

section Requests

variable {α : Type}

/-- A request is carried out, with a result and a changed tree, if it can be and is granted. -/
def perform (request : TreeRequest) (act : RemoteDisk → Option (α × RemoteTree)) :
    DiskOp (Option α) := fun d =>
  match if d.grants d.requests.length then act d else none with
  | none => (none, d.log request false)
  | some (result, tree) => (some result, (d.log request true).withTree tree)

/-- A request without a result. -/
def accepted (request : TreeRequest) (act : RemoteDisk → Option RemoteTree) : DiskOp Bool := do
  return (← perform request fun d => (act d).map ((), ·)).isSome

/-- What a path leads to. -/
def found (d : RemoteDisk) (path : Bytes) : Option (Node Stored) :=
  (placeOf path).bind d.tree.get

def info : Option (Node Stored) → RemoteInfo
  | none => ⟨false, false, 0, 0, 0⟩
  | some node => .ofReport (remoteFile node).report

/-- `CheckRemotePath`. A question is answered as things are, or not at all. -/
def checkRemotePath (path : Bytes) : DiskOp (Option RemoteInfo) :=
  perform (.getFileAttributes path) fun d => some (info (d.found path), d.tree)

def dirList (path : Bytes) : DiskOp (Option (List Entry)) :=
  perform (.dirList path) fun d => do
    let place ← placeOf path
    if d.tree.isDirectory place then
      let children := d.order d.requests.length (d.tree.children place)
      return (children.map fun child => .ofResponse (listed child), d.tree)
    else none

def delete (path : Bytes) (isDirectory : Bool) : DiskOp Bool :=
  accepted (.delete path isDirectory) fun d => do
    let place ← placeOf path
    if isDirectory then d.tree.removeDirectory place else d.tree.removeFile place

inductive MkdirAnswer where
  | made
  /-- `ERR_EXISTS`. -/
  | alreadyThere
  | refused
deriving DecidableEq, Repr

def mkdir (path : Bytes) : DiskOp MkdirAnswer := do
  let d ← get
  if ← accepted (.mkdir path) fun d => do d.tree.makeDirectory (← placeOf path) then return .made
  else if d.grants d.requests.length ∧ (d.found path).isSome then return .alreadyThere
  else return .refused

-- As many bytes are taken as the request announces.
def received (data : Bytes) (old : Option Stored) : Stored where
  data := data.take (UInt32.ofNat data.length).toNat
  create := (old.map Stored.create).getD 0
  change := (old.map Stored.change).getD 0

def sendFile (path data : Bytes) : DiskOp Bool :=
  accepted (.sendFile path data) fun d => do
    let place ← placeOf path
    d.tree.write place (received data (d.tree.contents place))

/-- The stored timestamp is a little later. -/
def later (d : RemoteDisk) (t : UInt64) : UInt64 :=
  t + UInt64.ofNat (d.drift d.requests.length)

def setFileAttributes (path : Bytes) (create change : UInt64) : DiskOp Bool :=
  accepted (.setFileAttributes path create change) fun d => do
    d.tree.modify (← placeOf path) fun f =>
      { f with create := d.later create, change := d.later change }

end Requests

end RemoteDisk

open RemoteDisk

/-- The model has run out of turns. -/
inductive Exhausted where
  | exhausted
deriving DecidableEq, Repr

end XbdmGdbBridge.FileUtil
