import XbdmGdbBridge.Proofs.FileSync
import XbdmGdbBridge.Shell.UploadDirectory

/-!
# Requests to the other end's files

What each request does, for a path that leads to a place: it is carried out if the place is as it
needs it and the other end grants it, and changes nothing but the history otherwise.
-/

namespace XbdmGdbBridge.Proofs.RemoteTrees

open Lib Program CText FileUtil RemoteDisk

section Requests

variable {α : Type} {d : RemoteDisk} {path : Bytes} {p : List Name}

/-- The request that comes next is granted, if it can be carried out. -/
def Grants (d : RemoteDisk) : Prop :=
  d.grants d.requests.length = true

theorem perform_some {request : TreeRequest} {act : RemoteDisk → Option (α × RemoteTree)}
    {result : α} {tree : RemoteTree} (hgrants : Grants d) (h : act d = some (result, tree)) :
    perform request act d = (some result, (d.log request true).withTree tree) := by
  rw [perform, if_pos (show _ = true from hgrants), h]

theorem perform_none {request : TreeRequest} {act : RemoteDisk → Option (α × RemoteTree)}
    (h : Grants d → act d = none) : perform request act d = (none, d.log request false) := by
  have hnone : (if d.grants d.requests.length then act d else none) = none := by
    split
    · exact h ‹_›
    · rfl
  rw [perform, hnone]

/-- A request without a result, at a place. -/
theorem accepted_cases {request : TreeRequest} {act : RemoteDisk → Option RemoteTree} :
    (∃ tree, Grants d ∧ act d = some tree ∧
      accepted request act d = (true, (d.log request true).withTree tree)) ∨
    ((Grants d → act d = none) ∧ accepted request act d = (false, d.log request false)) := by
  unfold accepted
  rw [run_bind]
  by_cases hgrants : Grants d
  · cases hact : act d with
    | none =>
      refine .inr ⟨fun _ => rfl, ?_⟩
      rw [perform_none fun _ => by rw [hact]; rfl]
      rfl
    | some tree =>
      refine .inl ⟨tree, hgrants, rfl, ?_⟩
      rw [perform_some hgrants (by rw [hact]; rfl)]
      rfl
  · refine .inr ⟨fun h => absurd h hgrants, ?_⟩
    rw [perform_none fun h => absurd h hgrants]
    rfl

theorem info_some (node : Node Stored) : info (some node) =
    ⟨true, node.isDirectory, UInt64.ofNat (remoteFile node).data.length, (remoteFile node).create,
      (remoteFile node).change⟩ := by
  rw [info, FileSync.ofReport_report]
  cases node <;> rfl

theorem found_of_place (hp : placeOf path = some p) : d.found path = d.tree.get p := by
  rw [found, hp]
  rfl

theorem checkRemotePath_cases (path : Bytes) (d : RemoteDisk) :
    checkRemotePath path d = (some (info (d.found path)), d.log (.getFileAttributes path) true) ∨
    checkRemotePath path d = (none, d.log (.getFileAttributes path) false) := by
  by_cases hgrants : Grants d
  · exact .inl (perform_some hgrants rfl)
  · exact .inr (perform_none fun h => absurd h hgrants)

theorem mkdir_cases (hp : placeOf path = some p) :
    (∃ tree, d.tree.makeDirectory p = some tree ∧
      mkdir path d = (.made, (d.log (.mkdir path) true).withTree tree)) ∨
    ∃ answer, answer ≠ .made ∧ mkdir path d = (answer, d.log (.mkdir path) false) := by
  have hcases := @accepted_cases d (.mkdir path) fun d => do d.tree.makeDirectory (← placeOf path)
  unfold mkdir
  rw [run_bind, run_get, run_bind]
  dsimp only
  rcases hcases with ⟨tree, -, hmake, hrun⟩ | ⟨-, hrun⟩
  · rw [hp] at hmake
    rw [hrun]
    exact .inl ⟨tree, hmake, rfl⟩
  · rw [hrun, if_neg Bool.false_ne_true]
    split
    · exact .inr ⟨.alreadyThere, nofun, rfl⟩
    · exact .inr ⟨.refused, nofun, rfl⟩

end Requests

section Uploads

variable {d : RemoteDisk} {path : Bytes} {p : List Name} {file : LocalContents}

/-- The requests on the way from one state to another. -/
structure Follows (d : RemoteDisk) (new : List (TreeRequest × Bool)) (d' : RemoteDisk) : Prop where
  grants : d'.grants = d.grants
  requests : d'.requests = d.requests ++ new

theorem Follows.trans {d d' d'' : RemoteDisk} {new new' : List (TreeRequest × Bool)}
    (h : Follows d new d') (h' : Follows d' new' d'') : Follows d (new ++ new') d'' where
  grants := h'.grants.trans h.grants
  requests := by rw [h'.requests, h.requests, List.append_assoc]

theorem Follows.refl (d : RemoteDisk) : Follows d [] d :=
  ⟨rfl, (List.append_nil _).symm⟩

/-- What is kept of a file that was sent. -/
def Sent (file : LocalContents) (v : Stored) : Prop :=
  v.data = file.data.take (UInt32.ofNat file.data.length).toNat

theorem sendFile_cases (hp : placeOf path = some p) (data : Bytes) :
    (∃ tree v, v.data = data.take (UInt32.ofNat data.length).toNat ∧
      d.tree.write p v = some tree ∧
      sendFile path data d = (true, (d.log (.sendFile path data) true).withTree tree)) ∨
    sendFile path data d = (false, d.log (.sendFile path data) false) := by
  have hcases := @accepted_cases d (.sendFile path data) fun d => do
    let place ← placeOf path
    d.tree.write place (RemoteDisk.received data (d.tree.contents place))
  unfold sendFile
  rw [hp] at hcases ⊢
  rcases hcases with ⟨tree, -, hwrite, hrun⟩ | ⟨-, hrun⟩
  · exact .inl ⟨tree, _, rfl, hwrite, hrun⟩
  · exact .inr hrun

theorem setFileAttributes_cases {v : Stored} (hp : placeOf path = some p)
    (h : d.tree.get p = some (.file v)) (create change : UInt64) :
    (∃ tree : RemoteTree, (∀ q, tree.get q = if q = p then
        some (.file { v with create := d.later create, change := d.later change }) else d.tree.get q) ∧
      setFileAttributes path create change d =
        (true, (d.log (.setFileAttributes path create change) true).withTree tree)) ∨
    setFileAttributes path create change d =
      (false, d.log (.setFileAttributes path create change) false) := by
  have hcases := @accepted_cases d (.setFileAttributes path create change) fun d => do
    d.tree.modify (← placeOf path) fun f =>
      { f with create := d.later create, change := d.later change }
  obtain ⟨tree', htree', hget⟩ := @FileTree.modify_of_file _ _ _ d.tree p v
    (fun f => { f with create := d.later create, change := d.later change }) h
  unfold setFileAttributes
  rw [hp] at hcases ⊢
  rcases hcases with ⟨tree, -, hmodify, hrun⟩ | ⟨-, hrun⟩
  · cases Option.some.inj (htree'.symm.trans hmodify)
    exact .inl ⟨tree', hget, hrun⟩
  · exact .inr hrun

theorem uploadFileWithoutChecking_spec (hp : placeOf path = some p) (file : LocalContents)
    (d : RemoteDisk) :
    ∃ ret d', RemoteDisk.uploadFileWithoutChecking file path true d = (ret, d') ∧
      (ret = true → ∃ v, Sent file v ∧
        ∀ q, d'.tree.get q = if q = p then some (.file v) else d.tree.get q) := by
  let stamp := safeXFATTimestamp file.seconds
  unfold RemoteDisk.uploadFileWithoutChecking
  rw [ensureXFATStylePath_of_place hp, run_bind]
  rcases sendFile_cases hp file.data with ⟨tree, v, hdata, hwrite, hrun⟩ | hrun
  · obtain ⟨-, -, hget⟩ := FileTree.write_eq_some hwrite
    rw [hrun]
    dsimp only
    rw [if_pos rfl, if_pos rfl]
    let sent := (d.log (.sendFile path file.data) true).withTree tree
    have hfile : sent.tree.get p = some (.file v) := (hget p).trans (if_pos rfl)
    rcases setFileAttributes_cases hp hfile stamp stamp with ⟨tree', hget', hrun'⟩ | hrun'
    · let stamped : Stored := { v with create := sent.later stamp, change := sent.later stamp }
      have hall (q : List Name) : tree'.get q = if q = p then some (.file stamped) else d.tree.get q := by
        refine (hget' q).trans ?_
        split
        · rfl
        case isFalse hne => exact (hget q).trans (if_neg hne)
      exact ⟨_, _, hrun', fun _ => ⟨stamped, hdata, hall⟩⟩
    · exact ⟨_, _, hrun', nofun⟩
  · rw [hrun]
    exact ⟨_, _, rfl, nofun⟩

end Uploads

/-- A drive. -/
def drive : Name :=
  ⟨ascii "E:", by decide, by decide, by decide, by decide, by decide⟩

/-- A directory. -/
def folder : Name :=
  ⟨ascii "a", by decide, by decide, by decide, by decide, by decide⟩

/-- A file. -/
def saved : Name :=
  ⟨ascii "f", by decide, by decide, by decide, by decide, by decide⟩

/-- The other end with a drive that nothing is on. -/
def emptyDrive : RemoteTree :=
  FileTree.empty.set [drive] .directory (by simp) (.inl rfl) fun _ => rfl

/-- Another end that grants everything it can. -/
def granting (tree : RemoteTree) : RemoteDisk where
  tree := tree
  order _ entries := entries
  order_perm _ _ := .refl _
  grants _ := true
  drift _ := ⟨0, by decide⟩

end XbdmGdbBridge.Proofs.RemoteTrees
