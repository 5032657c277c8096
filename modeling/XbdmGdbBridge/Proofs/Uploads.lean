import XbdmGdbBridge.Proofs.LocalWalks
import XbdmGdbBridge.Proofs.RemoteTrees

/-!
# Where uploaded directories arrive

Each file of the walk goes to the remote directory itself, under its own name. What was below the
directory before stays; of several files with one name the last one is left.
-/

namespace XbdmGdbBridge.Proofs.Uploads

open Lib Program CText FileUtil RemoteDisk RemoteTrees LocalWalks

variable {d d' : RemoteDisk} {path : Bytes} {root : List Name} {found : List LocalEntry} {fuel : Nat}

theorem uploadChecked_overwrite (file : LocalContents) (path : Bytes) (info : RemoteInfo) :
    uploadChecked file path info .overwrite = RemoteDisk.uploadFileWithoutChecking file path true := by
  unfold uploadChecked
  split <;> rfl

theorem uploadFile_spec (e : LocalEntry) (hp : placeOf path = some root)
    (hroot : d.tree.get root = some .directory) :
    ∃ ret d', uploadFile e.name.text e.file path .overwrite d = (ret, d') ∧
      (ret = true → ∃ v, Sent e.file v ∧
        ∀ q, d'.tree.get q = if q = root ++ [e.name] then some (.file v) else d.tree.get q) := by
  unfold uploadFile
  rw [ensureXFATStylePath_of_place hp, run_bind]
  rcases checkRemotePath_cases path d with hcheck | hcheck
  · rw [hcheck, found_of_place hp, hroot, info_some]
    dsimp only [Node.isDirectory]
    rw [if_neg (by simp), if_pos rfl, uploadInto, run_bind]
    rcases checkRemotePath_cases (ensureTrailingBackslash path ++ e.name.text)
      (d.log (.getFileAttributes path) true) with hcheck' | hcheck'
    · rw [hcheck']
      dsimp only
      rw [uploadChecked_overwrite]
      exact uploadFileWithoutChecking_spec (placeOf_child hp e.name) e.file _
    · rw [hcheck']
      exact ⟨false, _, rfl, nofun⟩
  · rw [hcheck]
    exact ⟨false, _, rfl, nofun⟩

/-- The last of the files with a name. -/
def lastNamed (found : List LocalEntry) (name : Name) : Option LocalEntry :=
  (found.filter fun e => e.name = name).getLast?

theorem lastNamed_cons (e : LocalEntry) (found : List LocalEntry) (name : Name) :
    lastNamed (e :: found) name = (lastNamed found name).or (if e.name = name then some e else none) := by
  unfold lastNamed
  by_cases hname : e.name = name
  · rw [List.filter_cons_of_pos (by simpa using hname), List.getLast?_cons, if_pos hname]
    cases (found.filter fun e => e.name = name).getLast? <;> rfl
  · rw [List.filter_cons_of_neg (by simpa using hname), if_neg hname, Option.or_none]

theorem exists_lastNamed {e : LocalEntry} (h : e ∈ found) : ∃ last, lastNamed found e.name = some last := by
  have hne : found.filter (fun other => other.name = e.name) ≠ [] :=
    List.ne_nil_of_mem (List.mem_filter.mpr ⟨h, decide_eq_true rfl⟩)
  exact ⟨_, List.getLast?_eq_some_getLast hne⟩

/-- The last file of each name is there, and everything else is as before. -/
structure Overlaid (root : List Name) (found : List LocalEntry) (d d' : RemoteDisk) : Prop where
  last : ∀ name e, lastNamed found name = some e →
    ∃ v, Sent e.file v ∧ d'.tree.get (root ++ [name]) = some (.file v)
  rest : ∀ q, (∀ name, q = root ++ [name] → lastNamed found name = none) →
    d'.tree.get q = d.tree.get q

theorem uploads_spec (hp : placeOf path = some root) (hroot : d.tree.get root = some .directory) :
    ∃ ret d', found.allM (fun e => (total (uploadFile e.name.text e.file path .overwrite) :
        Program Exhausted RemoteDisk Bool)) d = .ok (ret, d') ∧
      (ret = true → Overlaid root found d d') := by
  induction found generalizing d with
  | nil => exact ⟨true, d, rfl, fun _ => ⟨nofun, fun _ _ => rfl⟩⟩
  | cons e found ih =>
    obtain ⟨ret, d₁, hrun, hsent⟩ := uploadFile_spec e hp hroot
    rw [allM_cons_of_ok (congrArg (Except.ok (ε := Exhausted)) hrun)]
    cases ret with
    | false => exact ⟨false, d₁, rfl, nofun⟩
    | true =>
      obtain ⟨v, hv, hget⟩ := hsent rfl
      have hroot₁ : d₁.tree.get root = some .directory := by
        rw [hget, if_neg (by simp), hroot]
      obtain ⟨ret, d', hrun', hover⟩ := ih hroot₁
      refine ⟨ret, d', hrun', fun hret => ?_⟩
      have hover := hover hret
      constructor
      · intro name last hlast
        rw [lastNamed_cons] at hlast
        cases hfound : lastNamed found name with
        | some other =>
          rw [hfound] at hlast
          cases hlast
          exact hover.last name last hfound
        | none =>
          rw [hfound, Option.none_or] at hlast
          obtain ⟨rfl, heq⟩ := Option.ite_none_right_eq_some.mp hlast
          cases heq
          refine ⟨v, hv, ?_⟩
          rw [hover.rest _ (by
            intro name hname
            rwa [← (List.cons.inj (List.append_cancel_left hname)).1]), hget, if_pos rfl]
      · intro q hq
        have hnone (name : Name) (hname : q = root ++ [name]) :
            lastNamed found name = none ∧ e.name ≠ name := by
          have := hq name hname
          rw [lastNamed_cons, Option.or_eq_none_iff] at this
          exact ⟨this.1, fun heq => absurd this.2 (by rw [if_pos heq]; nofun)⟩
        rw [hover.rest q fun name hname => (hnone name hname).1, hget, if_neg]
        exact fun hname => (hnone _ hname).2 rfl

theorem ensureDirectory_spec (hp : placeOf path = some root) (d : RemoteDisk) :
    ∃ ret d', ensureDirectory path d = (ret, d') ∧ (ret = true →
      d'.tree.get root = some .directory ∧ ∀ q ≠ root, d'.tree.get q = d.tree.get q) := by
  unfold ensureDirectory
  rw [run_bind]
  rcases checkRemotePath_cases path d with hcheck | hcheck
  · rw [hcheck, found_of_place hp]
    cases hnode : d.tree.get root with
    | some node =>
      rw [info_some]
      refine ⟨node.isDirectory, _, rfl, fun hdirectory => ⟨?_, fun _ _ => rfl⟩⟩
      cases node with
      | directory => exact hnode
      | file v => cases hdirectory
    | none =>
      dsimp only [info]
      rw [if_neg (by decide), run_bind]
      rcases @mkdir_cases (d.log (.getFileAttributes path) true) path root hp with
        ⟨tree, hmake, hrun⟩ | ⟨answer, hanswer, hrun⟩
      · rw [hrun]
        have hget := (FileTree.makeDirectory_eq_some hmake).2.2
        exact ⟨true, _, rfl, fun _ =>
          ⟨(hget root).trans (if_pos rfl), fun q hq => (hget q).trans (if_neg hq)⟩⟩
      · rw [hrun]
        cases answer with
        | made => exact absurd rfl hanswer
        | _ => exact ⟨false, _, rfl, nofun⟩
  · rw [hcheck]
    exact ⟨false, _, rfl, nofun⟩

section Directories

variable {l : LocalDisk} {localName remotePath : Bytes}

/-- The remote directory has each local file, at its place below the directory. -/
def Arrives (l : LocalDisk) (root : List Name) (d : RemoteDisk) : Prop :=
  ∀ e, IsLocal l e → ∃ v, d.tree.get (root ++ e.place) = some (.file v) ∧ v.data = e.file.data

/-- The files in the directory itself are not covered by later ones with other contents, nor cut off by
the length that is announced, and those further down are there already. -/
def Unharmed (root : List Name) (found : List LocalEntry) (d : RemoteDisk) : Prop :=
  ∀ e ∈ found,
    if e.directory = [] then
      ∀ last, lastNamed found e.name = some last →
        last.file.data.take (UInt32.ofNat last.file.data.length).toNat = e.file.data
    else ∃ v, d.tree.get (root ++ e.place) = some (.file v) ∧ v.data = e.file.data

theorem Overlaid.arrived_iff {e : LocalEntry} (h : Overlaid root found d d') (he : e ∈ found) :
    (∃ v, d'.tree.get (root ++ e.place) = some (.file v) ∧ v.data = e.file.data) ↔
      if e.directory = [] then
        ∀ last, lastNamed found e.name = some last →
          last.file.data.take (UInt32.ofNat last.file.data.length).toNat = e.file.data
      else ∃ v, d.tree.get (root ++ e.place) = some (.file v) ∧ v.data = e.file.data := by
  unfold LocalEntry.place
  split
  case isTrue htop =>
    obtain ⟨last, hlast⟩ := exists_lastNamed he
    obtain ⟨v, hv, hget⟩ := h.last _ _ hlast
    rw [htop, List.nil_append, hget]
    constructor
    · rintro ⟨w, hw, hdata⟩ other hother
      cases hw
      cases hlast.symm.trans hother
      exact hv.symm.trans hdata
    · intro hcovered
      exact ⟨v, rfl, hv.trans (hcovered last hlast)⟩
  case isFalse hnested =>
    rw [h.rest]
    intro name hname
    rw [List.append_right_inj] at hname
    have hlength := congrArg List.length hname
    rw [List.length_append, List.length_singleton, List.length_singleton] at hlength
    exact absurd (List.length_eq_zero_iff.mp (by omega)) hnested

theorem uploadDirectory_spec {order : List (List Name)}
    (hp : placeOf (ensureXFATStylePath remotePath) = some root)
    (horder : BreadthFirst l.subdirectories [[]] order) (hfuel : order.length ≤ fuel) :
    ∃ ret d', uploadDirectory l localName remotePath .overwrite true fuel d = .ok (ret, d') ∧
      (ret = true → (Arrives l root d' ↔ Unharmed root (order.flatMap (regularFiles l)) d)) := by
  unfold uploadDirectory
  dsimp only
  obtain ⟨ret, d₁, hrun, hensured⟩ := ensureDirectory_spec hp d
  rw [bind_total, hrun]
  cases ret with
  | false => exact ⟨false, d₁, rfl, nofun⟩
  | true =>
    obtain ⟨hroot, hsame⟩ := hensured rfl
    dsimp only
    rw [if_pos rfl, walkDirectory, walkDirectories_eq horder hfuel, uploadTarget, if_pos rfl]
    obtain ⟨ret, d', hrun, hover⟩ := @uploads_spec d₁ _ root (order.flatMap (regularFiles l))
      (placeOf_ensureTrailingBackslash hp) hroot
    refine ⟨ret, d', hrun, fun hret => ?_⟩
    have hbefore (e : LocalEntry) : d₁.tree.get (root ++ e.place) = d.tree.get (root ++ e.place) :=
      hsame _ (by simp [LocalEntry.place])
    unfold Arrives Unharmed
    refine forall_congr' fun e => ?_
    rw [← mem_found horder]
    refine forall_congr' fun he => ?_
    rw [(hover hret).arrived_iff he, hbefore]

/-- Uploading the contents of a directory, once it has succeeded, has brought all files to their places
just if nothing is covered and nothing had to be brought further down. -/
theorem uploadDirectory_arrives_iff (hp : placeOf (ensureXFATStylePath remotePath) = some root) :
    ∃ order, BreadthFirst l.subdirectories [[]] order ∧ ∀ fuel ≥ order.length, ∃ ret d',
      uploadDirectory l localName remotePath .overwrite true fuel d = .ok (ret, d') ∧
      (ret = true →
        (Arrives l root d' ↔ Unharmed root (order.flatMap (regularFiles l)) d)) := by
  obtain ⟨order, horder⟩ := exists_order l
  exact ⟨order, horder, fun _ => uploadDirectory_spec hp horder⟩

/-- A local directory whose only file is in a directory `a`, as `f`. -/
def nestedFile : LocalDisk :=
  let tree : FileTree Name LocalItem := .empty
  let tree := tree.set [folder] .directory (by simp) (.inl rfl) fun _ => rfl
  let tree := tree.set [folder, saved] (.file (.regular ⟨[1], 0, by decide⟩)) (by simp) (.inr rfl) nofun
  ⟨tree, tree.children, fun _ => .refl _⟩

theorem uploadDirectory_arrives_iff_nested :
    ∃ order, BreadthFirst nestedFile.subdirectories [[]] order ∧ ∀ fuel ≥ order.length, ∃ ret d',
      uploadDirectory nestedFile (ascii "x") (ascii "E:/") .overwrite true fuel (granting emptyDrive) =
        .ok (ret, d') ∧
      (ret = true → (Arrives nestedFile [drive] d' ↔
        Unharmed [drive] (order.flatMap (regularFiles nestedFile)) (granting emptyDrive))) :=
  uploadDirectory_arrives_iff (by decide)

/-- The file in the directory `a` is sent as `E:\f`. -/
theorem not_arrives_nested : ∃ d', uploadDirectory nestedFile (ascii "x") (ascii "E:\\") .overwrite true 2
      (granting emptyDrive) = .ok (true, d') ∧ ¬Arrives nestedFile [drive] d' := by
  have hreturns : (uploadDirectory nestedFile (ascii "x") (ascii "E:\\") .overwrite true 2
      (granting emptyDrive)).toOption.map Prod.fst = some true := by
    decide +kernel
  have horder : BreadthFirst nestedFile.subdirectories [[]] [[], [folder]] := .cons (.cons .nil)
  obtain ⟨ret, d', hrun, harrives⟩ := @uploadDirectory_spec (granting emptyDrive) [drive] 2 nestedFile
    (ascii "x") (ascii "E:\\") _ (by decide) horder (Nat.le_refl 2)
  rw [hrun] at hreturns
  cases Option.some.inj hreturns
  refine ⟨d', hrun, fun harrived => ?_⟩
  let nested : LocalEntry := ⟨[folder], saved, ⟨[1], 0, by decide⟩⟩
  have hlocal : IsLocal nestedFile nested := rfl
  have hthere := (harrives rfl).mp harrived nested ((mem_found horder).mpr hlocal)
  rw [if_neg (by simp)] at hthere
  obtain ⟨v, hv, -⟩ := hthere
  cases hv

end Directories

end XbdmGdbBridge.Proofs.Uploads
