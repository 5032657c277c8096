import XbdmGdbBridge.Lib.BreadthFirst
import XbdmGdbBridge.Shell.LocalTree

/-!
# The walk over a local directory

`WalkDirectory` hands the regular files of the directory to its callback, each once, in breadth-first
order of their directories.
-/

namespace XbdmGdbBridge.Proofs.LocalWalks

open Lib Program FileUtil

variable {l : LocalDisk} {p q : List Name} {order : List (List Name)} {e : LocalEntry}

/-- The regular files in a directory, in the order of its entries. -/
def regularFiles (l : LocalDisk) (p : List Name) : List LocalEntry :=
  (l.entries p).filterMap (LocalDisk.regularFile p)

/-- The file stands in the tree. -/
def IsLocal (l : LocalDisk) (e : LocalEntry) : Prop :=
  l.tree.get e.place = some (.file (.regular e.file))

theorem mem_subdirectories : q ∈ l.subdirectories p ↔
    ∃ name, q = p ++ [name] ∧ l.tree.get q = some .directory := by
  unfold LocalDisk.subdirectories LocalDisk.subdirectory
  rw [List.mem_filterMap]
  constructor
  · rintro ⟨⟨name, node⟩, hmem, hq⟩
    obtain ⟨hdirectory, hpath⟩ := Option.ite_none_right_eq_some.mp hq
    cases hpath
    rw [(l.entries_perm p).mem_iff, FileTree.mem_children] at hmem
    cases node with
    | directory => exact ⟨name, rfl, hmem⟩
    | file v => cases hdirectory
  · rintro ⟨name, rfl, hget⟩
    exact ⟨(name, .directory), (l.entries_perm p).mem_iff.mpr (FileTree.mem_children.mpr hget), rfl⟩

theorem mem_regularFiles : e ∈ regularFiles l p ↔ e.directory = p ∧ IsLocal l e := by
  unfold regularFiles
  rw [List.mem_filterMap]
  constructor
  · rintro ⟨⟨name, node⟩, hmem, he⟩
    rw [(l.entries_perm p).mem_iff, FileTree.mem_children] at hmem
    rcases node with _ | (file | _)
    · cases he
    · cases he
      exact ⟨rfl, hmem⟩
    · cases he
  · rintro ⟨rfl, hlocal⟩
    exact ⟨(e.name, .file (.regular e.file)),
      (l.entries_perm _).mem_iff.mpr (FileTree.mem_children.mpr hlocal), rfl⟩

theorem exists_order (l : LocalDisk) : ∃ order, BreadthFirst l.subdirectories [[]] order := by
  obtain ⟨height, hheight⟩ := l.tree.exists_length_lt
  have hrank : ∀ p, ∀ q ∈ l.subdirectories p, height - q.length < height - p.length := by
    intro p q hq
    obtain ⟨name, rfl, hget⟩ := mem_subdirectories.mp hq
    have hlt := hheight _ _ hget
    rw [List.length_append, List.length_singleton] at hlt ⊢
    omega
  exact BreadthFirst.exists_of_rank hrank height [[]] (by simp)

theorem mem_order (h : BreadthFirst l.subdirectories [[]] order) :
    p ∈ order ↔ p = [] ∨ l.tree.get p = some .directory := by
  rw [h.mem_iff]
  constructor
  · rintro ⟨root, hroot, hreach⟩
    cases List.mem_singleton.mp hroot
    rcases Relation.ReflTransGen.cases_tail hreach with rfl | ⟨q, -, hstep⟩
    · exact .inl rfl
    · exact .inr (mem_subdirectories.mp hstep).choose_spec.2
  · intro hp
    refine ⟨[], List.mem_singleton_self _, ?_⟩
    -- The directories on the way are there.
    induction p using List.reverseRecOn with
    | nil => exact .refl
    | append_singleton p name ih =>
      have hget := hp.resolve_left (by simp)
      exact .tail (ih (l.tree.nested _ _ _ hget)) (mem_subdirectories.mpr ⟨name, rfl, hget⟩)

theorem mem_found (h : BreadthFirst l.subdirectories [[]] order) :
    e ∈ order.flatMap (regularFiles l) ↔ IsLocal l e := by
  rw [List.mem_flatMap]
  constructor
  · rintro ⟨p, -, he⟩
    exact (mem_regularFiles.mp he).2
  · intro hlocal
    exact ⟨e.directory, (mem_order h).mpr (l.tree.nested _ _ _ hlocal),
      mem_regularFiles.mpr ⟨rfl, hlocal⟩⟩

section Walk

variable {σ : Type} {cb : LocalEntry → Program Exhausted σ Bool} {queue : List (List Name)} {fuel : Nat}

/-- With a turn for each directory, the walk is a loop over the files. -/
theorem walkDirectories_eq (h : BreadthFirst l.subdirectories queue order)
    (hfuel : order.length ≤ fuel) :
    walkDirectories cb l fuel queue = (order.flatMap (regularFiles l)).allM cb := by
  induction h generalizing fuel with
  | nil =>
    rw [walkDirectories]
    rfl
  | @cons p queue order _ ih =>
    cases fuel with
    | zero => cases hfuel
    | succ fuel =>
      rw [walkDirectories, List.flatMap_cons, allM_append, ← ih (Nat.le_of_succ_le_succ hfuel),
        regularFiles, allM_filterMap]
      rfl

end Walk

end XbdmGdbBridge.Proofs.LocalWalks
