import XbdmGdbBridge.Proofs.RemoteTrees

/-!
# Deleting a directory with all that is in it

`DeleteRecursively` works on texts: it lists a path, puts the names behind it and deletes what they
lead to, and at last deletes the path itself. That each directory is empty when its turn comes, and that
nothing else goes, is carried by what is still to be deleted in the directory at hand (`Holds`).
-/

namespace XbdmGdbBridge.Proofs.Deletion

open Lib Program CText FileUtil RemoteDisk RemoteTrees

variable {d d' d'' : RemoteDisk} {path : Bytes} {p q : List Name} {name : Name} {ret : Bool}

/-- What is deleted, at most, on the way from one state to another, and how the result follows from the
requests on that way. -/
structure Deletes (p : List Name) (d : RemoteDisk) (ret : Bool) (d' : RemoteDisk) : Prop where
  history : ∃ new, Follows d new d' ∧ (ret = true ↔ ∀ r ∈ new, r.2 = true)
  refused : ret = false → ∃ n, d.grants n = false
  inside : ∀ q, d'.tree.get q = d.tree.get q ∨ p <+: q ∧ d'.tree.get q = none

namespace Deletes

theorem refl (p : List Name) (d : RemoteDisk) : Deletes p d true d where
  history := ⟨[], .refl d, by simp⟩
  refused := nofun
  inside := fun _ => .inl rfl

theorem trans (h : Deletes p d true d') (h' : Deletes p d' ret d'') : Deletes p d ret d'' := by
  obtain ⟨new, hnew, hall⟩ := h.history
  obtain ⟨new', hnew', hall'⟩ := h'.history
  constructor
  · refine ⟨new ++ new', hnew.trans hnew', ?_⟩
    rw [List.forall_mem_append, hall', iff_and_self]
    exact fun _ => hall.mp rfl
  · exact hnew.grants ▸ h'.refused
  · intro q
    rcases h'.inside q with heq | hgone
    · rw [heq]
      exact h.inside q
    · exact .inr hgone

end Deletes

/-- A directory is there and has exactly these nodes in it. -/
structure Holds (p : List Name) (kids : List (Name × Node Stored)) (d : RemoteDisk) : Prop where
  directory : d.tree.get p = some .directory
  distinct : (kids.map Prod.fst).Nodup
  kids : ∀ name n, (name, n) ∈ kids ↔ d.tree.get (p ++ [name]) = some n

namespace Holds

variable {kids : List (Name × Node Stored)} {kid : Name × Node Stored}

theorem head (h : Holds p (kid :: kids) d) : d.tree.get (p ++ [kid.1]) = some kid.2 :=
  (h.kids _ _).mp List.mem_cons_self

theorem tail (h : Holds p (kid :: kids) d)
    (hgone : ∀ q, d'.tree.get q = if p ++ [kid.1] <+: q then none else d.tree.get q) :
    Holds p kids d' where
  directory := by
    rw [hgone, if_neg fun hprefix => by simpa using hprefix.length_le]
    exact h.directory
  distinct := (List.nodup_cons.mp h.distinct).2
  kids := by
    intro name n
    have hprefix : p ++ [kid.1] <+: p ++ [name] ↔ kid.1 = name := by
      rw [List.prefix_append_right_inj, List.cons_prefix_cons]
      exact and_iff_left (List.prefix_rfl)
    have hfresh := (List.nodup_cons.mp h.distinct).1
    rw [hgone, if_congr hprefix rfl rfl]
    rcases eq_or_ne kid.1 name with rfl | hne
    · rw [if_pos rfl]
      exact iff_of_false (fun hmem => hfresh (List.mem_map.mpr ⟨_, hmem, rfl⟩)) nofun
    · rw [if_neg hne, ← h.kids, List.mem_cons, or_iff_right]
      rintro rfl
      exact hne rfl

end Holds

section Steps

end Steps

end XbdmGdbBridge.Proofs.Deletion
