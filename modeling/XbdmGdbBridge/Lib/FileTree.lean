import Mathlib.Data.Finset.Lattice.Fold
import Mathlib.Data.List.AList

/-!
# Trees of files

Directories and files under the paths that lead to them. What stands below the root is a node, the
root itself is not, and every other node stands in a directory. Operations that would leave that form
are not carried out.
-/

namespace XbdmGdbBridge.Lib

inductive Node (ν : Type) where
  | directory
  | file (contents : ν)
deriving DecidableEq, Repr

def Node.isDirectory {ν : Type} : Node ν → Bool
  | directory => true
  | file _ => false

structure FileTree (κ ν : Type) [DecidableEq κ] where
  nodes : AList fun _ : List κ => Node ν
  rooted : nodes.lookup [] = none
  nested : ∀ p name n, nodes.lookup (p ++ [name]) = some n → p = [] ∨ nodes.lookup p = some .directory

namespace FileTree

variable {κ ν : Type} [DecidableEq κ] (t : FileTree κ ν)

def get (p : List κ) : Option (Node ν) :=
  t.nodes.lookup p

def childOf (p : List κ) (entry : Σ _ : List κ, Node ν) : Option (κ × Node ν) :=
  if entry.1.dropLast = p then entry.1.getLast?.map (·, entry.2) else none

/-- What stands in a directory. -/
def children (p : List κ) : List (κ × Node ν) :=
  t.nodes.entries.filterMap (childOf p)

variable {t} {p q : List κ} {name : κ} {n : Node ν}

theorem childOf_eq_some {entry : Σ _ : List κ, Node ν} :
    childOf p entry = some (name, n) ↔ entry = ⟨p ++ [name], n⟩ := by
  obtain ⟨path, node⟩ := entry
  unfold childOf
  constructor
  · intro h
    obtain ⟨hp, hlast⟩ := Option.ite_none_right_eq_some.mp h
    obtain ⟨last, hget, hpair⟩ := Option.map_eq_some_iff.mp hlast
    cases hpair
    rw [← hp, List.dropLast_append_getLast? _ hget]
  · intro h
    cases h
    rw [if_pos List.dropLast_concat, List.getLast?_concat]
    rfl

@[simp] theorem mem_children : (name, n) ∈ t.children p ↔ t.get (p ++ [name]) = some n := by
  rw [children, List.mem_filterMap, get, ← Option.mem_def, AList.mem_lookup_iff]
  constructor
  · rintro ⟨entry, hmem, hchild⟩
    rwa [childOf_eq_some.mp hchild] at hmem
  · intro h
    exact ⟨_, h, childOf_eq_some.mpr rfl⟩

theorem get_nil (t : FileTree κ ν) : t.get [] = none :=
  t.rooted

/-- What stands on the way to a node is a directory. -/
theorem get_of_append {rest : List κ} (h : t.get (p ++ rest) = some n) (hp : p ≠ [])
    (hrest : rest ≠ []) : t.get p = some .directory := by
  induction rest using List.reverseRecOn generalizing n with
  | nil => exact absurd rfl hrest
  | append_singleton rest name ih =>
    rw [← List.append_assoc] at h
    rcases t.nested _ _ _ h with hnil | hdirectory
    · exact absurd (List.append_eq_nil_iff.mp hnil).1 hp
    · rcases eq_or_ne rest [] with rfl | hne
      · rwa [List.append_nil] at hdirectory
      · exact ih hdirectory hne

theorem children_eq_nil_iff : t.children p = [] ↔ ∀ name, t.get (p ++ [name]) = none := by
  rw [List.eq_nil_iff_forall_not_mem]
  constructor
  · intro h name
    rw [Option.eq_none_iff_forall_ne_some]
    exact fun n hn => h (name, n) (mem_children.mpr hn)
  · rintro h ⟨name, n⟩ hmem
    rw [mem_children, h] at hmem
    cases hmem

/-- All paths are shorter than some number. -/
theorem exists_length_lt (t : FileTree κ ν) :
    ∃ height, ∀ p n, t.get p = some n → p.length < height := by
  refine ⟨t.nodes.keys.toFinset.sup List.length + 1, fun p n hp => ?_⟩
  have hmem : p ∈ t.nodes.keys := AList.mem_keys.mp (AList.lookup_isSome.mp (by
    rw [show t.nodes.lookup p = some n from hp]
    rfl))
  exact Nat.lt_succ_of_le (Finset.le_sup (List.mem_toFinset.mpr hmem))

section Operations

/-- Nothing below the root. -/
def empty : FileTree κ ν where
  nodes := ∅
  rooted := rfl
  nested := nofun

/-- Without a node that nothing stands below. -/
def erase (t : FileTree κ ν) (p : List κ) (h : t.children p = []) : FileTree κ ν where
  nodes := t.nodes.erase p
  rooted := by
    rcases eq_or_ne [] p with rfl | hne
    · exact AList.lookup_erase _ _
    · rw [AList.lookup_erase_ne hne]
      exact t.rooted
  nested := by
    intro q name n hn
    have hne : q ++ [name] ≠ p := by
      rintro rfl
      rw [AList.lookup_erase] at hn
      cases hn
    rw [AList.lookup_erase_ne hne] at hn
    rcases t.nested q name n hn with hnil | hdirectory
    · exact .inl hnil
    · refine .inr ?_
      rwa [AList.lookup_erase_ne]
      rintro rfl
      have hnone : t.nodes.lookup (q ++ [name]) = none := children_eq_nil_iff.mp h name
      rw [hnone] at hn
      cases hn

/-- With a node, in a directory or under the root. What was a directory stays one. -/
def set (t : FileTree κ ν) (p : List κ) (n : Node ν) (hne : p ≠ [])
    (hparent : p.dropLast = [] ∨ t.get p.dropLast = some .directory)
    (hkind : t.get p = some .directory → n = .directory) : FileTree κ ν where
  nodes := t.nodes.insert p n
  rooted := by
    rw [AList.lookup_insert_ne hne.symm]
    exact t.rooted
  nested := by
    intro q name m hm
    rcases eq_or_ne (q ++ [name]) p with rfl | hother
    · rw [List.dropLast_concat] at hparent
      refine hparent.imp_right fun hdirectory => ?_
      rwa [AList.lookup_insert_ne (by simp)]
    · rw [AList.lookup_insert_ne hother] at hm
      refine (t.nested q name m hm).imp_right fun hdirectory => ?_
      rcases eq_or_ne q p with rfl | hq
      · rw [AList.lookup_insert, hkind hdirectory]
      · rwa [AList.lookup_insert_ne hq]

theorem get_set {hne : p ≠ []} {hparent : p.dropLast = [] ∨ t.get p.dropLast = some .directory}
    {hkind : t.get p = some .directory → n = .directory} :
    (t.set p n hne hparent hkind).get q = if q = p then some n else t.get q := by
  split
  next hq =>
    rw [hq]
    exact AList.lookup_insert _
  next hother => exact AList.lookup_insert_ne hother

def isDirectory (t : FileTree κ ν) (p : List κ) : Bool :=
  (t.get p).any Node.isDirectory

def isFile (t : FileTree κ ν) (p : List κ) : Bool :=
  (t.get p).any fun n => !n.isDirectory

theorem isDirectory_iff : t.isDirectory p = true ↔ t.get p = some .directory := by
  unfold isDirectory
  rcases t.get p with _ | (_ | v) <;> simp [Node.isDirectory]

theorem isFile_iff : t.isFile p = true ↔ ∃ v, t.get p = some (.file v) := by
  unfold isFile
  rcases t.get p with _ | (_ | v) <;> simp [Node.isDirectory]

theorem ne_nil_of_get (h : t.get p = some n) : p ≠ [] := by
  rintro rfl
  rw [get_nil] at h
  cases h

theorem parent_of_get (h : t.get p = some n) :
    p.dropLast = [] ∨ t.get p.dropLast = some .directory := by
  have hp := List.dropLast_append_getLast (ne_nil_of_get h)
  rw [← hp] at h
  exact t.nested _ _ _ h

/-- Nothing stands below a file. -/
theorem get_eq_none_of_file {v : ν} (h : t.get p = some (.file v)) (hq : p <+: q) (hne : q ≠ p) :
    t.get q = none := by
  obtain ⟨rest, rfl⟩ := hq
  rw [Option.eq_none_iff_forall_ne_some]
  intro n hn
  have hrest : rest ≠ [] := by
    rintro rfl
    exact hne (List.append_nil p)
  cases h.symm.trans (get_of_append hn (ne_nil_of_get h) hrest)

theorem children_of_file {v : ν} (h : t.get p = some (.file v)) : t.children p = [] :=
  children_eq_nil_iff.mpr fun _ => get_eq_none_of_file h (List.prefix_append _ _) (by simp)

def removeFile (t : FileTree κ ν) (p : List κ) : Option (FileTree κ ν) :=
  if h : t.isFile p then
    some (t.erase p (children_of_file (isFile_iff.mp h).choose_spec))
  else none

def removeDirectory (t : FileTree κ ν) (p : List κ) : Option (FileTree κ ν) :=
  if h : t.isDirectory p ∧ t.children p = [] then some (t.erase p h.2) else none

/-- A new directory in a directory. -/
def makeDirectory (t : FileTree κ ν) (p : List κ) : Option (FileTree κ ν) :=
  if h : t.isDirectory p.dropLast ∧ t.get p = none then
    some (t.set p .directory (by
      rintro rfl
      exact ne_nil_of_get (isDirectory_iff.mp h.1) rfl) (.inr (isDirectory_iff.mp h.1)) fun _ => rfl)
  else none

/-- A file in a directory, new or in the place of another one. -/
def write (t : FileTree κ ν) (p : List κ) (v : ν) : Option (FileTree κ ν) :=
  if h : t.isDirectory p.dropLast ∧ ¬t.isDirectory p then
    some (t.set p (.file v) (by
      rintro rfl
      exact ne_nil_of_get (isDirectory_iff.mp h.1) rfl) (.inr (isDirectory_iff.mp h.1))
      fun hdirectory => absurd (isDirectory_iff.mpr hdirectory) h.2)
  else none

def contents (t : FileTree κ ν) (p : List κ) : Option ν :=
  match t.get p with
  | some (.file v) => some v
  | _ => none

theorem contents_eq_some {v : ν} : t.contents p = some v ↔ t.get p = some (.file v) := by
  unfold contents
  rcases t.get p with _ | (_ | w) <;> simp

/-- Other contents for a file that is there. -/
def modify (t : FileTree κ ν) (p : List κ) (f : ν → ν) : Option (FileTree κ ν) :=
  match h : t.contents p with
  | none => none
  | some v => some (t.set p (.file (f v)) (ne_nil_of_get (contents_eq_some.mp h))
      (parent_of_get (contents_eq_some.mp h))
      fun hdirectory => nomatch (contents_eq_some.mp h).symm.trans hdirectory)

variable {t' : FileTree κ ν} {v : ν}

theorem makeDirectory_eq_some (h : t.makeDirectory p = some t') :
    t.get p.dropLast = some .directory ∧ t.get p = none ∧
      ∀ q, t'.get q = if q = p then some .directory else t.get q := by
  unfold makeDirectory at h
  split at h
  next hcan =>
    cases h
    exact ⟨isDirectory_iff.mp hcan.1, hcan.2, fun q => get_set⟩
  next => cases h

theorem write_eq_some (h : t.write p v = some t') :
    t.get p.dropLast = some .directory ∧ t.get p ≠ some .directory ∧
      ∀ q, t'.get q = if q = p then some (.file v) else t.get q := by
  unfold write at h
  split at h
  next hcan =>
    cases h
    exact ⟨isDirectory_iff.mp hcan.1, fun hp => hcan.2 (isDirectory_iff.mpr hp), fun q => get_set⟩
  next => cases h

theorem modify_of_file {f : ν → ν} (h : t.get p = some (.file v)) :
    ∃ t', t.modify p f = some t' ∧ ∀ q, t'.get q = if q = p then some (.file (f v)) else t.get q := by
  have hv := contents_eq_some.mpr h
  unfold modify
  split
  next hnone => cases hnone.symm.trans hv
  next w hw =>
    cases Option.some.inj (hw.symm.trans hv)
    exact ⟨_, rfl, fun q => get_set⟩

end Operations

end FileTree

end XbdmGdbBridge.Lib
