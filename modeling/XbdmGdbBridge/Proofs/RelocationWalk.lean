import XbdmGdbBridge.Proofs.Relocation

/-!
# The walk over the relocation blocks

The walk goes from block to block by their sizes until it finds an address of zero. Neither the size
of the directory nor the shape of a block is looked at, and entries may change blocks that are still
to come.
-/

namespace XbdmGdbBridge.Proofs.RelocationWalk

open Lib DXTLibrary

section Turns

/-- A turn of the loop: a block whose entries are all applied, and the place of the next one. -/
inductive Turn (delta : Int32) : Nat × Bytes → Nat × Bytes → Prop where
  | block {start address size : Nat} {image image' : Bytes}
      (haddress : Block.load 4 image start = some address) (hne : 0 < address)
      (hsize : Block.load 4 image (start + 4) = some size)
      (hentries : relocateEntries delta address (start + size) (size + 1) (start + sizeofPointer)
        image = .ok (true, image')) :
      Turn delta (start, image) (start + size, image')

/-- The blocks a walk visits, each with the image as it finds it. -/
abbrev Visits (delta : Int32) : Nat × Bytes → Nat × Bytes → Prop :=
  Relation.ReflTransGen (Turn delta)

variable {delta : Int32} {start address size fuel : Nat} {image image' : Bytes} {b : Bool}

/-- An address of zero ends the loop. -/
theorem relocateBlocks_zero (h : Block.load 4 image start = some 0) :
    relocateBlocks delta (fuel + 1) start image = .ok (true, image) := by
  rw [relocateBlocks, Program.bind_of_ok (read_of_load h)]
  rfl

theorem relocateBlocks_block (haddress : Block.load 4 image start = some address) (hne : 0 < address)
    (hsize : Block.load 4 image (start + 4) = some size)
    (hentries : relocateEntries delta address (start + size) (size + 1) (start + sizeofPointer)
      image = .ok (b, image')) :
    relocateBlocks delta (fuel + 1) start image =
      if b then relocateBlocks delta fuel (start + size) image' else .ok (false, image') := by
  rw [relocateBlocks, Program.bind_of_ok (read_of_load haddress), if_pos hne,
    Program.bind_of_ok (read_of_load hsize), Program.bind_of_ok hentries]
  cases b <;> rfl

end Turns

section Writes

/-- Entries from one on come to name a place, which the loop adds the distance to. -/
inductive Names (delta : Int32) (dest fin : Nat) : Nat → Bytes → Nat → Prop where
  | here {entry word : Nat} {image : Bytes} (hlt : entry < fin)
      (hword : Block.load 2 image entry = some word) (htype : word >>> 12 = imageRelBasedHighlow) :
      Names delta dest fin entry image (dest + (word &&& 0x0fff))
  | absolute {entry word p : Nat} {image : Bytes} (hlt : entry < fin)
      (hword : Block.load 2 image entry = some word) (htype : word >>> 12 = imageRelBasedAbsolute)
      (h : Names delta dest fin (entry + 2) image p) : Names delta dest fin entry image p
  | highlow {entry word v p : Nat} {image image' : Bytes} (hlt : entry < fin)
      (hword : Block.load 2 image entry = some word) (htype : word >>> 12 = imageRelBasedHighlow)
      (hload : Block.load 4 image (dest + (word &&& 0x0fff)) = some v)
      (hstore : Block.store 4 image (dest + (word &&& 0x0fff))
        (UInt32.ofNat v + delta.toUInt32).toNat = some image')
      (h : Names delta dest fin (entry + 2) image' p) : Names delta dest fin entry image p

/-- The walk from a block on comes to name a place. -/
def Places (delta : Int32) (start : Nat) (image : Bytes) (p : Nat) : Prop :=
  ∃ block image' address size, Visits delta (start, image) (block, image') ∧
    Block.load 4 image' block = some address ∧ 0 < address ∧
    Block.load 4 image' (block + 4) = some size ∧
    Names delta address (block + size) (block + sizeofPointer) image' p

/-- What is written when a library is relocated: the places the walk names and, when it is through,
the slots of the imports up to one that is not resolved. -/
inductive Writes (base : UInt32) (lib : DXTLibrary) : Nat → Prop where
  | place {delta : Int32} {p : Nat} (hne : base ≠ lib.imageBase)
      (hdelta : imageDelta base lib.imageBase = .ok delta) (hsize : lib.baseRelocation.size ≠ 0)
      (h : Places delta lib.baseRelocation.virtualAddress.toNat lib.image p) : Writes base lib p
  | slot {delta : Int32} {image' : Bytes} {i : DXTLibraryImport} {done others : List DXTLibraryImport}
      (hne : base ≠ lib.imageBase) (hdelta : imageDelta base lib.imageBase = .ok delta)
      (hsize : lib.baseRelocation.size ≠ 0)
      (hblocks : relocateBlocks delta (lib.image.length + 1)
        lib.baseRelocation.virtualAddress.toNat lib.image = .ok (true, image'))
      (himports : lib.allImports = done ++ i :: others)
      (hresolved : ∀ j ∈ done ++ [i], j.realAddress ≠ 0) : Writes base lib i.functionAddress.toNat

variable {delta : Int32} {dest fin entry fuel : Nat} {image : Bytes}

end Writes

section Shape

/-- Where the walk leads to, over blocks that are not empty and begin inside the directory: to an
address of zero, or to an entry of a type that is not handled. -/
inductive Leads (delta : Int32) (fin : Nat) : Nat → Bytes → Bool → Prop where
  | zero {start : Nat} {image : Bytes} (hle : start ≤ fin)
      (haddress : Block.load 4 image start = some 0) : Leads delta fin start image true
  | unhandled {start address size : Nat} {image image' : Bytes} (hle : start ≤ fin)
      (haddress : Block.load 4 image start = some address) (hne : 0 < address)
      (hsize : Block.load 4 image (start + 4) = some size)
      (hentries : relocateEntries delta address (start + size) (size + 1) (start + sizeofPointer)
        image = .ok (false, image')) : Leads delta fin start image false
  | block {start address size : Nat} {image image' : Bytes} {b : Bool} (hle : start ≤ fin)
      (haddress : Block.load 4 image start = some address) (hne : 0 < address)
      (hsize : Block.load 4 image (start + 4) = some size) (hpos : 0 < size)
      (hentries : relocateEntries delta address (start + size) (size + 1) (start + sizeofPointer)
        image = .ok (true, image'))
      (h : Leads delta fin (start + size) image' b) : Leads delta fin start image b

variable {delta : Int32} {start fin fuel : Nat} {image image' : Bytes} {b : Bool}

theorem Leads.le (h : Leads delta fin start image b) : start ≤ fin := by
  cases h <;> assumption

theorem Leads.turn {s t : Nat × Bytes} (h : Leads delta fin s.1 s.2 b) (hturn : Turn delta s t) :
    s.1 < t.1 ∧ Leads delta fin t.1 t.2 b := by
  obtain ⟨haddress, hne, hsize, hentries⟩ := hturn
  cases h with
  | zero hle hzero =>
    rw [hzero, Option.some.injEq] at haddress
    omega
  | unhandled hle haddress' hne' hsize' hentries' =>
    obtain rfl := Option.some.inj (haddress.symm.trans haddress')
    obtain rfl := Option.some.inj (hsize.symm.trans hsize')
    rw [hentries] at hentries'
    cases hentries'
  | block hle haddress' hne' hsize' hpos hentries' h =>
    obtain rfl := Option.some.inj (haddress.symm.trans haddress')
    obtain rfl := Option.some.inj (hsize.symm.trans hsize')
    rw [hentries] at hentries'
    cases hentries'
    exact ⟨Nat.lt_add_of_pos_right hpos, h⟩

theorem Leads.ends (h : Leads delta fin start image b) :
    ∃ fuel image', relocateBlocks delta fuel start image = .ok (b, image') := by
  induction h with
  | zero hle haddress => exact ⟨1, _, relocateBlocks_zero haddress⟩
  | unhandled hle haddress hne hsize hentries =>
    exact ⟨1, _, relocateBlocks_block haddress hne hsize hentries⟩
  | block hle haddress hne hsize hpos hentries h ih =>
    obtain ⟨fuel, image', hrun⟩ := ih
    exact ⟨fuel + 1, image', (relocateBlocks_block haddress hne hsize hentries).trans hrun⟩

end Shape

end XbdmGdbBridge.Proofs.RelocationWalk
