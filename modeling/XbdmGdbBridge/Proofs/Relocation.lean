import XbdmGdbBridge.Dyndxt.Library

/-!
# Relocating a library

A relocation directory lists the places of addresses in the image. The walk over it moves each of
them by the distance between the bases, as long as no place is in the directory itself; then the
imports are written to their slots.
-/

namespace XbdmGdbBridge.Proofs

open Lib DXTLibrary

/-- The entries of a block up to `fin`, and the places they name. -/
inductive Entries (image : Bytes) (dest : Nat) : Nat → Nat → List Nat → Prop where
  | done {fin : Nat} : Entries image dest fin fin []
  | absolute {entry fin word : Nat} {places : List Nat} (hword : Block.load 2 image entry = some word)
      (htype : word >>> 12 = imageRelBasedAbsolute) (h : Entries image dest (entry + 2) fin places) :
      Entries image dest entry fin places
  | highlow {entry fin word : Nat} {places : List Nat} (hword : Block.load 2 image entry = some word)
      (htype : word >>> 12 = imageRelBasedHighlow) (h : Entries image dest (entry + 2) fin places) :
      Entries image dest entry fin ((dest + (word &&& 0x0fff)) :: places)

/-- The blocks of a directory. The last one has the address 0, and nothing behind that is read. -/
inductive Directory (image : Bytes) : Nat → Nat → List Nat → Prop where
  | done {start : Nat} (haddress : Block.load 4 image start = some 0) :
      Directory image start (start + 4) []
  | block {start fin address size : Nat} {places others : List Nat}
      (haddress : Block.load 4 image start = some address) (hne : 0 < address)
      (hsize : Block.load 4 image (start + 4) = some size)
      (hentries : Entries image address (start + 8) (start + size) places)
      (h : Directory image (start + size) fin others) :
      Directory image start fin (places ++ others)

section Format

variable {image image' : Bytes} {dest entry start fin : Nat} {places : List Nat}

theorem Entries.le (h : Entries image dest entry fin places) : entry ≤ fin := by
  induction h with
  | done => exact le_rfl
  | absolute hword htype h ih => omega
  | highlow hword htype h ih => omega

theorem Directory.le (h : Directory image start fin places) : start ≤ fin := by
  induction h with
  | done haddress => omega
  | block haddress hne hsize hentries h ih => omega

/-- Entries are the same in an image with the same bytes in their place. -/
theorem Entries.congr (h : Entries image dest entry fin places) (hlength : image'.length = image.length)
    (hsame : ∀ a, entry ≤ a → a < fin → image'[a]? = image[a]?) :
    Entries image' dest entry fin places := by
  induction h with
  | done => exact .done
  | @absolute entry fin word places hword htype h ih =>
    have hle := h.le
    refine .absolute ?_ htype (ih fun a hlow hhigh => hsame a (by omega) hhigh)
    rw [Block.load_congr hlength fun a hlow hhigh => hsame a hlow (by omega), hword]
  | @highlow entry fin word places hword htype h ih =>
    have hle := h.le
    refine .highlow ?_ htype (ih fun a hlow hhigh => hsame a (by omega) hhigh)
    rw [Block.load_congr hlength fun a hlow hhigh => hsame a hlow (by omega), hword]

theorem Directory.congr (h : Directory image start fin places) (hlength : image'.length = image.length)
    (hsame : ∀ a, start ≤ a → a < fin → image'[a]? = image[a]?) :
    Directory image' start fin places := by
  induction h with
  | @done start haddress =>
    refine .done ?_
    rw [Block.load_congr hlength hsame, haddress]
  | @block start fin address size places others haddress hne hsize hentries h ih =>
    have hle := h.le
    have hentries' := hentries.le
    refine .block ?_ hne ?_ ?_ (ih fun a hlow hhigh => hsame a (by omega) hhigh)
    · rw [Block.load_congr hlength fun a hlow hhigh => hsame a hlow (by omega), haddress]
    · rw [Block.load_congr hlength fun a hlow hhigh => hsame a (by omega) (by omega), hsize]
    · exact hentries.congr hlength fun a hlow hhigh => hsame a (by omega) (by omega)

end Format

section Steps

variable {image image' : Bytes} {n offset v : Nat}

theorem read_of_load (h : Block.load n image offset = some v) :
    DXTLibrary.read n offset image = .ok (v, image) := by
  rw [DXTLibrary.read, h]

theorem write_of_store (h : Block.store n image offset v = some image') :
    DXTLibrary.write n offset v image = .ok ((), image') := by
  rw [DXTLibrary.write, h]

theorem add_delta_toNat (v : Nat) (delta : Int32) :
    (UInt32.ofNat v + delta.toUInt32).toNat = (v + delta.toUInt32.toNat) % 256 ^ 4 := by
  rw [UInt32.toNat_add, UInt32.toNat_ofNat', Nat.mod_add_mod]
  rfl

end Steps

section Walk

variable {image : Bytes} {dest entry start fin fuel : Nat} {places : List Nat}

theorem shiftRight_highlow {word : Nat} (h : word >>> 12 = imageRelBasedHighlow) :
    word >>> 12 ≠ imageRelBasedAbsolute := by
  rw [h]
  decide

theorem relocateEntries_ok (delta : Int32) (h : Entries image dest entry fin places) (hfuel : fin - entry < fuel)
    (hinside : ∀ p ∈ places, p + 4 ≤ image.length) (hapart : places.Pairwise (Block.Apart 4))
    (hclear : ∀ p ∈ places, p + 4 ≤ entry ∨ fin ≤ p) :
    ∃ image', relocateEntries delta dest fin fuel entry image = .ok (true, image') ∧
      Block.Shifted 4 delta.toUInt32.toNat places image image' := by
  induction fuel generalizing image entry places with
  | zero => omega
  | succ fuel ih =>
    cases h with
    | done =>
      refine ⟨image, ?_, Block.Shifted.refl _ _ _⟩
      rw [relocateEntries, if_neg (lt_irrefl _)]
      rfl
    | @absolute entry fin word places hword htype h =>
      have hle := h.le
      obtain ⟨image', hrun, hshifted⟩ := ih h (by omega) hinside hapart fun p hp => by
        have := hclear p hp
        omega
      refine ⟨image', ?_, hshifted⟩
      rw [relocateEntries, if_pos (by omega), Program.bind_of_ok (read_of_load hword), if_pos htype]
      exact hrun
    | @highlow entry fin word places hword htype h =>
      have hle := h.le
      have hplace := hinside _ (List.mem_cons_self ..)
      have hfirst := hclear _ (List.mem_cons_self ..)
      obtain ⟨hothers, hapart⟩ := List.pairwise_cons.mp hapart
      obtain ⟨v, hv⟩ := Block.load_isSome hplace
      obtain ⟨image₁, hstore⟩ := Block.store_isSome (v := (v + delta.toUInt32.toNat) % 256 ^ 4) hplace
      have hmoved := Block.Shifted.of_store hv hstore
      have hentries : Entries image₁ dest (entry + 2) fin places :=
        h.congr hmoved.length fun a hlow hhigh => Block.getElem?_store_outside hstore (by omega)
      obtain ⟨image', hrun, hshifted⟩ := ih hentries (by omega)
        (fun p hp => by rw [hmoved.length]; exact hinside p (List.mem_cons_of_mem _ hp)) hapart
        (fun p hp => by have := hclear p (List.mem_cons_of_mem _ hp); omega)
      refine ⟨image', ?_, hmoved.append hshifted ?_⟩
      · rw [relocateEntries, if_pos (by omega), Program.bind_of_ok (read_of_load hword),
          if_neg (shiftRight_highlow htype), if_pos htype, Program.bind_of_ok (read_of_load hv),
          add_delta_toNat, Program.bind_of_ok (write_of_store hstore)]
        exact hrun
      · intro p hp q hq
        obtain rfl := List.mem_singleton.mp hp
        exact hothers q hq

theorem relocateBlocks_ok (delta : Int32) (h : Directory image start fin places) (hfuel : fin < start + fuel)
    (hinside : ∀ p ∈ places, p + 4 ≤ image.length) (hapart : places.Pairwise (Block.Apart 4))
    (hclear : ∀ p ∈ places, p + 4 ≤ start ∨ fin ≤ p) :
    ∃ image', relocateBlocks delta fuel start image = .ok (true, image') ∧
      Block.Shifted 4 delta.toUInt32.toNat places image image' := by
  induction fuel generalizing image start places with
  | zero =>
    have := h.le
    omega
  | succ fuel ih =>
    cases h with
    | done haddress =>
      refine ⟨image, ?_, Block.Shifted.refl _ _ _⟩
      rw [relocateBlocks, Program.bind_of_ok (read_of_load haddress)]
      rfl
    | @block _ _ address size places others haddress hne hsize hentries h =>
      have hle := h.le
      have hblock := hentries.le
      obtain ⟨hfirst, hsecond, hbetween⟩ := List.pairwise_append.mp hapart
      have hfuel' : start + size - (start + 8) < size + 1 := by omega
      obtain ⟨image₁, hrun, hshifted⟩ := relocateEntries_ok delta hentries hfuel'
        (fun p hp => hinside p (List.mem_append_left _ hp)) hfirst
        (fun p hp => by have := hclear p (List.mem_append_left _ hp); omega)
      have hdirectory : Directory image₁ (start + size) fin others :=
        h.congr hshifted.length fun a hlow hhigh => hshifted.same a fun p hp => by
          have := hclear p (List.mem_append_left _ hp)
          omega
      obtain ⟨image', hrun', hshifted'⟩ := ih hdirectory (by omega)
        (fun p hp => by rw [hshifted.length]; exact hinside p (List.mem_append_right _ hp)) hsecond
        (fun p hp => by have := hclear p (List.mem_append_right _ hp); omega)
      refine ⟨image', ?_, hshifted.append hshifted' hbetween⟩
      rw [relocateBlocks, Program.bind_of_ok (read_of_load haddress), if_pos hne,
        Program.bind_of_ok (read_of_load hsize), sizeofPointer, Program.bind_of_ok hrun]
      exact hrun'

end Walk

section Patching

variable {imports : List DXTLibraryImport} {image image' : Bytes}

/-- Where the imports are written to, and what. -/
def slots (imports : List DXTLibraryImport) : List (Nat × Nat) :=
  imports.map fun i => (i.functionAddress.toNat, i.realAddress.toNat)

theorem patch_true_iff :
    patch imports image = .ok (true, image') ↔
      (∀ i ∈ imports, i.realAddress ≠ 0) ∧ Block.stores 4 (slots imports) image = some image' := by
  induction imports generalizing image with
  | nil =>
    constructor
    · intro h
      cases h
      exact ⟨by simp, rfl⟩
    · rintro ⟨-, h⟩
      cases h
      rfl
  | cons i imports ih =>
    by_cases hzero : i.realAddress = 0
    · rw [patch, if_pos hzero]
      constructor
      · intro h
        cases h
      · rintro ⟨h, -⟩
        exact absurd hzero (h i (by simp))
    · rw [patch, if_neg hzero]
      change _ ↔ _ ∧ (Block.store 4 image i.functionAddress.toNat i.realAddress.toNat).bind
        (Block.stores 4 (slots imports)) = _
      cases hstore : Block.store 4 image i.functionAddress.toNat i.realAddress.toNat with
      | none =>
        have hfault : (DXTLibrary.write 4 i.functionAddress.toNat i.realAddress.toNat >>= fun _ =>
            patch imports) image = .error .outside := by
          rw [Program.bind_apply, DXTLibrary.write, hstore]
        constructor
        · intro h
          rw [hfault] at h
          cases h
        · rintro ⟨-, h⟩
          cases h
      | some image₁ =>
        rw [Program.bind_of_ok (write_of_store hstore), ih, Option.bind_some]
        simp [hzero]

end Patching

section Bases

variable {base current : UInt32}

/-- The distance is negated, and its negation is no signed number of 32 bits. -/
def Overflows (base current : UInt32) : Prop :=
  base < current ∧ current - base = 0x80000000

instance : Decidable (Overflows base current) :=
  inferInstanceAs (Decidable (base < current ∧ current - base = 0x80000000))

theorem imageDelta_ok (h : ¬Overflows base current) (hne : base ≠ current) :
    ∃ delta, imageDelta base current = .ok delta ∧ delta.toUInt32 = base - current := by
  unfold imageDelta
  by_cases hlt : current < base
  · exact ⟨(base - current).toInt32, if_pos hlt, rfl⟩
  · have hgt : base < current := UInt32.lt_of_le_of_ne (UInt32.not_lt.mp hlt) hne
    have hmin : (current - base).toInt32 ≠ Int32.minValue := by
      intro hmin
      exact h ⟨hgt, congrArg Int32.toUInt32 hmin⟩
    refine ⟨-1 * (current - base).toInt32, ?_, ?_⟩
    · rw [if_neg hlt]
      exact if_neg hmin
    · rw [← Int32.neg_eq_neg_one_mul]
      exact UInt32.neg_sub

theorem imageDelta_overflow (h : Overflows base current) : imageDelta base current = .error .overflow := by
  have hmin : (current - base).toInt32 = Int32.minValue := by
    rw [h.2]
    rfl
  unfold imageDelta
  rw [if_neg (UInt32.lt_asymm h.1)]
  exact if_pos hmin

end Bases

section Relocate

variable {lib lib' : DXTLibrary} {base : UInt32} {fin : Nat} {places : List Nat}

theorem relocate_of_ok {delta : Int32} {image' image'' : Bytes} {b : Bool} (hne : base ≠ lib.imageBase)
    (hdelta : imageDelta base lib.imageBase = .ok delta) (hsize : lib.baseRelocation.size ≠ 0)
    (hblocks : relocateBlocks delta (lib.image.length + 1) lib.baseRelocation.virtualAddress.toNat
      lib.image = .ok (true, image'))
    (hpatch : patch lib.allImports image' = .ok (b, image'')) :
    relocate base lib = .ok (b, { lib with imageBase := base, image := image'' }) := by
  have hon : Program.on imagePart (relocateBlocks delta (lib.image.length + 1)
      lib.baseRelocation.virtualAddress.toNat) lib = .ok (true, { lib with image := image' }) :=
    Program.on_of_ok hblocks
  have hpatched : patchImports { lib with imageBase := base, image := image' } =
      .ok (b, { lib with imageBase := base, image := image'' }) :=
    Program.on_of_ok hpatch
  unfold relocate
  rw [Program.get_bind_apply, if_neg hne, hdelta]
  change (if lib.baseRelocation.size = 0 then (pure false : Program ImageFault DXTLibrary Bool) else _) lib = _
  rw [if_neg hsize, Program.bind_of_ok hon]
  exact hpatched

theorem relocate_overflow (hne : base ≠ lib.imageBase) (h : Overflows base lib.imageBase) :
    relocate base lib = .error .overflow := by
  unfold relocate
  rw [Program.get_bind_apply, if_neg hne, imageDelta_overflow h]
  rfl

theorem relocate_true (h : relocate base lib = .ok (true, lib')) :
    base = lib.imageBase ∧ lib' = lib ∨
      base ≠ lib.imageBase ∧ ∃ image', (∀ i ∈ lib.allImports, i.realAddress ≠ 0) ∧
        Block.stores 4 (slots lib.allImports) image' = some lib'.image ∧
        lib' = { lib with imageBase := base, image := lib'.image } := by
  by_cases hbase : base = lib.imageBase
  · refine .inl ⟨hbase, ?_⟩
    unfold relocate at h
    rw [Program.get_bind_apply, if_pos hbase] at h
    cases h
    rfl
  · refine .inr ⟨hbase, ?_⟩
    unfold relocate at h
    rw [Program.get_bind_apply, if_neg hbase] at h
    obtain ⟨delta, m, hdelta, h⟩ := Program.bind_ok h
    obtain rfl : lib = m := by
      cases hd : imageDelta base lib.imageBase with
      | error e =>
        rw [hd] at hdelta
        cases hdelta
      | ok d =>
        rw [hd] at hdelta
        cases hdelta
        rfl
    split at h
    · cases h
    obtain ⟨b, lib₁, hblocks, h⟩ := Program.bind_ok h
    obtain ⟨image', -, rfl⟩ := Program.on_ok hblocks
    cases b with
    | false => cases h
    | true =>
      obtain ⟨image'', hpatch, rfl⟩ := Program.on_ok (x := patch lib.allImports) h
      obtain ⟨hresolved, hstores⟩ := patch_true_iff.mp hpatch
      exact ⟨image', hresolved, hstores, rfl⟩

/-- A library with a relocation directory inside the image that names the places, and with resolved
imports; places, directory and import slots have no byte in common. -/
structure Relocatable (lib : DXTLibrary) (fin : Nat) (places : List Nat) : Prop where
  size : lib.baseRelocation.size ≠ 0
  directory : Directory lib.image lib.baseRelocation.virtualAddress.toNat fin places
  inside : ∀ p ∈ places, p + 4 ≤ lib.image.length
  apart : places.Pairwise (Block.Apart 4)
  clear : ∀ p ∈ places, p + 4 ≤ lib.baseRelocation.virtualAddress.toNat ∨ fin ≤ p
  resolved : ∀ i ∈ lib.allImports, i.realAddress ≠ 0
  slotInside : ∀ i ∈ lib.allImports, i.functionAddress.toNat + 4 ≤ lib.image.length
  slotApart : ∀ p ∈ places, ∀ i ∈ lib.allImports, Block.Apart 4 p i.functionAddress.toNat
  slotClear : ∀ i ∈ lib.allImports,
    i.functionAddress.toNat + 4 ≤ lib.baseRelocation.virtualAddress.toNat ∨ fin ≤ i.functionAddress.toNat

theorem Directory.fin_le {image : Bytes} {start : Nat} (h : Directory image start fin places) :
    fin ≤ image.length := by
  induction h with
  | done haddress => exact (Block.load_eq_some haddress).1
  | block haddress hne hsize hentries h ih => exact ih

theorem Relocatable.relocate (h : Relocatable lib fin places) (hne : base ≠ lib.imageBase)
    (hfits : ¬Overflows base lib.imageBase) :
    ∃ image' image'', DXTLibrary.relocate base lib =
        .ok (true, { lib with imageBase := base, image := image'' }) ∧
      Block.Shifted 4 (base - lib.imageBase).toNat places lib.image image' ∧
      Block.stores 4 (slots lib.allImports) image' = some image'' := by
  obtain ⟨delta, hdelta, hdistance⟩ := imageDelta_ok hfits hne
  have hfuel : fin < lib.baseRelocation.virtualAddress.toNat + (lib.image.length + 1) := by
    have := h.directory.fin_le
    omega
  obtain ⟨image', hblocks, hshifted⟩ :=
    relocateBlocks_ok delta h.directory hfuel h.inside h.apart h.clear
  rw [hdistance] at hshifted
  have hslots : ∀ s ∈ slots lib.allImports, s.1 + 4 ≤ image'.length := by
    intro s hs
    obtain ⟨i, hi, rfl⟩ := List.mem_map.mp hs
    rw [hshifted.length]
    exact h.slotInside i hi
  obtain ⟨image'', hstores⟩ := Block.stores_isSome hslots
  exact ⟨image', image'', relocate_of_ok hne hdelta h.size hblocks
    (patch_true_iff.mpr ⟨h.resolved, hstores⟩), hshifted, hstores⟩

theorem Relocatable.relocated {image : Bytes} {delta : Nat} (h : Relocatable lib fin places)
    (himage : Block.Relocated 4 delta places (slots lib.allImports) lib.image image) :
    Relocatable { lib with imageBase := base, image := image } fin places where
  size := h.size
  directory := by
    refine h.directory.congr himage.length fun a hlow hhigh => himage.same a ?_ ?_
    · intro p hp
      have := h.clear p hp
      omega
    · intro s hs
      obtain ⟨i, hi, rfl⟩ := List.mem_map.mp hs
      have := h.slotClear i hi
      dsimp only
      omega
  inside := fun p hp => himage.length.symm ▸ h.inside p hp
  apart := h.apart
  clear := h.clear
  resolved := h.resolved
  slotInside := fun i hi => himage.length.symm ▸ h.slotInside i hi
  slotApart := h.slotApart
  slotClear := h.slotClear

/-- What relocating is for. -/
def Moves (lib : DXTLibrary) (base : UInt32) (places : List Nat) : Prop :=
  ∃ lib', DXTLibrary.relocate base lib = .ok (true, lib') ∧
    Block.Relocated 4 (base - lib.imageBase).toNat places (slots lib.allImports) lib.image lib'.image ∧
    lib'.getEntrypoint = lib.getEntrypoint + (base - lib.imageBase)

theorem Relocatable.moves (h : Relocatable lib fin places) (hne : base ≠ lib.imageBase)
    (hfits : ¬Overflows base lib.imageBase) (hagree : Block.Agree 4 (slots lib.allImports)) :
    ∃ image, DXTLibrary.relocate base lib = .ok (true, { lib with imageBase := base, image := image }) ∧
      Block.Relocated 4 (base - lib.imageBase).toNat places (slots lib.allImports) lib.image image := by
  obtain ⟨image', image'', hrun, hshifted, hstores⟩ := h.relocate hne hfits
  refine ⟨image'', hrun, hshifted.relocated hstores hagree ?_⟩
  intro p hp s hs
  obtain ⟨i, hi, rfl⟩ := List.mem_map.mp hs
  exact h.slotApart p hp i hi

theorem not_overflows_of_relocate (hne : base ≠ lib.imageBase)
    (h : relocate base lib = .ok (true, lib')) : ¬Overflows base lib.imageBase := by
  intro hover
  rw [relocate_overflow hne hover] at h
  cases h

theorem agree_of_moves (hne : base ≠ lib.imageBase) (h : Moves lib base places) :
    Block.Agree 4 (slots lib.allImports) := by
  obtain ⟨lib', hrun, hrelocated, -⟩ := h
  rcases relocate_true hrun with ⟨hbase, -⟩ | ⟨-, image', -, hstores, -⟩
  · exact absurd hbase hne
  · exact (Block.stores_held_iff hstores).mp hrelocated.held

theorem distance_add (b₁ b₂ b : UInt32) :
    ((b₁ - b).toNat + (b₂ - b₁).toNat) % 256 ^ 4 = (b₂ - b).toNat % 256 ^ 4 := by
  have hsum : (b₁ - b) + (b₂ - b₁) = b₂ - b := by grind
  have hpow : (2 : Nat) ^ 32 = 256 ^ 4 := rfl
  rw [← hsum, UInt32.toNat_add, hpow, Nat.mod_mod]

end Relocate

section Sample

/-- A directory with one block at 0, a place at 20 and an import slot at 24. -/
def sampleImage : Bytes :=
  [20, 0, 0, 0, 12, 0, 0, 0, 0x00, 0x30, 0, 0, 0, 0, 0, 0, 0, 0, 0, 0,
    0x10, 0, 0x01, 0, 1, 0, 0, 0x80]

def sampleLibrary (base : UInt32) : DXTLibrary where
  imageBase := base
  addressOfEntryPoint := 0x10
  baseRelocation := ⟨0, 16⟩
  imports := [([], [{ ordinal := 1, functionAddress := 24, realAddress := 0x80001234 }])]
  image := sampleImage

theorem directory_sample : Directory sampleImage 0 16 [20] := by
  have hpadding : Block.load 2 sampleImage 10 = some 0 := by decide
  have hentry : Block.load 2 sampleImage 8 = some 0x3000 := by decide
  have haddress : Block.load 4 sampleImage 0 = some 20 := by decide
  have hsize : Block.load 4 sampleImage 4 = some 12 := by decide
  have hend : Block.load 4 sampleImage 12 = some 0 := by decide
  exact .block haddress (by decide) hsize (.highlow hentry rfl (.absolute hpadding rfl .done)) (.done hend)

theorem relocatable_sample (base : UInt32) : Relocatable (sampleLibrary base) 16 [20] where
  size := by simp [sampleLibrary]
  directory := directory_sample
  inside := by simp [sampleLibrary, sampleImage]
  apart := by simp
  clear := by simp
  resolved := by simp [sampleLibrary, allImports]
  slotInside := by simp [sampleLibrary, sampleImage, allImports]
  slotApart := by simp [sampleLibrary, allImports, Block.Apart]
  slotClear := by simp [sampleLibrary, allImports]

theorem agree_sample (base : UInt32) : Block.Agree 4 (slots (sampleLibrary base).allImports) := by
  intro s hs t ht i hi j hj hsame
  obtain rfl : s = (24, 0x80001234) := by simpa [sampleLibrary, allImports, slots] using hs
  obtain rfl : t = (24, 0x80001234) := by simpa [sampleLibrary, allImports, slots] using ht
  rw [Nat.add_left_cancel hsame]

end Sample

section Results

variable {lib lib' : DXTLibrary} {base : UInt32} {fin : Nat} {places : List Nat}

/-- Moved to another base the library is as it should be there, also by a detour, unless a distance
overflows or imports overwrite each other. -/
theorem relocate_twice_iff (h : Relocatable lib fin places) {b₁ b₂ : UInt32} (h₁ : b₁ ≠ lib.imageBase)
    (h₁₂ : b₂ ≠ b₁) (h₂ : b₂ ≠ lib.imageBase) :
    (Moves lib b₁ places ∧ ∃ lib₁ lib₂ lib', DXTLibrary.relocate b₁ lib = .ok (true, lib₁) ∧
        DXTLibrary.relocate b₂ lib₁ = .ok (true, lib₂) ∧ DXTLibrary.relocate b₂ lib = .ok (true, lib') ∧
        lib₂.image = lib'.image) ↔
      ¬Overflows b₁ lib.imageBase ∧ ¬Overflows b₂ b₁ ∧ ¬Overflows b₂ lib.imageBase ∧
        Block.Agree 4 (slots lib.allImports) := by
  constructor
  · rintro ⟨hmoves, lib₁, lib₂, lib', hrun₁, hrun₂, hrun, -⟩
    have hbase : lib₁.imageBase = b₁ := by
      rcases relocate_true hrun₁ with ⟨hbase, -⟩ | ⟨-, image', -, -, hlib⟩
      · exact absurd hbase h₁
      · rw [hlib]
    have hfits := not_overflows_of_relocate (by rwa [hbase]) hrun₂
    rw [hbase] at hfits
    exact ⟨not_overflows_of_relocate h₁ hrun₁, hfits, not_overflows_of_relocate h₂ hrun,
      agree_of_moves h₁ hmoves⟩
  · rintro ⟨hfits₁, hfits₁₂, hfits₂, hagree⟩
    obtain ⟨image₁, hrun₁, himage₁⟩ := h.moves h₁ hfits₁ hagree
    obtain ⟨image', hrun, himage⟩ := h.moves h₂ hfits₂ hagree
    have hagain : Relocatable { lib with imageBase := b₁, image := image₁ } fin places :=
      h.relocated himage₁
    obtain ⟨image₂, hrun₂, himage₂⟩ := hagain.moves h₁₂ hfits₁₂ hagree
    refine ⟨⟨_, hrun₁, himage₁, ?_⟩, _, _, _, hrun₁, hrun₂, hrun, ?_⟩
    · change b₁ + lib.addressOfEntryPoint = lib.imageBase + lib.addressOfEntryPoint + (b₁ - lib.imageBase)
      grind
    · exact ((himage₁.trans himage₂).congr_delta (distance_add b₁ b₂ lib.imageBase)).unique himage h.inside

/-- From 0x10000 by 0x20000 to 0x30000. -/
theorem relocate_twice_sample :
    ∃ lib₁ lib₂ lib', DXTLibrary.relocate 0x20000 (sampleLibrary 0x10000) = .ok (true, lib₁) ∧
      DXTLibrary.relocate 0x30000 lib₁ = .ok (true, lib₂) ∧
      DXTLibrary.relocate 0x30000 (sampleLibrary 0x10000) = .ok (true, lib') ∧ lib₂.image = lib'.image :=
  have h₁ : (0x20000 : UInt32) ≠ (sampleLibrary 0x10000).imageBase := by decide
  have h₁₂ : (0x30000 : UInt32) ≠ 0x20000 := by decide
  ((relocate_twice_iff (relocatable_sample 0x10000) h₁ h₁₂ (by decide)).mpr
    ⟨by decide, by decide, by decide, agree_sample 0x10000⟩).2

/-- From 0x80010000 to 0x10000 the distance is 2 ^ 31, whose negation is taken as a signed number of
32 bits. -/
theorem relocate_half_range :
    Relocatable (sampleLibrary 0x80010000) 16 [20] ∧
      DXTLibrary.relocate 0x10000 (sampleLibrary 0x80010000) = .error .overflow :=
  ⟨relocatable_sample _, relocate_overflow (by decide) (by decide)⟩

/-- The addresses of the library's imports are in the image. -/
def Ready (lib : DXTLibrary) : Prop :=
  ∀ i ∈ lib.allImports, i.realAddress ≠ 0 ∧
    Block.load 4 lib.image i.functionAddress.toNat = some i.realAddress.toNat

theorem held_slots_iff {imports : List DXTLibraryImport} {image : Bytes} :
    (∀ s ∈ slots imports, Block.load 4 image s.1 = some (s.2 % 256 ^ 4)) ↔
      ∀ i ∈ imports, Block.load 4 image i.functionAddress.toNat = some i.realAddress.toNat := by
  simp [slots]

/-- A relocated library is ready to run when its imports were written, which they are unless the new
base is the old one, and no import has overwritten another. -/
theorem ready_of_relocate_iff (h : relocate base lib = .ok (true, lib')) :
    Ready lib' ↔
      (base = lib.imageBase → Ready lib) ∧
        (base ≠ lib.imageBase → Block.Agree 4 (slots lib.allImports)) := by
  rcases relocate_true h with ⟨hbase, rfl⟩ | ⟨hbase, image', hresolved, hstores, hlib⟩
  · simp [hbase]
  · have himports : lib'.allImports = lib.allImports := by rw [hlib]; rfl
    rw [← Block.stores_held_iff hstores, held_slots_iff]
    constructor
    · intro hready
      refine ⟨fun h => absurd h hbase, fun _ i hi => ?_⟩
      rw [← himports] at hi
      exact (hready i hi).2
    · rintro ⟨-, hheld⟩ i hi
      rw [himports] at hi
      exact ⟨hresolved i hi, hheld hbase i hi⟩

/-- A base that is not the old one. -/
theorem ready_of_relocate_sample :
    ∃ lib', DXTLibrary.relocate 0x20000 (sampleLibrary 0x10000) = .ok (true, lib') ∧ Ready lib' := by
  have hne : (0x20000 : UInt32) ≠ (sampleLibrary 0x10000).imageBase := by decide
  obtain ⟨image, hrun, -⟩ := (relocatable_sample 0x10000).moves hne (by decide) (agree_sample 0x10000)
  exact ⟨_, hrun, (ready_of_relocate_iff hrun).mpr ⟨fun h => absurd h (by decide), fun _ => agree_sample _⟩⟩

/-- At its own base the library is reported as relocated, and its imports are not in the image. -/
theorem not_ready_at_own_base :
    DXTLibrary.relocate 0x10000 (sampleLibrary 0x10000) = .ok (true, sampleLibrary 0x10000) ∧
      ¬Ready (sampleLibrary 0x10000) := by
  refine ⟨rfl, fun hready => ?_⟩
  have hslot := (hready { ordinal := 1, functionAddress := 24, realAddress := 0x80001234 } (by decide)).2
  revert hslot
  decide

end Results

end XbdmGdbBridge.Proofs
