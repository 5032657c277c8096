import XbdmGdbBridge.Dyndxt.Parse
import XbdmGdbBridge.Proofs.RelocationWalk

/-!
# Which files are parsed safely

The headers are checked as they are read. What they say about the image is not: sections go where
they are told to, a section that the file does not have is noticed by the next one only, and the
tables of the image are followed as far as they lead.
-/

namespace XbdmGdbBridge.Proofs.Parsing

open Lib DXTLibrary

section Streams

variable {α : Type}

/-- Streams on the same buffer. -/
def SameBuffer (s s' : InputStream) : Prop :=
  s'.contents = s.contents ∧ s'.seeksBehindEnd = s.seeksBehindEnd

theorem SameBuffer.trans {s s' s'' : InputStream} (h : SameBuffer s s') (h' : SameBuffer s' s'') :
    SameBuffer s s'' :=
  ⟨h'.1.trans h.1, h'.2.trans h.2⟩

/-- What is done keeps the buffer, and what gets through leaves a good stream. -/
structure Checked (x : OptionT (StateM InputStream) α) : Prop where
  buffer : ∀ s, SameBuffer s (x.run s).2
  good : ∀ s, s.good = true → (x.run s).1.isSome → (x.run s).2.good = true

theorem run_bind_none {β : Type} {x : OptionT (StateM InputStream) α} {s : InputStream}
    (h : (x.run s).1 = none) (f : α → OptionT (StateM InputStream) β) :
    (x >>= f).run s = (none, (x.run s).2) := by
  rw [OptionT.run_bind, Option.elimM, Lib.run_bind, h]
  rfl

theorem run_bind_some {β : Type} {x : OptionT (StateM InputStream) α} {s : InputStream} {a : α}
    (h : (x.run s).1 = some a) (f : α → OptionT (StateM InputStream) β) :
    (x >>= f).run s = (f a).run (x.run s).2 := by
  rw [OptionT.run_bind, Option.elimM, Lib.run_bind, h]
  rfl

theorem Checked.bind {β : Type} {x : OptionT (StateM InputStream) α}
    {f : α → OptionT (StateM InputStream) β} (hx : Checked x) (hf : ∀ a, Checked (f a)) :
    Checked (x >>= f) := by
  constructor
  · intro s
    cases h : (x.run s).1 with
    | none =>
      rw [run_bind_none h]
      exact hx.buffer s
    | some a =>
      rw [run_bind_some h]
      exact (hx.buffer s).trans ((hf a).buffer _)
  · intro s hgood hsome
    cases h : (x.run s).1 with
    | none =>
      rw [run_bind_none h] at hsome
      cases hsome
    | some a =>
      rw [run_bind_some h] at hsome ⊢
      exact (hf a).good _ (hx.good s hgood (h ▸ rfl)) hsome

/-- A file that has not been read yet. -/
abbrev fresh (contents : Bytes) (behind : Bool) : InputStream :=
  { contents := contents, seeksBehindEnd := behind }

/-- The headers of a file, where they are accepted. -/
def headersOf (contents : Bytes) (behind : Bool) : Option (NtHeaders × List SectionHeader) :=
  (parseDLLHeader.run (fresh contents behind)).1

variable {contents : Bytes} {behind : Bool}

end Streams

section Sections

variable {contents : Bytes} {behind : Bool}

/-- The stream behind a read that was short or not, somewhere in the file. -/
def after (contents : Bytes) (behind short : Bool) (position : Nat) : InputStream :=
  ⟨contents, behind, position, short, short⟩

/-- The bytes the file has of a range. -/
def available (contents : Bytes) (position n : Nat) : Bytes :=
  (contents.drop position).take n

/-- The bytes of a range that the file has can be put into the image. -/
def Inside (size offset : Nat) (bytes : Bytes) : Prop :=
  bytes = [] ∨ offset + bytes.length ≤ size

variable {header : SectionHeader} {headers : List SectionHeader} {image image' : Bytes} {position : Nat}

/-- The file can be positioned at the section. -/
def Reachable (contents : Bytes) (behind : Bool) (header : SectionHeader) : Prop :=
  header.pointerToRawData.toNat ≤ contents.length ∨ behind = true

/-- The bytes the file has of a section. -/
def bodyOf (contents : Bytes) (header : SectionHeader) : Bytes :=
  available contents header.pointerToRawData.toNat header.sizeOfRawData.toNat

/-- The file ends before the section does. -/
def shortOf (contents : Bytes) (header : SectionHeader) : Bool :=
  decide ((bodyOf contents header).length < header.sizeOfRawData.toNat)

/-- Sections that are loaded, each as far as the file has it. A section that is not empty is only
loaded if the one before was not short. -/
inductive Loads (contents : Bytes) (behind : Bool) :
    Bool → Bytes → List SectionHeader → Bool → Bytes → Prop where
  | nil {short : Bool} {image : Bytes} : Loads contents behind short image [] short image
  | empty {short short' : Bool} {image image' : Bytes} {header : SectionHeader}
      {headers : List SectionHeader} (hempty : header.sizeOfRawData = 0)
      (h : Loads contents behind short image headers short' image') :
      Loads contents behind short image (header :: headers) short' image'
  | body {short : Bool} {image image' : Bytes} {header : SectionHeader}
      {headers : List SectionHeader} (hne : header.sizeOfRawData ≠ 0)
      (hreachable : Reachable contents behind header)
      (hinside : Inside image.length header.virtualAddress.toNat (bodyOf contents header))
      (h : Loads contents behind (shortOf contents header)
        (overwrite image header.virtualAddress.toNat (bodyOf contents header)) headers short image') :
      Loads contents behind false image (header :: headers) short image'

/-- Sections of which one is refused: it follows a short one, or the stream cannot go there. -/
inductive Refuses (contents : Bytes) (behind : Bool) (size : Nat) :
    Bool → List SectionHeader → Prop where
  | empty {short : Bool} {header : SectionHeader} {headers : List SectionHeader}
      (hempty : header.sizeOfRawData = 0) (h : Refuses contents behind size short headers) :
      Refuses contents behind size short (header :: headers)
  | body {header : SectionHeader} {headers : List SectionHeader} (hne : header.sizeOfRawData ≠ 0)
      (hreachable : Reachable contents behind header)
      (hinside : Inside size header.virtualAddress.toNat (bodyOf contents header))
      (h : Refuses contents behind size (shortOf contents header) headers) :
      Refuses contents behind size false (header :: headers)
  | refused {short : Bool} {header : SectionHeader} {headers : List SectionHeader}
      (hne : header.sizeOfRawData ≠ 0) (h : short = true ∨ ¬Reachable contents behind header) :
      Refuses contents behind size short (header :: headers)

variable {short short' : Bool}

/-- The file has all of the section. -/
def Whole (contents : Bytes) (header : SectionHeader) : Prop :=
  header.pointerToRawData.toNat + header.sizeOfRawData.toNat ≤ contents.length

end Sections

section Imports

variable {image : Bytes} {thunk descriptor fuel : Nat} {functionAddress : UInt32}

/-- A C string begins at an offset and ends inside the image. -/
def HasString (image : Bytes) (offset : Nat) : Prop :=
  0 ∈ image.drop offset

/-- Thunks inside the image, up to a zero, and the slots of their imports. -/
inductive Thunks (image : Bytes) : Nat → UInt32 → List UInt32 → Prop where
  | done {thunk : Nat} {functionAddress : UInt32} (hword : Block.load 4 image thunk = some 0) :
      Thunks image thunk functionAddress []
  | entry {thunk word : Nat} {functionAddress : UInt32} {slots : List UInt32}
      (hword : Block.load 4 image thunk = some word) (hne : word ≠ 0)
      (hname : imageSnapByOrdinal word = false → HasString image (word + 2))
      (h : Thunks image (thunk + 4) (functionAddress + 4) slots) :
      Thunks image thunk functionAddress (functionAddress :: slots)

/-- Descriptors inside the image with their names and thunks, up to one without a name or to one
that is forwarded. -/
inductive Table (image : Bytes) : Nat → List UInt32 → Bool → Prop where
  | done {descriptor : Nat} (hname : Block.load 4 image (descriptor + 12) = some 0) :
      Table image descriptor [] true
  | forwarded {descriptor name chain : Nat} (hname : Block.load 4 image (descriptor + 12) = some name)
      (hne : name ≠ 0) (hchain : Block.load 4 image (descriptor + 8) = some chain)
      (hforwarded : chain ≠ 0) : Table image descriptor [] false
  | entry {descriptor name first original : Nat} {slots others : List UInt32} {b : Bool}
      (hname : Block.load 4 image (descriptor + 12) = some name) (hne : name ≠ 0)
      (hchain : Block.load 4 image (descriptor + 8) = some 0)
      (hfirst : Block.load 4 image (descriptor + 16) = some first)
      (horiginal : Block.load 4 image descriptor = some original) (hdll : HasString image name)
      (hthunks : Thunks image (if original ≠ 0 then original else first) (UInt32.ofNat first) slots)
      (h : Table image (descriptor + sizeofImportDescriptor) others b) :
      Table image descriptor (slots ++ others) b

/-- The slots of the imports, of all modules. -/
def slotsOf (imports : List (Bytes × List DXTLibraryImport)) : List UInt32 :=
  (imports.flatMap Prod.snd).map DXTLibraryImport.functionAddress

variable {imports : List (Bytes × List DXTLibraryImport)}

end Imports

section Relocations

open RelocationWalk

variable {lib lib' : DXTLibrary} {slots : List UInt32}

/-- The library with its imports resolved in some way. -/
def Resolves (lib lib' : DXTLibrary) : Prop :=
  lib' = { lib with imports := lib'.imports } ∧ slotsOf lib'.imports = slotsOf lib.imports

/-- A relocation writes to the image only. -/
def WritesInside (base : UInt32) (lib : DXTLibrary) : Prop :=
  ∀ p, Writes base lib p → p + 4 ≤ lib.image.length

/-- Whatever the new base, the walk over the directory names places in the image only, and if it
gets through, the slots of the imports are there too. -/
def Relocates (imageBase : UInt32) (directory : ImageDataDirectory) (image : Bytes)
    (slots : List UInt32) : Prop :=
  directory.size ≠ 0 → ∀ base delta, base ≠ imageBase → imageDelta base imageBase = .ok delta →
    (∀ p, Places delta directory.virtualAddress.toNat image p → p + 4 ≤ image.length) ∧
    ((∃ image', relocateBlocks delta (image.length + 1) directory.virtualAddress.toNat image =
        .ok (true, image')) → ∀ a ∈ slots, a.toNat + 4 ≤ image.length)

end Relocations

section Files

variable {contents : Bytes} {behind : Bool} {header : NtHeaders} {sections : List SectionHeader}

/-- A library that is not refused was all in the file, and a relocation writes to its image only. -/
def Sound (contents : Bytes) (behind : Bool) : Prop :=
  ∃ r, parse (fresh contents behind) = .ok r ∧ ∀ lib ∈ r,
    (∀ header sections, headersOf contents behind = some (header, sections) →
      header.sizeOfHeaders.toNat ≤ contents.length ∧
        ∀ s ∈ sections, s.sizeOfRawData ≠ 0 → Whole contents s) ∧
    ∀ base lib', Resolves lib lib' → WritesInside base lib'

/-- The bytes the file has of its headers. -/
def headerBytes (contents : Bytes) (header : NtHeaders) : Bytes :=
  available contents 0 header.sizeOfHeaders.toNat

/-- The image with the headers only. -/
def headerImage (contents : Bytes) (header : NtHeaders) : Bytes :=
  overwrite (List.replicate header.sizeOfImage.toNat 0) 0 (headerBytes contents header)

/-- The headers are as long as the file or longer, so that they were not all read. -/
def headerShort (contents : Bytes) (header : NtHeaders) : Bool :=
  decide (contents.length < header.sizeOfHeaders.toNat)

/-- The import table of an image is one that is refused. -/
def Forwards (header : NtHeaders) (image : Bytes) : Prop :=
  header.importDirectory.size ≠ 0 ∧
    ∃ slots, Table image header.importDirectory.virtualAddress.toNat slots false

/-- It is inside the image, and what it names are the slots. -/
def Imports (header : NtHeaders) (image : Bytes) (slots : List UInt32) : Prop :=
  if header.importDirectory.size = 0 then slots = []
  else Table image header.importDirectory.virtualAddress.toNat slots true

/-- The headers fit the image, and then a section is refused; or the sections that were read fit,
and the imports are refused; or everything is there, imports and relocations are inside. -/
def Fitting (contents : Bytes) (behind : Bool) (header : NtHeaders) (sections : List SectionHeader) :
    Prop :=
  (headerBytes contents header).length ≤ header.sizeOfImage.toNat ∧
    (Refuses contents behind header.sizeOfImage.toNat (headerShort contents header) sections ∨
      ∃ short image, Loads contents behind (headerShort contents header)
          (headerImage contents header) sections short image ∧
        (Forwards header image ∨
          short = false ∧ ∃ slots, Imports header image slots ∧
            Relocates header.imageBase header.baseRelocation image slots))

end Files

end XbdmGdbBridge.Proofs.Parsing
