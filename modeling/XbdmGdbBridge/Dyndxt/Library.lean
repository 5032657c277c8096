import XbdmGdbBridge.Lib.Blocks
import XbdmGdbBridge.Lib.Program
import XbdmGdbBridge.Util.CText

/-!
# Libraries for the loader

`DXTLibrary` once it is parsed: what `Relocate` and `PatchImports` read of the headers, the imports
and the image. Pointers into the image are offsets; the host has pointers of 64 bits, so adding to
them does not wrap around.
-/

namespace XbdmGdbBridge

open Lib

/-- What has no defined behaviour: an access outside the image, a signed operation whose result does
not fit, and a loop that does not end. -/
inductive ImageFault where
  | outside
  | overflow
  | endless
deriving DecidableEq, Repr

structure DXTLibraryImport where
  ordinal : UInt32 := 0
  importName : Bytes := []
  functionAddress : UInt32 := 0
  realAddress : UInt32 := 0
deriving DecidableEq, Repr

/-- An entry of `DataDirectory`. -/
structure ImageDataDirectory where
  virtualAddress : UInt32 := 0
  size : UInt32 := 0
deriving DecidableEq, Repr

structure DXTLibrary where
  imageBase : UInt32
  addressOfEntryPoint : UInt32
  /-- The entry `IMAGE_DIRECTORY_ENTRY_BASERELOC`. -/
  baseRelocation : ImageDataDirectory
  /-- In the order of the names, which is the order a `std::map` is gone through. -/
  imports : List (Bytes × List DXTLibraryImport)
  image : Bytes
deriving DecidableEq, Repr

namespace DXTLibrary

def imagePart : Part DXTLibrary Bytes where
  read := image
  write image lib := { lib with image := image }

def read (n offset : Nat) : Program ImageFault Bytes Nat := fun image =>
  match Block.load n image offset with
  | some v => .ok (v, image)
  | none => .error .outside

def write (n offset v : Nat) : Program ImageFault Bytes Unit := fun image =>
  match Block.store n image offset v with
  | some image => .ok ((), image)
  | none => .error .outside

def imageRelBasedAbsolute : Nat := 0

def imageRelBasedHighlow : Nat := 3

-- `sizeof(relocation_start)`: the size of a pointer, which happens to be the size of the header of a
-- block.
def sizeofPointer : Nat := 8

/-- The entries of a block. The fuel is more than the number of bytes in the block. -/
def relocateEntries (imageDelta : Int32) (dest relocationEnd : Nat) :
    Nat → Nat → Program ImageFault Bytes Bool
  | 0, _ => Program.fault .endless
  | fuel + 1, entry =>
    if entry < relocationEnd then do
      let word ← read 2 entry
      let type := word >>> 12
      let rvaOffset := word &&& 0x0fff
      if type = imageRelBasedAbsolute then
        relocateEntries imageDelta dest relocationEnd fuel (entry + 2)
      else if type = imageRelBasedHighlow then do
        let target ← read 4 (dest + rvaOffset)
        write 4 (dest + rvaOffset) (UInt32.ofNat target + imageDelta.toUInt32).toNat
        relocateEntries imageDelta dest relocationEnd fuel (entry + 2)
      else return false
    else return true

-- A block of size 0 is read again and again. Any other takes the walk further, and behind the end
-- of the image there is a fault, so the size of the image is fuel enough for all other walks.
def relocateBlocks (imageDelta : Int32) : Nat → Nat → Program ImageFault Bytes Bool
  | 0, _ => Program.fault .endless
  | fuel + 1, relocationStart => do
    let virtualAddress ← read 4 relocationStart
    if 0 < virtualAddress then
      let sizeOfBlock ← read 4 (relocationStart + 4)
      let relocationEnd := relocationStart + sizeOfBlock
      if ← relocateEntries imageDelta virtualAddress relocationEnd (sizeOfBlock + 1)
          (relocationStart + sizeofPointer) then
        relocateBlocks imageDelta fuel relocationEnd
      else return false
    else return true

/-- The distance to the new base as a signed number; it is negated where the base gets smaller. -/
def imageDelta (imageBase current : UInt32) : Except ImageFault Int32 :=
  if current < imageBase then .ok (imageBase - current).toInt32
  else
    let difference := (current - imageBase).toInt32
    if difference = Int32.minValue then .error .overflow else .ok (-1 * difference)

/-- The body of the loops in `PatchImports`; the imports of all modules are gone through in order. -/
def patch : List DXTLibraryImport → Program ImageFault Bytes Bool
  | [] => pure true
  | i :: others =>
    if i.realAddress = 0 then pure false
    else do
      write 4 i.functionAddress.toNat i.realAddress.toNat
      patch others

def allImports (lib : DXTLibrary) : List DXTLibraryImport :=
  lib.imports.flatMap Prod.snd

def patchImports : Program ImageFault DXTLibrary Bool := do
  let lib ← get
  Program.on imagePart (patch lib.allImports)

def relocate (imageBase : UInt32) : Program ImageFault DXTLibrary Bool := do
  let lib ← get
  if imageBase = lib.imageBase then return true
  let delta ← imageDelta imageBase lib.imageBase
  if lib.baseRelocation.size = 0 then return false
  if ← Program.on imagePart (relocateBlocks delta (lib.image.length + 1)
      lib.baseRelocation.virtualAddress.toNat) then
    modify fun lib => { lib with imageBase := imageBase }
    patchImports
  else return false

def getEntrypoint (lib : DXTLibrary) : UInt32 :=
  lib.imageBase + lib.addressOfEntryPoint

end DXTLibrary

end XbdmGdbBridge
