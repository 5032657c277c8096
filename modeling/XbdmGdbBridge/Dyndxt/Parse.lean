import XbdmGdbBridge.Dyndxt.Library

/-!
# Parsing a library

`DXTLibrary::Parse` reads the headers of a file, lays its sections out in an image of the size that
the headers tell and collects the imports. It writes to and reads from the image wherever the
headers point to.
-/

namespace XbdmGdbBridge

open Lib

/-- A `std::istream`. Its buffer may be one that can be positioned behind its end, as that of a file
can. -/
structure InputStream where
  contents : Bytes
  seeksBehindEnd : Bool
  position : Nat := 0
  eof : Bool := false
  failed : Bool := false
deriving DecidableEq, Repr

namespace InputStream

def good (s : InputStream) : Bool := !s.eof && !s.failed

def rest (s : InputStream) : Bytes := s.contents.drop s.position

/-- Too few bytes are read all the same, but leave the stream failed. -/
def read (n : Nat) : StateM InputStream Bytes := fun s =>
  if s.good then
    let bytes := s.rest.take n
    let short := decide (bytes.length < n)
    (bytes, { s with position := s.position + bytes.length, eof := short, failed := short })
  else ([], { s with failed := true })

def ignore (n : Nat) : StateM InputStream Unit := fun s =>
  if s.good then
    let bytes := s.rest.take n
    ((), { s with position := s.position + bytes.length, eof := decide (bytes.length < n) })
  else ((), { s with failed := true })

/-- The end is forgotten, a failure is not. -/
def seekg (position : Nat) : StateM InputStream Unit := fun s =>
  if s.failed then ((), { s with eof := false })
  else if position ≤ s.contents.length ∨ s.seeksBehindEnd = true then
    ((), { s with eof := false, position := position })
  else ((), { s with eof := false, failed := true })

end InputStream

/-- A number in a structure that was read. -/
def field (n : Nat) (b : Bytes) (offset : Nat) : Nat :=
  Memory.value n fun a => b.getD (offset + a) 0

/-- What is used of `IMAGE_NT_HEADERS32`. -/
structure NtHeaders where
  signature : UInt32
  machine : UInt16
  numberOfSections : UInt16
  sizeOfOptionalHeader : UInt16
  addressOfEntryPoint : UInt32
  imageBase : UInt32
  sizeOfImage : UInt32
  sizeOfHeaders : UInt32
  dllCharacteristics : UInt16
  importDirectory : ImageDataDirectory
  baseRelocation : ImageDataDirectory
deriving DecidableEq, Repr

def ImageDataDirectory.at (b : Bytes) (offset : Nat) : ImageDataDirectory :=
  ⟨UInt32.ofNat (field 4 b offset), UInt32.ofNat (field 4 b (offset + 4))⟩

-- The optional header begins at 24, the directories at 120.
def NtHeaders.ofBytes (b : Bytes) : NtHeaders where
  signature := UInt32.ofNat (field 4 b 0)
  machine := UInt16.ofNat (field 2 b 4)
  numberOfSections := UInt16.ofNat (field 2 b 6)
  sizeOfOptionalHeader := UInt16.ofNat (field 2 b 20)
  addressOfEntryPoint := UInt32.ofNat (field 4 b 40)
  imageBase := UInt32.ofNat (field 4 b 52)
  sizeOfImage := UInt32.ofNat (field 4 b 80)
  sizeOfHeaders := UInt32.ofNat (field 4 b 84)
  dllCharacteristics := UInt16.ofNat (field 2 b 94)
  importDirectory := .at b 128
  baseRelocation := .at b 160

/-- What is used of `IMAGE_SECTION_HEADER`. -/
structure SectionHeader where
  virtualAddress : UInt32
  sizeOfRawData : UInt32
  pointerToRawData : UInt32
deriving DecidableEq, Repr

def SectionHeader.ofBytes (b : Bytes) : SectionHeader where
  virtualAddress := UInt32.ofNat (field 4 b 12)
  sizeOfRawData := UInt32.ofNat (field 4 b 16)
  pointerToRawData := UInt32.ofNat (field 4 b 20)

namespace DXTLibrary

def sizeofDosHeader : Nat := 64
def sizeofNtHeaders : Nat := 248
def sizeofOptionalHeader : Nat := 224
def sizeofSectionHeader : Nat := 40
def sizeofImportDescriptor : Nat := 20

def imageDosSignature : Nat := 0x5A4D
def imageNtSignature : UInt32 := 0x00004550
def imageFileMachineI386 : UInt16 := 0x014c
def imageDllcharacteristicsDynamicBase : UInt16 := 0x0040

/-- Something that has to leave the stream good. -/
def require {α : Type} (x : StateM InputStream α) : OptionT (StateM InputStream) α :=
  OptionT.mk fun s =>
    let (a, s) := x s
    (if s.good then some a else none, s)

def readSectionHeaders : Nat → OptionT (StateM InputStream) (List SectionHeader)
  | 0 => return []
  | n + 1 => do
    let b ← require (InputStream.read sizeofSectionHeader)
    return .ofBytes b :: (← readSectionHeaders n)

/-- What a header has behind the part that was read is skipped. -/
def skipBehind (read size : Nat) : OptionT (StateM InputStream) Unit :=
  if read < size then require (InputStream.ignore (size - read)) else pure ()

/-- The headers of a library that is not refused. -/
def parseDLLHeader : OptionT (StateM InputStream) (NtHeaders × List SectionHeader) := do
  let dosHeader ← require (InputStream.read sizeofDosHeader)
  guard (field 2 dosHeader 0 = imageDosSignature)
  -- A negative `e_lfanew` is a large unsigned number in the comparison and in the difference.
  skipBehind sizeofDosHeader (field 4 dosHeader 60)
  let header := NtHeaders.ofBytes (← require (InputStream.read sizeofNtHeaders))
  guard (header.signature = imageNtSignature)
  guard (header.machine = imageFileMachineI386)
  guard (header.dllCharacteristics &&& imageDllcharacteristicsDynamicBase ≠ 0)
  skipBehind sizeofOptionalHeader header.sizeOfOptionalHeader.toNat
  return (header, ← readSectionHeaders header.numberOfSections.toNat)

def overwrite (image : Bytes) (offset : Nat) (bytes : Bytes) : Bytes :=
  image.take offset ++ bytes ++ image.drop (offset + bytes.length)

/-- Bytes put into the image. Where there are none, nothing is written. -/
def place (image : Bytes) (offset : Nat) (bytes : Bytes) : Except ImageFault Bytes :=
  if bytes = [] then .ok image
  else if image.length < offset + bytes.length then .error .outside
  else .ok (overwrite image offset bytes)

/-- The stream and the image while sections are loaded. -/
structure Loading where
  infile : InputStream
  image : Bytes
deriving DecidableEq, Repr

/-- `infile_->read` to a place in the image; what was read is not counted. -/
def readInto (offset n : Nat) (l : Loading) : Except ImageFault Loading := do
  let (bytes, infile) := InputStream.read n l.infile
  return ⟨infile, ← place l.image offset bytes⟩

/-- The result is `none` where the function returns false. -/
def processSection (header : SectionHeader) (l : Loading) : Except ImageFault (Option Loading) := do
  if header.sizeOfRawData = 0 then return some l
  let (_, infile) := InputStream.seekg header.pointerToRawData.toNat l.infile
  if infile.good then
    return some (← readInto header.virtualAddress.toNat header.sizeOfRawData.toNat { l with infile })
  else return none

def processSections : List SectionHeader → Loading → Except ImageFault (Option Loading)
  | [], l => return some l
  | header :: headers, l => do
    match ← processSection header l with
    | none => return none
    | some l => processSections headers l

/-- A number in the image. -/
def fetch (n : Nat) (image : Bytes) (offset : Nat) : Except ImageFault Nat :=
  match Block.load n image offset with
  | some v => .ok v
  | none => .error .outside

/-- The C string at an offset of the image. -/
def cString (image : Bytes) (offset : Nat) : Except ImageFault Bytes :=
  if 0 ∈ image.drop offset then .ok ((image.drop offset).takeWhile (· ≠ 0)) else .error .outside

def imageSnapByOrdinal (ordinal : Nat) : Bool := ordinal &&& 0x80000000 ≠ 0

/-- The import a thunk stands for; its name is behind a hint of two bytes. -/
def importOf (image : Bytes) (thunk : Nat) (functionAddress : UInt32) :
    Except ImageFault DXTLibraryImport := do
  if imageSnapByOrdinal thunk then
    return { ordinal := UInt32.ofNat (thunk &&& 0xFFFF), functionAddress }
  else return { importName := ← cString image (thunk + 2), functionAddress }

-- Each turn of the loops over thunks and descriptors reads further on in the image, whose size is
-- fuel enough.
def extractThunks (image : Bytes) : Nat → Nat → UInt32 → Except ImageFault (List DXTLibraryImport)
  | 0, _, _ => .error .endless
  | fuel + 1, thunk, functionAddress => do
    let word ← fetch 4 image thunk
    if word = 0 then return []
    else
      let i ← importOf image word functionAddress
      return i :: (← extractThunks image fuel (thunk + 4) (functionAddress + 4))

/-- `imports_[name]` with more imports, in the order of the names. -/
def addImports (name : Bytes) (new : List DXTLibraryImport) :
    List (Bytes × List DXTLibraryImport) → List (Bytes × List DXTLibraryImport)
  | [] => [(name, new)]
  | (key, imports) :: rest =>
    if name = key then (key, imports ++ new) :: rest
    else if name < key then (name, new) :: (key, imports) :: rest
    else (key, imports) :: addImports name new rest

/-- The loop over the descriptors; forwarding is refused. -/
def extractDescriptors (image : Bytes) : Nat → Nat → List (Bytes × List DXTLibraryImport) →
    Except ImageFault (Option (List (Bytes × List DXTLibraryImport)))
  | 0, _, _ => .error .endless
  | fuel + 1, descriptor, imports => do
    let name ← fetch 4 image (descriptor + 12)
    if name = 0 then return some imports
    let forwarderChain ← fetch 4 image (descriptor + 8)
    if forwarderChain ≠ 0 then return none
    let firstThunk ← fetch 4 image (descriptor + 16)
    let originalFirstThunk ← fetch 4 image descriptor
    let dll ← cString image name
    let thunk := if originalFirstThunk ≠ 0 then originalFirstThunk else firstThunk
    let new ← extractThunks image (image.length + 1) thunk (UInt32.ofNat firstThunk)
    extractDescriptors image fuel (descriptor + sizeofImportDescriptor) (addImports dll new imports)

def extractImportTable (image : Bytes) (directory : ImageDataDirectory) :
    Except ImageFault (Option (List (Bytes × List DXTLibraryImport))) :=
  if directory.size = 0 then .ok (some [])
  else extractDescriptors image (image.length + 1) directory.virtualAddress.toNat []

/-- The sections are loaded, and the imports follow; or a section was refused. -/
def withImports (header : NtHeaders) : Option Loading → Except ImageFault (Option DXTLibrary)
  | none => return none
  | some loading => do
    let imports ← extractImportTable loading.image header.importDirectory
    return imports.map fun imports => {
      imageBase := header.imageBase
      addressOfEntryPoint := header.addressOfEntryPoint
      baseRelocation := header.baseRelocation
      imports := imports
      image := loading.image }

/-- What `Parse` does when it knows the headers. -/
def loadLibrary (header : NtHeaders) (sections : List SectionHeader) (infile : InputStream) :
    Except ImageFault (Option DXTLibrary) := do
  let image := List.replicate header.sizeOfImage.toNat 0
  let loading ← readInto 0 header.sizeOfHeaders.toNat ⟨infile, image⟩
  withImports header (← processSections sections loading)

/-- The library, or `none` where the function returns false. -/
def parse (file : InputStream) : Except ImageFault (Option DXTLibrary) :=
  match parseDLLHeader.run file with
  | (none, _) => .ok none
  | (some (header, sections), infile) =>
    let infile := (InputStream.seekg 0 infile).2
    if infile.good then loadLibrary header sections infile else .ok none

end DXTLibrary

end XbdmGdbBridge
