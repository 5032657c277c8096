import XbdmGdbBridge.Tracer.FrameCapture
import XbdmGdbBridge.Tracer.ImageUtil

/-!
# Auxiliary dumps

The functions that save what an auxiliary packet holds: registers, surfaces and textures. Each lays
its header over the front of the body and takes the rest for data, as long as the length of the
packet says; what it reads behind the body is not there.
-/

namespace XbdmGdbBridge.NTRCTracer

open CText

/-- A range of the body of a packet. -/
def bodyRange (data : Bytes) (offset len : Nat) : Except Fault Bytes :=
  if data.length < offset + len then .error .range else .ok ((data.drop offset).take len)

structure RDIHeader where
  offset : UInt32
  count : UInt32
deriving DecidableEq, Repr

namespace RDIHeader

/-- `sizeof(RDIHeader)`. -/
def size : Nat := 8

def ofBytes (b : Bytes) : RDIHeader :=
  ⟨uint32At b 0, uint32At b 4⟩

end RDIHeader

/-- What provoked an image to be saved. -/
structure ImageSaveContext where
  provokingCommand : UInt32
  drawIndex : UInt32
  surfaceDumpIndex : UInt32
deriving DecidableEq, Repr

def ImageSaveContext.at (b : Bytes) (offset : Nat) : ImageSaveContext :=
  ⟨uint32At b offset, uint32At b (offset + 4), uint32At b (offset + 8)⟩

structure SurfaceHeader where
  type : UInt32
  format : UInt32
  descriptionLen : UInt32
  len : UInt32
  width : UInt32
  height : UInt32
  pitch : UInt32
  clipX : UInt32
  clipY : UInt32
  clipWidth : UInt32
  clipHeight : UInt32
  swizzle : UInt32
  swizzleParam : UInt32
  saveContext : ImageSaveContext
deriving DecidableEq, Repr

namespace SurfaceHeader

/-- `sizeof(SurfaceHeader)`. -/
def size : Nat := 64

def ofBytes (b : Bytes) : SurfaceHeader where
  type := uint32At b 0
  format := uint32At b 4
  descriptionLen := uint32At b 8
  len := uint32At b 12
  width := uint32At b 16
  height := uint32At b 20
  pitch := uint32At b 24
  clipX := uint32At b 28
  clipY := uint32At b 32
  clipWidth := uint32At b 36
  clipHeight := uint32At b 40
  swizzle := uint32At b 44
  swizzleParam := uint32At b 48
  saveContext := .at b 52

end SurfaceHeader

structure TextureHeader where
  stage : UInt32
  layer : UInt32
  len : UInt32
  format : UInt32
  width : UInt32
  height : UInt32
  depth : UInt32
  pitch : UInt32
  control0 : UInt32
  control1 : UInt32
  imageRect : UInt32
  saveContext : ImageSaveContext
deriving DecidableEq, Repr

namespace TextureHeader

/-- `sizeof(TextureHeader)`. -/
def size : Nat := 56

def ofBytes (b : Bytes) : TextureHeader where
  stage := uint32At b 0
  layer := uint32At b 4
  len := uint32At b 8
  format := uint32At b 12
  width := uint32At b 16
  height := uint32At b 20
  depth := uint32At b 24
  pitch := uint32At b 28
  control0 := uint32At b 32
  control1 := uint32At b 36
  imageRect := uint32At b 40
  saveContext := .at b 44

def textureType (h : TextureHeader) : UInt32 := h.format >>> 8 &&& 0x7F

end TextureHeader

/-- One of the functions that bring an image into the order an encoder takes. -/
abbrev Converter := Bytes → Except Fault Bytes

structure SurfaceFormatDefinition where
  bytesPerPixel : Nat
  converter : Option Converter
  hasAlpha : Bool

def kSurfaceFormats : List (UInt32 × SurfaceFormatDefinition) :=
  [(0x01, ⟨1, none, false⟩), (0x02, ⟨2, some a1r5g5b5ToRGBA888, true⟩),
    (0x03, ⟨2, some a1r5g5b5ToRGBA888, true⟩), (0x04, ⟨2, some a1r5g5b5ToRGBA888, true⟩),
    (0x05, ⟨2, some rgb565ToRGB88, false⟩), (0x06, ⟨2, none, false⟩),
    (0x07, ⟨4, some bgraToRGBA, true⟩), (0x08, ⟨4, some bgraToRGBA, true⟩),
    (0x09, ⟨4, some bgraToRGBA, true⟩), (0x0A, ⟨4, some bgraToRGBA, true⟩),
    (0x0B, ⟨4, some bgraToRGBA, true⟩), (0x0C, ⟨4, some bgraToRGBA, true⟩)]

structure TextureFormatDefinition where
  swizzled : Bool
  bytesPerPixel : Nat
  compressed : Bool
  converter : Option Converter
  hasAlpha : Bool

def kTextureFormats : List (UInt32 × TextureFormatDefinition) :=
  [(0x00, ⟨true, 1, false, none, false⟩), (0x02, ⟨true, 2, false, some a1r5g5b5ToRGBA888, true⟩),
    (0x03, ⟨true, 2, false, some axr5g5b5ToRGB888, false⟩),
    (0x04, ⟨true, 2, false, some a4r4g4b4ToRGBA888, true⟩),
    (0x05, ⟨true, 2, false, some rgb565ToRGB88, false⟩),
    (0x10, ⟨false, 2, false, some a1r5g5b5ToRGBA888, true⟩),
    (0x11, ⟨false, 2, false, some rgb565ToRGB88, false⟩),
    (0x1C, ⟨false, 2, false, some axr5g5b5ToRGB888, false⟩),
    (0x1D, ⟨false, 2, false, some a4r4g4b4ToRGBA888, true⟩), (0x0B, ⟨true, 1, false, none, true⟩),
    (0x0C, ⟨false, 2, true, none, true⟩), (0x0E, ⟨false, 4, true, none, true⟩),
    (0x0F, ⟨false, 4, true, none, true⟩), (0x06, ⟨true, 4, false, some bgraToRGBA, true⟩),
    (0x12, ⟨false, 4, false, some bgraToRGBA, true⟩),
    (0x07, ⟨true, 4, false, some bgraToRGBA, false⟩),
    (0x1E, ⟨false, 4, false, some bgraToRGBA, false⟩), (0x3A, ⟨true, 4, false, none, true⟩),
    (0x3F, ⟨false, 4, false, none, true⟩), (0x40, ⟨false, 4, false, some argbToRGBA, true⟩),
    (0x3B, ⟨true, 4, false, some argbToRGBA, true⟩),
    (0x3C, ⟨true, 4, false, some abgrToRGBA, true⟩),
    (0x41, ⟨false, 4, false, some abgrToRGBA, true⟩), (0x13, ⟨false, 1, false, none, false⟩),
    (0x35, ⟨false, 2, false, none, false⟩), (0x19, ⟨true, 1, false, none, false⟩),
    (0x24, ⟨false, 4, false, none, true⟩), (0x25, ⟨false, 4, false, none, true⟩),
    (0x27, ⟨true, 2, false, none, false⟩), (0x2E, ⟨false, 4, false, none, true⟩)]

/-- The registers a dump of the RDI is named after. -/
inductive RDIRegion where
  | shader | constants0 | constants1
  | unknown (offset : UInt32)
deriving DecidableEq, Repr

def RDIRegion.of (offset : UInt32) : RDIRegion :=
  if offset = 0x100000 then .shader
  else if offset = 0x170000 then .constants0
  else if offset = 0xCC0000 then .constants1
  else .unknown offset

/-- What a handler has saved; an image is left to its encoder. -/
inductive AuxDump where
  | raw (data : Bytes)
  | rdi (region : RDIRegion) (data : Bytes)
  | surface (header : SurfaceHeader) (description : Option Bytes) (data : Bytes)
    (image : Option SurfaceFormatDefinition)
  | texture (header : TextureHeader) (data : Bytes) (image : Option TextureFormatDefinition)

/-- A dump without a header. -/
def logRaw (dataLen : UInt32) (data : Bytes) : Except Fault AuxDump := do
  return .raw (← bodyRange data 0 dataLen.toNat)

def logPGRAPH := logRaw

def logPFB := logRaw

def logRDI (dataLen : UInt32) (data : Bytes) : Except Fault AuxDump := do
  let header := RDIHeader.ofBytes (← bodyRange data 0 RDIHeader.size)
  -- `sizeof` makes this difference one of 64 bits.
  let lenWithoutHeader := dataLen.toUInt64 - UInt64.ofNat RDIHeader.size
  return .rdi (.of header.offset) (← bodyRange data RDIHeader.size lenWithoutHeader.toNat)

/-- The text that names a format in a description: behind "format ", as far as a comma. -/
def formatText (description : Bytes) : Option Bytes := do
  let start ← findText (ascii "format ") description
  let text := description.drop (start + 7)
  return text.take (← findText (ascii ",") text)

/-- `std::stoul` with base 16, as a `uint32_t`. Without a digit, or beyond 64 bits, it throws. -/
def stoul16 (s : Bytes) : Except Fault UInt32 :=
  match scanNumber 16 s with
  | none => .error .exception
  | some n =>
    if 2 ^ 64 ≤ n.magnitude then .error .exception else .ok (UInt32.ofNat (strtoull 16 s).1)

/-- The format of the image, or zero. -/
def surfaceFormat (description : Bytes) : Except Fault UInt32 :=
  match formatText description with
  | none => .ok 0
  | some text => stoul16 text

/-- `SaveSurfaceImage` looks its format up under an assertion; the rest is up to the encoder. -/
def saveSurfaceImage (surfaceType : UInt32) : Except Fault SurfaceFormatDefinition :=
  match kSurfaceFormats.lookup surfaceType with
  | none => .error .assertion
  | some format => .ok format

/-- The text behind the header of a surface, if it has one. -/
def surfaceDescription (data : Bytes) (length : Nat) : Except Fault (Option Bytes) :=
  if length = 0 then .ok none else (bodyRange data SurfaceHeader.size length).map some

/-- A surface without a format is not encoded. -/
def surfaceImage (surfaceType : UInt32) : Except Fault (Option SurfaceFormatDefinition) :=
  if surfaceType = 0 then .ok none else (saveSurfaceImage surfaceType).map some

def logSurface (dataLen : UInt32) (data : Bytes) : Except Fault AuxDump := do
  let header := SurfaceHeader.ofBytes (← bodyRange data 0 SurfaceHeader.size)
  let dataLen := dataLen - UInt32.ofNat SurfaceHeader.size
  let length := header.descriptionLen.toNat
  let description ← surfaceDescription data length
  let format ← description.elim (.ok 0) surfaceFormat
  let image ← bodyRange data (SurfaceHeader.size + length) (dataLen - header.descriptionLen).toNat
  return .surface header description image (← surfaceImage format)

/-- A texture's is looked up in the same way. -/
def textureFormat (textureType : UInt32) : Except Fault TextureFormatDefinition :=
  match kTextureFormats.lookup textureType with
  | none => .error .assertion
  | some format => .ok format

def logTexture (dataLen : UInt32) (data : Bytes) : Except Fault AuxDump := do
  let header := TextureHeader.ofBytes (← bodyRange data 0 TextureHeader.size)
  let dataLen := dataLen - UInt32.ofNat TextureHeader.size
  let image ← bodyRange data TextureHeader.size dataLen.toNat
  let format ← textureFormat header.textureType
  -- An empty image is not encoded.
  return .texture header image (if header.width ≠ 0 ∧ header.height ≠ 0 then some format else none)

/-- A call out of `ProcessAuxBuffer`. -/
def AuxCall.run (c : AuxCall) : Except Fault AuxDump :=
  match c.handler with
  | .logPGRAPH => logPGRAPH c.packet.len c.data
  | .logPFB => logPFB c.packet.len c.data
  | .logRDI => logRDI c.packet.len c.data
  | .logSurface => logSurface c.packet.len c.data
  | .logTexture => logTexture c.packet.len c.data

end XbdmGdbBridge.NTRCTracer
