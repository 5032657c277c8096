import XbdmGdbBridge.Xbox.Target

/-!
# Pixel formats

The converters that bring images into the order of channels an encoder takes. Each allocates its
result for the size of the source as a 32-bit number.
-/

namespace XbdmGdbBridge.NTRCTracer

/-- The 16-bit pixels of a buffer; a byte that is left over is none. -/
def pixels16 : Bytes → List UInt16
  | low :: high :: rest => (low.toUInt16 ||| high.toUInt16 <<< 8) :: pixels16 rest
  | _ => []

/-- The pixels of four bytes. -/
def pixels32 : Bytes → List (UInt8 × UInt8 × UInt8 × UInt8)
  | b₀ :: b₁ :: b₂ :: b₃ :: rest => (b₀, b₁, b₂, b₃) :: pixels32 rest
  | _ => []

/-- What is written has to fit what was allocated. -/
def fitting (allocated : UInt32) (written : Bytes) : Except Fault Bytes :=
  if allocated.toNat < written.length then .error .range else .ok written

def convert16 (emit : UInt16 → Bytes) (src : Bytes) : Except Fault Bytes :=
  fitting (UInt32.ofNat src.length <<< 1) ((pixels16 src).flatMap emit)

def channel (pixel : UInt16) (shift mask : UInt16) : UInt8 :=
  (pixel >>> shift &&& mask).toUInt8

def expand4 (v : UInt8) : UInt8 := v <<< 4 ||| v >>> 1

def expand5 (v : UInt8) : UInt8 := v <<< 3 ||| v >>> 2

def expand6 (v : UInt8) : UInt8 := v <<< 2 ||| v >>> 4

def rgb565ToRGB88 : Bytes → Except Fault Bytes := convert16 fun pixel =>
  let r5 := channel pixel 11 0x1F
  let g6 := channel pixel 5 0x3F
  let b5 := channel pixel 0 0x1F
  [expand5 r5, expand6 g6, expand5 b5]

def axr5g5b5ToRGB888 : Bytes → Except Fault Bytes := convert16 fun pixel =>
  let r5 := channel pixel 10 0x1F
  let g5 := channel pixel 5 0x1F
  let b5 := channel pixel 0 0x1F
  [expand5 r5, expand5 g5, expand5 b5]

def a1r5g5b5ToRGBA888 : Bytes → Except Fault Bytes := convert16 fun pixel =>
  let alpha := channel pixel 15 0x01
  let r5 := channel pixel 10 0x1F
  let g5 := channel pixel 5 0x1F
  let b5 := channel pixel 0 0x1F
  [alpha * 0xFF, expand5 r5, expand5 g5, expand5 b5]

def a4r4g4b4ToRGBA888 : Bytes → Except Fault Bytes := convert16 fun pixel =>
  let alpha := channel pixel 12 0xF
  let red := channel pixel 8 0xF
  let green := channel pixel 4 0xF
  let blue := channel pixel 0 0xF
  [expand4 alpha, expand4 red, expand4 green, expand4 blue]

def convert32 (emit : UInt8 × UInt8 × UInt8 × UInt8 → Bytes) (src : Bytes) : Except Fault Bytes :=
  fitting (UInt32.ofNat src.length) ((pixels32 src).flatMap emit)

def bgraToRGBA : Bytes → Except Fault Bytes := convert32 fun p => [p.2.2.1, p.2.1, p.1, p.2.2.2]

def abgrToRGBA : Bytes → Except Fault Bytes := convert32 fun p => [p.2.2.2, p.2.2.1, p.2.1, p.1]

def argbToRGBA : Bytes → Except Fault Bytes := convert32 fun p => [p.2.1, p.2.2.1, p.2.2.2, p.1]

end XbdmGdbBridge.NTRCTracer
