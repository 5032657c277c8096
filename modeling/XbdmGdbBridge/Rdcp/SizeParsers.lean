import XbdmGdbBridge.Lib.Memory
import XbdmGdbBridge.Rdcp.Answer
import XbdmGdbBridge.Rdcp.Response

/-!
# Sizes of binary answers

The size parsers of the requests that are answered with bytes.
-/

namespace XbdmGdbBridge.Rdcp

open CText Lib

def binarySizeInt32Prefix (buffer : Bytes) : Option BinarySize :=
  if buffer.length < 4 then none
  else some ⟨Memory.value 4 fun a => buffer.getD a 0, 4⟩

/-- The lambda of the requests that know the size of their answer: `GetChecksum`, `GetGamma`,
`GetMemBinary`, `GetD3DState`. -/
def knownSize (size : UInt32) (_buffer : Bytes) : Option BinarySize :=
  some ⟨size.toNat, 0⟩

namespace Screenshot

/-- What `ParseSize` stores and returns. -/
structure Description where
  pitch : UInt32
  width : UInt32
  height : UInt32
  format : UInt32
  binary : BinarySize
deriving DecidableEq, Repr

/-- A line of description in front of the data. The tokenizer of the line may throw. -/
def parseSize (buffer : Bytes) : Except Fault (Option Description) :=
  if buffer.length < 4 then .ok none
  else
    match search kTerminator buffer with
    | none => .ok none
    | some terminator => do
      let parsed ← RDCPMapResponse.ofText (buffer.take terminator)
      return some {
        pitch := parsed.getUInt32 (ascii "pitch") 0
        width := parsed.getUInt32 (ascii "width") 0
        height := parsed.getUInt32 (ascii "height") 0
        format := parsed.getUInt32 (ascii "format") 0
        binary := {
          size := (parsed.getUInt32 (ascii "framebuffersize") 0).toNat
          consumed := terminator + kTerminator.length } }

end Screenshot

end XbdmGdbBridge.Rdcp
