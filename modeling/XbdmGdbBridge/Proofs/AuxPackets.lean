import XbdmGdbBridge.Proofs.CaptureRecords
import XbdmGdbBridge.Tracer.AuxDumps

/-!
# What the dumps read

A handler stays inside its packet when the packet is as long as its headers say. The format has to
be one of the table, since it is looked up under an assertion or read as a number out of a text.
-/

namespace XbdmGdbBridge.Proofs.AuxPackets

open CText NTRCTracer

section Ranges

variable {data b : Bytes} {dataLen : UInt32} {offset len : Nat}

end Ranges

section Formats

variable {f : UInt32} {text description : Bytes}

/-- A text begins with a number that `stoul` takes, and what a `uint32_t` keeps of it is zero or a
surface format. -/
def NumbersFormat (text : Bytes) : Prop :=
  ∃ n, scanNumber 16 text = some n ∧ n.magnitude < 2 ^ 64 ∧
    UInt32.ofNat (strtoull 16 text).1 ≤ 0x0C

end Formats

section Handlers

variable {data : Bytes} {dataLen : UInt32} (h : data.length = dataLen.toNat)
include h

/-- The description of a surface. -/
def descriptionOf (data : Bytes) : Bytes :=
  (data.drop SurfaceHeader.size).take (SurfaceHeader.ofBytes data).descriptionLen.toNat

end Handlers

section Packets

variable {packet : AuxDataHeader} {data : Bytes}

/-- The function that saves the packet keeps inside it, and gets through. -/
def Stays (packet : AuxDataHeader) (data : Bytes) : Prop :=
  ∀ call, auxCall packet data = some call → ∃ dump, call.run = .ok dump

/-- What each of the functions needs: its header and, of a surface, the description; and a format of
the table. -/
def WellFormed (data : Bytes) : AuxHandler → Prop
  | .logPGRAPH | .logPFB => True
  | .logRDI => RDIHeader.size ≤ data.length
  | .logSurface =>
    SurfaceHeader.size + (SurfaceHeader.ofBytes data).descriptionLen.toNat ≤ data.length ∧
      ∀ text, formatText (descriptionOf data) = some text → NumbersFormat text
  | .logTexture =>
    TextureHeader.size ≤ data.length ∧
      (TextureHeader.ofBytes data).textureType ∈ kTextureFormats.map Prod.fst

end Packets

end XbdmGdbBridge.Proofs.AuxPackets
