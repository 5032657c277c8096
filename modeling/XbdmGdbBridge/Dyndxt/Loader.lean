import XbdmGdbBridge.Xbox.Debugger

/-!
# The memory writer of the loader

`SetMemoryUnsafe` cuts the data into slices of the size a `setmem` request may carry.
-/

namespace XbdmGdbBridge.Loader

open Lib XBDMDebugger

variable {σ : Type} [Xbdm σ]

/-- A `SetMem` request is made, which asserts its size, and sent. -/
def sendSetMem (address : UInt32) (data : Bytes) : Program Fault (XBDMContext σ) Bool := fun c =>
  if kMaximumDataSize < data.length then .error .assertion
  else
    let (reply, c) := c.sendCommandSync (.setMem address data)
    .ok (Request.isOK (.setMem address data) reply.status, c)

/-- The loop of `SetMemoryUnsafe`. The end of a slice is moved past the end of the data and back
before it is used. -/
def writeSlices : Nat → UInt32 → Bytes → Program Fault (XBDMContext σ) Bool
  | _, _, [] => pure true
  | 0, _, _ :: _ => pure true
  | fuel + 1, address, first :: rest => do
    let data := first :: rest
    if ← sendSetMem address (data.take kMaximumDataSize) then
      writeSlices fuel (address + UInt32.ofNat kMaximumDataSize) (data.drop kMaximumDataSize)
    else return false

-- Every slice takes at least one byte, so the length is fuel enough.
def setMemoryUnsafe (address : UInt32) (data : Bytes) : Program Fault (XBDMContext σ) Bool :=
  if data.length ≤ kMaximumDataSize then sendSetMem address data
  else writeSlices data.length address data

/-- The loop with both iterators of the source, as offsets into the data. -/
def sliceLoop (data : Bytes) : Nat → Nat → Nat → UInt32 → Program Fault (XBDMContext σ) Bool
  | 0, _, _, _ => pure true
  | fuel + 1, first, last, address =>
    if first = data.length then pure true
    else do
      if ← sendSetMem address ((data.drop first).take (last - first)) then
        let next := last + kMaximumDataSize
        sliceLoop data fuel last (if data.length < next then data.length else next)
          (address + UInt32.ofNat kMaximumDataSize)
      else return false

end XbdmGdbBridge.Loader
