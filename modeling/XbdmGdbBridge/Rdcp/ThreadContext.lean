import XbdmGdbBridge.Lib.Memory
import XbdmGdbBridge.Rdcp.Response
import XbdmGdbBridge.Xbox.Registers

/-!
# Thread contexts on the wire

The general registers travel as text, the floating-point state as 112 bytes that are copied from and
to the object. `image` is the object in memory: seven 32-bit members, four bytes of padding in front
of the 64-bit ones, and one more 32-bit member behind them.
-/

namespace XbdmGdbBridge

open Lib CText Rdcp

namespace ThreadContext

def parse (parsed : RDCPMapResponse) : ThreadContext where
  ebp := parsed.getOptionalDWORD (ascii "Ebp")
  esp := parsed.getOptionalDWORD (ascii "Esp")
  eip := parsed.getOptionalDWORD (ascii "Eip")
  eflags := parsed.getOptionalDWORD (ascii "EFlags")
  eax := parsed.getOptionalDWORD (ascii "Eax")
  ebx := parsed.getOptionalDWORD (ascii "Ebx")
  ecx := parsed.getOptionalDWORD (ascii "Ecx")
  edx := parsed.getOptionalDWORD (ascii "Edx")
  edi := parsed.getOptionalDWORD (ascii "Edi")
  esi := parsed.getOptionalDWORD (ascii "Esi")
  cr0NpxState := parsed.getOptionalDWORD (ascii "Cr0NpxState")

/-- The registers by name, in the order they are written. -/
def entries (c : ThreadContext) : List (Bytes × Option Int32) :=
  [(ascii "Ebp", c.ebp), (ascii "Esp", c.esp), (ascii "Eip", c.eip), (ascii "EFlags", c.eflags),
    (ascii "Eax", c.eax), (ascii "Ebx", c.ebx), (ascii "Ecx", c.ecx), (ascii "Edx", c.edx),
    (ascii "Edi", c.edi), (ascii "Esi", c.esi), (ascii "Cr0NpxState", c.cr0NpxState)]

/-- `0x%x` of a signed value. -/
def valueText (v : Int32) : Bytes :=
  ascii "0x" ++ hexText v.toUInt32.toNat

def entryText (name : Bytes) : Option Int32 → Bytes
  | none => []
  | some v => ascii " " ++ name ++ ascii "=" ++ valueText v

def serialize (c : ThreadContext) : Bytes :=
  c.entries.flatMap fun entry => entryText entry.1 entry.2

end ThreadContext

namespace ThreadFloatContext

def int32At (m : Memory) (offset : Nat) : Int32 :=
  (UInt32.ofNat (Memory.value 4 fun a => m (offset + a))).toInt32

def int64At (m : Memory) (offset : Nat) : Int64 :=
  (UInt64.ofNat (Memory.value 8 fun a => m (offset + a))).toInt64

def words (c : ThreadFloatContext) : List Int32 :=
  [c.control, c.status, c.tag, c.errorOffset, c.errorSelector, c.dataOffset, c.dataSelector]

def image (c : ThreadFloatContext) : Memory := fun a =>
  if a < 28 then Memory.byteOf (c.words.getD (a / 4) 0).toUInt32.toNat (a % 4)
  else if 32 ≤ a ∧ a < 96 then
    Memory.byteOf ((Registers.stack c).getD ((a - 32) / 8) 0).toUInt64.toNat ((a - 32) % 8)
  else if 96 ≤ a ∧ a < 100 then Memory.byteOf c.cr0NpxState.toUInt32.toNat (a - 96)
  else 0

def ofImage (m : Memory) : ThreadFloatContext where
  control := int32At m 0
  status := int32At m 4
  tag := int32At m 8
  errorOffset := int32At m 12
  errorSelector := int32At m 16
  dataOffset := int32At m 20
  dataSelector := int32At m 24
  st0 := int64At m 32
  st1 := int64At m 40
  st2 := int64At m 48
  st3 := int64At m 56
  st4 := int64At m 64
  st5 := int64At m 72
  st6 := int64At m 80
  st7 := int64At m 88
  cr0NpxState := int32At m 96

/-- The size of the state on the wire. -/
def wireSize : Nat := 8 * 4 + 80

-- Ten bytes are copied to each of `st0` to `st7`, which are eight bytes apart.
def parse (buffer : Bytes) (c : ThreadFloatContext) : ThreadFloatContext :=
  let data : Memory := fun a => buffer.getD a 0
  let values := c.image.copies 0 4 data 4 4 7
  let stack := values.copies 32 8 (fun a => data (28 + a)) 10 10 8
  ofImage (stack.copy 96 (fun a => data (108 + a)) 4)

-- Ten bytes are copied from each of them.
def serialize (c : ThreadFloatContext) : Bytes :=
  let ret : Memory := fun _ => 0
  let values := ret.copies 0 4 c.image 4 4 7
  let stack := values.copies 28 10 (fun a => c.image (32 + a)) 8 10 8
  (List.range wireSize).map (stack.copy 108 (fun a => c.image (96 + a)) 4)

end ThreadFloatContext

end XbdmGdbBridge
