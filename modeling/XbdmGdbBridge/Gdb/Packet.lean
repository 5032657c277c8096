import XbdmGdbBridge.Util.CText

namespace XbdmGdbBridge.Gdb
open CText

def kPacketLeader : UInt8 := 0x24
def kPacketTrailer : UInt8 := 0x23
def kPacketEscapeChar : UInt8 := 0x7d
def kEscapeCharacterSet : List UInt8 := [kPacketEscapeChar, kPacketLeader, kPacketTrailer]

/-- The byte GDB sends outside any frame to interrupt the target. -/
def kInterrupt : UInt8 := 0x03

def mod256Checksum (buffer : Bytes) : UInt8 := buffer.foldl (fun ret b => ret + b) 0

structure GDBPacket where
  data : Bytes := []
  checksum : UInt8 := 0
  checksumOk : Bool := false
deriving DecidableEq, Repr

namespace GDBPacket

/-- The constructors from data compute the checksum and leave `checksum_ok_`
at its default. -/
def ofData (data : Bytes) : GDBPacket := { data := data, checksum := mod256Checksum data }

def escapeBuffer (buffer : Bytes) : Bytes :=
  buffer.flatMap (fun b => if b ∈ kEscapeCharacterSet then [kPacketEscapeChar, b ^^^ 0x20] else [b])

def serialize (p : GDBPacket) : Bytes :=
  kPacketLeader :: (escapeBuffer p.data ++ kPacketTrailer :: hexByte p.checksum)

/-- `memchr`: the offset of the first occurrence. -/
def memchr (c : UInt8) (buffer : Bytes) : Option Nat := buffer.idxOf? c

/-- The number the two checksum characters stand for, when `strtol` accepts
both of them. Signs and white space are accepted like digits. -/
def checksumValue (c₁ c₂ : UInt8) : Option Int :=
  let (value, used) := strtol 16 [c₁, c₂]
  if used = 2 then some value else none

/-- The packet `Parse` stores for a frame with a numeric checksum. -/
def ofFrame (body : Bytes) (sent : Int) : GDBPacket :=
  { data := body
    checksum := mod256Checksum body
    checksumOk := sent = ((mod256Checksum body).toNat : Int) }

/-- Returns the number of bytes consumed and the packet afterwards. A frame
with a non-numeric checksum is consumed through its terminator and leaves the
packet as it was. -/
def parse (p : GDBPacket) (buffer : Bytes) : Nat × GDBPacket :=
  match memchr kPacketLeader buffer with
  | none => (0, p)
  | some start =>
    let body := buffer.drop (start + 1)
    match memchr kPacketTrailer body with
    | none => (0, p)
    | some bodySize =>
      match body.drop (bodySize + 1) with
      | c₁ :: c₂ :: _ =>
        match checksumValue c₁ c₂ with
        | none => (start + 1 + bodySize + 1, p)
        | some sent => (start + 1 + bodySize + 3, ofFrame (body.take bodySize) sent)
      | _ => (0, p)

/-- Returns the number of bytes reported as consumed and the bytes appended to
the output. The two bytes of a decoded escape pair are not counted. -/
def unescapeBuffer : Bytes → Nat × Bytes
  | [] => (0, [])
  | [b] => if b = kPacketEscapeChar then (0, []) else (1, [b])
  | b :: x :: rest =>
    if b = kPacketEscapeChar then
      let (count, out) := unescapeBuffer rest
      (count, (x ^^^ 0x20) :: out)
    else
      let (count, out) := unescapeBuffer (x :: rest)
      (count + 1, b :: out)

end GDBPacket

end XbdmGdbBridge.Gdb
