import XbdmGdbBridge.Gdb.Transport

namespace XbdmGdbBridge.Gdb
open GDBPacket

def isAck (b : UInt8) : Bool := b == 0x2b || b == 0x2d

/-- The bytes the loop over the front of the read buffer passes. -/
def isRun (b : UInt8) : Bool := isAck b || b == kInterrupt

/-- A stream without the acknowledgements of its leading run. -/
def strip (r : Bytes) : Bytes :=
  (r.takeWhile isRun).filter (fun b => !isAck b) ++ r.dropWhile isRun

/-- What the remote protocol puts on the wire besides filler. -/
inductive Item where
  | interrupt
  | ack
  | nack
  | frame (body : Bytes) (c₁ c₂ : UInt8)
deriving DecidableEq, Repr

/-- Where the next byte falls: between frames, in a body or among the checksum
characters. `junk` is the filler since the previous frame. -/
inductive Pos where
  | gap (junk : Bytes)
  | body (junk body : Bytes)
  | trailer (junk body : Bytes) (first : Option UInt8)
deriving DecidableEq, Repr

/-- A stream of the remote protocol read byte by byte, whatever the reads it
arrives in. -/
structure Wire where
  pos : Pos := .gap []
  items : List Item := []
deriving DecidableEq, Repr

def Pos.inFrame : Pos → Bool
  | .gap _ => false
  | .body _ _ | .trailer _ _ _ => true

/-- The bytes since the last complete item. -/
def Pos.pending : Pos → Bytes
  | .gap junk => junk
  | .body junk data => junk ++ kPacketLeader :: data
  | .trailer junk data first => junk ++ kPacketLeader :: (data ++ kPacketTrailer :: first.toList)

namespace Wire

def inGap (w : Wire) (junk : Bytes) (b : UInt8) : Wire :=
  if b = kPacketLeader then { w with pos := .body junk [] }
  else if b = kInterrupt then { w with items := w.items ++ [.interrupt] }
  else if b = 0x2b then ⟨.gap (junk ++ [b]), w.items ++ [.ack]⟩
  else if b = 0x2d then ⟨.gap (junk ++ [b]), w.items ++ [.nack]⟩
  else { w with pos := .gap (junk ++ [b]) }

def inBody (w : Wire) (junk body : Bytes) (b : UInt8) : Wire :=
  if b = kPacketTrailer then { w with pos := .trailer junk body none }
  else { w with pos := .body junk (body ++ [b]) }

/-- A byte that is not the second checksum character. -/
def plain (w : Wire) (b : UInt8) : Wire :=
  match w.pos with
  | .gap junk => w.inGap junk b
  | .body junk body => w.inBody junk body b
  | .trailer junk body _ => { w with pos := .trailer junk body (some b) }

/-- A frame whose checksum characters are no number ends at its trailer; the
two characters are read again. -/
def step (w : Wire) (b : UInt8) : Wire :=
  match w.pos with
  | .trailer _ body (some c₁) =>
    let done : Wire := ⟨.gap [], w.items ++ [.frame body c₁ b]⟩
    match checksumValue c₁ b with
    | some _ => done
    | none => (done.plain c₁).plain b
  | _ => w.plain b

def run (w : Wire) (s : Bytes) : Wire := s.foldl step w

end Wire

end XbdmGdbBridge.Gdb
