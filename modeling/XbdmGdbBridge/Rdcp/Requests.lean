import XbdmGdbBridge.Rdcp.Answer
import XbdmGdbBridge.Rdcp.ThreadContext

/-!
# Requests with names and payloads

The requests of `xbdm_requests.h` that put a file name into their text or announce the size of a
payload there.
-/

namespace XbdmGdbBridge.Rdcp

open CText

structure RDCPRequest where
  command : Bytes
  data : Bytes
  /-- `BinaryPayload()`. -/
  binaryPayload : Option Bytes := none
  /-- `BinaryResponseSizeParser()`. -/
  binaryResponseSizeParser : ReadBinarySizeFunc := none

/-- The bytes put on the wire. -/
def RDCPRequest.toBytes (r : RDCPRequest) : Bytes :=
  wireText r.command r.data

/-- `AppendHexString` of a size, cast to 32 bits. -/
def sizeText (payload : Bytes) : Bytes :=
  hexString (UInt32.ofNat payload.length)

def sendFile (name buffer : Bytes) : RDCPRequest where
  command := ascii "sendfile"
  data := ascii " name=\"" ++ name ++ ascii "\" length=" ++ sizeText buffer
  binaryPayload := some buffer

def writeFile (name buffer : Bytes) : RDCPRequest where
  command := ascii "writefile"
  data := ascii " name=\"" ++ name ++ ascii "\"" ++ ascii " length=" ++ sizeText buffer
  binaryPayload := some buffer

/-- The arguments of `SetFileAttributes` behind the name. -/
structure FileAttributes where
  readonly : Option Bool := none
  hidden : Option Bool := none
  createTimestamp : Option UInt64 := none
  changeTimestamp : Option UInt64 := none
deriving DecidableEq, Repr

def flagText (label : Bytes) : Option Bool → Bytes
  | none => []
  | some true => label ++ ascii "1"
  | some false => label ++ ascii "0"

/-- The halves of a timestamp. -/
def timestampText (high low : Bytes) : Option UInt64 → Bytes
  | none => []
  | some t => high ++ hexString (t >>> 32).toUInt32 ++ low ++ hexString (t &&& 0xFFFFFFFF).toUInt32

def setFileAttributes (name : Bytes) (attributes : FileAttributes) : RDCPRequest where
  command := ascii "setfileattributes"
  data := ascii " name=\"" ++ name ++ ascii "\"" ++
    flagText (ascii " readonly=") attributes.readonly ++
    flagText (ascii " hidden=") attributes.hidden ++
    timestampText (ascii " createhi=") (ascii " createlo=") attributes.createTimestamp ++
    timestampText (ascii " changehi=") (ascii " changelo=") attributes.changeTimestamp

/-- `SetContext` with a floating-point context, and with the registers in front of it if they are
given. -/
def setContext (threadId : Int32) (context : Option ThreadContext) (ext : ThreadFloatContext) :
    RDCPRequest where
  command := ascii "setcontext"
  data := ascii " thread=" ++ hexString threadId.toUInt32 ++
    context.elim [] (fun c => ascii " " ++ c.serialize) ++ ascii " ext=" ++ sizeText ext.serialize
  binaryPayload := some ext.serialize

end XbdmGdbBridge.Rdcp
