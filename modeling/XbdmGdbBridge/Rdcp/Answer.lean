import XbdmGdbBridge.Lib.Lines
import XbdmGdbBridge.Rdcp.Request

/-!
# Answers on the wire

`RDCPResponse::Parse`: a status line, and for some statuses a body of lines or of bytes behind it.
-/

namespace XbdmGdbBridge.Rdcp

open CText Lib

def kMultilineTerminator : Bytes := [0x0d, 0x0a, 0x2e, 0x0d, 0x0a]

/-- The numbers of `StatusCode` the parser and the transport look at. -/
def OK_MULTILINE_RESPONSE : UInt32 := 202

def OK_BINARY_RESPONSE : UInt32 := 203

def OK_SEND_BINARY_DATA : UInt32 := 204

structure RDCPResponse where
  status : UInt32
  message : Bytes
  data : Bytes
deriving DecidableEq, Repr

/-- What a size parser finds at the start of a binary body: the size of the data and how many
bytes in front of the data announce it. Each one of the source reads an unsigned number. -/
structure BinarySize where
  size : Nat
  consumed : Nat
deriving DecidableEq, Repr

abbrev ReadBinarySizeFunc := Option (Bytes → Option BinarySize)

namespace RDCPResponse

/-- The lines of a body and what follows their terminator. -/
def parseMultilineResponse (body : Bytes) : Option (Bytes × Bytes) :=
  (search kMultilineTerminator body).map fun n =>
    (body.take n, body.drop (n + kMultilineTerminator.length))

/-- The lines behind a status line. Without one the end of the status line is part of the
terminator. -/
def multilineBody (rest : Bytes) : Option (Bytes × Bytes) :=
  if kMultilineTerminator <+: kTerminator ++ rest then some ([], rest.drop 3)
  else parseMultilineResponse rest

/-- The bytes of a body and what follows them. The bytes at hand are counted in 32 bits. -/
def parseBinaryResponse (sizeParser : ReadBinarySizeFunc) (body : Bytes) :
    Option (Bytes × Bytes) := do
  let available := body.length % 2 ^ 32
  let found ← (← sizeParser) (body.take available)
  if available - found.consumed < found.size then none
  else
    let data := body.drop found.consumed
    return (data.take found.size, data.drop found.size)

/-- A range `[buffer + 5, terminator)` whose end may lie in front of its start. -/
def messageText (line : Bytes) : Except Fault Bytes :=
  if line.length < 5 then .error .range else .ok (line.drop 5)

/-- The message, the data and what follows them, for a status line in front of the rest; `none`
where the body is not complete. -/
def parseBody (sizeParser : ReadBinarySizeFunc) (status : UInt32) (line rest : Bytes) :
    Except Fault (Option (Bytes × Bytes × Bytes)) := do
  if status = OK_MULTILINE_RESPONSE then
    let message ← messageText line
    return (multilineBody rest).map fun (data, others) => (message, data, others)
  else if status = OK_BINARY_RESPONSE then
    return (parseBinaryResponse sizeParser rest).map fun (data, others) => ([], data, others)
  else
    let message ← messageText line
    return some (message, message, rest)

def statusOf (line : Bytes) : UInt32 :=
  UInt32.ofInt (strtol 10 (line.take 3)).1

/-- The number of bytes that belong to the answer, and the answer. A line that is no status line
has its length negated, and nothing is an answer that is not complete. -/
def parse (sizeParser : ReadBinarySizeFunc) (buffer : Bytes) :
    Except Fault (Int × Option RDCPResponse) :=
  if buffer.length < 4 then .ok (0, none)
  else
    match search kTerminator buffer with
    | none => .ok (0, none)
    | some n =>
      let packetSize := n + kTerminator.length
      let line := buffer.take n
      if packetSize < 4 then .ok (-packetSize, none)
      else if buffer[3]? ≠ some (byte '-') then .ok (-packetSize, none)
      else do
        match ← parseBody sizeParser (statusOf line) line (buffer.drop packetSize) with
        | none => return (0, none)
        | some (message, data, others) =>
          return (buffer.length - others.length, some ⟨statusOf line, message, data⟩)

end RDCPResponse

/-- `SplitMultiline`. -/
def splitMultiline (data : Bytes) : List Bytes :=
  if data = [] then [] else splitPair 0x0d 0x0a data

structure RDCPMultilineResponse where
  lines : List Bytes
deriving DecidableEq, Repr

def RDCPMultilineResponse.ofData (data : Bytes) : RDCPMultilineResponse :=
  ⟨splitMultiline data⟩

end XbdmGdbBridge.Rdcp
