import XbdmGdbBridge.Gdb.Packet

namespace XbdmGdbBridge.Gdb

/-- One call of `TCPConnection::Send`, with the call site that made it. -/
inductive Sent where
  | packet (bytes : Bytes)
  | resend (bytes : Bytes)
  | ack
deriving DecidableEq, Repr

def Sent.bytes : Sent → Bytes
  | .packet b | .resend b => b
  | .ack => ascii "+"

structure GDBTransport where
  noAckMode : Bool := false
  readBuffer : Bytes := []
  unescapedReadBuffer : Bytes := []
  ackBuffer : List Bytes := []
  /-- What was handed to `TCPConnection::Send` so far. -/
  sent : List Sent := []
  /-- What was handed to `packet_received_handler_` so far. -/
  received : List GDBPacket := []
deriving DecidableEq, Repr

namespace GDBTransport

def send (t : GDBTransport) (p : GDBPacket) : GDBTransport :=
  { t with ackBuffer := t.ackBuffer ++ [p.serialize], sent := t.sent ++ [.packet p.serialize] }

def shiftReadBuffer (t : GDBTransport) (shiftBytes : Nat) : GDBTransport :=
  if shiftBytes > t.readBuffer.length then t
  else { t with readBuffer := t.readBuffer.drop shiftBytes }

def ackReceived (t : GDBTransport) : GDBTransport := { t with ackBuffer := t.ackBuffer.tail }

def resendRequested (t : GDBTransport) : GDBTransport :=
  match t.ackBuffer with
  | [] => t
  | oldest :: _ => { t with sent := t.sent ++ [.resend oldest] }

/-- The loop over the front of the read buffer: acknowledgements, resend
requests and interrupts until the first other byte. Returns how many bytes it
passed. -/
def leadingRun (t : GDBTransport) : Bytes → Nat × GDBTransport
  | [] => (0, t)
  | b :: rest =>
    if b = 0x2b then
      let (n, t) := leadingRun t.ackReceived rest
      (n + 1, t)
    else if b = 0x2d then
      let (n, t) := leadingRun t.resendRequested rest
      (n + 1, t)
    else if b = kInterrupt then
      let (n, t) := leadingRun
        { t with unescapedReadBuffer := t.unescapedReadBuffer ++ [kInterrupt] } rest
      (n + 1, t)
    else (0, t)

def interruptPacket : GDBPacket := .ofData [kInterrupt]

/-- The loop of `ProcessUnescapedReadBuffer`. One packet object is reused by
all iterations. Returns the packets in order and the unconsumed bytes. -/
def processLoop : Nat → GDBPacket → Bytes → List GDBPacket × Bytes
  | 0, _, buffer => ([], buffer)
  | _ + 1, _, [] => ([], [])
  | fuel + 1, packet, b :: rest =>
    if b = kInterrupt then
      let (packets, left) := processLoop fuel packet rest
      (interruptPacket :: packets, left)
    else
      let (bytesConsumed, packet) := packet.parse (b :: rest)
      if bytesConsumed = 0 then ([], b :: rest)
      else
        let (packets, left) := processLoop fuel packet ((b :: rest).drop bytesConsumed)
        (packet :: packets, left)

def processUnescapedReadBuffer (t : GDBTransport) : GDBTransport :=
  let (packets, left) :=
    processLoop t.unescapedReadBuffer.length {} t.unescapedReadBuffer
  { t with
    unescapedReadBuffer := left
    sent := t.sent ++ if t.noAckMode then [] else packets.map (fun _ => .ack)
    received := t.received ++ packets }

def onBytesRead (t : GDBTransport) : GDBTransport :=
  let readBufferSize := t.unescapedReadBuffer.length
  let (passed, t) := t.leadingRun t.readBuffer
  let t := t.shiftReadBuffer passed
  let (bytesConsumed, unescaped) := GDBPacket.unescapeBuffer t.readBuffer
  let t := { t with unescapedReadBuffer := t.unescapedReadBuffer ++ unescaped }
  let t := t.shiftReadBuffer bytesConsumed
  if t.unescapedReadBuffer.length = readBufferSize then t else t.processUnescapedReadBuffer

/-- `DoReceive` appends the bytes of one `recv` and `Process` then calls
`OnBytesRead`. -/
def receive (t : GDBTransport) (bytes : Bytes) : GDBTransport :=
  onBytesRead { t with readBuffer := t.readBuffer ++ bytes }

def receiveAll (t : GDBTransport) (reads : List Bytes) : GDBTransport := reads.foldl receive t

end GDBTransport

end XbdmGdbBridge.Gdb
