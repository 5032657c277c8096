import XbdmGdbBridge.Util.CText

/-!
# Connections

`TCPConnection`: the buffers between the threads that send and the socket. `send` takes as much as
it likes, and a connection can be closed as soon as everything was taken.
-/

namespace XbdmGdbBridge.Networking

structure TCPConnection where
  isShutdown : Bool := false
  readBuffer : Bytes := []
  writeBuffer : Bytes := []
  closeAfterFlush : Bool := false
  /-- History: what was given to `Send` and taken by the socket, and what came from it and was
  shifted out. -/
  given : Bytes := []
  taken : Bytes := []
  received : Bytes := []
  shifted : Bytes := []

/-- The calls, with what the socket does; `Process` is `doSend`, `checkFlushed` and `doReceive`. -/
inductive ConnectionEvent where
  | send (buffer : Bytes)
  | flushAndClose
  | close
  | doSend (bytesSent : Nat)
  | checkFlushed
  | doReceive (buffer : Bytes)
  | shiftReadBuffer (shiftBytes : Nat)

namespace TCPConnection

def close (c : TCPConnection) : TCPConnection :=
  { c with isShutdown := true }

-- A closed socket neither takes nor gives bytes.
def step (c : TCPConnection) : ConnectionEvent → TCPConnection
  | .send buffer => { c with writeBuffer := c.writeBuffer ++ buffer, given := c.given ++ buffer }
  | .flushAndClose => if c.writeBuffer = [] then c.close else { c with closeAfterFlush := true }
  | .close => c.close
  | .doSend bytesSent =>
    if c.isShutdown then c
    else { c with
      writeBuffer := c.writeBuffer.drop bytesSent
      taken := c.taken ++ c.writeBuffer.take bytesSent }
  | .checkFlushed =>
    if c.closeAfterFlush ∧ c.writeBuffer = [] then { c.close with closeAfterFlush := false } else c
  | .doReceive buffer =>
    if c.isShutdown then c
    else if buffer = [] then c.close
    else { c with readBuffer := c.readBuffer ++ buffer, received := c.received ++ buffer }
  | .shiftReadBuffer shiftBytes =>
    if shiftBytes > c.readBuffer.length then c
    else { c with
      readBuffer := c.readBuffer.drop shiftBytes
      shifted := c.shifted ++ c.readBuffer.take shiftBytes }

end TCPConnection

end XbdmGdbBridge.Networking
