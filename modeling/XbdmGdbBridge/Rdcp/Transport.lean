import XbdmGdbBridge.Rdcp.Requests

/-!
# The transport of requests

`XBDMTransport`: requests are queued and the front of the queue is written, and the bytes read are
parsed for the answer to the front. `OnBytesRead` is cut where another thread may come in between:
it takes the lock of the queue in `WriteNextRequest` only.
-/

namespace XbdmGdbBridge.Rdcp

def OK_CONNECTED : UInt32 := 201

inductive ConnectionState where
  | DISCONNECTED | INIT | CONNECTED | AWAITING_RESPONSE
deriving DecidableEq, Repr

/-- A request behind a pointer; requests of different identity may look the same. -/
structure SharedRequest where
  id : Nat
  request : RDCPRequest

/-- One call of `TCPConnection::Send`. -/
inductive Output where
  | request (r : SharedRequest)
  | payload (bytes : Bytes)

structure XBDMTransport where
  state : ConnectionState := .INIT
  requestQueue : List SharedRequest := []
  readBuffer : Bytes := []
  /-- What was handed to `TCPConnection::Send` so far. -/
  output : List Output := []
  /-- The calls of `Complete` so far. -/
  completed : List (SharedRequest × RDCPResponse) := []
  /-- The calls of `Abandon` so far. -/
  abandoned : List SharedRequest := []

/-- Where the thread that reads is in `OnBytesRead`: outside, behind `ShiftReadBuffer`, behind
`pop_front`, behind `WriteNextRequest`, or stopped by a fault. -/
inductive Reading where
  | idle
  | parsed (request : Option SharedRequest) (response : Option RDCPResponse)
  | popped (request : Option SharedRequest) (response : RDCPResponse)
  | wrote (request : Option SharedRequest) (response : RDCPResponse)
  | faulted (fault : Fault)

namespace XBDMTransport

def writeNextRequest (t : XBDMTransport) : XBDMTransport :=
  if t.state ≠ .CONNECTED then t
  else
    match t.requestQueue with
    | [] => t
    | request :: _ => { t with output := t.output ++ [.request request] }

def send (t : XBDMTransport) (request : SharedRequest) : XBDMTransport :=
  { t with requestQueue := t.requestQueue ++ [request] }.writeNextRequest

def close (t : XBDMTransport) : XBDMTransport :=
  { t with state := .INIT, abandoned := t.abandoned ++ t.requestQueue, requestQueue := [] }

def doReceive (t : XBDMTransport) (bytes : Bytes) : XBDMTransport :=
  { t with readBuffer := t.readBuffer ++ bytes }

def shiftReadBuffer (t : XBDMTransport) (shiftBytes : Nat) : XBDMTransport :=
  if shiftBytes > t.readBuffer.length then t
  else { t with readBuffer := t.readBuffer.drop shiftBytes }

def handleInitialConnectResponse (t : XBDMTransport) (response : RDCPResponse) : XBDMTransport :=
  if response.status = OK_CONNECTED then { t with state := .CONNECTED } else t.close

/-- `OnBytesRead` up to `ShiftReadBuffer`: at most one answer is parsed. -/
def parseFront (t : XBDMTransport) : XBDMTransport × Reading :=
  let request := t.requestQueue.head?
  let sizeParser := request.bind (·.request.binaryResponseSizeParser)
  match RDCPResponse.parse sizeParser t.readBuffer with
  | .error fault => (t, .faulted fault)
  | .ok (bytesConsumed, response) =>
    if bytesConsumed = 0 then (t, .idle)
    else (t.shiftReadBuffer bytesConsumed.natAbs, .parsed request response)

/-- From there to `pop_front`. The queue is looked at again, the request is not. -/
def handleResponse (t : XBDMTransport) (request : Option SharedRequest) :
    Option RDCPResponse → XBDMTransport × Reading
  | none => (t, .faulted .absent)
  | some response =>
    match t.requestQueue with
    | [] => (t.handleInitialConnectResponse response, .idle)
    | _ :: rest =>
      if response.status = OK_SEND_BINARY_DATA then
        match request with
        | none => (t, .faulted .absent)
        | some request =>
          match request.request.binaryPayload with
          | none => (t, .faulted .assertion)
          | some payload => ({ t with output := t.output ++ [.payload payload] }, .idle)
      else ({ t with requestQueue := rest }, .popped request response)

def complete (t : XBDMTransport) (response : RDCPResponse) :
    Option SharedRequest → XBDMTransport × Reading
  | none => (t, .faulted .absent)
  | some request => ({ t with completed := t.completed ++ [(request, response)] }, .idle)

/-- `OnBytesRead` where no other thread comes in between. -/
def onBytesRead (t : XBDMTransport) : XBDMTransport × Reading :=
  match t.parseFront with
  | (t, .parsed request response) =>
    match t.handleResponse request response with
    | (t, .popped request response) => t.writeNextRequest.complete response request
    | handled => handled
  | read => read

end XBDMTransport

end XbdmGdbBridge.Rdcp
