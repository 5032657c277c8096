import XbdmGdbBridge.Lib.Program
import XbdmGdbBridge.Xbox.Target

/-!
# Frame captures

`FrameCapture` collects what the tracer on the target sends: PGRAPH commands with their parameters,
and auxiliary dumps. Both arrive as streams of packed structures, cut into fetches anywhere.
-/

namespace XbdmGdbBridge.NTRCTracer

open Lib CText

/-- A `uint32_t` of a packed structure. -/
def uint32At (data : Bytes) (offset : Nat) : UInt32 :=
  UInt32.ofNat (Nat.ofDigits 256 (((data.drop offset).take 4).map UInt8.toNat))

structure PushBufferCommand where
  valid : UInt32
  nonIncreasing : UInt32
  method : UInt32
  subchannel : UInt32
  parameterCount : UInt32
deriving DecidableEq, Repr

/-- The parameters in place; the first word doubles as `data_id`. -/
structure PushBufferCommandParameters where
  dataState : UInt32
  dataId : UInt32
  second : UInt32
  third : UInt32
  fourth : UInt32
deriving DecidableEq, Repr

def PushBufferCommandParameters.buffer (p : PushBufferCommandParameters) : List UInt32 :=
  [p.dataId, p.second, p.third, p.fourth]

structure PushBufferCommandTraceInfo where
  valid : UInt32
  packetIndex : UInt32
  drawIndex : UInt32
  surfaceDumpIndex : UInt32
  command : PushBufferCommand
  address : UInt32
  graphicsClass : UInt32
  data : PushBufferCommandParameters
  subroutineReturnAddress : UInt32
deriving DecidableEq, Repr

def PBCPDS_SMALL_BUFFER : UInt32 := 1
def PBCPDS_HEAP_BUFFER : UInt32 := 2

namespace PushBufferCommandTraceInfo

/-- `sizeof(PushBufferCommandTraceInfo)`. -/
def size : Nat := 68

/-- The structure at the front of the bytes. -/
def ofBytes (b : Bytes) : PushBufferCommandTraceInfo where
  valid := uint32At b 0
  packetIndex := uint32At b 4
  drawIndex := uint32At b 8
  surfaceDumpIndex := uint32At b 12
  command := {
    valid := uint32At b 16
    nonIncreasing := uint32At b 20
    method := uint32At b 24
    subchannel := uint32At b 28
    parameterCount := uint32At b 32 }
  address := uint32At b 36
  graphicsClass := uint32At b 40
  data := {
    dataState := uint32At b 44
    dataId := uint32At b 48
    second := uint32At b 52
    third := uint32At b 56
    fourth := uint32At b 60 }
  subroutineReturnAddress := uint32At b 64

/-- Whether parameters follow the packet in the stream. -/
def hasHeapParameters (p : PushBufferCommandTraceInfo) : Bool :=
  p.command.valid != 0 && p.data.dataState == PBCPDS_HEAP_BUFFER && p.command.parameterCount != 0

def withDataId (p : PushBufferCommandTraceInfo) (id : UInt32) : PushBufferCommandTraceInfo :=
  { p with data := { p.data with dataId := id } }

end PushBufferCommandTraceInfo

section Log

def decimal (n : UInt32) : Bytes :=
  ascii (toString n.toNat)

def hex (n : UInt32) : Bytes :=
  hexText n.toNat

def isSurfaceDumpTrigger (command : UInt32) : Bool :=
  command == 0x1D94 || command == 0x1D70 || command == 0x17FC

variable (packet : PushBufferCommandTraceInfo)

/-- What the `log` function of `LogPacket` writes. -/
def methodText (method : UInt32) (param : Option UInt32) : Bytes :=
  ascii "nv2a_pgraph_method " ++ decimal packet.command.subchannel ++ ascii ": 0x" ++
    hex packet.graphicsClass ++ ascii " -> 0x" ++ hex method ++
    (match param with
      | none => ascii " <NO_DATA>"
      | some value => ascii " 0x" ++ hex value) ++ ascii "\n" ++
    if packet.graphicsClass = 0x97 ∧ isSurfaceDumpTrigger method = true then
      ascii "// Surface dump: frame_draw=" ++ decimal packet.drawIndex ++ ascii " surface_dump=" ++
        decimal packet.surfaceDumpIndex ++ ascii "\n"
    else []

/-- A read through `data`, which may be null; behind the words it leaves the rules of the language. -/
def parameterAt (data : Option (List UInt32)) (i : Nat) : Except Fault (Option UInt32) :=
  match data with
  | none => .ok none
  | some words =>
    match words[i]? with
    | some value => .ok (some value)
    | none => .error .range

/-- The counter of a loop over the parameters is an `int`; one that counts further overflows. -/
def countTo (count : UInt32) : Except Fault Unit :=
  if count.toNat < 2 ^ 31 then .ok () else .error .range

def methodTexts (data : Option (List UInt32)) : Except Fault Bytes := do
  let texts ← (List.range packet.command.parameterCount.toNat).mapM fun i => do
    let param ← parameterAt data i
    let step : UInt32 := if packet.command.nonIncreasing = 0 then 4 else 0
    return methodText packet (packet.command.method + step * UInt32.ofNat i) param
  countTo packet.command.parameterCount
  return texts.flatten

def parameterTexts (data : Option (List UInt32)) : Except Fault Bytes := do
  let texts ← (List.range packet.command.parameterCount.toNat).mapM fun i => do
    -- The stream still writes hexadecimal numbers here.
    match ← parameterAt data i with
    | none => return []
    | some value =>
      return ascii "    Param[" ++ hexText (i + 1) ++ ascii "]: 0x" ++ hex value ++ ascii "\n"
  if data.isSome then countTo packet.command.parameterCount
  return texts.flatten

def detailedText (data : Option (List UInt32)) : Except Fault Bytes := do
  let parameters ← parameterTexts packet data
  return ascii "  Detailed info:\n    Address: 0x" ++ hex packet.address ++
    ascii "\n    Method: 0x" ++ hex packet.command.method ++ ascii "\n    Non increasing: " ++
    (if packet.command.nonIncreasing = 0 then ascii "FALSE" else ascii "TRUE") ++
    ascii "\n    Subchannel: 0x" ++ hex packet.command.subchannel ++ ascii "\n" ++ parameters ++
    ascii "\n"

/-- What `LogPacket` writes, given where the parameters are. -/
def packetText (verbose : Bool) (data : Option (List UInt32)) : Except Fault Bytes := do
  let methods ← (if packet.command.valid ≠ 0 then methodTexts packet data else .ok [])
  let details ← (if verbose then detailedText packet data else .ok [])
  return methods ++ details

end Log

/-- The part of a capture that PGRAPH packets go to. -/
structure Records where
  pgraphParameterMap : List (UInt32 × List UInt32) := []
  pgraphCommands : List PushBufferCommandTraceInfo := []
  nextFreeId : UInt32 := 0
  nv2aLog : Bytes := []
  verboseLogging : Bool := false
deriving DecidableEq, Repr

namespace Records

/-- `emplace`: an entry that exists stays as it is. -/
def emplace (r : Records) (id : UInt32) (parameters : List UInt32) : Records :=
  if (r.pgraphParameterMap.lookup id).isSome then r
  else { r with pgraphParameterMap := r.pgraphParameterMap ++ [(id, parameters)] }

/-- `operator[]`. -/
def parametersAt (r : Records) (id : UInt32) : List UInt32 :=
  (r.pgraphParameterMap.lookup id).getD []

end Records

/-- The pointer `LogPacket` reads parameters through. The vector that `operator[]` creates has no
storage. -/
def logData (packet : PushBufferCommandTraceInfo) : StateM Records (Option (List UInt32)) := do
  if packet.data.dataState = PBCPDS_SMALL_BUFFER then return some packet.data.buffer
  else if packet.data.dataState = PBCPDS_HEAP_BUFFER then
    modify fun r => r.emplace packet.data.dataId []
    let words := (← get).parametersAt packet.data.dataId
    return if words = [] then none else some words
  else return none

def logPacket (packet : PushBufferCommandTraceInfo) : Program Fault Records Unit := do
  let data ← Program.total (logData packet)
  match packetText packet (← get).verboseLogging data with
  | .error fault => Program.fault fault
  | .ok text => modify fun r => { r with nv2aLog := r.nv2aLog ++ text }

def storePacket (packet : PushBufferCommandTraceInfo) : Program Fault Records Unit := do
  modify fun r => { r with pgraphCommands := r.pgraphCommands ++ [packet] }
  logPacket packet

/-- The `count` words at the front of the bytes. -/
def words (count : Nat) (data : Bytes) : List UInt32 :=
  (List.range count).map fun i => uint32At data (4 * i)

/-- The parameters behind a packet get an id of their own. -/
def assignId (packet : PushBufferCommandTraceInfo) (parameters : List UInt32) :
    Program Fault Records PushBufferCommandTraceInfo := do
  let id := (← get).nextFreeId
  if 0xFFFFFFFF ≤ id then Program.fault .assertion
  else
    modify fun r => { r with nextFreeId := id + 1 }.emplace id parameters
    return packet.withDataId id

/-- The loop of `ProcessPGRAPHBuffer` on the bytes that are not yet consumed. -/
def pgraphLoop : Nat → Bytes → Program Fault Records Bytes
  | 0, rest => pure rest
  | fuel + 1, rest =>
    if rest.length < PushBufferCommandTraceInfo.size then pure rest
    else
      let packet := PushBufferCommandTraceInfo.ofBytes rest
      if packet.hasHeapParameters then
        let count := packet.command.parameterCount
        let additional := (4 * count).toNat
        let behind := rest.drop PushBufferCommandTraceInfo.size
        if rest.length < PushBufferCommandTraceInfo.size + additional then pure rest
        else do
          let packet ← assignId packet (words count.toNat behind)
          -- The size has 32 bits, the range that is copied does not.
          if behind.length < 4 * count.toNat then Program.fault .range
          else do
            storePacket packet
            pgraphLoop fuel (behind.drop additional)
      else do
        storePacket packet
        pgraphLoop fuel (rest.drop PushBufferCommandTraceInfo.size)

structure AuxDataHeader where
  packetIndex : UInt32
  drawIndex : UInt32
  dataType : UInt32
  len : UInt32
deriving DecidableEq, Repr

namespace AuxDataHeader

/-- `sizeof(AuxDataHeader)`. -/
def size : Nat := 16

def ofBytes (b : Bytes) : AuxDataHeader :=
  ⟨uint32At b 0, uint32At b 4, uint32At b 8, uint32At b 12⟩

end AuxDataHeader

/-- The functions that save a dump. -/
inductive AuxHandler where
  | logPGRAPH | logPFB | logRDI | logSurface | logTexture
deriving DecidableEq, Repr

def AuxHandler.of (dataType : UInt32) : Option AuxHandler :=
  if dataType = 0 then some .logPGRAPH
  else if dataType = 1 then some .logPFB
  else if dataType = 2 then some .logRDI
  else if dataType = 3 then some .logSurface
  else if dataType = 4 then some .logTexture
  else none

/-- A call of one of them. The handlers change nothing in the capture. -/
structure AuxCall where
  handler : AuxHandler
  packet : AuxDataHeader
  data : Bytes
deriving DecidableEq, Repr

/-- The `switch` of `ProcessAuxBuffer`; other types are skipped. -/
def auxCall (packet : AuxDataHeader) (data : Bytes) : Option AuxCall :=
  (AuxHandler.of packet.dataType).map fun handler => ⟨handler, packet, data⟩

/-- The loop of `ProcessAuxBuffer` on the bytes that are not yet consumed. -/
def auxLoop : Nat → Bytes → List AuxCall × Bytes
  | 0, rest => ([], rest)
  | fuel + 1, rest =>
    if rest.length < AuxDataHeader.size then ([], rest)
    else
      let packet := AuxDataHeader.ofBytes rest
      if rest.length < AuxDataHeader.size + packet.len.toNat then ([], rest)
      else
        let behind := rest.drop AuxDataHeader.size
        let (calls, left) := auxLoop fuel (behind.drop packet.len.toNat)
        ((auxCall packet (behind.take packet.len.toNat)).toList ++ calls, left)

structure FrameCapture extends Records where
  artifactPath : Bytes := []
  pgraphTraceBuffer : Bytes := []
  auxTraceBuffer : Bytes := []
deriving DecidableEq, Repr

namespace FrameCapture

def records : Part FrameCapture Records where
  read := FrameCapture.toRecords
  write r c := { c with toRecords := r }

def setup (c : FrameCapture) (artifactPath : Bytes) (verbose : Bool) : FrameCapture :=
  { c with
    artifactPath := artifactPath
    verboseLogging := verbose
    nv2aLog := ascii "pgraph method log from nvtrc\n"
    pgraphParameterMap := []
    pgraphCommands := [] }

-- Every turn of the loops consumes a packet, so the length is fuel enough.
def processPGRAPHBuffer : Program Fault FrameCapture Unit := do
  let buffer := (← get).pgraphTraceBuffer
  let rest ← Program.on records (pgraphLoop buffer.length buffer)
  modify fun c => { c with pgraphTraceBuffer := rest }

def processAuxBuffer : StateM FrameCapture (List AuxCall) := do
  let buffer := (← get).auxTraceBuffer
  let (calls, rest) := auxLoop buffer.length buffer
  modify fun c => { c with auxTraceBuffer := rest }
  return calls

/-- The answer to a request for trace data. -/
inductive Answer where
  | ok (data : Bytes)
  | dataNotAvailable
  | failed
deriving DecidableEq, Repr

inductive FetchResult where
  | noDataAvailable | error | dataFetched
deriving DecidableEq, Repr

/-- New bytes at the end of the PGRAPH buffer. -/
def receivePGRAPH (data : Bytes) : Program Fault FrameCapture Unit := do
  modify fun c => { c with pgraphTraceBuffer := c.pgraphTraceBuffer ++ data }
  processPGRAPHBuffer

def receiveAux (data : Bytes) : StateM FrameCapture (List AuxCall) := do
  modify fun c => { c with auxTraceBuffer := c.auxTraceBuffer ++ data }
  processAuxBuffer

def fetchPGRAPHTraceData : Answer → Program Fault FrameCapture FetchResult
  | .dataNotAvailable => return .noDataAvailable
  | .failed => return .error
  | .ok data =>
    if data = [] then return .noDataAvailable
    else do
      receivePGRAPH data
      return .dataFetched

/-- Requests are sent until one has no data; one that is not answered has failed. -/
def fetchAuxTraceData (hasFetchedData : Bool) :
    List Answer → StateM FrameCapture (FetchResult × List AuxCall)
  | [] => return (.error, [])
  | .failed :: _ => return (.error, [])
  | .dataNotAvailable :: _ =>
    return (if hasFetchedData then .dataFetched else .noDataAvailable, [])
  | .ok data :: answers => do
    if data = [] then return (if hasFetchedData then .dataFetched else .noDataAvailable, [])
    else
      let calls ← receiveAux data
      let (result, more) ← fetchAuxTraceData true answers
      return (result, calls ++ more)

end FrameCapture

end XbdmGdbBridge.NTRCTracer
