import XbdmGdbBridge.Rdcp.Requests

/-!
# Requests of the loader

The requests of `dyndxt_requests.h`: commands of a loaded handler, and the images that are sent to
the loader.
-/

namespace XbdmGdbBridge.Loader

open CText Rdcp

/-- Arguments behind a space of their own. -/
def spacedArguments (args : Bytes) : Bytes :=
  if args = [] then [] else ascii " " ++ args

def invokeSimple (command args : Bytes) : RDCPRequest where
  command := command
  data := spacedArguments args

def invokeMultiline (command args : Bytes) : RDCPRequest where
  command := command
  data := spacedArguments args

-- The payload has taken over `binary` when its size is asked for, and a vector that was moved from
-- is empty.
def invokeSendBinary (command binary args : Bytes) : RDCPRequest :=
  let movedFrom : Bytes := []
  { command := command
    data := ascii "length=" ++ sizeText movedFrom ++ spacedArguments args
    binaryPayload := some binary }

def invokeSendKnownSizeBinary (command binary args : Bytes) : RDCPRequest where
  command := command
  data := args
  binaryPayload := some binary

/-- A size of four bytes in front of the data. -/
def sizePrefixed (buffer : Bytes) : Option BinarySize :=
  if buffer.length < 4 then none
  else some ⟨Lib.Memory.value 4 fun a => buffer.getD a 0, 4⟩

def invokeReceiveSizePrefixedBinary (command args : Bytes) : RDCPRequest where
  command := command
  data := args
  binaryResponseSizeParser := some sizePrefixed

def invokeReceiveKnownSizedBinary (command : Bytes) (size : UInt32) (args : Bytes) :
    RDCPRequest where
  command := command
  data := args
  binaryResponseSizeParser := some fun _ => some ⟨size.toNat, 0⟩

def loadDynDXT (dllImage : Bytes) : Except Fault RDCPRequest :=
  if dllImage.length < 0xFFFFFFFF then
    .ok { command := ascii "ddxt!load"
          data := ascii " size=" ++ sizeText dllImage
          binaryPayload := some dllImage }
  else .error .assertion

def installImage (imageBase : UInt32) (buffer : Bytes) (tlsCallbacks : List UInt32)
    (entrypoint : UInt32) : Except Fault RDCPRequest :=
  if tlsCallbacks = [] then
    .ok { command := ascii "ddxt!install"
          data := ascii " base=" ++ hexString imageBase ++ ascii " length=" ++ sizeText buffer ++
            ascii " entrypoint=" ++ hexString entrypoint
          binaryPayload := some buffer }
  else .error .assertion

end XbdmGdbBridge.Loader
