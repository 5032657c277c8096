import XbdmGdbBridge.Proofs.AnswerStream
import XbdmGdbBridge.Rdcp.Transport

/-!
# Lines that are no answers

What `OnBytesRead` does with a line that is not a status line.
-/

namespace XbdmGdbBridge.Proofs

open Lib CText Rdcp RDCPResponse XBDMTransport

variable {t : XBDMTransport} {statusLine rest : Bytes}

section Steps

end Steps

section Lines

end Lines

end XbdmGdbBridge.Proofs
