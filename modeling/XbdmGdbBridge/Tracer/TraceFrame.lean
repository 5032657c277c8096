import XbdmGdbBridge.Tracer.FrameCapture

/-!
# The end of a trace

Once the target has processed a trace request, `TraceFrame` fetches what is left: PGRAPH data, then
auxiliary data. The control of these loops depends on the replies and on the flag `request_failed_`,
which a notification may set at any time; what is done with the data does not matter to it.
-/

namespace XbdmGdbBridge.NTRCTracer.Tracer

open FrameCapture

/-- What the rest of the trace meets: the replies in order, and after how many of them the flag
`request_failed_` is set, if it is. -/
structure Remainder where
  reply : Nat → Answer
  failsAfter : Option Nat := none

namespace Remainder

variable (r : Remainder)

/-- The flag as it is read behind `n` replies. -/
def requestFailed (n : Nat) : Bool :=
  r.failsAfter.any (· ≤ n)

/-- The result of `FetchPGRAPHTraceData`. -/
def fetchPGRAPH (n : Nat) : FetchResult :=
  match r.reply n with
  | .dataNotAvailable => .noDataAvailable
  | .failed => .error
  | .ok data => if data = [] then .noDataAvailable else .dataFetched

/-- The result of `FetchAuxTraceData`, and how many replies there have been behind it. -/
def fetchAux (hasFetchedData : Bool) : Nat → Nat → Option (FetchResult × Nat)
  | 0, _ => none
  | fuel + 1, n =>
    let done := if hasFetchedData then FetchResult.dataFetched else .noDataAvailable
    match r.reply n with
    | .dataNotAvailable => some (done, n + 1)
    | .failed => some (.error, n + 1)
    | .ok data => if data = [] then some (done, n + 1) else fetchAux true fuel (n + 1)

/-- The first loop, begun behind `n` replies. An error is only logged. -/
def drainPGRAPH : Nat → Nat → Option Nat
  | 0, _ => none
  | fuel + 1, n =>
    if r.requestFailed n then some n
    else
      match r.fetchPGRAPH n with
      | .noDataAvailable => some (n + 1)
      | .error => drainPGRAPH fuel (n + 1)
      | .dataFetched => drainPGRAPH fuel (n + 1)

/-- The second loop. -/
def drainAux : Nat → Nat → Option Nat
  | 0, _ => none
  | fuel + 1, n =>
    if r.requestFailed n then some n
    else
      match r.fetchAux false fuel n with
      | none => none
      | some (.noDataAvailable, n) => some n
      | some (.error, n) => drainAux fuel n
      | some (.dataFetched, n) => drainAux fuel n

/-- Both loops, with as many turns as the fuel allows. -/
def drain (fuel : Nat) : Option Nat := do
  drainAux r fuel (← drainPGRAPH r fuel 0)

end Remainder

end XbdmGdbBridge.NTRCTracer.Tracer
