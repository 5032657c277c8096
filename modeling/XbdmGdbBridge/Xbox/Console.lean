import XbdmGdbBridge.Rdcp.ThreadContext

/-!
# A target with registers

An endpoint that keeps what it is sent as the context of a thread and answers with it. It may refuse
requests, which then have no effect.
-/

namespace XbdmGdbBridge

open Rdcp

structure Console where
  /-- The text of a thread's general registers. -/
  registers : UInt32 → Bytes
  /-- The bytes of a thread's floating-point state. -/
  floats : UInt32 → Bytes
  refuses : Request → Bool := fun _ => false

namespace Console

/-- What `GetContext` makes of the text it is answered with. -/
def readContext (text : Bytes) : ThreadContext :=
  match RDCPMapResponse.ofText text with
  | .ok parsed => ThreadContext.parse parsed
  | .error _ => {}

def grant (r : Request) (s : Console) : Reply × Console :=
  let reply : Reply := { status := r.success }
  match r with
  | .getContext thread => ({ reply with context := readContext (s.registers thread) }, s)
  | .getExtContext thread =>
    ({ reply with floatContext := ThreadFloatContext.parse (s.floats thread) {} }, s)
  | .setContext thread context =>
    (reply, { s with registers := Function.update s.registers thread context.serialize })
  | .setFloatContext thread context =>
    (reply, { s with floats := Function.update s.floats thread context.serialize })
  | _ => (reply, s)

instance : Xbdm Console where
  answer r s := if s.refuses r then ({ status := .errNotConnected }, s) else grant r s
  announces _ s := (false, s)

end Console

end XbdmGdbBridge
