import XbdmGdbBridge.Net.TCPConnection

/-!
# Bytes of a connection
-/

namespace XbdmGdbBridge.Proofs.Connections

open Networking TCPConnection

variable {c : TCPConnection}

/-- Both directions pass on what they get, in order and once. A connection that waits for its buffer
to be flushed is not closed before that. -/
structure Delivers (c : TCPConnection) : Prop where
  sending : c.taken ++ c.writeBuffer = c.given
  receiving : c.shifted ++ c.readBuffer = c.received
  flushed : ∀ e ∈ [ConnectionEvent.flushAndClose, .checkFlushed],
    (c.step e).isShutdown = c.isShutdown ∨ c.taken = c.given

theorem Delivers.of_buffers (hsending : c.taken ++ c.writeBuffer = c.given)
    (hreceiving : c.shifted ++ c.readBuffer = c.received) : Delivers c where
  sending := hsending
  receiving := hreceiving
  flushed := by
    have hall (h : c.writeBuffer = []) : c.taken = c.given := by rw [← hsending, h, List.append_nil]
    intro e he
    simp only [List.mem_cons, List.not_mem_nil, or_false] at he
    obtain rfl | rfl := he
    · rw [step]
      split
      next h => exact .inr (hall h)
      next => exact .inl rfl
    · rw [step]
      split
      next h => exact .inr (hall h.2)
      next => exact .inl rfl

theorem Delivers.step (h : Delivers c) (e : ConnectionEvent) : Delivers (c.step e) := by
  obtain ⟨hsending, hreceiving, -⟩ := h
  cases e with
  | send buffer => exact .of_buffers (by simp [TCPConnection.step, ← hsending]) hreceiving
  | close => exact .of_buffers hsending hreceiving
  | flushAndClose | checkFlushed =>
    rw [TCPConnection.step]
    split <;> exact .of_buffers hsending hreceiving
  | doSend bytesSent =>
    rw [TCPConnection.step]
    split
    · exact .of_buffers hsending hreceiving
    · exact .of_buffers (by simp [← hsending]) hreceiving
  | doReceive buffer =>
    rw [TCPConnection.step]
    split
    · exact .of_buffers hsending hreceiving
    split
    · exact .of_buffers hsending hreceiving
    · exact .of_buffers hsending (by simp [← hreceiving])
  | shiftReadBuffer shiftBytes =>
    rw [TCPConnection.step]
    split
    · exact .of_buffers hsending hreceiving
    · exact .of_buffers hsending (by simp [← hreceiving])

end XbdmGdbBridge.Proofs.Connections
