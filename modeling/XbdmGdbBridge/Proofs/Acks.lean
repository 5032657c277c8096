import XbdmGdbBridge.Proofs.Reads
import XbdmGdbBridge.Proofs.Wire

namespace XbdmGdbBridge.Proofs.Acks
open Gdb Gdb.GDBPacket Gdb.GDBTransport Lib Frames Reads WireShape

/-- What the remote protocol makes of the bytes of a read: an acknowledgement
or a resend request counts wherever it stands outside a frame. -/
def follow (w : Wire) (q : Queue) : Bytes → Queue
  | [] => q
  | b :: r => follow (w.step b) (if w.pos.inFrame then q else q.byte b) r

def sendTo (q : Queue) (p : GDBPacket) : Queue :=
  ⟨q.unacked ++ [p.serialize], q.sent ++ [.packet p.serialize]⟩

/-- No acknowledgement character stands outside a frame. -/
def quiet (w : Wire) : Bytes → Bool
  | [] => true
  | b :: r => (w.pos.inFrame || !isAck b) && quiet (w.step b) r

/-- The leading run of the read holds exactly its acknowledgement characters
outside frames. -/
structure ReadOk (w : Wire) (r : Bytes) : Prop where
  plain : kPacketEscapeChar ∉ r
  kept : w.pos.inFrame = true → (r.takeWhile isRun).any isAck = false
  led : quiet (w.run (r.takeWhile isRun)) (r.dropWhile isRun) = true

/-- The transports a fresh one becomes by sends and such reads, with the bytes
received so far and the queue they ask for. -/
inductive Reached : Bytes → Queue → GDBTransport → Prop where
  | fresh : Reached [] ⟨[], []⟩ {}
  | send (p : GDBPacket) (h : Reached s q t) : Reached s (sendTo q p) (t.send p)
  | read (h : Reached s q t) (ok : ReadOk (Wire.run {} s) r) :
      Reached (s ++ r) (follow (Wire.run {} s) q r) (t.receive r)

/-- The queue holds the packets not yet acknowledged, and packets and resends
went out in the order asked for. -/
def QueueExact (q : Queue) (t : GDBTransport) : Prop :=
  t.ackBuffer = q.unacked ∧ t.sent.filter (· != .ack) = q.sent

variable {w : Wire} {q : Queue} {b : UInt8} {v r : Bytes}

theorem byte_other (hb : isAck b = false) : q.byte b = q := by
  simp only [isAck, Bool.or_eq_false_iff, beq_eq_false_iff_ne] at hb
  simp [Queue.byte, hb]

theorem follow_append (w : Wire) (q : Queue) (a c : Bytes) :
    follow w q (a ++ c) = follow (w.run a) (follow w q a) c := by
  induction a generalizing w q with
  | nil => rfl
  | cons b a ih => exact ih (w.step b) _

theorem follow_quiet (h : quiet w v = true) : follow w q v = q := by
  induction v generalizing w with
  | nil => rfl
  | cons b v ih =>
    simp only [quiet, Bool.and_eq_true, Bool.or_eq_true, Bool.not_eq_true'] at h
    have hq : (if w.pos.inFrame then q else q.byte b) = q := by
      rcases h.1 with hin | hb
      · rw [if_pos hin]
      · rw [byte_other hb, ite_self]
    rw [follow, hq]
    exact ih h.2

theorem follow_no_acks (hv : v.any isAck = false) : follow w q v = q := by
  induction v generalizing w with
  | nil => rfl
  | cons b v ih =>
    simp only [List.any_cons, Bool.or_eq_false_iff] at hv
    rw [follow, byte_other hv.1, ite_self]
    exact ih hv.2

theorem foldl_no_acks (hv : v.any isAck = false) : v.foldl Queue.byte q = q := by
  induction v with
  | nil => rfl
  | cons b v ih =>
    simp only [List.any_cons, Bool.or_eq_false_iff] at hv
    rw [List.foldl_cons, byte_other hv.1]
    exact ih hv.2

/-- A leading run between frames counts as a whole. -/
theorem follow_run (hp : w.pos.inFrame = false) (hv : v.all isRun = true) :
    follow w q v = v.foldl Queue.byte q := by
  induction v generalizing w q with
  | nil => rfl
  | cons b v ih =>
    simp only [List.all_cons, Bool.and_eq_true] at hv
    rw [follow, hp, List.foldl_cons]
    exact ih (step_stays_outside hp hv.1) hv.2

/-- Such a read asks for what the transport takes from its leading run. -/
theorem follow_read (hr : ReadOk w r) :
    follow w q r = (r.takeWhile isRun).foldl Queue.byte q := by
  have hsplit : follow w q r =
      follow (w.run (r.takeWhile isRun)) (follow w q (r.takeWhile isRun)) (r.dropWhile isRun) := by
    rw [← follow_append, List.takeWhile_append_dropWhile]
  rw [hsplit, follow_quiet hr.led]
  by_cases hp : w.pos.inFrame = true
  · rw [follow_no_acks (hr.kept hp), foldl_no_acks (hr.kept hp)]
  · exact follow_run (by simpa using hp) List.all_takeWhile

/-- A queue without the acknowledgements the transport sends itself. -/
def withoutAcks (q : Queue) : Queue := { q with sent := q.sent.filter (· != .ack) }

theorem withoutAcks_byte (q : Queue) (b : UInt8) :
    withoutAcks (q.byte b) = (withoutAcks q).byte b := by
  obtain ⟨unacked, sent⟩ := q
  unfold Queue.byte
  split
  · rfl
  · split
    · cases unacked <;> simp [withoutAcks, Queue.resend]
    · rfl

theorem withoutAcks_foldl (v : Bytes) (q : Queue) :
    withoutAcks (v.foldl Queue.byte q) = v.foldl Queue.byte (withoutAcks q) := by
  induction v generalizing q with
  | nil => rfl
  | cons b v ih => rw [List.foldl_cons, List.foldl_cons, ih, withoutAcks_byte]

theorem queueExact_iff (q : Queue) (t : GDBTransport) :
    QueueExact q t ↔ withoutAcks (queueOf t) = q := by
  obtain ⟨unacked, sent⟩ := q
  simp [QueueExact, withoutAcks, queueOf]

theorem receive_queue {t : GDBTransport} (ht : Settled t) (hr : kPacketEscapeChar ∉ r) :
    withoutAcks (queueOf (t.receive r)) =
      (r.takeWhile isRun).foldl Queue.byte (withoutAcks (queueOf t)) := by
  rw [receive_plain ht hr, ← withoutAcks_foldl]
  simp only [withoutAcks, queueOf, List.filter_append, Queue.mk.injEq, true_and]
  split
  · simp
  · simp

theorem reached_settled (h : Reached s q t) : Settled t := by
  induction h with
  | fresh => exact settled_fresh
  | send p h ih => exact ⟨ih.empty, ih.stuck⟩
  | read h ok ih => exact ih.receive ok.plain

/-- In every run of sends and such reads the queue is what the acknowledgements
outside frames leave of it. -/
theorem reached_queueExact (h : Reached s q t) : QueueExact q t := by
  induction h with
  | fresh => exact ⟨rfl, rfl⟩
  | send p h ih =>
    obtain ⟨hq, hs⟩ := ih
    refine ⟨?_, ?_⟩
    · rw [GDBTransport.send, sendTo, hq]
    · simp [GDBTransport.send, sendTo, hs]
  | read h ok ih =>
    rw [queueExact_iff] at ih ⊢
    rw [receive_queue (reached_settled h) ok.plain, ih, follow_read ok]

/-- A sent packet, a resend request and its acknowledgement in front of a frame. -/
theorem reached_acknowledged :
    QueueExact (follow {} (sendTo ⟨[], []⟩ (.ofData (ascii "OK"))) (ascii "-+$g#67"))
      ((({} : GDBTransport).send (.ofData (ascii "OK"))).receive (ascii "-+$g#67")) := by
  refine reached_queueExact (.read (.send _ .fresh) ?_)
  exact ⟨by decide, by decide, by decide⟩

/-- An acknowledgement behind a frame of the same read is not seen: the packet
stays in the queue. -/
theorem not_queueExact_behind_frame :
    ¬ QueueExact (follow {} (sendTo ⟨[], []⟩ (.ofData (ascii "OK"))) (ascii "$g#67+"))
      ((({} : GDBTransport).send (.ofData (ascii "OK"))).receive (ascii "$g#67+")) := by
  intro h
  exact absurd h.1 (by decide)

end XbdmGdbBridge.Proofs.Acks
