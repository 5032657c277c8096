import XbdmGdbBridge.Gdb.Wire
import XbdmGdbBridge.Proofs.Frames

namespace XbdmGdbBridge.Proofs.Reads
open Gdb Gdb.GDBPacket Gdb.GDBTransport Lib Frames

/-- The packets that await an acknowledgement, and what was sent. -/
structure Queue where
  unacked : List Bytes
  sent : List Sent

def queueOf (t : GDBTransport) : Queue := ⟨t.ackBuffer, t.sent⟩

def Queue.resend (q : Queue) : Queue :=
  { q with sent := q.sent ++ (q.unacked.head?.map Sent.resend).toList }

/-- What a byte of the leading run does to the queue. -/
def Queue.byte (q : Queue) (b : UInt8) : Queue :=
  if b = 0x2b then { q with unacked := q.unacked.tail }
  else if b = 0x2d then q.resend
  else q

theorem queueOf_ackReceived (t : GDBTransport) :
    queueOf t.ackReceived = (queueOf t).byte 0x2b := rfl

theorem Queue.byte_interrupt (q : Queue) : q.byte kInterrupt = q := rfl

theorem queueOf_resendRequested (t : GDBTransport) :
    queueOf t.resendRequested = (queueOf t).byte 0x2d := by
  obtain ⟨_, _, _, acks, _, _⟩ := t
  cases acks <;> simp [queueOf, resendRequested, Queue.byte, Queue.resend]

theorem resendRequested_eq (t : GDBTransport) :
    t.resendRequested = { t with sent := (queueOf t.resendRequested).sent } := by
  obtain ⟨_, _, _, acks, _, _⟩ := t
  cases acks <;> rfl

theorem leadingRun_spec (t : GDBTransport) (r : Bytes) :
    t.leadingRun r =
      let q := (r.takeWhile isRun).foldl Queue.byte (queueOf t)
      ((r.takeWhile isRun).length,
        { t with
          ackBuffer := q.unacked
          sent := q.sent
          unescapedReadBuffer :=
            t.unescapedReadBuffer ++ (r.takeWhile isRun).filter (fun b => !isAck b) }) := by
  induction r generalizing t with
  | nil => simp [leadingRun, queueOf]
  | cons b r ih =>
    by_cases hp : b = 0x2b
    · subst b
      simp only [leadingRun, ↓reduceIte, ih, queueOf_ackReceived]
      simp [isRun, isAck, ackReceived]
    · by_cases hm : b = 0x2d
      · subst b
        simp only [leadingRun, ih, queueOf_resendRequested]
        rw [resendRequested_eq]
        simp [isRun, isAck]
      · by_cases hi : b = kInterrupt
        · subst b
          have hr : isRun kInterrupt = true := by decide
          have ha : isAck kInterrupt = false := by decide
          simp only [leadingRun, hp, hm, ↓reduceIte, ih, List.takeWhile_cons, hr, List.foldl_cons,
            Queue.byte_interrupt, List.length_cons, List.filter_cons, ha]
          simp [queueOf]
        · simp [leadingRun, hp, hm, hi, isRun, isAck, queueOf]

theorem unescapeBuffer_plain (h : kPacketEscapeChar ∉ s) : unescapeBuffer s = (s.length, s) := by
  induction s with
  | nil => rfl
  | cons b s ih =>
    have hb : b ≠ kPacketEscapeChar := fun he => h (he ▸ List.mem_cons_self)
    have hs := ih (fun hm => h (List.mem_cons_of_mem _ hm))
    cases s with
    | nil => simp [unescapeBuffer, hb]
    | cons x s => simp [unescapeBuffer, hb, hs]

/-- Between reads: nothing is held back for unescaping and no packet is
complete in the unescaped buffer. -/
structure Settled (t : GDBTransport) : Prop where
  empty : t.readBuffer = []
  stuck : packets.Stuck t.unescapedReadBuffer

theorem stuck_of_none (h : nextPacket last u = none) : packets.Stuck u := by
  rcases nextPacket_cases u with ⟨rest, rfl⟩ | ⟨_, hn | ⟨junk, body, c₁, c₂, rest, rfl, hh, hj, hb⟩⟩
  · simp [nextPacket_interrupt] at h
  · exact hn
  · rw [nextPacket_frame _ _ _ _ hh hj hb] at h
    cases hc : checksumValue c₁ c₂ <;> simp [hc] at h

theorem stuck_rest (last : GDBPacket) (u : Bytes) : packets.Stuck (packets.drain last u).rest :=
  stuck_of_none (packets.drain_rest_none last u)

theorem drop_run (r : Bytes) : r.drop (r.takeWhile isRun).length = r.dropWhile isRun := by
  have he := List.takeWhile_append_dropWhile (p := isRun) (l := r)
  calc r.drop (r.takeWhile isRun).length
      = (r.takeWhile isRun ++ r.dropWhile isRun).drop (r.takeWhile isRun).length := by rw [he]
    _ = r.dropWhile isRun := List.drop_left

theorem receive_plain {t : GDBTransport} (ht : Settled t) (hr : kPacketEscapeChar ∉ r) :
    t.receive r =
      let q := (r.takeWhile isRun).foldl Queue.byte (queueOf t)
      let d := packets.drain {} (t.unescapedReadBuffer ++ strip r)
      { t with
        ackBuffer := q.unacked
        unescapedReadBuffer := d.rest
        sent := q.sent ++ if t.noAckMode then [] else d.items.map (fun _ => .ack)
        received := t.received ++ d.items } := by
  obtain ⟨noAck, read, u, acks, sent, received⟩ := t
  obtain ⟨he, hstuck⟩ := ht
  simp only at he hstuck
  subst read
  have hd : kPacketEscapeChar ∉ r.dropWhile isRun :=
    fun hm => hr ((List.dropWhile_suffix _).mem hm)
  have hle : ¬ (r.takeWhile isRun).length > r.length :=
    Nat.not_lt.mpr (List.takeWhile_prefix _).length_le
  simp only [receive, List.nil_append, onBytesRead, leadingRun_spec, shiftReadBuffer, hle,
    ↓reduceIte, drop_run, unescapeBuffer_plain hd, gt_iff_lt, Nat.lt_irrefl, List.drop_length,
    List.append_assoc]
  change (if (u ++ strip r).length = u.length then _ else _) = _
  split
  · rename_i hl
    have hs : strip r = [] := by
      apply List.length_eq_zero_iff.mp
      simp only [List.length_append] at hl
      omega
    rw [hs, List.append_nil, Extractor.drain_stuck hstuck]
    have hx := hs
    rw [strip] at hx
    simp [hx, queueOf]
  · simp only [processUnescapedReadBuffer, processLoop_drain]
    rfl

theorem settled_fresh : Settled {} := ⟨rfl, fun _ => rfl⟩

theorem Settled.receive {t : GDBTransport} (ht : Settled t) (hr : kPacketEscapeChar ∉ r) :
    Settled (t.receive r) := by
  rw [receive_plain ht hr]
  exact ⟨ht.empty, stuck_rest _ _⟩

theorem receiveAll_append (t : GDBTransport) (a b : List Bytes) :
    t.receiveAll (a ++ b) = (t.receiveAll a).receiveAll b := by
  simp [receiveAll]

theorem Settled.receiveAll {t : GDBTransport} (ht : Settled t)
    (hr : kPacketEscapeChar ∉ reads.flatten) : Settled (t.receiveAll reads) := by
  induction reads generalizing t with
  | nil => exact ht
  | cons r reads ih =>
    simp only [List.flatten_cons, List.mem_append, not_or] at hr
    exact ih (ht.receive hr.1) hr.2

theorem strip_ack (h : isAck b = true) : strip (b :: r) = strip r := by
  simp [strip, isRun, h]

theorem strip_interrupt (r : Bytes) : strip (kInterrupt :: r) = kInterrupt :: strip r := by
  have hr : isRun kInterrupt = true := by decide
  have ha : isAck kInterrupt = false := by decide
  simp [strip, hr, ha]

theorem strip_other (h : isRun b = false) : strip (b :: r) = b :: r := by
  simp [strip, h]

/-- A further byte counts, unless it is an acknowledgement and nothing but the
leading run came before it. -/
theorem strip_snoc (p : Bytes) (b : UInt8) :
    strip (p ++ [b]) = if p.all isRun && isAck b then strip p else strip p ++ [b] := by
  induction p with
  | nil =>
    by_cases ha : isAck b = true
    · simp [strip, isRun, ha]
    · by_cases hi : b = kInterrupt
      · subst b
        rfl
      · simp [strip, isRun, ha, hi]
  | cons x p ih =>
    rw [List.cons_append]
    by_cases ha : isAck x = true
    · rw [strip_ack ha, strip_ack ha, ih]
      simp [isRun, ha]
    · by_cases hi : x = kInterrupt
      · subst x
        have hr : isRun kInterrupt = true := by decide
        rw [strip_interrupt, strip_interrupt, ih]
        simp only [List.all_cons, hr, Bool.true_and]
        split <;> rfl
      · have hr : isRun x = false := by simp [isRun, ha, hi]
        rw [strip_other hr, strip_other hr]
        simp [hr]

theorem strip_append (p q : Bytes) : strip p <+: strip (p ++ q) := by
  induction q using List.reverseRecOn with
  | nil => simp
  | append_singleton q b ih =>
    rw [← List.append_assoc, strip_snoc]
    split
    · exact ih
    · exact ih.trans (List.prefix_append _ _)

/-- A transport in the middle of a read: whether the leading run still lasts,
the reused packet, the unescaped buffer and the packets handed over. -/
structure Live where
  run : Bool
  last : GDBPacket
  buf : Bytes
  out : List GDBPacket

namespace Live

def ofTransport (t : GDBTransport) : Live := ⟨true, {}, t.unescapedReadBuffer, t.received⟩

def feed (l : Live) (b : UInt8) : Live :=
  let d := packets.drain l.last (l.buf ++ [b])
  { l with last := d.state, buf := d.rest, out := l.out ++ d.items }

def byte (l : Live) (b : UInt8) : Live :=
  if l.run && isAck b then l else { l.feed b with run := l.run && b == kInterrupt }

theorem foldl_feed (v : Bytes) {l : Live} (hl : packets.Stuck l.buf) :
    v.foldl feed l =
      { l with
        last := (packets.drain l.last (l.buf ++ v)).state
        buf := (packets.drain l.last (l.buf ++ v)).rest
        out := l.out ++ (packets.drain l.last (l.buf ++ v)).items } := by
  induction v generalizing l with
  | nil => simp [Extractor.drain_stuck hl]
  | cons b v ih =>
    rw [List.foldl_cons, ih (stuck_rest _ _), Extractor.drain_cons]
    simp [feed]

theorem foldl_feed_run (v : Bytes) (l : Live) (run : Bool) :
    v.foldl feed { l with run := run } = { v.foldl feed l with run := run } := by
  induction v generalizing l with
  | nil => rfl
  | cons b v ih => exact ih (l.feed b)

theorem foldl_byte_done (v : Bytes) {l : Live} (hl : l.run = false) :
    v.foldl byte l = v.foldl feed l := by
  induction v generalizing l with
  | nil => rfl
  | cons b v ih =>
    have hb : l.byte b = l.feed b := by simp [byte, feed, hl]
    rw [List.foldl_cons, List.foldl_cons, hb, ih (l := l.feed b) hl]

theorem foldl_byte (r : Bytes) {l : Live} (hl : l.run = true) :
    r.foldl byte l = { (strip r).foldl feed l with run := r.all isRun } := by
  induction r generalizing l with
  | nil => simp [strip, ← hl]
  | cons b r ih =>
    rw [List.foldl_cons]
    by_cases ha : isAck b = true
    · have hb : l.byte b = l := by simp [byte, hl, ha]
      rw [hb, ih hl, strip_ack ha]
      simp [isRun, ha]
    · by_cases hi : b = kInterrupt
      · subst b
        have hb : l.byte kInterrupt = l.feed kInterrupt := by simp [byte, feed, hl, ha]
        have hr : isRun kInterrupt = true := by decide
        rw [hb, ih (l := l.feed kInterrupt) hl, strip_interrupt, List.foldl_cons]
        simp [hr]
      · have hr : isRun b = false := by simp [isRun, ha, hi]
        have hb : l.byte b = { l.feed b with run := false } := by simp [byte, hi, ha]
        rw [hb, foldl_byte_done r rfl, strip_other hr, List.foldl_cons, foldl_feed_run]
        simp [hr]

variable {l : Live} {b c₁ : UInt8} {junk data : Bytes}

theorem feed_stuck (h : packets.Stuck (l.buf ++ [b])) :
    l.feed b = { l with buf := l.buf ++ [b] } := by
  simp [feed, Extractor.drain_stuck h]

theorem feed_interrupt (h : l.buf = []) :
    l.feed kInterrupt = { l with buf := [], out := l.out ++ [interruptPacket] } := by
  have hn : packets.next l.last [kInterrupt] = some ⟨1, interruptPacket, l.last⟩ :=
    nextPacket_interrupt l.last []
  have he : packets.drain l.last [] = ⟨[], l.last, []⟩ := Extractor.drain_none rfl
  simp [feed, Extractor.drain_some hn, h, he]

/-- The second checksum character completes a frame with a number. -/
theorem feed_number (hbuf : l.buf = junk ++ kPacketLeader :: (data ++ kPacketTrailer :: [c₁]))
    (hh : junk.head? ≠ some kInterrupt) (hj : kPacketLeader ∉ junk) (hd : kPacketTrailer ∉ data)
    (hc : checksumValue c₁ b = some sum) :
    l.feed b = { l with last := ofFrame data sum, buf := [], out := l.out ++ [ofFrame data sum] } := by
  have hb : l.buf ++ [b] = junk ++ kPacketLeader :: (data ++ kPacketTrailer :: c₁ :: b :: []) := by
    simp [hbuf]
  have hn := nextPacket_frame l.last c₁ b [] hh hj hd
  rw [hc, ← hb] at hn
  have hdrop : (l.buf ++ [b]).drop (junk.length + data.length + 4) = [] := by
    apply List.drop_eq_nil_of_le
    simp only [hb, List.length_append, List.length_cons, List.length_nil]
    omega
  have he : packets.drain (ofFrame data sum) [] = ⟨[], ofFrame data sum, []⟩ :=
    Extractor.drain_none rfl
  simp [feed, Extractor.drain_some (x := packets) hn, hdrop, he]

/-- Without a number the reused packet is handed over again and both checksum
characters stay in the buffer. -/
theorem feed_noNumber (hbuf : l.buf = junk ++ kPacketLeader :: (data ++ kPacketTrailer :: [c₁]))
    (hh : junk.head? ≠ some kInterrupt) (hj : kPacketLeader ∉ junk) (hd : kPacketTrailer ∉ data)
    (hc : checksumValue c₁ b = none) :
    l.feed b = (feed { l with buf := [], out := l.out ++ [l.last] } c₁).feed b := by
  have hb : l.buf ++ [b] = junk ++ kPacketLeader :: (data ++ kPacketTrailer :: c₁ :: b :: []) := by
    simp [hbuf]
  have hn := nextPacket_frame l.last c₁ b [] hh hj hd
  rw [hc, ← hb] at hn
  have hdrop : (l.buf ++ [b]).drop (junk.length + data.length + 2) = [c₁, b] := by
    have he : junk ++ kPacketLeader :: (data ++ kPacketTrailer :: c₁ :: b :: []) =
        (junk ++ kPacketLeader :: (data ++ [kPacketTrailer])) ++ [c₁, b] := by simp
    have hlen : junk.length + data.length + 2 =
        (junk ++ kPacketLeader :: (data ++ [kPacketTrailer])).length := by
      simp only [List.length_append, List.length_cons, List.length_nil]
      omega
    rw [hb, he, hlen, List.drop_left]
  have hs : packets.Stuck ([] : Bytes) := fun _ => rfl
  have hf := foldl_feed [c₁, b] (l := { l with buf := [], out := l.out ++ [l.last] }) hs
  simp only [List.foldl_cons, List.foldl_nil, List.nil_append] at hf
  rw [hf]
  simp [feed, Extractor.drain_some (x := packets) hn, hdrop]

end Live

/-- A read is the bytes of the read taken in one after another. -/
theorem receive_bytes {t : GDBTransport} (ht : Settled t) (hr : kPacketEscapeChar ∉ r) :
    (t.receive r).received = (r.foldl Live.byte (.ofTransport t)).out ∧
      (t.receive r).unescapedReadBuffer = (r.foldl Live.byte (.ofTransport t)).buf := by
  rw [receive_plain ht hr, Live.foldl_byte r (l := .ofTransport t) rfl,
    Live.foldl_feed (strip r) (l := .ofTransport t) ht.stuck]
  exact ⟨rfl, rfl⟩

/-- What holds of a fresh transport, survives the beginning of a read and every
byte of one, holds after any sequence of reads. -/
theorem receiveAll_invariant {I : Bytes → Live → Prop} (start : I [] ⟨true, {}, [], []⟩)
    (begin : ∀ p l, I p l → I p ⟨true, {}, l.buf, l.out⟩)
    (step : ∀ p l b, I p l → I (p ++ [b]) (l.byte b))
    (hr : kPacketEscapeChar ∉ reads.flatten) :
    I reads.flatten (.ofTransport (receiveAll {} reads)) := by
  have bytes : ∀ (r p : Bytes) (l : Live), I p l → I (p ++ r) (r.foldl Live.byte l) := by
    intro r
    induction r with
    | nil => intro p l h; simpa using h
    | cons b r ih =>
      intro p l h
      simpa using ih (p ++ [b]) (l.byte b) (step p l b h)
  induction reads using List.reverseRecOn with
  | nil => exact start
  | append_singleton reads r ih =>
    simp only [List.flatten_append, List.flatten_cons, List.flatten_nil, List.append_nil,
      List.mem_append, not_or] at hr ⊢
    have hsettled := settled_fresh.receiveAll hr.1
    obtain ⟨hout, hbuf⟩ := receive_bytes hsettled hr.2
    have h := begin _ _ (bytes r _ _ (ih hr.1))
    rw [← hout, ← hbuf] at h
    rw [receiveAll_append]
    exact h

end XbdmGdbBridge.Proofs.Reads
