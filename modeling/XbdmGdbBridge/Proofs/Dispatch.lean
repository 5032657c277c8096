import XbdmGdbBridge.Proofs.Reads
import XbdmGdbBridge.Proofs.Wire

namespace XbdmGdbBridge.Proofs.Dispatch
open Gdb Gdb.GDBPacket Gdb.GDBTransport Lib Frames Reads WireShape CText

/-- The two checksum characters are hexadecimal digits of the body's sum. -/
def goodFrame : Item → Bool
  | .frame data c₁ c₂ =>
    isDigit 16 c₁ && isDigit 16 c₂ && numeral 16 [c₁, c₂] == (mod256Checksum data).toNat
  | _ => true

/-- What may be handed to the packet handler. -/
def acceptable : Item → Bool
  | .ack | .nack => false
  | i => goodFrame i

def packetOf : Item → GDBPacket
  | .frame data _ _ => { data := data, checksum := mod256Checksum data, checksumOk := true }
  | _ => interruptPacket

/-- The packets handed over and the acknowledgements sent belong, one to one
and in order, to interrupts and good frames of the stream. -/
def DispatchesGood (s : Bytes) (t : GDBTransport) : Prop :=
  ∃ taken : List Item, taken.Sublist (Wire.run {} s).items ∧ (∀ i ∈ taken, acceptable i = true) ∧
    t.received = taken.map packetOf ∧ t.sent.count .ack = taken.length

/-- A read that neither carries a bad frame to its end nor begins, inside a
frame, with acknowledgement characters. -/
structure ReadOk (w : Wire) (r : Bytes) : Prop where
  plain : kPacketEscapeChar ∉ r
  kept : w.pos.inFrame = true → (r.takeWhile isRun).any isAck = false
  good : ∀ i ∈ (w.run r).items, goodFrame i = true

/-- The transports a fresh one becomes by such reads, with all bytes so far. -/
inductive Reached : Bytes → GDBTransport → Prop where
  | fresh : Reached [] {}
  | read (h : Reached s t) (ok : ReadOk (Wire.run {} s) r) : Reached (s ++ r) (t.receive r)

/-- The unescaped buffer behind the filler is what the frame has so far. -/
def Holds : Pos → Bytes → Prop
  | .gap _, buf => kPacketLeader ∉ buf ∧ buf.head? ≠ some kInterrupt
  | .body _ data, buf => ∃ junk, buf = junk ++ kPacketLeader :: data ∧
      kPacketLeader ∉ junk ∧ junk.head? ≠ some kInterrupt
  | .trailer _ data first, buf =>
    ∃ junk, buf = junk ++ kPacketLeader :: (data ++ kPacketTrailer :: first.toList) ∧
      kPacketLeader ∉ junk ∧ junk.head? ≠ some kInterrupt

/-- The packets handed over belong to items of the stream. -/
def Taken (w : Wire) (out : List GDBPacket) : Prop :=
  ∃ taken : List Item, taken.Sublist w.items ∧ (∀ i ∈ taken, acceptable i = true) ∧ out = taken.map packetOf

structure Follows (w : Wire) (l : Live) : Prop where
  well : Well w.pos
  holds : Holds w.pos l.buf
  taken : Taken w l.out

variable {w w' : Wire} {l : Live} {b c₁ c₂ : UInt8} {data : Bytes}

theorem Taken.grow (h : Taken w out) (hi : w.items.Sublist w'.items) : Taken w' out := by
  obtain ⟨taken, hs, ha, he⟩ := h
  exact ⟨taken, hs.trans hi, ha, he⟩

theorem Taken.snoc (h : Taken w out) (hi : w'.items = w.items ++ [i]) (ha : acceptable i = true) :
    Taken w' (out ++ [packetOf i]) := by
  obtain ⟨taken, hs, hall, rfl⟩ := h
  refine ⟨taken ++ [i], ?_, ?_, by simp⟩
  · rw [hi]
    exact hs.append (List.Sublist.refl _)
  · intro j hj
    rcases List.mem_append.mp hj with hm | hm
    · exact hall j hm
    · rw [List.mem_singleton.mp hm]
      exact ha

theorem Holds.stuck {pos : Pos} (hw : Well pos) (h : Holds pos u) : packets.Stuck u := by
  cases pos with
  | gap junk => exact stuck_noLeader h.2 h.1
  | body junk data =>
    obtain ⟨j, rfl, hj, hh⟩ := h
    exact stuck_openBody hh hj hw.2
  | trailer junk data first =>
    obtain ⟨j, rfl, hj, hh⟩ := h
    refine stuck_short hh hj hw.2 ?_
    cases first <;> simp

theorem head_snoc {u : Bytes} (hu : u ≠ []) (b : UInt8) : (u ++ [b]).head? = u.head? := by
  cases u with
  | nil => exact absurd rfl hu
  | cons x u => rfl

theorem Holds.plain (h : Holds w.pos u) (hu : u = [] → w.pos.inFrame = false → b ≠ kInterrupt)
    (ht : ∀ junk data c, w.pos ≠ .trailer junk data (some c)) :
    Holds (w.plain b).pos (u ++ [b]) := by
  obtain ⟨pos, items⟩ := w
  cases pos with
  | gap junk =>
    obtain ⟨hl, hh⟩ := h
    simp only [Wire.plain, Wire.inGap]
    by_cases hb : b = kPacketLeader
    · rw [if_pos hb, hb]
      exact ⟨u, rfl, hl, hh⟩
    · have hg : ∀ junk, Holds (.gap junk) (u ++ [b]) := by
        intro junk
        refine ⟨by simpa [hl] using Ne.symm hb, ?_⟩
        by_cases hn : u = []
        · simpa [hn] using hu hn rfl
        · rw [head_snoc hn]
          exact hh
      rw [if_neg hb]
      split
      · exact hg _
      · split
        · exact hg _
        · split <;> exact hg _
  | body junk data =>
    obtain ⟨j, rfl, hj, hh⟩ := h
    simp only [Wire.plain, Wire.inBody]
    split
    · rename_i hb
      exact ⟨j, by simp [hb], hj, hh⟩
    · exact ⟨j, by simp, hj, hh⟩
  | trailer junk data first =>
    cases first with
    | none =>
      obtain ⟨j, rfl, hj, hh⟩ := h
      exact ⟨j, by simp, hj, hh⟩
    | some c => exact absurd rfl (ht junk data c)

theorem Follows.plain (h : Follows w l) (ht : ∀ junk data c, w.pos ≠ .trailer junk data (some c)) :
    Follows (w.plain b) (l.feed b) := by
  have hwell := well_plain h.well b
  have htaken := h.taken.grow (items_plain w b).sublist
  by_cases hi : l.buf = [] ∧ w.pos.inFrame = false ∧ b = kInterrupt
  · obtain ⟨hbuf, hpos, rfl⟩ := hi
    rw [Live.feed_interrupt hbuf]
    obtain ⟨pos, items⟩ := w
    cases pos with
    | gap junk =>
      have hw : Wire.plain ⟨.gap junk, items⟩ kInterrupt = ⟨.gap junk, items ++ [.interrupt]⟩ := by
        simp [Wire.plain, Wire.inGap, Ne.symm leader_ne_interrupt]
      rw [hw]
      exact ⟨h.well, ⟨by simp, by simp⟩, h.taken.snoc (i := .interrupt) rfl rfl⟩
    | body junk data => simp [Pos.inFrame] at hpos
    | trailer junk data first => simp [Pos.inFrame] at hpos
  · have hholds := h.holds.plain (b := b) (fun hu hp hb => hi ⟨hu, hp, hb⟩) ht
    rw [Live.feed_stuck (hholds.stuck hwell)]
    exact ⟨hwell, hholds, htaken⟩

theorem good_value (h : goodFrame (.frame data c₁ c₂) = true) :
    checksumValue c₁ c₂ = some ((mod256Checksum data).toNat : Int) := by
  simp only [goodFrame, Bool.and_eq_true, beq_iff_eq] at h
  obtain ⟨⟨h₁, h₂⟩, hsum⟩ := h
  rw [checksumValue_digits h₁ h₂, hsum]

/-- One byte, when the frame it may complete is good. -/
theorem Follows.feed (h : Follows w l) (hg : ∀ i ∈ (w.step b).items, goodFrame i = true) :
    Follows (w.step b) (l.feed b) := by
  obtain ⟨pos, items⟩ := w
  cases pos with
  | gap junk => exact h.plain (by simp)
  | body junk data => exact h.plain (by simp)
  | trailer junk data first =>
    cases first with
    | none => exact h.plain (by simp)
    | some c =>
      have hframe := hg _ (frame_mem junk data items c b)
      have hc := good_value hframe
      obtain ⟨j, hbuf, hj, hh⟩ := h.holds
      rw [Live.feed_number hbuf hh hj h.well.2 hc]
      have hs : Wire.step ⟨.trailer junk data (some c), items⟩ b =
          ⟨.gap [], items ++ [.frame data c b]⟩ := by
        simp [Wire.step, hc]
      rw [hs]
      refine ⟨well_start, ⟨by simp, by simp⟩, ?_⟩
      have ht : Taken ⟨.gap [], items ++ [.frame data c b]⟩ (l.out ++ [packetOf (.frame data c b)]) :=
        h.taken.snoc rfl hframe
      simpa [packetOf, ofFrame] using ht

theorem Follows.feed_all (v : Bytes) (h : Follows w l)
    (hg : ∀ i ∈ (w.run v).items, goodFrame i = true) : Follows (w.run v) (v.foldl Live.feed l) := by
  induction v generalizing w l with
  | nil => exact h
  | cons b v ih =>
    have hb : ∀ i ∈ (w.step b).items, goodFrame i = true :=
      fun i hi => hg i ((items_run (w.step b) v).subset hi)
    exact ih (h.feed hb) hg

theorem outside_no_trailer (hp : w.pos.inFrame = false) (junk data : Bytes) (c : UInt8) :
    w.pos ≠ .trailer junk data (some c) := by
  intro he
  simp [he, Pos.inFrame] at hp

theorem Follows.skip (h : Follows w l) (hp : w.pos.inFrame = false) (hb : isAck b = true) :
    Follows (w.step b) l := by
  have hrun : isRun b = true := by simp [isRun, hb]
  have hout := step_stays_outside hp hrun
  refine ⟨well_step h.well b, ?_, h.taken.grow (items_step w b).sublist⟩
  have hh := h.holds
  cases hpos : w.pos with
  | gap junk =>
    rw [hpos] at hh
    cases hstep : (w.step b).pos with
    | gap junk' => exact hh
    | body _ _ => simp [hstep, Pos.inFrame] at hout
    | trailer _ _ _ => simp [hstep, Pos.inFrame] at hout
  | body junk data => simp [hpos, Pos.inFrame] at hp
  | trailer junk data first => simp [hpos, Pos.inFrame] at hp

/-- The leading run of a read that begins between frames. -/
theorem Follows.feed_run (v : Bytes) (h : Follows w l) (hp : w.pos.inFrame = false)
    (hv : v.all isRun = true) :
    Follows (w.run v) ((v.filter fun b => !isAck b).foldl Live.feed l) := by
  induction v generalizing w l with
  | nil => exact h
  | cons b v ih =>
    simp only [List.all_cons, Bool.and_eq_true] at hv
    have hout := step_stays_outside hp hv.1
    by_cases hb : isAck b = true
    · rw [List.filter_cons_of_neg (by simp [hb])]
      exact ih (h.skip hp hb) hout hv.2
    · rw [List.filter_cons_of_pos (by simp [hb])]
      have hf : Follows (w.step b) (l.feed b) := by
        rw [step_outside hp]
        exact h.plain (outside_no_trailer hp)
      exact ih hf hout hv.2

theorem strip_kept (h : (r.takeWhile isRun).any isAck = false) : strip r = r := by
  have hf : (r.takeWhile isRun).filter (fun b => !isAck b) = r.takeWhile isRun := by
    apply List.filter_eq_self.mpr
    intro b hb
    simpa using List.any_eq_false.mp h b hb
  rw [strip, hf, List.takeWhile_append_dropWhile]

theorem Follows.read (h : Follows w l) (hr : ReadOk w r) :
    Follows (w.run r) (r.foldl Live.byte ⟨true, {}, l.buf, l.out⟩) := by
  have hbegin : Follows w ⟨true, {}, l.buf, l.out⟩ := ⟨h.well, h.holds, h.taken⟩
  rw [Live.foldl_byte r rfl]
  have hfed : Follows (w.run r) ((strip r).foldl Live.feed ⟨true, {}, l.buf, l.out⟩) := by
    by_cases hp : w.pos.inFrame = true
    · rw [strip_kept (hr.kept hp)]
      exact hbegin.feed_all r hr.good
    · have hsplit : w.run r = (w.run (r.takeWhile isRun)).run (r.dropWhile isRun) := by
        rw [← run_append, List.takeWhile_append_dropWhile]
      have hrun := hbegin.feed_run (r.takeWhile isRun) (by simpa using hp) (List.all_takeWhile)
      rw [strip, List.foldl_append, hsplit]
      exact hrun.feed_all _ (hsplit ▸ hr.good)
  exact ⟨hfed.well, hfed.holds, hfed.taken⟩

theorem reached_follows (h : Reached s t) :
    Settled t ∧ Follows (Wire.run {} s) (.ofTransport t) := by
  induction h with
  | fresh =>
    refine ⟨settled_fresh, well_start, ⟨?_, ?_⟩, [], ?_, ?_, rfl⟩
    · exact List.not_mem_nil
    · simp [Live.ofTransport]
    · exact List.Sublist.refl _
    · exact fun i hi => absurd hi List.not_mem_nil
  | read h ok ih =>
    obtain ⟨hs, hf⟩ := ih
    obtain ⟨hout, hbuf⟩ := receive_bytes hs ok.plain
    have hread := hf.read ok
    refine ⟨hs.receive ok.plain, ?_⟩
    rw [run_append]
    refine ⟨hread.well, ?_, ?_⟩
    · rw [Live.ofTransport, hbuf]
      exact hread.holds
    · rw [Live.ofTransport, hout]
      exact hread.taken

theorem queue_acks (v : Bytes) (q : Queue) :
    (v.foldl Queue.byte q).sent.count .ack = q.sent.count .ack := by
  induction v generalizing q with
  | nil => rfl
  | cons b v ih =>
    rw [List.foldl_cons, ih]
    unfold Queue.byte
    split
    · rfl
    · split
      · cases hq : q.unacked <;> simp [Queue.resend, hq]
      · rfl

theorem reached_acks (h : Reached s t) :
    t.noAckMode = false ∧ t.sent.count .ack = t.received.length := by
  induction h with
  | fresh => exact ⟨rfl, rfl⟩
  | read h ok ih =>
    obtain ⟨hmode, hcount⟩ := ih
    rw [receive_plain (reached_follows h).1 ok.plain]
    refine ⟨hmode, ?_⟩
    simp [hmode, queue_acks, queueOf, hcount]

/-- In every run of such reads nothing but interrupts and good frames is handed
over or acknowledged. -/
theorem reached_dispatchesGood (h : Reached s t) : DispatchesGood s t := by
  obtain ⟨taken, hs, ha, he⟩ := (reached_follows h).2.taken
  have hr : t.received = taken.map packetOf := he
  refine ⟨taken, hs, ha, hr, ?_⟩
  rw [(reached_acks h).2, hr, List.length_map]

/-- A good frame, an interrupt and an acknowledgement, split inside the frame. -/
theorem reached_two_reads :
    DispatchesGood (ascii "$m0," ++ ascii "1#fa\x03+")
      ((receive {} (ascii "$m0,")).receive (ascii "1#fa\x03+")) := by
  refine reached_dispatchesGood (.read (.read .fresh ?_) ?_)
  · exact ⟨by decide, by decide, by decide⟩
  · exact ⟨by decide, by decide, by decide⟩

theorem taken_bound (h : DispatchesGood s t) :
    t.received.length ≤ ((Wire.run {} s).items.filter acceptable).length := by
  obtain ⟨taken, hs, ha, hr, -⟩ := h
  have hf := hs.filter acceptable
  rw [List.filter_eq_self.mpr ha] at hf
  rw [hr, List.length_map]
  exact hf.length_le

/-- A frame with a wrong checksum is handed over and acknowledged, and one
without a number for its checksum makes the packet before it run again. -/
theorem not_dispatchesGood :
    ¬ DispatchesGood (ascii "$g#00") (receive {} (ascii "$g#00")) ∧
      ¬ DispatchesGood (ascii "$c#63$g#zz") (receive {} (ascii "$c#63$g#zz")) := by
  constructor
  · exact fun h => absurd (taken_bound h) (by decide)
  · exact fun h => absurd (taken_bound h) (by decide)

end XbdmGdbBridge.Proofs.Dispatch
