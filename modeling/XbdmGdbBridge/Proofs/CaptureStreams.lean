import XbdmGdbBridge.Lib.Extraction
import XbdmGdbBridge.Tracer.FrameCapture

/-!
# Trace data is cut anywhere

The loops over the trace buffers take packets off a stream, and how long a packet is depends on its
own bytes only. So it does not matter into which fetches a stream was cut.
-/

namespace XbdmGdbBridge.Proofs.Captures

open Lib NTRCTracer

section Words

variable {u v : Bytes}

theorem uint32At_append {offset : Nat} (h : offset + 4 ≤ u.length) :
    uint32At (u ++ v) offset = uint32At u offset := by
  unfold uint32At
  rw [List.drop_append_of_le_length (by omega), List.take_append_of_le_length]
  rw [List.length_drop]
  omega

theorem ofBytes_append (h : PushBufferCommandTraceInfo.size ≤ u.length) :
    PushBufferCommandTraceInfo.ofBytes (u ++ v) = PushBufferCommandTraceInfo.ofBytes u := by
  unfold PushBufferCommandTraceInfo.size at h
  have hword : ∀ offset ≤ 64, uint32At (u ++ v) offset = uint32At u offset :=
    fun offset hoffset => uint32At_append (by omega)
  simp [PushBufferCommandTraceInfo.ofBytes, hword]

theorem words_append {count : Nat} (h : 4 * count ≤ u.length) :
    words count (u ++ v) = words count u := by
  refine List.map_congr_left fun i hi => uint32At_append ?_
  have := List.mem_range.mp hi
  omega

theorem auxOfBytes_append (h : AuxDataHeader.size ≤ u.length) :
    AuxDataHeader.ofBytes (u ++ v) = AuxDataHeader.ofBytes u := by
  unfold AuxDataHeader.size at h
  unfold AuxDataHeader.ofBytes
  congr 1
  all_goals exact uint32At_append (by omega)

end Words

/-- A packet of the PGRAPH stream with the parameters that follow it. -/
structure Packet where
  info : PushBufferCommandTraceInfo
  parameters : List UInt32
deriving DecidableEq

/-- How many bytes of parameters follow. -/
def parameterBytes (info : PushBufferCommandTraceInfo) : Nat :=
  if info.hasHeapParameters then 4 * info.command.parameterCount.toNat else 0

/-- The first packet of a stream, once all of it is there. -/
def nextPacket (u : Bytes) : Option (Extract Unit Packet) :=
  let info := PushBufferCommandTraceInfo.ofBytes u
  let used := PushBufferCommandTraceInfo.size + parameterBytes info
  if PushBufferCommandTraceInfo.size ≤ u.length ∧ used ≤ u.length then
    some ⟨used, ⟨info, words (parameterBytes info / 4) (u.drop PushBufferCommandTraceInfo.size)⟩, ()⟩
  else none

theorem nextPacket_append {u v : Bytes} {e : Extract Unit Packet} (h : nextPacket u = some e) :
    nextPacket (u ++ v) = some e := by
  unfold nextPacket at h ⊢
  dsimp only at h ⊢
  split at h
  case isFalse => cases h
  case isTrue hle =>
    rw [ofBytes_append hle.1, List.drop_append_of_le_length hle.1, words_append, if_pos, h]
    · rw [List.length_append]
      omega
    · rw [List.length_drop]
      omega

def packets : Extractor Unit UInt8 Packet where
  next _ := nextPacket
  progress {_ u e} h := by
    unfold nextPacket at h
    dsimp only at h
    split at h
    case isFalse => cases h
    case isTrue hle =>
      obtain rfl := Option.some.inj h
      exact ⟨Nat.add_pos_left (by decide) _, hle.2⟩
  stable h := nextPacket_append h

/-- Every `parameter_count` of a stream is below `2 ^ 30`, that of a packet that is not complete
included. -/
structure Bounded (u : Bytes) : Prop where
  items : ∀ p ∈ (packets.drain () u).items, p.info.command.parameterCount.toNat < 2 ^ 30
  rest : PushBufferCommandTraceInfo.size ≤ (packets.drain () u).rest.length →
    (PushBufferCommandTraceInfo.ofBytes (packets.drain () u).rest).command.parameterCount.toNat <
      2 ^ 30

/-- What a complete packet does to the records. -/
def capturePacket (p : Packet) : Program Fault Records Unit :=
  if p.info.hasHeapParameters then assignId p.info p.parameters >>= storePacket
  else storePacket p.info

def capture (ps : List Packet) : Program Fault Records Unit :=
  ps.forM capturePacket

theorem capture_cons (p : Packet) (ps : List Packet) :
    capture (p :: ps) = capturePacket p >>= fun _ => capture ps := rfl

theorem capture_append (ps qs : List Packet) :
    capture (ps ++ qs) = capture ps >>= fun _ => capture qs := by
  induction ps with
  | nil => exact (pure_bind _ _).symm
  | cons p ps ih => rw [List.cons_append, capture_cons, capture_cons, ih, bind_assoc]

section Turns

variable {u v : Bytes} {fuel : Nat}

theorem toNat_additional {count : UInt32} (h : count.toNat < 2 ^ 30) :
    (4 * count).toNat = 4 * count.toNat := by
  rw [UInt32.toNat_mul]
  exact Nat.mod_eq_of_lt (by change 4 * count.toNat < 2 ^ 32; omega)

theorem pgraphLoop_none (h : nextPacket u = none)
    (hcount : PushBufferCommandTraceInfo.size ≤ u.length →
      (PushBufferCommandTraceInfo.ofBytes u).command.parameterCount.toNat < 2 ^ 30) :
    pgraphLoop (fuel + 1) u = pure u := by
  rw [pgraphLoop]
  split
  · rfl
  next hlong =>
    have hadditional := toNat_additional (hcount (by omega))
    unfold nextPacket parameterBytes at h
    dsimp only at h ⊢
    split
    next hheap =>
      simp only [hheap, if_true] at h
      rw [if_pos]
      rw [hadditional]
      by_contra hcomplete
      rw [if_pos (by omega)] at h
      cases h
    next hheap =>
      simp only [hheap, Bool.false_eq_true, if_false, Nat.add_zero] at h
      rw [if_pos (by omega)] at h
      cases h

theorem pgraphLoop_some {e : Extract Unit Packet} (h : nextPacket u = some e)
    (hcount : e.item.info.command.parameterCount.toNat < 2 ^ 30) :
    pgraphLoop (fuel + 1) u =
      capturePacket e.item >>= fun _ => pgraphLoop fuel (u.drop e.count) := by
  unfold nextPacket at h
  dsimp only at h
  split at h
  case isFalse => cases h
  case isTrue hle =>
    obtain rfl := Option.some.inj h
    have hadditional := toNat_additional hcount
    rw [pgraphLoop, if_neg (by omega), capturePacket]
    dsimp only at hadditional ⊢
    split
    next hheap =>
      rw [parameterBytes, if_pos hheap] at hle ⊢
      have hbehind : ¬(u.drop PushBufferCommandTraceInfo.size).length <
          4 * (PushBufferCommandTraceInfo.ofBytes u).command.parameterCount.toNat := by
        rw [List.length_drop]
        omega
      rw [hadditional, if_neg (by omega), bind_assoc, Nat.mul_div_cancel_left _ (by decide)]
      simp only [if_neg hbehind, List.drop_drop]
    next hheap =>
      rw [parameterBytes, if_neg hheap, Nat.add_zero]

theorem bounded_drop {e : Extract Unit Packet} (h : nextPacket u = some e) (hbounded : Bounded u) :
    e.item.info.command.parameterCount.toNat < 2 ^ 30 ∧ Bounded (u.drop e.count) := by
  obtain ⟨hitems, hrest⟩ := hbounded
  rw [Extractor.drain_some (show packets.next () u = some e from h)] at hitems hrest
  exact ⟨hitems _ (by simp), fun p hp => hitems p (by simp [hp]), hrest⟩

/-- The loop takes the packets off the stream and records them one after the other. -/
theorem pgraphLoop_eq (hfuel : u.length ≤ fuel) (hbounded : Bounded u) :
    pgraphLoop fuel u =
      capture (packets.drain () u).items >>= fun _ => pure (packets.drain () u).rest := by
  induction fuel generalizing u with
  | zero =>
    obtain rfl : u = [] := List.length_eq_zero_iff.mp (by omega)
    rfl
  | succ fuel ih =>
    cases h : nextPacket u with
    | none =>
      have hdrain := Extractor.drain_none (show packets.next () u = none from h)
      have hcount := hbounded.rest
      rw [hdrain] at hcount ⊢
      rw [pgraphLoop_none h hcount]
      rfl
    | some e =>
      have hprogress := packets.progress (show packets.next () u = some e from h)
      obtain ⟨hcount, hdrop⟩ := bounded_drop h hbounded
      have hlength : (u.drop e.count).length ≤ fuel := by
        rw [List.length_drop]
        omega
      rw [pgraphLoop_some h hcount, ih hlength hdrop,
        Extractor.drain_some (show packets.next () u = some e from h)]
      simp only [Extractor.after_items, List.singleton_append, capture_cons, bind_assoc]
      rfl

theorem nextPacket_info {e : Extract Unit Packet} (h : nextPacket u = some e) :
    e.item.info = PushBufferCommandTraceInfo.ofBytes u := by
  unfold nextPacket at h
  dsimp only at h
  split at h
  case isFalse => cases h
  case isTrue =>
    obtain rfl := Option.some.inj h
    rfl

/-- The first packet of a stream has a small count, whether it is complete or not. -/
theorem Bounded.head (h : Bounded u) (hlong : PushBufferCommandTraceInfo.size ≤ u.length) :
    (PushBufferCommandTraceInfo.ofBytes u).command.parameterCount.toNat < 2 ^ 30 := by
  cases hnext : nextPacket u with
  | none =>
    have hdrain := Extractor.drain_none (show packets.next () u = none from hnext)
    have hrest := h.rest
    rw [hdrain] at hrest
    exact hrest hlong
  | some e =>
    rw [← nextPacket_info hnext]
    exact (bounded_drop hnext h).1

theorem Bounded.rest_append (h : Bounded (u ++ v)) : Bounded ((packets.drain () u).rest ++ v) := by
  obtain ⟨hitems, hrest⟩ := h
  rw [packets.drain_append] at hitems hrest
  exact ⟨fun p hp => hitems p (by simp [hp]), hrest⟩

theorem Bounded.of_append (h : Bounded (u ++ v)) : Bounded u := by
  refine ⟨fun p hp => h.items p ?_, fun hlong => ?_⟩
  · rw [packets.drain_append]
    simp [hp]
  · have hhead := h.rest_append.head (by rw [List.length_append]; omega)
    rwa [ofBytes_append hlong] at hhead

end Turns

section Pieces

/-- The capture behind the loop. -/
def afterLoop (c : FrameCapture) :
    Except Fault (Bytes × Records) → Except Fault (Unit × FrameCapture)
  | .ok (rest, r) => .ok ((), { c with toRecords := r, pgraphTraceBuffer := rest })
  | .error e => .error e

theorem processPGRAPHBuffer_eq (c : FrameCapture) :
    FrameCapture.processPGRAPHBuffer c =
      afterLoop c (pgraphLoop c.pgraphTraceBuffer.length c.pgraphTraceBuffer c.toRecords) := by
  have happly : FrameCapture.processPGRAPHBuffer c =
      (Program.on FrameCapture.records (pgraphLoop _ c.pgraphTraceBuffer) >>= fun rest =>
        modify fun c => { c with pgraphTraceBuffer := rest }) c := rfl
  rw [happly, Program.bind_apply, Program.on]
  dsimp only [FrameCapture.records]
  cases pgraphLoop _ c.pgraphTraceBuffer c.toRecords <;> rfl

theorem receivePGRAPH_loop (data : Bytes) (c : FrameCapture) :
    FrameCapture.receivePGRAPH data c =
      afterLoop c (pgraphLoop (c.pgraphTraceBuffer ++ data).length (c.pgraphTraceBuffer ++ data)
        c.toRecords) := by
  have happly : FrameCapture.receivePGRAPH data c = FrameCapture.processPGRAPHBuffer
      { c with pgraphTraceBuffer := c.pgraphTraceBuffer ++ data } := rfl
  rw [happly, processPGRAPHBuffer_eq]
  cases pgraphLoop _ (c.pgraphTraceBuffer ++ data) c.toRecords <;> rfl

/-- The capture once packets were recorded and `rest` is left of the stream. -/
def withRecords (c : FrameCapture) (rest : Bytes) :
    Except Fault (Unit × Records) → Except Fault (Unit × FrameCapture)
  | .ok (_, r) => .ok ((), { c with toRecords := r, pgraphTraceBuffer := rest })
  | .error e => .error e

theorem receivePGRAPH_eq (data : Bytes) (c : FrameCapture)
    (hbounded : Bounded (c.pgraphTraceBuffer ++ data)) :
    FrameCapture.receivePGRAPH data c =
      withRecords c (packets.drain () (c.pgraphTraceBuffer ++ data)).rest
        (capture (packets.drain () (c.pgraphTraceBuffer ++ data)).items c.toRecords) := by
  rw [receivePGRAPH_loop, pgraphLoop_eq le_rfl hbounded, Program.bind_apply]
  cases capture (packets.drain () (c.pgraphTraceBuffer ++ data)).items c.toRecords <;> rfl

theorem receivePGRAPH_append (first second : Bytes) (c : FrameCapture)
    (hbounded : Bounded (c.pgraphTraceBuffer ++ (first ++ second))) :
    FrameCapture.receivePGRAPH (first ++ second) c =
      (FrameCapture.receivePGRAPH first >>= fun _ => FrameCapture.receivePGRAPH second) c := by
  rw [receivePGRAPH_eq _ _ hbounded, ← List.append_assoc, packets.drain_append, Program.bind_apply]
  rw [← List.append_assoc] at hbounded
  rw [receivePGRAPH_eq _ _ hbounded.of_append, Extractor.after_items, Extractor.after_rest,
    capture_append, Program.bind_apply]
  cases capture (packets.drain () (c.pgraphTraceBuffer ++ first)).items c.toRecords with
  | error e => rfl
  | ok r =>
    exact (receivePGRAPH_eq second { c with toRecords := r.2, pgraphTraceBuffer := _ }
      hbounded.rest_append).symm

/-- The fetches of a stream, one after the other. -/
def receivePGRAPHs (pieces : List Bytes) : Program Fault FrameCapture Unit :=
  pieces.forM FrameCapture.receivePGRAPH

theorem receivePGRAPHs_eq (first : Bytes) (pieces : List Bytes) (c : FrameCapture)
    (hbounded : Bounded (c.pgraphTraceBuffer ++ (first :: pieces).flatten)) :
    receivePGRAPHs (first :: pieces) c =
      FrameCapture.receivePGRAPH (first :: pieces).flatten c := by
  induction pieces generalizing first c with
  | nil =>
    rw [List.flatten_cons, List.flatten_nil, List.append_nil]
    exact congrFun bind_pure_unit c
  | cons second pieces ih =>
    have happly : receivePGRAPHs (first :: second :: pieces) c =
      (FrameCapture.receivePGRAPH first >>= fun _ => receivePGRAPHs (second :: pieces)) c := rfl
    rw [List.flatten_cons] at hbounded ⊢
    rw [happly, receivePGRAPH_append _ _ _ hbounded, Program.bind_apply, Program.bind_apply]
    rw [← List.append_assoc] at hbounded
    rw [receivePGRAPH_eq _ _ hbounded.of_append]
    cases capture (packets.drain () (c.pgraphTraceBuffer ++ first)).items c.toRecords with
    | error e => rfl
    | ok r => exact ih second { c with toRecords := r.2, pgraphTraceBuffer := _ } hbounded.rest_append

end Pieces

/-- The first packet of an aux stream with its data, once all of it is there. -/
def nextDump (u : Bytes) : Option (Extract Unit (AuxDataHeader × Bytes)) :=
  let packet := AuxDataHeader.ofBytes u
  if AuxDataHeader.size ≤ u.length ∧ AuxDataHeader.size + packet.len.toNat ≤ u.length then
    some ⟨AuxDataHeader.size + packet.len.toNat,
      (packet, (u.drop AuxDataHeader.size).take packet.len.toNat), ()⟩
  else none

theorem nextDump_append {u v : Bytes} {e : Extract Unit (AuxDataHeader × Bytes)}
    (h : nextDump u = some e) : nextDump (u ++ v) = some e := by
  unfold nextDump at h ⊢
  dsimp only at h ⊢
  split at h
  case isFalse => cases h
  case isTrue hle =>
    rw [auxOfBytes_append hle.1, List.drop_append_of_le_length hle.1, List.take_append_of_le_length,
      if_pos, h]
    · rw [List.length_append]
      omega
    · rw [List.length_drop]
      omega

def dumps : Extractor Unit UInt8 (AuxDataHeader × Bytes) where
  next _ := nextDump
  progress {_ u e} h := by
    unfold nextDump at h
    dsimp only at h
    split at h
    case isFalse => cases h
    case isTrue hle =>
      obtain rfl := Option.some.inj h
      exact ⟨Nat.add_pos_left (by decide) _, hle.2⟩
  stable h := nextDump_append h

/-- The calls for the packets of a stream. -/
def calls (ps : List (AuxDataHeader × Bytes)) : List AuxCall :=
  ps.filterMap fun p => auxCall p.1 p.2

section Dumps

variable {u : Bytes} {fuel : Nat}

theorem auxLoop_none (h : nextDump u = none) : auxLoop (fuel + 1) u = ([], u) := by
  unfold nextDump at h
  dsimp only at h
  split at h
  case isTrue => cases h
  case isFalse hle =>
    rw [auxLoop]
    split
    · rfl
    next hlong =>
      dsimp only
      rw [if_pos (by omega)]

theorem auxLoop_some {e : Extract Unit (AuxDataHeader × Bytes)} (h : nextDump u = some e) :
    auxLoop (fuel + 1) u =
      ((auxCall e.item.1 e.item.2).toList ++ (auxLoop fuel (u.drop e.count)).1,
        (auxLoop fuel (u.drop e.count)).2) := by
  unfold nextDump at h
  dsimp only at h
  split at h
  case isFalse => cases h
  case isTrue hle =>
    obtain rfl := Option.some.inj h
    rw [auxLoop, if_neg (by omega)]
    dsimp only
    rw [if_neg (by omega), List.drop_drop]

theorem auxLoop_eq (hfuel : u.length ≤ fuel) :
    auxLoop fuel u = (calls (dumps.drain () u).items, (dumps.drain () u).rest) := by
  induction fuel generalizing u with
  | zero =>
    obtain rfl : u = [] := List.length_eq_zero_iff.mp (by omega)
    rfl
  | succ fuel ih =>
    cases h : nextDump u with
    | none =>
      have hdrain := Extractor.drain_none (show dumps.next () u = none from h)
      rw [auxLoop_none h, hdrain]
      rfl
    | some e =>
      have hprogress := dumps.progress (show dumps.next () u = some e from h)
      have hlength : (u.drop e.count).length ≤ fuel := by
        rw [List.length_drop]
        omega
      rw [auxLoop_some h, ih hlength,
        Extractor.drain_some (show dumps.next () u = some e from h)]
      simp only [Extractor.after_items, Extractor.after_rest, calls, List.singleton_append,
        List.filterMap_cons]
      cases auxCall e.item.1 e.item.2 <;> rfl

theorem receiveAux_eq (data : Bytes) (c : FrameCapture) :
    FrameCapture.receiveAux data c =
      (calls (dumps.drain () (c.auxTraceBuffer ++ data)).items,
        { c with auxTraceBuffer := (dumps.drain () (c.auxTraceBuffer ++ data)).rest }) := by
  have hloop := @auxLoop_eq (c.auxTraceBuffer ++ data) _ le_rfl
  have happly : FrameCapture.receiveAux data c =
      ((auxLoop _ (c.auxTraceBuffer ++ data)).1,
        { c with auxTraceBuffer := (auxLoop _ (c.auxTraceBuffer ++ data)).2 }) := rfl
  rw [happly, hloop]

/-- The fetches of a stream, one after the other, with all calls they lead to. -/
def receiveAuxs : List Bytes → StateM FrameCapture (List AuxCall)
  | [] => return []
  | first :: pieces => do
    let earlier ← FrameCapture.receiveAux first
    let later ← receiveAuxs pieces
    return earlier ++ later

theorem receiveAux_append (first second : Bytes) (c : FrameCapture) :
    FrameCapture.receiveAux (first ++ second) c =
      ((FrameCapture.receiveAux first c).1 ++
          (FrameCapture.receiveAux second (FrameCapture.receiveAux first c).2).1,
        (FrameCapture.receiveAux second (FrameCapture.receiveAux first c).2).2) := by
  rw [receiveAux_eq, ← List.append_assoc, dumps.drain_append]
  simp [receiveAux_eq, calls]

theorem receiveAuxs_eq (first : Bytes) (pieces : List Bytes) (c : FrameCapture) :
    receiveAuxs (first :: pieces) c = FrameCapture.receiveAux (first :: pieces).flatten c := by
  have happly : ∀ pieces, receiveAuxs (first :: pieces) c =
      ((FrameCapture.receiveAux first c).1 ++
          (receiveAuxs pieces (FrameCapture.receiveAux first c).2).1,
        (receiveAuxs pieces (FrameCapture.receiveAux first c).2).2) := fun _ => rfl
  induction pieces generalizing first c with
  | nil =>
    rw [happly, List.flatten_cons, List.flatten_nil, List.append_nil]
    simp [receiveAuxs, pure, StateT.pure]
  | cons second pieces ih =>
    rw [happly, List.flatten_cons, receiveAux_append, ih _ _ fun _ => rfl]

end Dumps

/-- However a stream is cut into fetches, the capture becomes what it becomes from the whole stream:
the commands with their ids, the parameters, the log, the dumps that are saved and what is left. -/
theorem receive_any_cut (first : Bytes) (pieces : List Bytes) (c : FrameCapture) :
    (Bounded (c.pgraphTraceBuffer ++ (first :: pieces).flatten) →
      receivePGRAPHs (first :: pieces) c =
        FrameCapture.receivePGRAPH (first :: pieces).flatten c) ∧
    receiveAuxs (first :: pieces) c = FrameCapture.receiveAux (first :: pieces).flatten c :=
  ⟨receivePGRAPHs_eq first pieces c, receiveAuxs_eq first pieces c⟩

/-- The bytes of words in a packed structure. -/
def packed (ws : List UInt32) : Bytes :=
  ws.flatMap fun (w : UInt32) => [w.toUInt8, (w >>> 8).toUInt8, (w >>> 16).toUInt8, (w >>> 24).toUInt8]

/-- A packet of class 0x97 with the given validity, count, state and id, and no other data. -/
def packetBytes (valid count state id : UInt32) : Bytes :=
  packed [1, 0, 0, 0, valid, 0, 0x100, 0, count, 0, 0x97, state, id, 0, 0, 0, 0]

/-- A command with one parameter on the heap of the target. -/
def heapPacket : Bytes :=
  packetBytes 1 1 PBCPDS_HEAP_BUFFER 0x80001000 ++ packed [0xCAFE]

theorem drain_heapPacket : packets.drain () heapPacket =
    ⟨[⟨PushBufferCommandTraceInfo.ofBytes heapPacket, [0xCAFE]⟩], (), []⟩ := rfl

theorem bounded_heapPacket : Bounded heapPacket := by
  constructor
  · rw [drain_heapPacket]
    intro p hp
    obtain rfl := List.mem_singleton.mp hp
    decide
  · rw [drain_heapPacket]
    intro h
    exact absurd h (by decide)

theorem receive_heapPacket_cut :
    receivePGRAPHs [heapPacket.take 70, heapPacket.drop 70] {} =
      FrameCapture.receivePGRAPH [heapPacket.take 70, heapPacket.drop 70].flatten {} := by
  refine (receive_any_cut (heapPacket.take 70) [heapPacket.drop 70] {}).1 ?_
  rw [List.flatten_cons, List.flatten_singleton, List.take_append_drop]
  exact bounded_heapPacket

end XbdmGdbBridge.Proofs.Captures
