import XbdmGdbBridge.Proofs.CaptureRecords

/-!
# Captures after captures

The tracer uses one capture object for all frames. A setup empties what the capture is made of, but
not the bytes that are left of a packet, nor the counter the ids are taken from. So a capture shows
its history unless nothing of that kind is left.
-/

namespace XbdmGdbBridge.Proofs.Captures

open Lib NTRCTracer

/-- What the tracer asks a capture to do, with the answers its requests get. -/
inductive Fetch where
  | pgraph (answer : FrameCapture.Answer)
  | aux (answers : List FrameCapture.Answer)

def Fetch.perform : Fetch → Program Fault FrameCapture (List AuxCall)
  | .pgraph answer => do
    let _ ← FrameCapture.fetchPGRAPHTraceData answer
    return []
  | .aux answers => do
    let (_, calls) ← Program.total (FrameCapture.fetchAuxTraceData false answers)
    return calls

def performAll : List Fetch → Program Fault FrameCapture (List AuxCall)
  | [] => return []
  | fetch :: fetches => do
    let earlier ← fetch.perform
    let later ← performAll fetches
    return earlier ++ later

/-- What is seen of a capture. -/
structure Outcome where
  pgraphCommands : List PushBufferCommandTraceInfo
  pgraphParameterMap : List (UInt32 × List UInt32)
  nv2aLog : Bytes
  artifactPath : Bytes
  artifacts : List AuxCall

def outcome (c : FrameCapture) (fetches : List Fetch) : Except Fault Outcome := do
  let (calls, c) ← performAll fetches c
  return ⟨c.pgraphCommands, c.pgraphParameterMap, c.nv2aLog, c.artifactPath, calls⟩

/-- A capture object after any use that did not end the process. -/
inductive Reachable : FrameCapture → Prop where
  | new : Reachable {}
  | setup {c : FrameCapture} (h : Reachable c) (artifactPath : Bytes) (verbose : Bool) :
      Reachable (c.setup artifactPath verbose)
  | fetch {c c' : FrameCapture} {calls : List AuxCall} (h : Reachable c) (fetch : Fetch)
      (hfetch : fetch.perform c = .ok (calls, c')) : Reachable c'

/-- The same setup and the same fetches give the same capture. -/
def Agree (a b : FrameCapture) : Prop :=
  ∀ artifactPath verbose fetches,
    outcome (a.setup artifactPath verbose) fetches = outcome (b.setup artifactPath verbose) fetches

/-- Nothing is left of earlier captures, and no id was used. -/
structure Clean (c : FrameCapture) : Prop where
  pgraph : c.pgraphTraceBuffer = []
  aux : c.auxTraceBuffer = []
  ids : c.nextFreeId = 0

section Leftovers

theorem nextDump_receiveAux (data : Bytes) (c : FrameCapture) :
    nextDump (FrameCapture.receiveAux data c).2.auxTraceBuffer = none := by
  rw [receiveAux_eq]
  exact dumps.drain_rest_none () (c.auxTraceBuffer ++ data)

theorem nextDump_fetchAux {c : FrameCapture} (h : nextDump c.auxTraceBuffer = none) (fetched : Bool)
    (answers : List FrameCapture.Answer) :
    nextDump (FrameCapture.fetchAuxTraceData fetched answers c).2.auxTraceBuffer = none := by
  induction answers generalizing c fetched with
  | nil => exact h
  | cons answer answers ih =>
    cases answer with
    | failed => exact h
    | dataNotAvailable => exact h
    | ok data =>
      by_cases hdata : data = []
      · rw [FrameCapture.fetchAuxTraceData, if_pos hdata]
        exact h
      · rw [FrameCapture.fetchAuxTraceData, if_neg hdata]
        exact ih (nextDump_receiveAux data c) true

theorem leaves_receivePGRAPH (data : Bytes) :
    Leaves FrameCapture.auxTraceBuffer (FrameCapture.receivePGRAPH data) := by
  intro c _ c' h
  rw [receivePGRAPH_loop] at h
  cases hloop : pgraphLoop (c.pgraphTraceBuffer ++ data).length (c.pgraphTraceBuffer ++ data)
      c.toRecords with
  | error e =>
    rw [hloop] at h
    cases h
  | ok result =>
    rw [hloop] at h
    cases h
    rfl

theorem leaves_fetchPGRAPH (answer : FrameCapture.Answer) :
    Leaves FrameCapture.auxTraceBuffer (FrameCapture.fetchPGRAPHTraceData answer) := by
  cases answer with
  | failed => exact .pure _
  | dataNotAvailable => exact .pure _
  | ok data =>
    rw [FrameCapture.fetchPGRAPHTraceData]
    split
    · exact .pure _
    · exact .bind (leaves_receivePGRAPH data) fun _ => .pure _

theorem Reachable.nextDump_none {c : FrameCapture} (h : Reachable c) :
    nextDump c.auxTraceBuffer = none := by
  induction h with
  | new => rfl
  | setup _ _ _ ih => exact ih
  | fetch _ fetch hfetch ih =>
    cases fetch with
    | aux answers =>
      cases hfetch
      exact nextDump_fetchAux ih false answers
    | pgraph answer =>
      have hleaves : Leaves FrameCapture.auxTraceBuffer (Fetch.pgraph answer).perform :=
        .bind (leaves_fetchPGRAPH answer) fun _ => .pure _
      rw [hleaves _ _ _ hfetch]
      exact ih

end Leftovers

section Feeds

variable {a b : FrameCapture} {data : Bytes}

/-- The commands once one piece of data has arrived. -/
def commandsBehind (c : FrameCapture) (data : Bytes) :
    Except Fault (List PushBufferCommandTraceInfo) :=
  (FrameCapture.receivePGRAPH data c).map fun result => result.2.pgraphCommands

theorem outcome_pgraph (c : FrameCapture) (hdata : data ≠ []) :
    (outcome c [.pgraph (.ok data)]).map Outcome.pgraphCommands = commandsBehind c data := by
  have hfetch : FrameCapture.fetchPGRAPHTraceData (.ok data) =
      FrameCapture.receivePGRAPH data >>= fun _ => pure .dataFetched := by
    rw [FrameCapture.fetchPGRAPHTraceData, if_neg hdata]
  have hperform : performAll [.pgraph (.ok data)] =
      FrameCapture.receivePGRAPH data >>= fun _ => pure [] := by
    simp only [performAll, Fetch.perform, hfetch, bind_assoc, pure_bind, List.append_nil]
  rw [outcome, commandsBehind, hperform, Program.bind_apply]
  cases FrameCapture.receivePGRAPH data c <;> rfl

theorem Agree.same_commands (h : Agree a b) (hdata : data ≠ []) :
    commandsBehind (a.setup [] false) data = commandsBehind (b.setup [] false) data := by
  rw [← outcome_pgraph _ hdata, ← outcome_pgraph _ hdata, h]

theorem outcome_aux (c : FrameCapture) (hdata : data ≠ []) :
    (outcome c [.aux [.ok data, .dataNotAvailable]]).map Outcome.artifacts =
      .ok (FrameCapture.receiveAux data c).1 := by
  have hfetch : FrameCapture.fetchAuxTraceData false [.ok data, .dataNotAvailable] =
      FrameCapture.receiveAux data >>= fun calls => pure (.dataFetched, calls) := by
    simp only [FrameCapture.fetchAuxTraceData, if_neg hdata, pure_bind, List.append_nil, if_true]
  have hperform : performAll [.aux [.ok data, .dataNotAvailable]] =
      Program.total (FrameCapture.receiveAux data) := by
    simp only [performAll, Fetch.perform, hfetch, bind_assoc, pure_bind, List.append_nil]
    rfl
  rw [outcome, hperform]
  rfl

theorem Agree.same_artifacts (h : Agree a b) (hdata : data ≠ []) :
    (FrameCapture.receiveAux data (a.setup [] false)).1 =
      (FrameCapture.receiveAux data (b.setup [] false)).1 := by
  have hartifacts := outcome_aux (a.setup [] false) hdata
  rw [h, outcome_aux (b.setup [] false) hdata] at hartifacts
  exact (Except.ok.inj hartifacts).symm

end Feeds

section Commands

variable {packet : PushBufferCommandTraceInfo} {r r' : Records} {u rest : Bytes} {fuel : Nat}

theorem commands_logData (packet : PushBufferCommandTraceInfo) (r : Records) :
    (logData packet r).2.pgraphCommands = r.pgraphCommands := by
  by_cases hsmall : packet.data.dataState = PBCPDS_SMALL_BUFFER
  · rw [logData_small hsmall]
  by_cases hstate : packet.data.dataState = PBCPDS_HEAP_BUFFER
  · rw [logData_heap hstate, Records.emplace]
    split <;> rfl
  · rw [logData_none hsmall hstate]

theorem commands_storePacket (h : storePacket packet r = .ok ((), r')) :
    r'.pgraphCommands = r.pgraphCommands ++ [packet] := by
  obtain ⟨text, rfl⟩ := logPacket_of_ok
    (show logPacket packet { r with pgraphCommands := r.pgraphCommands ++ [packet] } = _ from h)
  exact commands_logData packet _

theorem commands_assignId {words : List UInt32} {stored : PushBufferCommandTraceInfo}
    (h : assignId packet words r = .ok (stored, r')) :
    stored = packet.withDataId r.nextFreeId ∧ r'.pgraphCommands = r.pgraphCommands := by
  unfold assignId at h
  rw [Program.get_bind_apply] at h
  split at h
  · cases h
  · cases h
    refine ⟨rfl, ?_⟩
    dsimp only [Records.emplace]
    split <;> rfl

theorem commands_pgraphLoop (h : pgraphLoop fuel u r = .ok (rest, r')) :
    r.pgraphCommands <+: r'.pgraphCommands := by
  induction fuel generalizing u r with
  | zero =>
    cases h
    exact List.prefix_rfl
  | succ fuel ih =>
    rw [pgraphLoop] at h
    split at h
    · cases h
      exact List.prefix_rfl
    dsimp only at h
    split at h
    · split at h
      · cases h
        exact List.prefix_rfl
      obtain ⟨stored, r₁, hassign, h⟩ := Program.bind_ok h
      split at h
      · cases h
      obtain ⟨_, r₂, hstore, h⟩ := Program.bind_ok h
      rw [← (commands_assignId hassign).2]
      exact (List.prefix_append _ _).trans (commands_storePacket hstore ▸ ih h)
    · obtain ⟨_, r₁, hstore, h⟩ := Program.bind_ok h
      exact (List.prefix_append _ _).trans (commands_storePacket hstore ▸ ih h)

theorem pgraphLoop_head (hlong : PushBufferCommandTraceInfo.size ≤ u.length)
    (h : pgraphLoop (fuel + 1) u r = .ok (rest, r')) :
    (r'.pgraphCommands = r.pgraphCommands ∧
      (PushBufferCommandTraceInfo.ofBytes u).hasHeapParameters = true) ∨
    ∃ id, ((PushBufferCommandTraceInfo.ofBytes u).hasHeapParameters = true → id = r.nextFreeId) ∧
      r.pgraphCommands ++ [(PushBufferCommandTraceInfo.ofBytes u).withDataId id] <+:
        r'.pgraphCommands := by
  rw [pgraphLoop, if_neg (not_lt.mpr hlong)] at h
  dsimp only at h
  split at h
  next hheap =>
    split at h
    · cases h
      exact .inl ⟨rfl, hheap⟩
    obtain ⟨stored, r₁, hassign, hrest⟩ := Program.bind_ok h
    split at hrest
    · cases hrest
    obtain ⟨_, r₂, hstore, hloop⟩ := Program.bind_ok hrest
    obtain ⟨rfl, hcommands⟩ := commands_assignId hassign
    refine .inr ⟨r.nextFreeId, fun _ => rfl, ?_⟩
    rw [← hcommands, ← commands_storePacket hstore]
    exact commands_pgraphLoop hloop
  next hheap =>
    obtain ⟨_, r₁, hstore, h⟩ := Program.bind_ok h
    refine .inr ⟨(PushBufferCommandTraceInfo.ofBytes u).data.dataId, fun htrue => absurd htrue hheap, ?_⟩
    exact commands_storePacket hstore ▸ commands_pgraphLoop h

end Commands

section Traces

variable {c : FrameCapture}

/-- Data that shows an object what is in front of it. -/
def zeros (n : Nat) : Bytes :=
  List.replicate n 0

theorem commandsBehind_ok {data : Bytes} {commands : List PushBufferCommandTraceInfo}
    (h : commandsBehind (c.setup [] false) data = .ok commands) :
    ∃ rest r, pgraphLoop (c.pgraphTraceBuffer ++ data).length (c.pgraphTraceBuffer ++ data)
        (c.setup [] false).toRecords = .ok (rest, r) ∧ r.pgraphCommands = commands := by
  unfold commandsBehind at h
  rw [receivePGRAPH_loop] at h
  cases hloop : pgraphLoop (c.pgraphTraceBuffer ++ data).length (c.pgraphTraceBuffer ++ data)
      (c.setup [] false).toRecords with
  | error e =>
    rw [show (c.setup [] false).pgraphTraceBuffer = c.pgraphTraceBuffer from rfl, hloop] at h
    cases h
  | ok result =>
    rw [show (c.setup [] false).pgraphTraceBuffer = c.pgraphTraceBuffer from rfl, hloop] at h
    exact ⟨result.1, result.2, rfl, Except.ok.inj h⟩

/-- The first of the commands behind a fetch is the packet at the front, or that is not complete. -/
theorem commandsBehind_head {data : Bytes} {commands : List PushBufferCommandTraceInfo}
    (hlong : PushBufferCommandTraceInfo.size ≤ (c.pgraphTraceBuffer ++ data).length)
    (h : commandsBehind (c.setup [] false) data = .ok commands) :
    (commands = [] ∧ (PushBufferCommandTraceInfo.ofBytes
      (c.pgraphTraceBuffer ++ data)).hasHeapParameters = true) ∨
    ∃ id, ((PushBufferCommandTraceInfo.ofBytes
        (c.pgraphTraceBuffer ++ data)).hasHeapParameters = true → id = c.nextFreeId) ∧
      [(PushBufferCommandTraceInfo.ofBytes (c.pgraphTraceBuffer ++ data)).withDataId id] <+:
        commands := by
  obtain ⟨rest, r, hloop, rfl⟩ := commandsBehind_ok h
  obtain ⟨fuel, hfuel⟩ : ∃ fuel, (c.pgraphTraceBuffer ++ data).length = fuel + 1 :=
    ⟨_, (Nat.succ_pred_eq_of_pos (lt_of_lt_of_le (by decide) hlong)).symm⟩
  rw [hfuel] at hloop
  exact pgraphLoop_head hlong hloop

theorem Agree.pgraph_nil (h : Agree c {}) : c.pgraphTraceBuffer = [] := by
  by_contra hne
  have hpos : 1 ≤ c.pgraphTraceBuffer.length := List.length_pos_iff.mpr hne
  -- As many bytes as do not yet make a packet: there must be one that waits for its parameters.
  have hnew : commandsBehind (FrameCapture.setup {} [] false) (zeros 67) = .ok [] := by
    decide +kernel
  have hshort := (h.same_commands (by decide)).trans hnew
  have hlong : PushBufferCommandTraceInfo.size ≤ (c.pgraphTraceBuffer ++ zeros 67).length := by
    rw [List.length_append, zeros, List.length_replicate, PushBufferCommandTraceInfo.size]
    omega
  have hheap : (PushBufferCommandTraceInfo.ofBytes
      (c.pgraphTraceBuffer ++ zeros 67)).hasHeapParameters = true := by
    rcases commandsBehind_head hlong hshort with ⟨-, hheap⟩ | ⟨id, -, hprefix⟩
    · exact hheap
    · simp at hprefix
  -- One byte more makes a packet of a new capture, without parameters.
  have hnew : commandsBehind (FrameCapture.setup {} [] false) (zeros 68) =
      .ok [PushBufferCommandTraceInfo.ofBytes (zeros 68)] := by
    decide +kernel
  have hfull := (h.same_commands (by decide)).trans hnew
  have hstream : c.pgraphTraceBuffer ++ zeros 68 = (c.pgraphTraceBuffer ++ zeros 67) ++ [0] := by
    rw [List.append_assoc]
    rfl
  rcases commandsBehind_head (by rw [hstream, List.length_append]; omega) hfull with
    ⟨hnil, -⟩ | ⟨id, -, hprefix⟩
  · cases hnil
  · rw [hstream, ofBytes_append hlong, List.cons_prefix_cons] at hprefix
    have hstate := congrArg (fun packet => packet.data.dataState) hprefix.1
    exact absurd ((heap_state hheap).symm.trans hstate) (by decide)

theorem Agree.ids_zero (h : Agree c {}) : c.nextFreeId = 0 := by
  have hnil := h.pgraph_nil
  have hnew : commandsBehind (FrameCapture.setup {} [] false) heapPacket =
      .ok [(PushBufferCommandTraceInfo.ofBytes heapPacket).withDataId 0] := by
    decide +kernel
  have hfull := (h.same_commands (by decide)).trans hnew
  have hhead := commandsBehind_head (by rw [hnil]; decide) hfull
  rw [hnil, List.nil_append] at hhead
  rcases hhead with ⟨hnil, -⟩ | ⟨id, hid, hprefix⟩
  · cases hnil
  · rw [List.cons_prefix_cons] at hprefix
    rw [← hid (by decide)]
    exact congrArg (fun packet => packet.data.dataId) hprefix.1

end Traces

section Dumps

variable {u v : Bytes} {e : Extract Unit (AuxDataHeader × Bytes)}

theorem nextDump_of_some (h : nextDump u = some e) :
    e.count = AuxDataHeader.size + (AuxDataHeader.ofBytes u).len.toNat ∧
      e.item.1 = AuxDataHeader.ofBytes u ∧ e.count ≤ u.length := by
  unfold nextDump at h
  dsimp only at h
  split at h
  case isFalse => cases h
  case isTrue hle =>
    obtain rfl := Option.some.inj h
    exact ⟨rfl, rfl, hle.2⟩

theorem nextDump_of_none (h : nextDump u = none) (hlong : AuxDataHeader.size ≤ u.length) :
    u.length < AuxDataHeader.size + (AuxDataHeader.ofBytes u).len.toNat := by
  by_contra hle
  unfold nextDump at h
  dsimp only at h
  rw [if_pos ⟨hlong, not_lt.mp hle⟩] at h
  cases h

theorem nextDump_short (h : u.length < AuxDataHeader.size) : nextDump u = none := by
  unfold nextDump
  dsimp only
  rw [if_neg fun hle => absurd hle.1 (not_le.mpr h)]

/-- A packet that was not complete ends in what arrived later. -/
theorem length_lt_count (h : nextDump (u ++ v) = some e) (hnone : nextDump u = none) :
    u.length < e.count := by
  obtain ⟨hcount, -, -⟩ := nextDump_of_some h
  by_cases hlong : AuxDataHeader.size ≤ u.length
  · rw [hcount, auxOfBytes_append hlong]
    exact nextDump_of_none hnone hlong
  · omega

theorem calls_single (h : nextDump u = some e) (hrest : u.length < e.count + AuxDataHeader.size) :
    calls (dumps.drain () u).items = (auxCall e.item.1 e.item.2).toList := by
  have hnone : dumps.next e.state (u.drop e.count) = none := by
    have hsize : 0 < AuxDataHeader.size := by decide
    refine nextDump_short ?_
    rw [List.length_drop]
    omega
  rw [Extractor.drain_some (show dumps.next () u = some e from h), Extractor.drain_none hnone]
  simp only [calls, Extractor.after_items, List.append_nil, List.filterMap_cons, List.filterMap_nil]
  cases auxCall e.item.1 e.item.2 <;> rfl

theorem Agree.aux_nil {c : FrameCapture} (h : Agree c {}) (hnone : nextDump c.auxTraceBuffer = none) :
    c.auxTraceBuffer = [] := by
  by_contra hne
  have hpos : 1 ≤ c.auxTraceBuffer.length := List.length_pos_iff.mpr hne
  have hnew15 : (FrameCapture.receiveAux (zeros 15) (FrameCapture.setup {} [] false)).1 = [] := by
    decide +kernel
  have hnew16 : (FrameCapture.receiveAux (zeros 16) (FrameCapture.setup {} [] false)).1 =
      [⟨.logPGRAPH, ⟨0, 0, 0, 0⟩, []⟩] := by
    decide +kernel
  have h15 := (h.same_artifacts (by decide)).trans hnew15
  have h16 := (h.same_artifacts (by decide)).trans hnew16
  have hstream : c.auxTraceBuffer ++ zeros 16 = (c.auxTraceBuffer ++ zeros 15) ++ [0] := by
    rw [List.append_assoc]
    rfl
  have hlength : (c.auxTraceBuffer ++ zeros 15).length = c.auxTraceBuffer.length + 15 := by
    rw [List.length_append, zeros, List.length_replicate]
  have hlong : AuxDataHeader.size ≤ (c.auxTraceBuffer ++ zeros 15).length := by
    rw [hlength, AuxDataHeader.size]
    omega
  simp only [receiveAux_eq] at h15 h16
  change calls (dumps.drain () (c.auxTraceBuffer ++ zeros 15)).items = _ at h15
  change calls (dumps.drain () (c.auxTraceBuffer ++ zeros 16)).items = _ at h16
  rw [hstream] at h16
  cases hnext : nextDump (c.auxTraceBuffer ++ zeros 15) with
  | some e =>
    -- The packet is skipped, and too little is left behind it for another one.
    have hcount := length_lt_count hnext hnone
    have hafter := nextDump_append (v := [0]) hnext
    rw [calls_single hnext (by rw [hlength]; unfold AuxDataHeader.size; omega)] at h15
    rw [calls_single hafter (by rw [List.length_append, hlength]; exact Nat.add_lt_add_right hcount 16),
      h15] at h16
    cases h16
  | none =>
    cases hafter : nextDump (c.auxTraceBuffer ++ zeros 15 ++ [0]) with
    | none =>
      rw [Extractor.drain_none (show dumps.next () _ = none from hafter)] at h16
      cases h16
    | some e =>
      -- The last byte completes a packet that has data.
      obtain ⟨hcount, hitem, -⟩ := nextDump_of_some hafter
      have hincomplete := nextDump_of_none hnext hlong
      have hsize : AuxDataHeader.size = 16 := rfl
      rw [auxOfBytes_append hlong] at hcount hitem
      rw [calls_single hafter (by rw [List.length_append, List.length_singleton]; omega)] at h16
      have hcall : auxCall e.item.1 e.item.2 = some ⟨.logPGRAPH, ⟨0, 0, 0, 0⟩, []⟩ := by
        cases hcase : auxCall e.item.1 e.item.2 with
        | none =>
          rw [hcase] at h16
          cases h16
        | some call =>
          rw [hcase] at h16
          exact congrArg some (List.singleton_inj.mp h16)
      obtain ⟨handler, -, hcall⟩ := Option.map_eq_some_iff.mp hcall
      have hlen : e.item.1.len = 0 := congrArg (fun call => call.packet.len) hcall
      rw [← hitem, hlen, hlength, AuxDataHeader.size] at hincomplete
      have hzero : (0 : UInt32).toNat = 0 := rfl
      omega

end Dumps

theorem Clean.setup_eq {a b : FrameCapture} (ha : Clean a) (hb : Clean b) (artifactPath : Bytes)
    (verbose : Bool) : a.setup artifactPath verbose = b.setup artifactPath verbose := by
  unfold FrameCapture.setup
  rw [ha.pgraph, ha.aux, ha.ids, hb.pgraph, hb.aux, hb.ids]

theorem clean_new : Clean {} := ⟨rfl, rfl, rfl⟩

/-- A capture depends only on what is fetched after its setup exactly if nothing is left of earlier
ones: then it is like every other one of which nothing is left. -/
theorem agree_iff_clean {a : FrameCapture} (h : Reachable a) :
    (∀ b, Reachable b → Clean b → Agree a b) ↔ Clean a := by
  constructor
  · intro hagree
    have hnew := hagree {} .new clean_new
    exact ⟨hnew.pgraph_nil, hnew.aux_nil h.nextDump_none, hnew.ids_zero⟩
  · intro ha b _ hb artifactPath verbose fetches
    rw [ha.setup_eq hb]

theorem agree_after_setup : Clean (FrameCapture.setup {} [] true) ∧
    Agree (FrameCapture.setup {} [] true) {} :=
  ⟨⟨rfl, rfl, rfl⟩, (agree_iff_clean (.setup .new [] true)).mpr ⟨rfl, rfl, rfl⟩ {} .new clean_new⟩

/-- One byte that was left of a packet makes a command of 67 bytes of the next capture. -/
theorem not_agree_leftover :
    Reachable { pgraphTraceBuffer := [0] } ∧
    commandsBehind (FrameCapture.setup { pgraphTraceBuffer := [0] } [] false) (zeros 67) =
      .ok [PushBufferCommandTraceInfo.ofBytes (zeros 68)] ∧
    commandsBehind (FrameCapture.setup {} [] false) (zeros 67) = .ok [] ∧
    ¬Agree { pgraphTraceBuffer := [0] } {} := by
  refine ⟨.fetch .new (.pgraph (.ok [0])) rfl, by decide +kernel, by decide +kernel, fun h => ?_⟩
  exact absurd h.pgraph_nil (by decide)

end XbdmGdbBridge.Proofs.Captures
